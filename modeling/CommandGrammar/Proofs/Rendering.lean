import CommandGrammar.Parse

/-! Rendered words and the line they make up. A rendered word is read back as that word whatever
follows it: inside quotes an escape protects each character that could end them, and a word goes
without quotes only if none of its characters could end it. So splitting undoes rendering, and a
parse is found again in its own command line. -/
namespace CommandGrammar.Line
open Text
variable {word text rest : List Char} {c : Char}

/-- A character that stands for itself outside quotes, too. -/
def IsPlain (c : Char) : Prop := isBlank c = false ∧ c ≠ '"' ∧ c ≠ '\\'

theorem needsQuotes_eq_false_iff :
    needsQuotes word = false ↔ word ≠ [] ∧ ∀ c ∈ word, IsPlain c := by
  simp [needsQuotes, IsPlain, and_assoc]

namespace Reading

/-- Several characters of a word, one after the other. -/
def pushAll (reading : Reading) (text : List Char) : Reading :=
  text.foldl (fun reading c => reading.push c) reading

theorem pushAll_bare (word text : List Char) : (bare word).pushAll text = bare (word ++ text) := by
  induction text generalizing word with
  | nil => rw [List.append_nil]; rfl
  | cons c text ih =>
    rw [List.append_cons]
    exact ih (word ++ [c])

/-- Characters outside quotes begin a word. -/
theorem pushAll_between (nonempty : text ≠ []) : between.pushAll text = bare text := by
  cases text with
  | nil => contradiction
  | cons c text => exact pushAll_bare [c] text

end Reading

/-- Inside quotes a blank stands for itself as well. -/
theorem splitFrom_inside (noQuote : c ≠ '"') (noEscape : c ≠ '\\') (word rest : List Char) :
    splitFrom (.quoted word) (c :: rest) = splitFrom (.quoted (word ++ [c])) rest := by
  rw [splitFrom]
  · exact fun _ same => absurd same noEscape
  · exact fun _ same => absurd same noEscape
  · exact noQuote

theorem splitFrom_plain (plain : IsPlain c) (reading : Reading) (rest : List Char) :
    splitFrom reading (c :: rest) = splitFrom (reading.push c) rest := by
  obtain ⟨solid, noQuote, noEscape⟩ := plain
  cases reading with
  | quoted word => exact splitFrom_inside noQuote noEscape word rest
  | between | bare => simp [splitFrom, noEscape, solid]

theorem splitFrom_plains (plain : ∀ c ∈ text, IsPlain c) (reading : Reading) (rest : List Char) :
    splitFrom reading (text ++ rest) = splitFrom (reading.pushAll text) rest := by
  induction text generalizing reading with
  | nil => rfl
  | cons c text ih =>
    obtain ⟨first, others⟩ := List.forall_mem_cons.mp plain
    rw [List.cons_append, splitFrom_plain first, ih others]
    rfl

/-- Inside quotes an escaped text is read as that text. -/
theorem splitFrom_escape (word text rest : List Char) :
    splitFrom (.quoted word) (escape text ++ rest) = splitFrom (.quoted (word ++ text)) rest := by
  induction text generalizing word with
  | nil => rw [List.append_nil]; rfl
  | cons c text ih =>
    have further := ih (word ++ [c])
    rw [← List.append_cons] at further
    rw [escape, List.flatMap_cons, ← escape, List.append_assoc]
    by_cases quote : c = '"'
    · subst quote
      exact further
    by_cases backslash : c = '\\'
    · subst backslash
      exact further
    rw [if_neg (not_or.mpr ⟨quote, backslash⟩), List.singleton_append,
      splitFrom_inside quote backslash, further]

/-- A rendered word is read whole, and it has not been ended. -/
theorem splitFrom_renderWord (word rest : List Char) :
    splitFrom .between (renderWord word ++ rest) = splitFrom (.bare word) rest := by
  unfold renderWord
  split
  · have inside := splitFrom_escape [] word ('"' :: rest)
    rw [List.cons_append, List.cons_append, List.append_assoc]
    exact inside
  · rename_i unquoted
    obtain ⟨nonempty, plain⟩ := needsQuotes_eq_false_iff.mp (Bool.eq_false_iff.mpr unquoted)
    rw [splitFrom_plains plain, Reading.pushAll_between nonempty]

theorem splitFrom_space (word rest : List Char) :
    splitFrom (.bare word) (' ' :: rest) = word :: splitFrom .between rest := rfl

/-- Rendered words with a blank between any two are read back as these words. -/
theorem splitFrom_words (words : List (List Char)) :
    splitFrom .between ([' '].intercalate (words.map renderWord)) = words := by
  induction words with
  | nil => rfl
  | cons word words ih =>
    cases words with
    | nil =>
      have last := splitFrom_renderWord word []
      rw [List.append_nil] at last
      rw [List.map_singleton, List.intercalate_singleton, last]
      rfl
    | cons next words =>
      rw [List.map_cons, List.map_cons, List.intercalate_cons_cons, List.append_assoc,
        splitFrom_renderWord, List.singleton_append, splitFrom_space, ← List.map_cons, ih]

theorem split_render (words : List String) : split (render words) = words := by
  have chars : words.map (fun word => renderWord word.toList) =
      (words.map String.toList).map renderWord := by
    rw [List.map_map]
    rfl
  rw [split, render, String.toList_ofList, chars, splitFrom_words, List.map_map]
  exact List.map_id'' (fun word => String.ofList_toList) words

example : render ["C:\\", "", "a b"] = "\"C:\\\\\" \"\" \"a b\"" := by decide

end CommandGrammar.Line

namespace CommandGrammar

/-- Nothing is lost on the way through a command line. The two parses are the same in all their
parts, so they compare equal as often as a parse compares equal to itself. -/
theorem rendering_undone :
    (∀ words, Line.split (Line.render words) = words) ∧
    (∀ (root : Symbol) (files : Files) (args : List String),
      root.parseLine files (root.parse files args).line = root.parse files args) ∧
    ∀ line, Line.split (Line.render (Line.split line)) = Line.split line := by
  refine ⟨Line.split_render, fun root files args => ?_, fun line => Line.split_render _⟩
  have words : Line.split (root.parse files args).line = args := Line.split_render args
  rw [Symbol.parseLine, words]

end CommandGrammar
