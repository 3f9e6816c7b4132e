import CommandGrammar.Proofs.Scanning

/-! Parts of a line that are split by themselves. A blank outside quotes parts a line: what stands
in front of it and what stands behind it have the words that they would have alone. Inside quotes
this never holds, for there the blank belongs to a word. So a line without quotes is split at its
runs of blanks, whatever backslashes it contains. -/
namespace CommandGrammar.Line
open Text

namespace Reading
variable {reading : Reading} {c : Char} {words : List (List Char)}

theorem isQuoted_push (c : Char) (reading : Reading) :
    (reading.push c).isQuoted = reading.isQuoted := by
  cases reading <;> rfl

/-- The first of the words begins with what has been read of it. -/
def Begins (reading : Reading) (words : List (List Char)) : Prop :=
  ∃ onward others, words = (reading.text ++ onward) :: others

theorem begins_word (begun : reading ≠ between) (others : List (List Char)) :
    reading.Begins (reading.word? ++ others) := by
  refine ⟨[], others, ?_⟩
  rw [word_eq_text begun, List.append_nil, List.singleton_append]

theorem Begins.of_push (begins : (reading.push c).Begins words) : reading.Begins words := by
  obtain ⟨onward, others, rfl⟩ := begins
  refine ⟨c :: onward, others, ?_⟩
  rw [text_push, List.append_assoc, List.singleton_append]

theorem Begins.of_toggle (begins : reading.toggle.Begins words) : reading.Begins words := by
  obtain ⟨onward, others, rfl⟩ := begins
  cases reading <;> exact ⟨onward, others, rfl⟩

end Reading

variable {text more : List Char} {c : Char} {reading : Reading}

theorem splitFrom_append (unescaped : Unescaped more) (reading : Reading) (text : List Char) :
    splitFrom reading (text ++ more) =
      (scanFrom reading text).1 ++ splitFrom (scanFrom reading text).2 more := by
  rw [splitFrom_eq_scanFrom, scanFrom_append unescaped, splitFrom_eq_scanFrom, List.append_assoc]

/-- The word in progress goes on to be the next word. -/
theorem splitFrom_begins (begun : reading ≠ .between) (text : List Char) :
    reading.Begins (splitFrom reading text) := by
  fun_induction splitFrom reading text with
  | case1 reading =>
    rw [← List.append_nil reading.word?]
    exact Reading.begins_word begun []
  | case2 reading rest ih => exact (ih (Reading.push_ne_between _ reading)).of_push
  | case3 word rest ih =>
    have begins : ((Reading.quoted word).push '\\').Begins _ :=
      ih (Reading.push_ne_between _ (.quoted word))
    exact begins.of_push
  | case4 reading rest ih => exact (ih (Reading.toggle_ne_between reading)).of_toggle
  | case5 word c rest _ _ _ ih =>
    have begins : ((Reading.quoted word).push c).Begins _ :=
      ih (Reading.push_ne_between _ (.quoted word))
    exact begins.of_push
  | case6 reading c rest _ _ _ _ _ ih => exact Reading.begins_word begun _
  | case7 reading c rest _ _ _ _ _ ih => exact (ih (Reading.push_ne_between c reading)).of_push

theorem splitFrom_blank (blank : isBlank c = true) (reading : Reading) (rest : List Char) :
    splitFrom reading (c :: rest) =
      if reading.isQuoted then splitFrom (reading.push c) rest
      else reading.word? ++ splitFrom .between rest := by
  obtain ⟨noQuote, noEscape⟩ := not_special_of_blank blank
  cases reading with
  | quoted word => exact splitFrom_inside noQuote noEscape word rest
  | between | bare => simp [splitFrom, noEscape, blank, Reading.isQuoted]

/-- A blank parts a text if and only if it stands outside quotes. -/
theorem splitFrom_parts_iff (blank : isBlank c = true) (front back : List Char) :
    splitFrom .between (front ++ c :: back) =
        splitFrom .between front ++ splitFrom .between back ↔
      (scanFrom .between front).2.isQuoted = false := by
  rw [splitFrom_append (unescaped_of_blank blank), splitFrom_blank blank,
    splitFrom_eq_scanFrom .between front, List.append_assoc, List.append_right_inj]
  cases ends : (scanFrom .between front).2 with
  | between | bare => simp [Reading.isQuoted]
  | quoted word =>
    -- The next word has the blank in it, and alone the front would end before the blank.
    obtain ⟨onward, others, same⟩ :=
      splitFrom_begins (Reading.push_ne_between c (.quoted word)) back
    simp only [Reading.isQuoted, if_true, same, Reading.text_push]
    simp [Reading.word?, Reading.text]

theorem scanFrom_unquoted (noQuote : '"' ∉ text) (outside : reading.isQuoted = false) :
    (scanFrom reading text).2.isQuoted = false := by
  fun_induction scanFrom reading text with
  | case1 => exact outside
  | case2 | case4 => simp at noQuote
  | case3 | case5 => contradiction
  | case6 reading c rest _ _ _ _ _ ih => exact ih (List.not_mem_of_not_mem_cons noQuote) rfl
  | case7 reading c rest _ _ _ _ _ ih =>
    exact ih (List.not_mem_of_not_mem_cons noQuote)
      ((Reading.isQuoted_push c reading).trans outside)

/-- Without quotes and blanks a text is the rest of a word. -/
theorem splitFrom_solid (noQuote : '"' ∉ text) (solid : ∀ c ∈ text, isBlank c = false)
    (outside : reading.isQuoted = false) :
    splitFrom reading text = (reading.pushAll text).word? := by
  fun_induction splitFrom reading text with
  | case1 => rfl
  | case2 | case4 => simp at noQuote
  | case3 | case5 => contradiction
  | case6 reading c rest _ _ _ _ blank _ => simp [blank] at solid
  | case7 reading c rest _ _ _ _ _ ih =>
    exact ih (List.not_mem_of_not_mem_cons noQuote) (List.forall_mem_cons.mp solid).2
      ((Reading.isQuoted_push c reading).trans outside)

/-- What stands between the runs of blanks. -/
def pieces (text : List Char) : List (List Char) :=
  (text.splitOnP isBlank).filter (!·.isEmpty)

theorem pieces_append (blank : isBlank c = true) (front back : List Char) :
    pieces (front ++ c :: back) = pieces front ++ pieces back := by
  rw [pieces, List.splitOnP_append_cons front back blank, List.filter_append]
  rfl

theorem pieces_solid (solid : ∀ c ∈ text, isBlank c = false) :
    pieces text = (Reading.between.pushAll text).word? := by
  rw [pieces, List.splitOnP_eq_singleton solid]
  cases text with
  | nil => rfl
  | cons c rest => rw [Reading.pushAll_between (List.cons_ne_nil c rest)]; rfl

/-- Without quotes the words are the pieces between the runs of blanks. -/
theorem splitFrom_eq_pieces (text : List Char) (noQuote : '"' ∉ text) :
    splitFrom .between text = pieces text := by
  by_cases solid : ∀ c ∈ text, isBlank c = false
  · rw [splitFrom_solid noQuote solid rfl, pieces_solid solid]
  · -- Any blank parts the text, and both parts are shorter.
    simp only [not_forall, Bool.not_eq_false] at solid
    obtain ⟨c, member, blank⟩ := solid
    obtain ⟨front, back, parts⟩ := List.append_of_mem member
    rw [parts, List.mem_append, not_or] at noQuote
    have frontPieces := splitFrom_eq_pieces front noQuote.1
    have backPieces := splitFrom_eq_pieces back (List.not_mem_of_not_mem_cons noQuote.2)
    rw [parts, (splitFrom_parts_iff blank front back).mpr (scanFrom_unquoted noQuote.1 rfl),
      frontPieces, backPieces, pieces_append blank]
termination_by text.length
decreasing_by
  all_goals
    rw [‹text = _›, List.length_append, List.length_cons]
    omega

/-- A double quote is open at the end of the line. -/
def EndsInQuotes (line : String) : Prop :=
  (scanFrom .between line.toList).2.isQuoted = true

theorem split_parts_iff (blank : isBlank c = true) (front back : String) :
    split (front.push c ++ back) = split front ++ split back ↔ ¬ EndsInQuotes front := by
  have chars : (front.push c ++ back).toList = front.toList ++ c :: back.toList := by
    rw [String.toList_append, String.toList_push, List.append_assoc, List.singleton_append]
  rw [split, chars, split, split, ← List.map_append,
    (List.map_injective_iff.mpr fun _ _ same => String.ofList_injective same).eq_iff,
    splitFrom_parts_iff blank, EndsInQuotes, Bool.not_eq_true]

/-- A blank outside quotes, and no other, parts a line into two lines that are split by
themselves. So a line without quotes is split at its runs of blanks. -/
theorem splits_at_blanks :
    (∀ (front back : String) (c : Char), isBlank c = true →
      (split (front.push c ++ back) = split front ++ split back ↔ ¬ EndsInQuotes front)) ∧
    ∀ line : String, '"' ∉ line.toList → split line = (pieces line.toList).map .ofList := by
  refine ⟨fun front back c blank => split_parts_iff blank front back, fun line noQuote => ?_⟩
  rw [split, splitFrom_eq_pieces line.toList noQuote]

theorem splits_at_blanks_sample :
    isBlank '\t' = true ∧ ¬ EndsInQuotes "say \"a b\" c\\" ∧
    split ("say \"a b\" c\\".push '\t' ++ "\"d e") = split "say \"a b\" c\\" ++ split "\"d e" ∧
    '"' ∉ " C:\\  \\\\x ".toList ∧
    split " C:\\  \\\\x " = (pieces " C:\\  \\\\x ".toList).map .ofList := by
  have blank : isBlank '\t' = true := by decide
  have outside : ¬ EndsInQuotes "say \"a b\" c\\" := by unfold EndsInQuotes; decide
  have noQuote : '"' ∉ " C:\\  \\\\x ".toList := by decide
  exact ⟨blank, outside, (splits_at_blanks.1 _ _ _ blank).mpr outside, noQuote,
    splits_at_blanks.2 _ noQuote⟩

end CommandGrammar.Line
