import CommandGrammar.Completion
import CommandGrammar.Proofs.Rendering
import Mathlib.Data.List.Basic

/-! How far a command line has been read at its end: the words that have ended, and the word in
progress. What is typed behind a line goes on from there. Completion takes the word in progress for
the one to complete, unless the line ends in a blank; a blank inside an open quote ends no word,
and there the two disagree. -/
namespace CommandGrammar.Line
open Text
namespace Reading

/-- What there is of the word in progress. -/
def text : Reading → List Char
  | between => []
  | bare word | quoted word => word

/-- A quote has been opened and not closed. -/
def isQuoted : Reading → Bool
  | quoted _ => true
  | between | bare _ => false

theorem push_ne_between (c : Char) (reading : Reading) : reading.push c ≠ between := by
  cases reading <;> nofun

theorem toggle_ne_between (reading : Reading) : reading.toggle ≠ between := by
  cases reading <;> nofun

theorem text_push (c : Char) (reading : Reading) :
    (reading.push c).text = reading.text ++ [c] := by
  cases reading <;> rfl

theorem word_eq_text {reading : Reading} (word : reading ≠ between) :
    reading.word? = [reading.text] := by
  cases reading with
  | between => contradiction
  | bare | quoted => rfl

end Reading

variable {text rest more : List Char} {line : String} {c : Char}

instance (c : Char) : Decidable (IsPlain c) := inferInstanceAs (Decidable (_ ∧ _ ∧ _))

/-- The words that a text ends, and what has been read at its end. -/
def scanFrom : Reading → List Char → List (List Char) × Reading
  | reading, [] => ([], reading)
  | reading, '\\' :: '"' :: rest => scanFrom (reading.push '"') rest
  | .quoted word, '\\' :: '\\' :: rest => scanFrom (.quoted (word ++ ['\\'])) rest
  | reading, '"' :: rest => scanFrom reading.toggle rest
  | .quoted word, c :: rest => scanFrom (.quoted (word ++ [c])) rest
  | reading, c :: rest =>
    if isBlank c then (reading.word? ++ (scanFrom .between rest).1, (scanFrom .between rest).2)
    else scanFrom (reading.push c) rest

theorem scanFrom_outside {reading : Reading}
    (noEscape : ∀ less, c = '\\' → rest = '"' :: less → False) (noQuote : c = '"' → False)
    (outside : ∀ word, reading = .quoted word → False) :
    scanFrom reading (c :: rest) =
      if isBlank c then (reading.word? ++ (scanFrom .between rest).1, (scanFrom .between rest).2)
      else scanFrom (reading.push c) rest :=
  scanFrom.eq_6 _ _ _ noEscape noQuote (fun word _ quoted => absurd quoted (outside word)) outside

theorem splitFrom_eq_scanFrom (reading : Reading) (text : List Char) :
    splitFrom reading text = (scanFrom reading text).1 ++ (scanFrom reading text).2.word? := by
  fun_induction splitFrom reading text with
  | case1 => rfl
  | case2 _ _ ih | case3 _ _ ih | case4 _ _ ih => rw [scanFrom]; exact ih
  | case5 word c rest noEscape noBackslash noQuote ih =>
    rw [scanFrom.eq_5 _ _ _ noEscape noBackslash noQuote, ih]
  | case6 reading c rest noEscape _ noQuote outside blank ih =>
    rw [scanFrom_outside noEscape noQuote outside, if_pos blank, List.append_assoc, ih]
  | case7 reading c rest noEscape _ noQuote outside solid ih =>
    rw [scanFrom_outside noEscape noQuote outside, if_neg solid, ih]

/-- What is in front of the text is read without regard to it: the text does not begin with a
character that a backslash could escape. -/
def Unescaped (text : List Char) : Prop := ∀ c ∈ text.head?, c ≠ '"' ∧ c ≠ '\\'

/-- A backslash at the end of a text that goes on so escapes nothing. -/
theorem Unescaped.escapes_nothing (unescaped : Unescaped more) {special : Char}
    (isSpecial : special = '"' ∨ special = '\\')
    (plain : ∀ less, c = '\\' → rest = special :: less → False) :
    ∀ less, c = '\\' → rest ++ more = special :: less → False := by
  rintro less backslash same
  cases rest with
  | nil =>
    cases same
    rcases isSpecial with rfl | rfl <;> simp [Unescaped] at unescaped
  | cons first others =>
    cases same
    exact plain others backslash rfl

theorem scanFrom_append (unescaped : Unescaped more) (reading : Reading) (text : List Char) :
    scanFrom reading (text ++ more) =
      ((scanFrom reading text).1 ++ (scanFrom (scanFrom reading text).2 more).1,
        (scanFrom (scanFrom reading text).2 more).2) := by
  fun_induction scanFrom reading text with
  | case1 => rfl
  | case2 _ _ ih | case3 _ _ ih => rw [List.cons_append, List.cons_append, scanFrom]; exact ih
  | case4 _ _ ih => rw [List.cons_append, scanFrom]; exact ih
  | case5 word c rest noEscape noBackslash noQuote ih =>
    rw [List.cons_append, scanFrom.eq_5 _ _ _ (unescaped.escapes_nothing (.inl rfl) noEscape)
      (unescaped.escapes_nothing (.inr rfl) noBackslash) noQuote, ih]
  | case6 reading c rest noEscape _ noQuote outside blank ih =>
    rw [List.cons_append, scanFrom_outside (unescaped.escapes_nothing (.inl rfl) noEscape) noQuote
      outside, if_pos blank, ih, List.append_assoc]
  | case7 reading c rest noEscape _ noQuote outside solid ih =>
    rw [List.cons_append, scanFrom_outside (unescaped.escapes_nothing (.inl rfl) noEscape) noQuote
      outside, if_neg solid, ih]

theorem scanFrom_plain (plain : IsPlain c) (reading : Reading) :
    scanFrom reading [c] = ([], reading.push c) := by
  obtain ⟨solid, noQuote, noEscape⟩ := plain
  cases reading with
  | quoted word =>
    rw [scanFrom.eq_5 _ _ _ (fun _ same => absurd same noEscape)
      (fun _ same => absurd same noEscape) noQuote]
    rfl
  | between | bare =>
    rw [scanFrom_outside (fun _ same => absurd same noEscape) noQuote (by simp),
      if_neg (Bool.eq_false_iff.mp solid)]
    rfl

theorem not_special_of_blank (blank : isBlank c = true) : c ≠ '"' ∧ c ≠ '\\' := by
  constructor <;> rintro rfl <;> exact absurd blank (by decide)

/-- Outside quotes a blank ends a word, inside it belongs to the word. -/
theorem scanFrom_blank (blank : isBlank c = true) (reading : Reading) :
    scanFrom reading [c] =
      if reading.isQuoted then ([], reading.push c) else (reading.word?, .between) := by
  obtain ⟨noQuote, noEscape⟩ := not_special_of_blank blank
  cases reading with
  | quoted word =>
    rw [scanFrom.eq_5 _ _ _ (fun _ same => absurd same noEscape)
      (fun _ same => absurd same noEscape) noQuote]
    rfl
  | between | bare =>
    rw [scanFrom_outside (fun _ same => absurd same noEscape) noQuote (by simp), if_pos blank]
    rfl

theorem unescaped_of_plain (plain : IsPlain c) : Unescaped [c] := by
  rintro c' ⟨⟩
  exact plain.2

theorem unescaped_of_blank (blank : isBlank c = true) : Unescaped (c :: rest) := by
  rintro c' ⟨⟩
  exact not_special_of_blank blank

/-- Outside quotes nothing is left of a word behind a blank. -/
theorem scanFrom_eq_between {reading : Reading} (last : text.getLast? = some c)
    (blank : isBlank c = true) (unquoted : (scanFrom reading text).2.isQuoted = false) :
    (scanFrom reading text).2 = .between := by
  obtain ⟨front, rfl⟩ := List.getLast?_eq_some_iff.mp last
  rw [scanFrom_append (unescaped_of_blank blank), scanFrom_blank blank] at unquoted ⊢
  cases before : (scanFrom reading front).2 with
  | quoted word =>
    rw [before] at unquoted
    contradiction
  | between | bare => rfl

/-- A text that ends in no blank ends in a word. -/
theorem scanFrom_ne_between {reading : Reading} (begun : text = [] → reading ≠ .between)
    (solid : ∀ c ∈ text.getLast?, isBlank c = false) : (scanFrom reading text).2 ≠ .between := by
  -- The last character belongs to a word or to a quoted part, which is one even if it is empty.
  have further {c : Char} {rest : List Char}
      (solid : ∀ last ∈ (c :: rest).getLast?, isBlank last = false) :
      ∀ last ∈ rest.getLast?, isBlank last = false := by
    intro last found
    exact solid last (List.mem_getLast?_cons found)
  fun_induction scanFrom reading text with
  | case1 => exact begun rfl
  | case2 reading rest ih =>
    exact ih (fun _ => Reading.push_ne_between _ reading) (further (further solid))
  | case3 word rest ih => exact ih (fun _ => nofun) (further (further solid))
  | case4 reading rest ih =>
    exact ih (fun _ => Reading.toggle_ne_between reading) (further solid)
  | case5 word c rest _ _ _ ih => exact ih (fun _ => nofun) (further solid)
  | case6 reading c rest _ _ _ _ blank ih =>
    refine ih (fun last => ?_) (further solid)
    subst last
    simp [blank] at solid
  | case7 reading c rest _ _ _ _ _ ih =>
    exact ih (fun _ => Reading.push_ne_between c reading) (further solid)

/-- The words that a line ends. -/
def ended (line : String) : List String := (scanFrom .between line.toList).1.map .ofList

/-- What a line has of the word that it does not end. -/
def inProgress (line : String) : String := .ofList (scanFrom .between line.toList).2.text

/-- The line ends in a blank that does not end a word, as a quote is open there. -/
def EndsInQuotedBlank (line : String) : Prop :=
  (scanFrom .between line.toList).2.isQuoted = true ∧ ∃ c ∈ line.toList.getLast?, isBlank c = true

theorem split_eq_scan (line : String) : split line =
    ended line ++ (scanFrom .between line.toList).2.word?.map .ofList := by
  rw [split, splitFrom_eq_scanFrom, List.map_append]
  rfl

theorem ended_push (plain : IsPlain c) : ended (line.push c) = ended line := by
  rw [ended, String.toList_push, scanFrom_append (unescaped_of_plain plain), scanFrom_plain plain,
    List.append_nil, ended]

theorem inProgress_push (plain : IsPlain c) :
    inProgress (line.push c) = (inProgress line).push c := by
  rw [inProgress, String.toList_push, scanFrom_append (unescaped_of_plain plain),
    scanFrom_plain plain, Reading.text_push, inProgress, String.ofList_append]
  rfl

/-- The word in progress is the one to complete. -/
theorem completion_split (unquoted : ¬ EndsInQuotedBlank line) :
    Completion.split line = (ended line, inProgress line) := by
  have between (idle : (scanFrom .between line.toList).2 = .between) :
      (split line, "") = (ended line, inProgress line) := by
    rw [split_eq_scan, inProgress, idle, Reading.word?, List.map_nil, List.append_nil]
    rfl
  rw [Completion.split]
  cases last : line.toList.getLast? with
  | none =>
    refine between ?_
    rw [List.getLast?_eq_none_iff.mp last]
    rfl
  | some c =>
    dsimp only
    split
    · rename_i blank
      refine between (scanFrom_eq_between last blank (Bool.eq_false_iff.mpr fun quoted => ?_))
      exact unquoted ⟨quoted, c, last, blank⟩
    · rename_i solid
      have word : (scanFrom .between line.toList).2 ≠ .between := by
        refine scanFrom_ne_between (fun empty => by simp [empty] at last) fun other found => ?_
        cases last.symm.trans found
        exact Bool.eq_false_iff.mpr solid
      rw [split_eq_scan, Reading.word_eq_text word, List.map_singleton, List.dropLast_concat,
        List.getLast?_concat]
      rfl

/-- In a quoted blank the word in progress counts as one that has ended. -/
theorem completion_split_quoted (quoted : EndsInQuotedBlank line) :
    Completion.split line = (ended line ++ [inProgress line], "") := by
  obtain ⟨isQuoted, c, last, blank⟩ := quoted
  have word : (scanFrom .between line.toList).2 ≠ .between := by
    intro between
    rw [between] at isQuoted
    contradiction
  rw [Completion.split, last, split_eq_scan, Reading.word_eq_text word]
  simp only [if_pos blank]
  rfl

end CommandGrammar.Line
