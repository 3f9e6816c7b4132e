import CommandGrammar.Json.Fields
import Mathlib.Data.List.TakeWhile
import Mathlib.Tactic.IntervalCases

/-! Numbers read back from the text they are written as. The text of an integer of 64 bits is read
as that integer; of a double that is asked for. What follows a number does not change how it is
read, as long as it could not belong to it. -/
namespace CommandGrammar
namespace RawJson
variable {cs rest after : List Char} {negative : Bool}

/-- No character follows that could belong to a number. -/
structure EndsNumber (rest : List Char) : Prop where
  digit : ∀ c, rest.head? = some c → c.isDigit = false
  point : rest.head? ≠ some '.'
  exponent : rest.head? ≠ some 'e' ∧ rest.head? ≠ some 'E'

theorem endsNumber_cons {c : Char} (other : c.isDigit = false ∧ c ≠ '.' ∧ c ≠ 'e' ∧ c ≠ 'E')
    (rest : List Char) : EndsNumber (c :: rest) := by
  obtain ⟨digit, point, lower, upper⟩ := other
  constructor
  case digit =>
    intro first same
    cases same
    exact digit
  case point => simpa using point
  case exponent => exact ⟨by simpa using lower, by simpa using upper⟩

theorem endsNumber_nil : EndsNumber [] where
  digit := fun _ same => by cases same
  point := nofun
  exponent := ⟨nofun, nofun⟩

/-- Digits end where they ended before. -/
theorem digits_append (ends : EndsNumber rest) (cs : List Char) :
    (cs ++ rest).takeWhile Char.isDigit = cs.takeWhile Char.isDigit ∧
      (cs ++ rest).dropWhile Char.isDigit = cs.dropWhile Char.isDigit ++ rest := by
  induction cs with
  | nil =>
    cases rest with
    | nil => exact ⟨rfl, rfl⟩
    | cons c rest =>
      have noDigit := ends.digit c rfl
      simp [noDigit]
  | cons c cs ih => cases digit : c.isDigit <;> simp [digit, ih]

theorem digits?_append (ends : EndsNumber rest) {digits : List Char}
    (read : digits? cs = some (digits, after)) :
    digits? (cs ++ rest) = some (digits, after ++ rest) := by
  obtain ⟨same, left⟩ := digits_append ends cs
  simp only [digits?, same, left] at read ⊢
  split at read
  · contradiction
  · rename_i some
    cases read
    rw [if_neg some]

theorem whole_cons (c : Char) (cs : List Char) : whole? (c :: cs) =
    if c = '0' then
      if (cs.head?.map Char.isDigit).getD false then none else some (['0'], cs)
    else if c.isDigit then
      some ((c :: cs).takeWhile Char.isDigit, (c :: cs).dropWhile Char.isDigit)
    else none := by
  by_cases zero : c = '0'
  · subst zero
    rfl
  · rw [if_neg zero]
    unfold whole?
    split
    · rename_i same
      cases same
      exact absurd rfl zero
    · rename_i same
      cases same
      rfl
    · contradiction

theorem whole_append (ends : EndsNumber rest) {digits : List Char}
    (read : whole? cs = some (digits, after)) :
    whole? (cs ++ rest) = some (digits, after ++ rest) := by
  cases cs with
  | nil => contradiction
  | cons c tail =>
    rw [whole_cons] at read
    rw [List.cons_append, whole_cons]
    by_cases zero : c = '0'
    · rw [if_pos zero] at read ⊢
      split at read
      · contradiction
      · rename_i single
        cases read
        cases after with
        | nil =>
          cases rest with
          | nil => rfl
          | cons next rest => simp [ends.digit next rfl]
        | cons next after => exact if_neg single
    · rw [if_neg zero] at read ⊢
      split at read
      · rename_i digit
        cases read
        obtain ⟨same, left⟩ := digits_append ends (c :: tail)
        rw [if_pos digit, ← List.cons_append, same, left]
      · contradiction

theorem fraction_append (ends : EndsNumber rest) {fraction : Option (List Char)}
    (read : fraction? cs = some (fraction, after)) :
    fraction? (cs ++ rest) = some (fraction, after ++ rest) := by
  have other {c : Char} {tail : List Char} (noPoint : c ≠ '.') :
      fraction? (c :: tail) = some (none, c :: tail) := by
    unfold fraction?
    split
    · rename_i same
      cases same
      exact absurd rfl noPoint
    · rfl
  cases cs with
  | nil =>
    cases read
    cases rest with
    | nil => rfl
    | cons c rest => exact other fun same => ends.point (congrArg some same)
  | cons c tail =>
    by_cases point : c = '.'
    · subst point
      obtain ⟨⟨digits, left⟩, scanned, same⟩ := Option.map_eq_some_iff.mp read
      cases same
      exact Option.map_eq_some_iff.mpr ⟨_, digits?_append ends scanned, rfl⟩
    · rw [other point] at read
      cases read
      exact other point

theorem splitSign_cons (c : Char) (cs : List Char) : Decimal.splitSign (c :: cs) =
    if c = '-' then (true, cs) else if c = '+' then (false, cs) else (false, c :: cs) := by
  unfold Decimal.splitSign
  split
  · rename_i same
    cases same
    rfl
  · rename_i same
    cases same
    rfl
  · rename_i minus plus
    rw [if_neg, if_neg]
    · rintro rfl
      exact plus cs rfl
    · rintro rfl
      exact minus cs rfl

theorem exponent_append (ends : EndsNumber rest) {exponent : Option (Bool × List Char)}
    (read : exponent? cs = some (exponent, after)) :
    exponent? (cs ++ rest) = some (exponent, after ++ rest) := by
  cases cs with
  | nil =>
    cases read
    cases rest with
    | nil => rfl
    | cons c rest =>
      have other : ¬ (c = 'e' ∨ c = 'E') := fun letter => letter.elim
        (fun same => ends.exponent.1 (congrArg some same))
        (fun same => ends.exponent.2 (congrArg some same))
      exact if_neg other
  | cons c tail =>
    rw [List.cons_append]
    by_cases letter : c = 'e' ∨ c = 'E'
    · rw [exponent?, if_pos letter] at read ⊢
      obtain ⟨⟨digits, left⟩, scanned, same⟩ := Option.map_eq_some_iff.mp read
      cases same
      cases tail with
      | nil => contradiction
      | cons sign tail =>
        have split : Decimal.splitSign (sign :: tail ++ rest) =
            ((Decimal.splitSign (sign :: tail)).1,
              (Decimal.splitSign (sign :: tail)).2 ++ rest) := by
          rw [List.cons_append, splitSign_cons, splitSign_cons]
          split
          · rfl
          · split <;> rfl
        rw [split]
        exact Option.map_eq_some_iff.mpr ⟨_, digits?_append ends scanned, rfl⟩
    · rw [exponent?, if_neg letter] at read ⊢
      cases read
      rfl

theorem numeral_append (ends : EndsNumber rest) {json : RawJson}
    (read : numeral? negative cs = some (json, after)) :
    numeral? negative (cs ++ rest) = some (json, after ++ rest) := by
  obtain ⟨⟨whole, left⟩, readWhole, read⟩ := Option.bind_eq_some_iff.mp read
  obtain ⟨⟨fraction, left⟩, readFraction, read⟩ := Option.bind_eq_some_iff.mp read
  obtain ⟨⟨exponent, left⟩, readExponent, read⟩ := Option.bind_eq_some_iff.mp read
  cases read
  refine Option.bind_eq_some_iff.mpr ⟨_, whole_append ends readWhole, ?_⟩
  refine Option.bind_eq_some_iff.mpr ⟨_, fraction_append ends readFraction, ?_⟩
  exact Option.bind_eq_some_iff.mpr ⟨_, exponent_append ends readExponent, rfl⟩

theorem word_ne_number {word : List Char} {json : RawJson} {numeral : Numeral}
    (other : json ≠ .number numeral) : word? word json cs ≠ some (.number numeral, after) := by
  unfold word?
  split
  · intro same
    exact other (Prod.mk.inj (Option.some.inj same)).1
  · nofun

/-- A number begins with a minus sign, or with none of the characters that begin something else. -/
theorem value_number {fuel : Nat} {c : Char} {numeral : Numeral}
    (read : value? (fuel + 1) (c :: cs) = some (.number numeral, after)) :
    c = '-' ∧ numeral? true cs = some (.number numeral, after) ∨
      c ∉ ['n', 't', 'f', '"', '-', '[', '{'] ∧
        numeral? false (c :: cs) = some (.number numeral, after) := by
  simp only [value?] at read
  split at read
  · exact absurd read (word_ne_number nofun)
  split at read
  · exact absurd read (word_ne_number nofun)
  split at read
  · exact absurd read (word_ne_number nofun)
  split at read
  · obtain ⟨_, _, same⟩ := Option.map_eq_some_iff.mp read
    cases same
  split at read
  · rename_i minus
    exact .inl ⟨minus, read⟩
  split at read
  · split at read
    · cases read
    · obtain ⟨_, _, same⟩ := Option.map_eq_some_iff.mp read
      cases same
  split at read
  · split at read
    · cases read
    · obtain ⟨_, _, same⟩ := Option.map_eq_some_iff.mp read
      cases same
  · rename_i n t f quote minus bracket brace
    exact .inr ⟨by simp [n, t, f, quote, minus, bracket, brace], read⟩

theorem value_of_numeral {c : Char} (plain : c ∉ ['n', 't', 'f', '"', '-', '[', '{'])
    (fuel : Nat) (cs : List Char) : value? (fuel + 1) (c :: cs) = numeral? false (c :: cs) := by
  simp only [List.mem_cons, List.not_mem_nil, or_false, not_or] at plain
  simp [value?, plain]

theorem value_of_minus (fuel : Nat) (cs : List Char) :
    value? (fuel + 1) ('-' :: cs) = numeral? true cs := by
  simp [value?]

theorem value_number_append (ends : EndsNumber rest) {fuel : Nat} {numeral : Numeral}
    (read : value? fuel cs = some (.number numeral, after)) (more : Nat) :
    value? (more + 1) (cs ++ rest) = some (.number numeral, after ++ rest) := by
  cases fuel with
  | zero =>
    rw [value?] at read
    contradiction
  | succ fuel =>
    cases cs with
    | nil =>
      rw [value?] at read
      contradiction
    | cons c cs =>
      rcases value_number read with ⟨rfl, read⟩ | ⟨plain, read⟩
      · rw [List.cons_append, value_of_minus]
        exact numeral_append ends read
      · rw [List.cons_append, value_of_numeral plain]
        exact numeral_append ends read

end RawJson

namespace JsonNumber

/-- The text of the number is a document that holds the number. -/
def ReadsBack (n : JsonNumber) : Prop :=
  (RawJson.parse? (Json.number n).text).bind (RawJson.json? 0) = some (.number n)

/-- The numeral that a number is written as. -/
def numeral (n : JsonNumber) : Numeral :=
  match RawJson.parse? (Json.number n).text with
  | some (.number numeral) => numeral
  | _ => ⟨false, ['0'], none, none⟩

theorem ReadsBack.numeral {n : JsonNumber} (readsBack : n.ReadsBack) :
    RawJson.ofChars? n.chars = some (.number n.numeral) ∧ n.numeral.number? = some n := by
  obtain ⟨raw, parsed, read⟩ := Option.bind_eq_some_iff.mp readsBack
  have number : ∃ numeral, raw = .number numeral ∧ numeral.number? = some n := by
    cases raw with
    | number numeral =>
      obtain ⟨_, meant, same⟩ := Option.map_eq_some_iff.mp read
      cases same
      exact ⟨numeral, rfl, meant⟩
    | null | bool | string | array | object => simp [RawJson.json?] at read
  obtain ⟨numeral, rfl, meant⟩ := number
  have same : n.numeral = numeral := by
    rw [JsonNumber.numeral, parsed]
  rw [same]
  refine ⟨?_, meant⟩
  rw [RawJson.parse?, Json.text, String.toList_ofList] at parsed
  exact parsed

/-- Digits of a positive number do not begin with a zero. -/
theorem toDigits_head {n : Nat} {cs : List Char} (zero : Nat.toDigits 10 n = '0' :: cs) :
    n = 0 := by
  induction n using Nat.strongRecOn generalizing cs with
  | _ n ih =>
    rcases Nat.lt_or_ge n 10 with small | large
    · rw [Nat.toDigits_of_lt_base small] at zero
      have digit := (List.cons.inj zero).1
      interval_cases n <;> first | rfl | exact absurd digit (by decide)
    · rw [Nat.toDigits_of_base_le (by decide) large] at zero
      obtain ⟨tail, first⟩ : ∃ tail, Nat.toDigits 10 (n / 10) = '0' :: tail := by
        cases digits : Nat.toDigits 10 (n / 10) with
        | nil => exact absurd digits Nat.toDigits_ne_nil
        | cons c tail =>
          rw [digits] at zero
          exact ⟨tail, by rw [(List.cons.inj zero).1]⟩
      have := ih (n / 10) (by omega) first
      omega

theorem numeral_toDigits (negative : Bool) (n : Nat) :
    RawJson.numeral? negative (Nat.toDigits 10 n) =
      some (.number ⟨negative, Nat.toDigits 10 n, none, none⟩, []) := by
  have digits : ∀ c ∈ Nat.toDigits 10 n, c.isDigit = true := fun c member =>
    Nat.isDigit_of_mem_toDigits (by decide) (by decide) member
  have whole : RawJson.whole? (Nat.toDigits 10 n) = some (Nat.toDigits 10 n, []) := by
    cases same : Nat.toDigits 10 n with
    | nil => exact absurd same Nat.toDigits_ne_nil
    | cons c cs =>
      rw [same] at digits
      rw [RawJson.whole_cons]
      by_cases zero : c = '0'
      · subst zero
        have := toDigits_head same
        subst this
        cases same
        rfl
      · rw [if_neg zero, if_pos (digits c List.mem_cons_self),
          List.takeWhile_eq_self_iff.mpr digits, List.dropWhile_eq_nil_iff.mpr digits]
  rw [RawJson.numeral?, whole]
  rfl

theorem digitsValue_toDigits (n : Nat) : Decimal.digitsValue (Nat.toDigits 10 n) = n :=
  Nat.ofDigitChars_toDigits (by decide) (by decide)

theorem readsBack_of_chars {n : JsonNumber} (numeral : Numeral) {c : Char} {cs : List Char}
    (chars : n.chars = c :: cs) (solid : RawJson.isSpace c = false)
    (read : ∀ fuel, RawJson.value? (fuel + 1) (c :: cs) = some (.number numeral, []))
    (meant : numeral.number? = some n) : n.ReadsBack := by
  have parsed : RawJson.ofChars? n.chars = some (.number numeral) := by
    have start : RawJson.skipSpace (c :: cs) = c :: cs := by
      rw [RawJson.skipSpace, List.dropWhile_cons_of_neg (by simp [solid])]
    rw [RawJson.ofChars?, chars, start, read]
    rfl
  rw [ReadsBack, RawJson.parse?, Json.text, String.toList_ofList]
  change (RawJson.ofChars? n.chars).bind _ = _
  rw [parsed, Option.bind_some, RawJson.json?, meant]
  rfl

theorem readsBack_natural {m : Nat} (bound : m < Numeral.wordCount) : (int m).ReadsBack := by
  cases digits : Nat.toDigits 10 m with
  | nil => exact absurd digits Nat.toDigits_ne_nil
  | cons c cs =>
    have digit : c.isDigit = true := by
      refine Nat.isDigit_of_mem_toDigits (n := m) (by decide) (by decide : 10 ≤ 10) ?_
      rw [digits]
      exact List.mem_cons_self
    have chars : (int m).chars = c :: cs := by
      rw [← digits, JsonNumber.chars]
      exact String.toList_ofList
    have plain : c ∉ ['n', 't', 'f', '"', '-', '[', '{'] := by
      intro special
      simp only [List.mem_cons, List.not_mem_nil, or_false] at special
      rcases special with rfl | rfl | rfl | rfl | rfl | rfl | rfl <;> exact absurd digit (by decide)
    have solid : RawJson.isSpace c = false := by
      refine Bool.eq_false_iff.mpr fun space => ?_
      simp only [RawJson.isSpace, Bool.or_eq_true, beq_iff_eq] at space
      rcases space with ((rfl | rfl) | rfl) | rfl <;> exact absurd digit (by decide)
    refine readsBack_of_chars ⟨false, c :: cs, none, none⟩ chars solid ?_ ?_
    · intro fuel
      rw [RawJson.value_of_numeral plain, ← digits]
      exact numeral_toDigits false m
    · rw [← digits, Numeral.number?, digitsValue_toDigits]
      exact if_pos (by simp [Numeral.isInteger, bound])

theorem readsBack_negative {m : Nat} (nonzero : 0 < m) (bound : 2 * m ≤ Numeral.wordCount) :
    (int (-Int.ofNat m)).ReadsBack := by
  obtain ⟨k, rfl⟩ : ∃ k, m = k + 1 := ⟨m - 1, by omega⟩
  have chars : (int (-Int.ofNat (k + 1))).chars = '-' :: Nat.toDigits 10 (k + 1) := by
    change ("-" ++ Nat.repr (k + 1)).toList = _
    rw [String.toList_append, Nat.repr_eq_ofList_toDigits]
    exact congrArg ('-' :: ·) String.toList_ofList
  refine readsBack_of_chars ⟨true, Nat.toDigits 10 (k + 1), none, none⟩ chars (by decide) ?_ ?_
  · intro fuel
    rw [RawJson.value_of_minus]
    exact numeral_toDigits true (k + 1)
  · rw [Numeral.number?, digitsValue_toDigits, if_neg (by simp)]
    exact if_pos (by simp [Numeral.isInteger, bound])

/-- An integer that was read is read again from its text. -/
theorem readsBack_int {numeral : Numeral} {n : Int} (read : numeral.number? = some (.int n)) :
    (int n).ReadsBack := by
  unfold Numeral.number? at read
  dsimp only at read
  split at read
  · rename_i fits
    cases read
    simp only [Bool.and_eq_true, decide_eq_true_eq] at fits
    exact readsBack_natural fits.2
  · split at read
    · rename_i fits
      cases read
      simp only [Bool.and_eq_true, decide_eq_true_eq] at fits
      exact readsBack_negative fits.1.2 fits.2
    · obtain ⟨_, _, same⟩ := Option.map_eq_some_iff.mp read
      cases same

end JsonNumber
end CommandGrammar
