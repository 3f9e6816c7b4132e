import CommandGrammar.Proofs.Numerals
import Mathlib.Data.List.Forall2

/-! Documents read back from the text they are written as, with blanks or without, as long as their
numbers are. Every text is read as one value wherever it stands, so an array is read item by item
and an object member by member; two steps of the reader a character are enough. -/
namespace CommandGrammar

namespace StringPart

/-- How a character is read again: as itself, or by its code if it has no short escape. -/
def ofChar (c : Char) : StringPart :=
  if c.toNat < 0x20 ∧ c ∉ ['\x08', '\x0c', '\n', '\r', '\t'] then .unit c.toNat else .char c

def ofText (text : String) : List StringPart := text.toList.map ofChar

theorem decode_unit {code : Nat} (control : code < 0x20) (parts : List StringPart) :
    decode? (.unit code :: parts) = (decode? parts).map (Char.ofNat code :: ·) := by
  have low : isLow code = false := by simp [isLow]; omega
  have high : isHigh code = false := by simp [isHigh]; omega
  cases parts with
  | nil => simp [decode?, low, high]
  | cons part parts => cases part <;> simp [decode?, low, high]

theorem decode_ofText (text : String) : decode? (ofText text) = some text.toList := by
  rw [ofText]
  induction text.toList with
  | nil => rfl
  | cons c cs ih =>
    rw [List.map_cons, ofChar]
    split
    · rename_i control
      rw [decode_unit control.1, ih, Char.ofNat_toNat]
      rfl
    · rw [decode?, ih]
      rfl

end StringPart

namespace RawJson
open StringPart

theorem codeUnit_control : ∀ code < 0x20,
    codeUnit? '0' '0' (Nat.digitChar (code / 16)) (Nat.digitChar (code % 16)) = some code := by
  decide

theorem stringTail_unit (a b c d : Char) (cs : List Char) :
    stringTail? ('\\' :: 'u' :: a :: b :: c :: d :: cs) = (codeUnit? a b c d).bind fun unit =>
      (stringTail? cs).map fun (parts, rest) => (.unit unit :: parts, rest) := by
  rw [stringTail?]
  refine bind_congr fun unit => ?_
  cases stringTail? cs <;> rfl

theorem stringTail_letter {letter c : Char} (named : escapes.lookup letter = some c)
    (cs : List Char) : stringTail? ('\\' :: letter :: cs) =
      (stringTail? cs).map fun (parts, rest) => (.char c :: parts, rest) := by
  have noUnit : letter ≠ 'u' := by
    rintro rfl
    contradiction
  rw [stringTail?, named]
  · cases stringTail? cs <;> rfl
  · intro a b c d rest same
    exact absurd same noUnit

theorem stringTail_plain {c : Char} (quote : c ≠ '"') (backslash : c ≠ '\\')
    (control : ¬ c.toNat < 0x20) (cs : List Char) : stringTail? (c :: cs) =
      (stringTail? cs).map fun (parts, rest) => (.char c :: parts, rest) := by
  rw [stringTail?, if_neg (by simp [backslash, control])]
  · cases stringTail? cs <;> rfl
  all_goals simp [quote, backslash]

theorem stringTail_escapedChar (c : Char) (cs : List Char) :
    stringTail? (Json.escapedChar c ++ cs) =
      (stringTail? cs).map fun (parts, rest) => (ofChar c :: parts, rest) := by
  unfold Json.escapedChar
  split_ifs with quoted backspace feed newline back tab control
  · rcases quoted with rfl | rfl <;> exact stringTail_letter rfl cs
  · exact backspace ▸ stringTail_letter rfl cs
  · exact feed ▸ stringTail_letter rfl cs
  · exact newline ▸ stringTail_letter rfl cs
  · exact back ▸ stringTail_letter rfl cs
  · exact tab ▸ stringTail_letter rfl cs
  · have coded : ofChar c = .unit c.toNat :=
      if_pos ⟨control, by simp [backspace, feed, newline, back, tab]⟩
    rw [coded]
    refine (stringTail_unit _ _ _ _ cs).trans ?_
    rw [codeUnit_control _ control, Option.bind_some]
  · have itself : ofChar c = .char c := if_neg fun coded => control coded.1
    rw [itself]
    exact stringTail_plain (fun same => quoted (.inl same)) (fun same => quoted (.inr same))
      control cs

theorem stringTail_stringChars (text : String) (rest : List Char) :
    stringTail? (text.toList.flatMap Json.escapedChar ++ '"' :: rest) =
      some (ofText text, rest) := by
  rw [ofText]
  induction text.toList with
  | nil => simp [stringTail?]
  | cons c cs ih =>
    rw [List.flatMap_cons, List.append_assoc, stringTail_escapedChar, ih]
    rfl

end RawJson

namespace Json

mutual

/-- The JSON text of a value before it is given a meaning. -/
def raw : Json → RawJson
  | null => .null
  | bool b => .bool b
  | number n => .number n.numeral
  | string text => .string (StringPart.ofText text)
  | array items => .array (raws items)
  | object members => .object (rawMembers members)

def raws : List Json → List RawJson
  | [] => []
  | item :: rest => item.raw :: raws rest

def rawMembers : List (String × Json) → List (List StringPart × RawJson)
  | [] => []
  | (key, value) :: rest => (StringPart.ofText key, value.raw) :: rawMembers rest

end

mutual

/-- All numbers in a value. -/
def numbers : Json → List JsonNumber
  | number n => [n]
  | array items => itemNumbers items
  | object members => memberNumbers members
  | null | bool _ | string _ => []

def itemNumbers : List Json → List JsonNumber
  | [] => []
  | item :: rest => item.numbers ++ itemNumbers rest

def memberNumbers : List (String × Json) → List JsonNumber
  | [] => []
  | (_, value) :: rest => value.numbers ++ memberNumbers rest

end

/-- A layout adds nothing but blanks and a colon. -/
structure Layout.Blank (layout : Layout) : Prop where
  line : ∀ depth, ∀ c ∈ layout.line depth, RawJson.isSpace c = true
  colon : ∃ blanks, layout.colon = ':' :: blanks ∧ ∀ c ∈ blanks, RawJson.isSpace c = true

theorem indented_blank : indented.Blank where
  line := by
    intro depth c member
    rcases List.mem_cons.mp member with rfl | column
    · rfl
    · rw [List.eq_of_mem_replicate column]
      rfl
  colon := ⟨[' '], rfl, List.forall_mem_singleton.mpr rfl⟩

/-- What is written behind the first of several texts, up to the closing bracket. -/
def further (layout : Layout) (depth : Nat) : List (List Char) → List Char
  | [] => layout.line depth
  | text :: texts => ',' :: (layout.line (depth + 1) ++ (text ++ further layout depth texts))

theorem block_cons (layout : Layout) (depth : Nat) (text : List Char) (texts : List (List Char)) :
    block layout depth (text :: texts) =
      layout.line (depth + 1) ++ (text ++ further layout depth texts) := by
  rw [block]
  · induction texts generalizing text with
    | nil => simp [List.intercalate, further]
    | cons next texts ih =>
      have joined := ih next
      simp only [List.map_cons, List.intercalate, List.intersperse_cons_cons,
        List.flatten_cons, List.append_assoc] at joined ⊢
      rw [joined, further]
      rfl
  · nofun

end Json

namespace RawJson
open StringPart
variable {rest : List Char} {layout : Json.Layout}

theorem skipSpace_blanks {blanks : List Char} (blank : ∀ c ∈ blanks, isSpace c = true)
    (rest : List Char) : skipSpace (blanks ++ rest) = skipSpace rest :=
  List.dropWhile_append_of_pos blank

theorem skipSpace_solid {c : Char} (solid : isSpace c = false) (rest : List Char) :
    skipSpace (c :: rest) = c :: rest :=
  List.dropWhile_cons_of_neg (by simp [solid])

theorem EndsNumber.blanks {blanks : List Char} (blank : ∀ c ∈ blanks, isSpace c = true)
    (ends : EndsNumber rest) : EndsNumber (blanks ++ rest) := by
  cases blanks with
  | nil => exact ends
  | cons c blanks =>
    have space := blank c List.mem_cons_self
    simp only [isSpace, Bool.or_eq_true, beq_iff_eq] at space
    rcases space with ((rfl | rfl) | rfl) | rfl <;> exact endsNumber_cons (by decide) _

/-- A text is read wherever it stands, by as many steps as its length allows. -/
def Reads {α : Type} (element? : Nat → List Char → Option (α × List Char)) (text : List Char)
    (a : α) : Prop :=
  ∀ fuel rest, 2 * text.length < fuel → EndsNumber rest →
    ∃ after, element? fuel (skipSpace (text ++ rest)) = some (a, after) ∧
      skipSpace after = skipSpace rest

/-- A text that ends with a character of its own needs nothing of what follows. -/
theorem reads_value {text : List Char} {c : Char} {json : RawJson} (first : text.head? = some c)
    (solid : isSpace c = false)
    (read : ∀ fuel rest, 2 * text.length ≤ fuel + 1 →
      value? (fuel + 1) (text ++ rest) = some (json, rest)) :
    Reads value? text json := by
  intro fuel rest enough _
  obtain ⟨fuel, rfl⟩ : ∃ less, fuel = less + 1 := ⟨fuel - 1, by omega⟩
  obtain ⟨cs, rfl⟩ := List.head?_eq_some_iff.mp first
  refine ⟨rest, ?_, rfl⟩
  rw [List.cons_append, skipSpace_solid solid]
  exact read fuel rest (by omega)

theorem reads_number {n : JsonNumber} (readsBack : n.ReadsBack) :
    Reads value? n.chars (.number n.numeral) := by
  intro fuel rest enough ends
  obtain ⟨⟨json, after⟩, read, same⟩ := Option.bind_eq_some_iff.mp readsBack.numeral.1
  obtain ⟨blank, same⟩ : (skipSpace after).isEmpty = true ∧ json = .number n.numeral := by
    simpa using same
  subst same
  have begun : skipSpace (n.chars ++ rest) = skipSpace n.chars ++ rest := by
    rw [skipSpace, List.dropWhile_append, if_neg]
    · rfl
    · intro nothing
      rw [skipSpace, List.isEmpty_iff.mp nothing] at read
      exact absurd read (by simp [value?])
  obtain ⟨fuel, rfl⟩ : ∃ less, fuel = less + 1 := ⟨fuel - 1, by omega⟩
  refine ⟨after ++ rest, ?_, ?_⟩
  · rw [begun]
    exact value_number_append ends read fuel
  · rw [skipSpace, List.dropWhile_append]
    exact if_pos blank

theorem reads_word {c : Char} {word : List Char} {json : RawJson} (solid : isSpace c = false)
    (read : ∀ fuel rest, value? (fuel + 1) (c :: rest) = word? word json rest) :
    Reads value? (c :: word) json := by
  refine reads_value rfl solid fun fuel rest _ => ?_
  have begins : word.isPrefixOf (word ++ rest) = true := by
    rw [List.isPrefixOf_iff_prefix]
    exact List.prefix_append word rest
  rw [List.cons_append, read, word?, if_pos begins, List.drop_left]

theorem reads_string (text : String) :
    Reads value? (Json.stringChars text) (.string (ofText text)) := by
  refine reads_value rfl (by decide) fun fuel rest _ => ?_
  have read := stringTail_stringChars text rest
  simp [Json.stringChars, value?, read]

/-- No item begins with the closing bracket, so the first item shows that there is one. -/
theorem value_array {fuel : Nat} {cs : List Char} {items : List RawJson}
    (read : items? fuel (skipSpace cs) = some (items, rest)) :
    value? (fuel + 1) ('[' :: cs) = some (.array items, rest) := by
  have occupied : ∀ rest, skipSpace cs ≠ ']' :: rest := by
    intro rest same
    rw [same] at read
    cases fuel with
    | zero => simp [items?] at read
    | succ fuel => cases fuel <;> simp [items?, value?, numeral?, whole?] at read
  simp [value?, read]

theorem value_object {fuel : Nat} {cs : List Char} {members : List (List StringPart × RawJson)}
    (read : members? fuel (skipSpace cs) = some (members, rest)) :
    value? (fuel + 1) ('{' :: cs) = some (.object members, rest) := by
  have occupied : ∀ rest, skipSpace cs ≠ '}' :: rest := by
    intro rest same
    rw [same] at read
    cases fuel <;> simp [members?] at read
  simp [value?, read]

/-- A member of an object, up to what stands behind its value. -/
def member? (fuel : Nat) : List Char → Option ((List StringPart × RawJson) × List Char)
  | '"' :: cs => do
    let (key, rest) ← stringTail? cs
    match skipSpace rest with
    | ':' :: rest => (value? fuel (skipSpace rest)).map fun (value, rest) => ((key, value), rest)
    | _ => none
  | _ => none

/-- Elements are read one by one, with commas between them, up to a closing bracket. -/
structure Sequence {α : Type} (close : Char)
    (element? : Nat → List Char → Option (α × List Char))
    (elements? : Nat → List Char → Option (List α × List Char)) : Prop where
  solid : isSpace close = false
  ends : ∀ rest, EndsNumber (close :: rest)
  last : ∀ {fuel cs a after rest}, element? fuel cs = some (a, after) →
    skipSpace after = close :: rest → elements? (fuel + 1) cs = some ([a], rest)
  more : ∀ {fuel cs a after next others rest}, element? fuel cs = some (a, after) →
    skipSpace after = ',' :: next → elements? fuel (skipSpace next) = some (others, rest) →
    elements? (fuel + 1) cs = some (a :: others, rest)

theorem sequence_items : Sequence ']' value? items? where
  solid := rfl
  ends := endsNumber_cons (by decide)
  last := fun read close => by simp [items?, read, close]
  more := fun read comma more => by simp [items?, read, comma, more]

theorem member_eq_some {fuel : Nat} {cs after : List Char} {member : List StringPart × RawJson}
    (read : member? fuel cs = some (member, after)) :
    ∃ tail behind value, cs = '"' :: tail ∧ stringTail? tail = some (member.1, behind) ∧
      skipSpace behind = ':' :: value ∧
        value? fuel (skipSpace value) = some (member.2, after) := by
  unfold member? at read
  split at read
  · obtain ⟨⟨key, behind⟩, named, read⟩ := Option.bind_eq_some_iff.mp read
    dsimp only at read
    split at read
    · rename_i colon
      obtain ⟨_, valued, same⟩ := Option.map_eq_some_iff.mp read
      cases same
      exact ⟨_, _, _, rfl, named, colon, valued⟩
    · contradiction
  · contradiction

theorem sequence_members : Sequence '}' member? members? where
  solid := rfl
  ends := endsNumber_cons (by decide)
  last := by
    intro fuel cs member after rest read close
    obtain ⟨tail, behind, value, rfl, named, colon, valued⟩ := member_eq_some read
    simp [members?, named, colon, valued, close]
  more := by
    intro fuel cs member after next others rest read comma more
    obtain ⟨tail, behind, value, rfl, named, colon, valued⟩ := member_eq_some read
    simp [members?, named, colon, valued, comma, more]

section Blank
variable {depth : Nat} {text : List Char} {texts : List (List Char)} {close : Char}
  (blank : layout.Blank)
include blank

theorem skipSpace_last (solid : isSpace close = false) (rest : List Char) :
    skipSpace (Json.further layout depth [] ++ close :: rest) = close :: rest := by
  rw [Json.further, skipSpace_blanks (blank.line depth), skipSpace_solid solid]

theorem skipSpace_first (close : Char) (rest : List Char) :
    skipSpace (layout.line (depth + 1) ++ (text ++ Json.further layout depth texts) ++
      close :: rest) = skipSpace (text ++ (Json.further layout depth texts ++ close :: rest)) := by
  rw [List.append_assoc, skipSpace_blanks (blank.line (depth + 1)), List.append_assoc]

theorem endsNumber_further (ends : EndsNumber rest) :
    EndsNumber (Json.further layout depth texts ++ rest) := by
  cases texts with
  | nil => exact ends.blanks (blank.line depth)
  | cons text texts => exact endsNumber_cons (by decide) _

variable {α : Type} {element? : Nat → List Char → Option (α × List Char)}
  {elements? : Nat → List Char → Option (List α × List Char)}

/-- Texts that are read one by one are read together. -/
theorem Sequence.reads (sequence : Sequence close element? elements?)
    {a : α} {others : List α} (first : Reads element? text a)
    (readOthers : List.Forall₂ (Reads element?) texts others) (rest : List Char) (fuel : Nat)
    (enough : 2 * (text ++ Json.further layout depth texts).length + 2 ≤ fuel) :
    elements? fuel (skipSpace (text ++ (Json.further layout depth texts ++ close :: rest))) =
      some (a :: others, rest) := by
  induction readOthers generalizing text a fuel with
  | nil =>
    obtain ⟨fuel, rfl⟩ : ∃ less, fuel = less + 1 := ⟨fuel - 1, by omega⟩
    rw [List.length_append] at enough
    obtain ⟨after, read, left⟩ :=
      first fuel _ (by omega) (endsNumber_further blank (sequence.ends rest))
    exact sequence.last read (left.trans (skipSpace_last blank sequence.solid rest))
  | @cons next _ texts _ second _ ih =>
    obtain ⟨fuel, rfl⟩ : ∃ less, fuel = less + 1 := ⟨fuel - 1, by omega⟩
    simp only [Json.further, List.length_append, List.length_cons] at enough
    obtain ⟨after, read, left⟩ :=
      first fuel _ (by omega) (endsNumber_further blank (sequence.ends rest))
    -- The comma pays for the step that the next element takes.
    have others := ih second fuel (by rw [List.length_append]; omega)
    rw [← skipSpace_first blank] at others
    exact sequence.more read (left.trans (skipSpace_solid rfl _)) others

theorem Sequence.reads_block (sequence : Sequence close element? elements?)
    {a : α} {others : List α} (first : Reads element? text a)
    (readOthers : List.Forall₂ (Reads element?) texts others) (rest : List Char) {fuel : Nat}
    (enough : 2 * (Json.block layout depth (text :: texts)).length + 2 ≤ fuel) :
    elements? fuel (skipSpace (Json.block layout depth (text :: texts) ++ close :: rest)) =
      some (a :: others, rest) := by
  rw [Json.block_cons] at enough ⊢
  rw [skipSpace_first blank]
  refine sequence.reads blank first readOthers rest fuel ?_
  rw [List.length_append] at enough
  omega

theorem reads_array {items : List RawJson} (reads : List.Forall₂ (Reads value?) texts items) :
    Reads value? ('[' :: Json.block layout depth texts ++ [']']) (.array items) := by
  refine reads_value rfl (by decide) fun fuel rest enough => ?_
  rw [List.append_assoc, List.cons_append]
  cases reads with
  | nil => simp [Json.block, value?, skipSpace_solid (c := ']') rfl]
  | cons first others =>
    refine value_array (sequence_items.reads_block blank first others rest ?_)
    simp only [List.cons_append, List.length_cons, List.length_append] at enough
    omega

theorem reads_object {members : List (List StringPart × RawJson)}
    (reads : List.Forall₂ (Reads member?) texts members) :
    Reads value? ('{' :: Json.block layout depth texts ++ ['}']) (.object members) := by
  refine reads_value rfl (by decide) fun fuel rest enough => ?_
  rw [List.append_assoc, List.cons_append]
  cases reads with
  | nil => simp [Json.block, value?, skipSpace_solid (c := '}') rfl]
  | cons first others =>
    refine value_object (sequence_members.reads_block blank first others rest ?_)
    simp only [List.cons_append, List.length_cons, List.length_append] at enough
    omega

theorem reads_member (key : String) {json : RawJson} (value : Reads value? text json) :
    Reads member? (Json.stringChars key ++ layout.colon ++ text) (ofText key, json) := by
  obtain ⟨blanks, colon, blank⟩ := blank.colon
  intro fuel rest enough ends
  obtain ⟨after, read, left⟩ := value fuel rest (by simp at enough; omega) ends
  refine ⟨after, ?_, left⟩
  have named := stringTail_stringChars key (':' :: (blanks ++ (text ++ rest)))
  rw [← skipSpace_blanks blank] at read
  simp [Json.stringChars, colon, skipSpace_solid (c := '"') rfl, member?, named,
    skipSpace_solid (c := ':') rfl, read]

end Blank

end RawJson

namespace Json
open RawJson

variable {layout : Layout}

mutual

/-- Every value is read from its text, if its numbers are. -/
theorem reads_chars (blank : layout.Blank) (json : Json)
    (readsBack : ∀ n ∈ json.numbers, n.ReadsBack) (depth : Nat) :
    Reads value? (json.chars layout depth) json.raw := by
  cases json with
  | null => exact reads_word (by decide) fun _ _ => rfl
  | bool b => cases b <;> exact reads_word (by decide) fun _ _ => rfl
  | number n => exact reads_number (readsBack n List.mem_cons_self)
  | string text => exact reads_string text
  | array items => exact reads_array blank (reads_itemTexts blank items readsBack (depth + 1))
  | object members =>
    exact reads_object blank (reads_memberTexts blank members readsBack (depth + 1))

theorem reads_itemTexts (blank : layout.Blank) (items : List Json)
    (readsBack : ∀ n ∈ itemNumbers items, n.ReadsBack) (depth : Nat) :
    List.Forall₂ (Reads value?) (itemTexts layout depth items) (raws items) := by
  cases items with
  | nil => exact .nil
  | cons item rest =>
    obtain ⟨first, others⟩ := List.forall_mem_append.mp readsBack
    exact .cons (reads_chars blank item first depth) (reads_itemTexts blank rest others depth)

theorem reads_memberTexts (blank : layout.Blank) (members : List (String × Json))
    (readsBack : ∀ n ∈ memberNumbers members, n.ReadsBack) (depth : Nat) :
    List.Forall₂ (Reads member?) (memberTexts layout depth members) (rawMembers members) := by
  cases members with
  | nil => exact .nil
  | cons member rest =>
    obtain ⟨key, value⟩ := member
    obtain ⟨first, others⟩ := List.forall_mem_append.mp readsBack
    exact .cons (reads_member blank key (reads_chars blank value first depth))
      (reads_memberTexts blank rest others depth)

end

theorem ofChars_chars (blank : layout.Blank) (json : Json)
    (readsBack : ∀ n ∈ json.numbers, n.ReadsBack) :
    ofChars? (json.chars layout 0) = some json.raw := by
  obtain ⟨after, read, left⟩ := reads_chars blank json readsBack 0
    (2 * (json.chars layout 0).length + 2) [] (by omega) endsNumber_nil
  rw [List.append_nil] at read
  rw [ofChars?, read]
  exact if_pos (by rw [left]; rfl)

theorem parse_pretty (json : Json) (readsBack : ∀ n ∈ json.numbers, n.ReadsBack) :
    parse? json.pretty = some json.raw := by
  rw [parse?, pretty, String.toList_ofList]
  exact ofChars_chars indented_blank json readsBack

end Json
end CommandGrammar
