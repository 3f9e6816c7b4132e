import CommandGrammar.Value.Type
import Mathlib.Data.List.Basic

/-! Names of types. A type is written as one of its words, or as `list<`, a type and `>`, and blanks
may stand around each. Exactly these texts are read, each as the type that it writes, and the name
of a type is one of them. -/
namespace CommandGrammar
open Text

namespace Text
variable {text core : List Char} {c : Char}

/-- A text with blanks put around. -/
def Padded (text core : List Char) : Prop :=
  ∃ left right, left.all isBlank = true ∧ right.all isBlank = true ∧ text = left ++ core ++ right

/-- A text that begins and ends with a character that is not blank. -/
def SolidEdges (core : List Char) : Prop :=
  ∃ first ∈ core.head?, ∃ last ∈ core.getLast?, isBlank first = false ∧ isBlank last = false

theorem padded_refl (core : List Char) : Padded core core :=
  ⟨[], [], rfl, rfl, (List.append_nil core).symm⟩

theorem dropWhile_padding {left : List Char} (blank : left.all isBlank = true)
    (first : c ∈ core.head?) (solid : isBlank c = false) :
    (left ++ core).dropWhile isBlank = core := by
  obtain ⟨rest, rfl⟩ := List.head?_eq_some_iff.mp first
  rw [List.dropWhile_append_of_pos (List.all_eq_true.mp blank),
    List.dropWhile_cons_of_neg (by simp [solid])]

/-- Trimming gives back what blanks have been put around. -/
theorem trimChars_of_padded (padded : Padded text core) (edges : SolidEdges core) :
    trimChars text = core := by
  obtain ⟨left, right, before, behind, rfl⟩ := padded
  obtain ⟨first, head, last, tail, opens, closes⟩ := edges
  have blanks : right.reverse.all isBlank = true := by rw [List.all_reverse, behind]
  rw [trimChars, List.append_assoc,
    dropWhile_padding before (List.mem_head?_append_of_mem_head? head) opens, List.reverse_append,
    dropWhile_padding blanks (List.head?_reverse.trans tail) closes, List.reverse_reverse]

/-- What trimming drops is nothing but blanks. -/
theorem padded_trimChars (text : List Char) : Padded text (trimChars text) := by
  refine ⟨text.takeWhile isBlank, ((text.dropWhile isBlank).reverse.takeWhile isBlank).reverse,
    List.all_takeWhile, by rw [List.all_reverse, List.all_takeWhile], ?_⟩
  rw [trimChars, List.append_assoc, ← List.reverse_append, List.takeWhile_append_dropWhile,
    List.reverse_reverse, List.takeWhile_append_dropWhile]

end Text

namespace ValueType

/-- The words for a scalar type. -/
def spellings : ValueType → List String
  | string => ["string", "str"]
  | bool => ["bool", "boolean"]
  | int => ["int", "integer"]
  | float => ["float", "number"]
  | path => ["path", "file"]
  | list _ => []

/-- There is no room for a blank between `list` and its bracket. -/
def bracketed (body : List Char) : List Char := "list<".toList ++ body ++ ">".toList

/-- How types are written. -/
inductive Writes : List Char → ValueType → Prop where
  | word {text : List Char} {word : String} {type : ValueType} :
      word ∈ type.spellings → Padded text word.toList → Writes text type
  | list {text body : List Char} {element : ValueType} :
      Writes body element → Padded text (bracketed body) → Writes text (list element)

variable {type : ValueType} {text body : List Char} {word : String}

/-- The table of words lists the spellings of each type. -/
theorem mem_words_iff : (word, type) ∈ words ↔ word ∈ type.spellings := by
  cases type <;> simp [words, spellings]

theorem lookup_spelled (type : ValueType) :
    ∀ word ∈ type.spellings, words.lookup word = some type := by
  cases type with
  | string | bool | int | float | path => decide
  | list => exact List.forall_mem_nil _

theorem spelled_of_lookup (found : words.lookup word = some type) : word ∈ type.spellings := by
  obtain ⟨front, back, listed, -⟩ := List.lookup_eq_some_iff.mp found
  exact mem_words_iff.mp (listed ▸ List.mem_append_right front List.mem_cons_self)

theorem listBody_spelled (type : ValueType) :
    ∀ word ∈ type.spellings, listBody? word.toList = none := by
  cases type with
  | string | bool | int | float | path => decide
  | list => exact List.forall_mem_nil _

theorem edges_spelled (type : ValueType) : ∀ word ∈ type.spellings, SolidEdges word.toList := by
  cases type with
  | string | bool | int | float | path =>
    refine List.forall_mem_cons.mpr ⟨?_, List.forall_mem_singleton.mpr ?_⟩
    all_goals exact ⟨_, rfl, _, rfl, by decide⟩
  | list => exact List.forall_mem_nil _

theorem edges_bracketed (body : List Char) : SolidEdges (bracketed body) :=
  ⟨'l', rfl, '>', List.getLast?_concat, by decide⟩

theorem bracketed_eq (body : List Char) :
    bracketed body = 'l' :: 'i' :: 's' :: 't' :: '<' :: (body ++ ['>']) := rfl

theorem listBody_bracketed (body : List Char) :
    ∃ shorter, listBody? (bracketed body) = some ⟨body, shorter⟩ := by
  have shorter : body.length < (bracketed body).length := by
    simp only [bracketed_eq, List.length_cons, List.length_append]
    omega
  refine ⟨shorter, ?_⟩
  have closes : (body ++ ['>']).getLast? = some '>' := List.getLast?_concat
  simp only [bracketed_eq, listBody?, if_pos closes]
  exact congrArg some (Subtype.ext List.dropLast_concat)

theorem eq_bracketed {inner : { body : List Char // body.length < text.length }}
    (found : listBody? text = some inner) : text = bracketed inner.1 := by
  unfold listBody? at found
  split at found
  · split at found
    · rename_i closes
      cases found
      rw [bracketed_eq, List.dropLast_append_getLast? _ closes]
    · contradiction
  · contradiction

theorem parseChars_of_writes (writes : Writes text type) : parseChars? text = some type := by
  induction writes with
  | @word text word type spelled padded =>
    have trimmed := trimChars_of_padded padded (edges_spelled type word spelled)
    have noList := listBody_spelled type word spelled
    rw [← trimmed] at noList
    rw [parseChars?, noList]
    dsimp only
    rw [trimmed, String.ofList_toList, lookup_spelled type word spelled]
  | @list text body element _ padded ih =>
    have enclosed := listBody_bracketed body
    rw [← trimChars_of_padded padded (edges_bracketed body)] at enclosed
    obtain ⟨shorter, found⟩ := enclosed
    rw [parseChars?, found]
    dsimp only
    rw [ih]
    rfl

theorem writes_of_parseChars (read : parseChars? text = some type) : Writes text type := by
  have padded := padded_trimChars text
  fun_induction parseChars? text generalizing type with
  | case1 text body shorter found ih =>
    obtain ⟨element, inside, rfl⟩ := Option.map_eq_some_iff.mp read
    rw [eq_bracketed found] at padded
    exact .list (ih inside (padded_trimChars body)) padded
  | case2 text noList =>
    exact .word (spelled_of_lookup read) (by rwa [String.toList_ofList])

theorem parse_eq_some_iff {text : String} : parse? text = some type ↔ Writes text.toList type :=
  ⟨writes_of_parseChars, parseChars_of_writes⟩

theorem writes_name (type : ValueType) : Writes type.name.toList type := by
  induction type with
  | string | bool | int | float | path => exact .word List.mem_cons_self (padded_refl _)
  | list element ih =>
    refine .list ih ?_
    rw [name, String.toList_append, String.toList_append]
    exact padded_refl _

theorem parse_name (type : ValueType) : parse? type.name = some type :=
  parse_eq_some_iff.mpr (writes_name type)

/-- Exactly the texts that write a type are read, as that type, and its name writes it. -/
theorem names_read_exactly :
    (∀ type : ValueType, parse? type.name = some type) ∧
    ∀ (text : String) (type : ValueType), parse? text = some type ↔ Writes text.toList type := by
  refine ⟨parse_name, fun text type => ?_⟩
  exact parse_eq_some_iff

end ValueType
end CommandGrammar
