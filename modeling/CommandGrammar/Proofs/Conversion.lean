import CommandGrammar.Argument
import CommandGrammar.Proofs.Numbering
import Mathlib.Data.List.Forall2

/-! What conversion by type gives. A converted text is a value of the type, at any depth of lists.
An argument that takes no value has the unit, one that takes a single value has what its type makes
of it, and any other has a list with one item for each value. -/
namespace CommandGrammar

theorem mapM_eq_ok_iff {ε α β : Type} {f : α → Except ε β} {items : List α} {results : List β} :
    items.mapM f = .ok results ↔
      List.Forall₂ (fun item result => f item = .ok result) items results := by
  induction items generalizing results with
  | nil =>
    rw [List.forall₂_nil_left_iff, List.mapM_nil]
    constructor
    · intro same
      cases same
      rfl
    · rintro rfl
      rfl
  | cons item items ih =>
    rw [List.forall₂_cons_left_iff, List.mapM_cons, bind_eq_ok_iff]
    constructor
    · rintro ⟨first, converted, further⟩
      obtain ⟨others, rest, same⟩ := bind_eq_ok_iff.mp further
      cases same
      exact ⟨first, others, converted, ih.mp rest, rfl⟩
    · rintro ⟨first, others, converted, rest, rfl⟩
      exact ⟨first, converted, bind_eq_ok_iff.mpr ⟨others, ih.mpr rest, rfl⟩⟩

namespace ValueType
variable {type element : ValueType} {raw : String} {value : Value}

theorem admits_of_convert (converts : type.convert raw = .ok value) : type.admits value = true := by
  induction type generalizing value with
  | string | path =>
    cases converts
    rfl
  | bool =>
    rw [convert] at converts
    split at converts
    · cases converts
      rfl
    · split at converts
      · cases converts
        rfl
      · contradiction
  | int | float =>
    rw [convert] at converts
    split at converts
    · cases converts
      rfl
    · contradiction
  | list element ih =>
    obtain ⟨item, single, rfl⟩ := map_eq_ok_iff.mp converts
    rw [admits, List.all_cons, ih single, List.all_nil]
    rfl

/-- Texts that are converted one by one make up a list of the type. -/
theorem admits_of_converts {texts : List String} {items : List Value}
    (converts : List.Forall₂ (fun text item => element.convert text = .ok item) texts items) :
    (list element).admits (.list items) = true := by
  rw [admits, List.all_eq_true]
  induction converts with
  | nil => exact List.forall_mem_nil _
  | cons first _ ih => exact List.forall_mem_cons.mpr ⟨admits_of_convert first, ih⟩

end ValueType

namespace Argument

/-- The declared type. Values of which nothing is declared are texts. -/
def valueType (argument : Argument) : ValueType := argument.type.getD .string

/-- The value that texts have by the type of their argument. -/
inductive Means (argument : Argument) : List String → Value → Prop where
  | closed : argument.arity.max = 0 → Means argument [] .unit
  | nothing : argument.arity.max = 1 → Means argument [] .unit
  | single : argument.arity.max = 1 → argument.valueType.convert text = .ok value →
      argument.valueType.admits value = true → Means argument [text] value
  | several : 1 < argument.arity.max →
      List.Forall₂ (fun text item => argument.valueType.element.convert text = .ok item)
        texts items →
      (ValueType.list argument.valueType.element).admits (.list items) = true →
      Means argument texts (.list items)

variable {argument : Argument} {texts : List String} {value : Value}

theorem convert_closed (closed : argument.arity.max = 0) (texts : List String) :
    argument.convert texts = .ok .unit := by
  rw [convert, if_pos closed]

theorem convert_nothing (ordinary : argument.converter = none) (one : argument.arity.max = 1) :
    argument.convert [] = .ok .unit := by
  simp [convert, ordinary, one]

theorem convert_single (ordinary : argument.converter = none) (one : argument.arity.max = 1)
    (text : String) : argument.convert [text] = argument.valueType.convert text := by
  simp [convert, ordinary, one, valueType]

theorem convert_several (ordinary : argument.converter = none) (many : 1 < argument.arity.max) :
    argument.convert texts = .ok value ↔ ∃ items, value = .list items ∧
      List.Forall₂ (fun text item => argument.valueType.element.convert text = .ok item)
        texts items := by
  have some : argument.arity.max ≠ 0 := by omega
  have more : argument.arity.max ≠ 1 := by omega
  simp only [convert, ordinary, some, more, if_false, valueType, map_eq_ok_iff, mapM_eq_ok_iff]
  exact exists_congr fun items => and_comm.trans (and_congr_left' eq_comm)

/-- Without a converter of its own an argument converts its values by their type. -/
theorem convert_eq_ok_iff (ordinary : argument.converter = none)
    (few : texts.length ≤ argument.arity.max) :
    argument.convert texts = .ok value ↔ argument.Means texts value := by
  constructor
  · intro converts
    by_cases closed : argument.arity.max = 0
    · obtain rfl : texts = [] := List.eq_nil_of_length_eq_zero (by omega)
      rw [convert_closed closed] at converts
      cases converts
      exact .closed closed
    by_cases one : argument.arity.max = 1
    · rcases texts with _ | ⟨text, others⟩
      · rw [convert_nothing ordinary one] at converts
        cases converts
        exact .nothing one
      · obtain rfl : others = [] :=
          List.eq_nil_of_length_eq_zero (by rw [List.length_cons] at few; omega)
        rw [convert_single ordinary one] at converts
        exact .single one converts (ValueType.admits_of_convert converts)
    · have many : 1 < argument.arity.max := by omega
      obtain ⟨items, rfl, each⟩ := (convert_several ordinary many).mp converts
      exact .several many each (ValueType.admits_of_converts each)
  · intro means
    cases means with
    | closed closed => exact convert_closed closed []
    | nothing one => exact convert_nothing ordinary one
    | single one converts => exact (convert_single ordinary one _).trans converts
    | several many each => exact (convert_several ordinary many).mpr ⟨_, rfl, each⟩

end Argument
end CommandGrammar
