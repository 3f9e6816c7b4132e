import CommandGrammar.GrammarFile.Export
import CommandGrammar.Proofs.Conversion
import CommandGrammar.Proofs.TypeNames

/-! What a grammar file stores of an arity and of a default value is read back as it was. A default
is of its type once it has been read, and those that can be stored are exactly the ones of the type
without a float that is not finite and without a path that is not a text. -/
namespace CommandGrammar

theorem ArityEntry.toArity_ofArity (arity : Arity) : (ofArity arity).toArity = arity := by
  unfold ofArity toArity
  cases arity with
  | mk min max =>
    by_cases unbounded : max = Arity.unbounded <;> simp [Arity.isUnbounded, unbounded]

namespace Value

mutual

/-- Whether all floats in a value are finite. -/
def isFinite : Value → Bool
  | float x => x.isFinite
  | list items => areFinite items
  | unit | bool _ | int _ | string _ | path _ => true

def areFinite : List Value → Bool
  | [] => true
  | item :: rest => item.isFinite && areFinite rest

end

mutual

/-- The paths in a value. -/
def paths : Value → List FilePath
  | path file => [file]
  | list items => pathsAmong items
  | unit | bool _ | int _ | float _ | string _ => []

def pathsAmong : List Value → List FilePath
  | [] => []
  | item :: rest => item.paths ++ pathsAmong rest

end

/-- Whether all paths in a value are texts. -/
def IsUnicode (value : Value) : Prop := ∀ file ∈ value.paths, file.IsUnicode

variable {type : Option ValueType} {json : Json} {value : Value}

theorem isUnicode_list {items : List Value} :
    (list items).IsUnicode ↔ ∀ item ∈ items, item.IsUnicode := by
  unfold IsUnicode
  rw [paths]
  induction items with
  | nil => exact iff_of_true (List.forall_mem_nil _) (List.forall_mem_nil _)
  | cons item rest ih => rw [pathsAmong, List.forall_mem_append, ih, List.forall_mem_cons]

theorem int64_toInt (n : Int64) : (JsonNumber.int n.toInt).int64? = some n := by
  rw [JsonNumber.int64?, if_pos ⟨n.minValue_le_toInt, n.toInt_le⟩, Int64.ofInt_toInt]

/-- A value that fits a type is of the type, or it becomes the one item of a list. -/
theorem fit_cases {type : ValueType} {result : Value}
    (fits : fit json (some type) value = .ok result) :
    type.admits value = true ∧ result = value ∨
      ∃ element, type = .list element ∧ element.admits value = true ∧ result = list [value] := by
  simp only [fit] at fits
  split at fits
  · rename_i admitted
    cases fits
    exact .inl ⟨admitted, rfl⟩
  · split at fits
    · split at fits
      · rename_i admitted
        cases fits
        exact .inr ⟨_, rfl, admitted, rfl⟩
      · contradiction
    · contradiction

theorem admits_of_fit {type : ValueType} {result : Value}
    (fits : fit json (some type) value = .ok result) : type.admits result = true := by
  obtain ⟨admitted, rfl⟩ | ⟨element, rfl, admitted, rfl⟩ := fit_cases fits
  · exact admitted
  · simp [ValueType.admits, admitted]

theorem fit_of_admits {type : ValueType} (admitted : type.admits value = true) :
    fit json (some type) value = .ok value := by
  simp only [fit, admitted, if_true]

/-- Whatever is read under a type is of that type. -/
theorem admits_of_ofJson {type : ValueType} (reads : ofJson (some type) json = .ok value) :
    type.admits value = true := by
  cases json with
  | null | object => contradiction
  | string text =>
    obtain ⟨converted, -, fits⟩ := bind_eq_ok_iff.mp reads
    exact admits_of_fit fits
  | bool b | number n => exact admits_of_fit reads
  | array items =>
    obtain ⟨values, -, fits⟩ := bind_eq_ok_iff.mp reads
    exact admits_of_fit fits

theorem isUnicode_of_convert {type : ValueType} {raw : String}
    (converts : type.convert raw = .ok value) : value.IsUnicode := by
  induction type generalizing value with
  | path =>
    cases converts
    exact List.forall_mem_singleton.mpr (FilePath.isUnicode_ofText raw)
  | string | bool | int | float =>
    have admitted := ValueType.admits_of_convert converts
    cases value with
    | unit | bool | int | float | string => exact List.forall_mem_nil _
    | path | list => contradiction
  | list element ih =>
    obtain ⟨item, single, rfl⟩ := map_eq_ok_iff.mp converts
    exact isUnicode_list.mpr (List.forall_mem_singleton.mpr (ih single))

theorem isUnicode_of_fit {result : Value} (unicode : value.IsUnicode)
    (fits : fit json type value = .ok result) : result.IsUnicode := by
  cases type with
  | none =>
    cases fits
    exact unicode
  | some type =>
    obtain ⟨-, rfl⟩ | ⟨element, -, -, rfl⟩ := fit_cases fits
    · exact unicode
    · exact isUnicode_list.mpr (List.forall_mem_singleton.mpr unicode)

mutual

/-- What is read has been a text, and so have the paths in it. -/
theorem isUnicode_of_ofJson (json : Json) {type : Option ValueType} {value : Value}
    (reads : ofJson type json = .ok value) : value.IsUnicode := by
  cases json with
  | null | object => contradiction
  | string text =>
    obtain ⟨converted, read, fits⟩ := bind_eq_ok_iff.mp reads
    refine isUnicode_of_fit ?_ fits
    cases type with
    | none =>
      cases read
      exact List.forall_mem_nil _
    | some type => exact isUnicode_of_convert (mapError_eq_ok_iff.mp read)
  | bool b =>
    have plain : (bool b).IsUnicode := List.forall_mem_nil _
    exact isUnicode_of_fit plain reads
  | number n =>
    refine isUnicode_of_fit ?_ reads
    unfold ofNumber
    split
    · exact List.forall_mem_nil _
    · split <;> exact List.forall_mem_nil _
  | array items =>
    obtain ⟨values, read, fits⟩ := bind_eq_ok_iff.mp reads
    exact isUnicode_of_fit (isUnicode_list.mpr (isUnicode_of_ofItems items read)) fits

theorem isUnicode_of_ofItems (items : List Json) {type : Option ValueType} {values : List Value}
    (reads : ofItems type items = .ok values) : ∀ value ∈ values, value.IsUnicode := by
  cases items with
  | nil =>
    cases reads
    exact List.forall_mem_nil _
  | cons item rest =>
    obtain ⟨first, readFirst, reads⟩ := bind_eq_ok_iff.mp reads
    obtain ⟨others, readOthers, reads⟩ := bind_eq_ok_iff.mp reads
    cases reads
    exact List.forall_mem_cons.mpr ⟨isUnicode_of_ofJson item readFirst,
      isUnicode_of_ofItems rest readOthers⟩

end

/-- A default is stored under a type if its JSON form is read as itself. -/
def Stored (type : Option ValueType) (value : Value) : Prop :=
  ∃ json, value.toJson? = some json ∧ ofJson type json = .ok value

theorem ofItems_toJsons {items : List Value} (stored : ∀ item ∈ items, Stored type item) :
    ofItems type (toJsons items) = .ok items := by
  induction items with
  | nil => rfl
  | cons item rest ih =>
    obtain ⟨⟨json, writes, reads⟩, storedRest⟩ := List.forall_mem_cons.mp stored
    rw [toJsons, writes, Option.toList_some, List.singleton_append, ofItems, reads, ih storedRest]
    rfl

theorem finite_of_mem {items : List Value} (finite : areFinite items = true) :
    ∀ item ∈ items, item.isFinite = true := by
  induction items with
  | nil => exact fun _ member => absurd member List.not_mem_nil
  | cons item rest ih =>
    rw [areFinite, Bool.and_eq_true] at finite
    exact List.forall_mem_cons.mpr ⟨finite.1, ih finite.2⟩

/-- A finite value of a type, with texts for paths, is stored under the type. -/
theorem stored_of_admits (type : ValueType) {value : Value} (admitted : type.admits value = true)
    (finite : value.isFinite = true) (unicode : value.IsUnicode) : Stored (some type) value := by
  induction type generalizing value with
  | string | bool =>
    cases value with
    | string | bool =>
      first
      | contradiction
      | exact ⟨_, rfl, rfl⟩
    | _ => contradiction
  | path =>
    cases value with
    | path file =>
      obtain ⟨text, rfl⟩ := unicode file List.mem_cons_self
      refine ⟨_, rfl, ?_⟩
      rw [FilePath.display_ofText]
      rfl
    | _ => contradiction
  | int =>
    cases value with
    | int n =>
      refine ⟨_, rfl, ?_⟩
      rw [ofJson, ofNumber, if_neg (by decide), int64_toInt]
      exact fit_of_admits admitted
    | _ => contradiction
  | float =>
    cases value with
    | float x =>
      rw [isFinite] at finite
      refine ⟨_, by rw [toJson?, if_pos finite], ?_⟩
      rw [ofJson, ofNumber, if_pos (by rfl)]
      exact fit_of_admits admitted
    | _ => contradiction
  | list element ih =>
    cases value with
    | list items =>
      have fit := List.all_eq_true.mp admitted
      have stored : ∀ item ∈ items, Stored (some element) item :=
        fun item member => ih (fit item member) (finite_of_mem finite item member)
          (isUnicode_list.mp unicode item member)
      refine ⟨_, rfl, ?_⟩
      have reads : ofItems (some (ValueType.list element) |>.map ValueType.element)
          (toJsons items) = .ok items := ofItems_toJsons stored
      rw [ofJson, reads]
      exact fit_of_admits admitted
    | _ => contradiction

mutual

/-- A finite value that is read without a type is stored without one. -/
theorem stored_of_ofJson (json : Json) {value : Value} (reads : ofJson none json = .ok value)
    (finite : value.isFinite = true) : Stored none value := by
  cases json with
  | null | object => contradiction
  | string text =>
    cases reads
    exact ⟨_, rfl, rfl⟩
  | bool b =>
    cases reads
    exact ⟨_, rfl, rfl⟩
  | number n =>
    cases reads
    cases whole : n.int64? with
    | some m =>
      have read : ofNumber none n = int m := by simp only [ofNumber, whole]; rfl
      refine ⟨.number (.int m.toInt), by rw [read]; rfl, ?_⟩
      rw [ofJson, ofNumber, if_neg (by simp), int64_toInt, read]
      rfl
    | none =>
      have read : ofNumber none n = float n.toBinary64 := by simp only [ofNumber, whole]; rfl
      rw [read, isFinite] at finite
      exact ⟨.number (.float n.toBinary64), by rw [read, toJson?, if_pos finite], by rw [read]; rfl⟩
  | array items =>
    obtain ⟨values, read, fits⟩ := bind_eq_ok_iff.mp reads
    cases fits
    refine ⟨_, rfl, ?_⟩
    have stored := stored_of_ofItems items read (finite_of_mem finite)
    rw [ofJson, Option.map_none, ofItems_toJsons stored]
    rfl

theorem stored_of_ofItems (items : List Json) {values : List Value}
    (reads : ofItems none items = .ok values) (finite : ∀ value ∈ values, value.isFinite = true) :
    ∀ value ∈ values, Stored none value := by
  cases items with
  | nil =>
    cases reads
    exact fun _ member => absurd member List.not_mem_nil
  | cons item rest =>
    obtain ⟨first, readFirst, reads⟩ := bind_eq_ok_iff.mp reads
    obtain ⟨others, readOthers, reads⟩ := bind_eq_ok_iff.mp reads
    cases reads
    obtain ⟨finiteFirst, finiteRest⟩ := List.forall_mem_cons.mp finite
    exact List.forall_mem_cons.mpr ⟨stored_of_ofJson item readFirst finiteFirst,
      stored_of_ofItems rest readOthers finiteRest⟩

end

/-- A finite value that is read under a type, or without one, is stored there. -/
theorem stored_of_reads (reads : ofJson type json = .ok value) (finite : value.isFinite = true) :
    Stored type value := by
  cases type with
  | none => exact stored_of_ofJson json reads finite
  | some type =>
    exact stored_of_admits type (admits_of_ofJson reads) finite (isUnicode_of_ofJson json reads)

mutual

/-- The JSON form of a value has a null for a float that is not finite, and null is never read. -/
theorem finite_of_reads (value : Value) {type : Option ValueType} {json : Json} {result : Value}
    (writes : value.toJson? = some json) (reads : ofJson type json = .ok result) :
    value.isFinite = true := by
  cases value with
  | unit | bool | int | string | path => rfl
  | float x =>
    cases finite : x.isFinite with
    | true => rw [isFinite, finite]
    | false =>
      simp only [toJson?, finite] at writes
      cases writes
      contradiction
  | list items =>
    cases writes
    obtain ⟨results, readItems, -⟩ := bind_eq_ok_iff.mp reads
    exact finite_of_readItems items readItems

theorem finite_of_readItems (items : List Value) {type : Option ValueType} {results : List Value}
    (reads : ofItems type (toJsons items) = .ok results) : areFinite items = true := by
  cases items with
  | nil => rfl
  | cons item rest =>
    rw [areFinite, Bool.and_eq_true]
    rw [toJsons] at reads
    cases written : item.toJson? with
    | none =>
      -- The unit is left out of the list.
      cases item with
      | unit => exact ⟨rfl, finite_of_readItems rest reads⟩
      | _ => contradiction
    | some json =>
      rw [written] at reads
      obtain ⟨first, readFirst, reads⟩ := bind_eq_ok_iff.mp reads
      obtain ⟨others, readOthers, -⟩ := bind_eq_ok_iff.mp reads
      exact ⟨finite_of_reads item written readFirst, finite_of_readItems rest readOthers⟩

end

/-- The values that are stored under a type, or without one, are the finite ones that are read. -/
theorem stored_iff :
    Stored type value ↔ (∃ json, ofJson type json = .ok value) ∧ value.isFinite = true := by
  constructor
  · rintro ⟨json, writes, reads⟩
    exact ⟨⟨json, reads⟩, finite_of_reads value writes reads⟩
  · rintro ⟨⟨json, reads⟩, finite⟩
    exact stored_of_reads reads finite

/-- Under a type these are the finite values of the type with texts for paths. -/
theorem stored_typed_iff {type : ValueType} :
    Stored (some type) value ↔
      type.admits value = true ∧ value.isFinite = true ∧ value.IsUnicode := by
  constructor
  · intro stored
    obtain ⟨⟨json, reads⟩, finite⟩ := stored_iff.mp stored
    exact ⟨admits_of_ofJson reads, finite, isUnicode_of_ofJson json reads⟩
  · rintro ⟨admitted, finite, unicode⟩
    exact stored_of_admits type admitted finite unicode

/-- What is read under a type is of the type. A value is read back from its JSON form, as itself,
if and only if it is finite, of the type, and its paths are texts; or without a type, if it is
finite and one that is read. -/
theorem defaults_stored_exactly :
    (∀ (type : ValueType) (json : Json) (value : Value),
      ofJson (some type) json = .ok value → type.admits value = true) ∧
    (∀ (type : ValueType) (value : Value), Stored (some type) value ↔
      type.admits value = true ∧ value.isFinite = true ∧ value.IsUnicode) ∧
    ∀ value : Value,
      Stored none value ↔ (∃ json, ofJson none json = .ok value) ∧ value.isFinite = true := by
  refine ⟨fun type json value reads => ?_, fun type value => ?_, fun value => ?_⟩
  · exact admits_of_ofJson reads
  · exact stored_typed_iff
  · exact stored_iff

/-- Lists of numbers: one of them is a text, and one stands for the list of itself. -/
def nestedNumbers : Json :=
  .array [.array [.number (.int 1), .string " -0.5 "], .number (.int 3)]

theorem defaults_stored_exactly_sample : ∃ value plain,
    ofJson (some (.list (.list .float))) nestedNumbers = .ok value ∧
    (ValueType.list (.list .float)).admits value = true ∧ value.isFinite = true ∧
    value.IsUnicode ∧ Stored (some (.list (.list .float))) value ∧
    ofJson none nestedNumbers = .ok plain ∧ plain.isFinite = true ∧ Stored none plain ∧
    Stored (some (.list .path)) (list [path (.ofText "src/\u00E9"), path (.ofText "")]) := by
  obtain ⟨value, reads, finite⟩ : ∃ value,
      ofJson (some (.list (.list .float))) nestedNumbers = .ok value ∧ value.isFinite = true :=
    ⟨_, rfl, rfl⟩
  obtain ⟨plain, readsPlain, finitePlain⟩ : ∃ plain,
      ofJson none nestedNumbers = .ok plain ∧ plain.isFinite = true := ⟨_, rfl, rfl⟩
  obtain ⟨conforms, typed, untyped⟩ := defaults_stored_exactly
  have admitted := conforms _ _ _ reads
  have unicode := isUnicode_of_ofJson _ reads
  have texts : IsUnicode (list [path (.ofText "src/\u00E9"), path (.ofText "")]) :=
    List.forall_mem_cons.mpr ⟨FilePath.isUnicode_ofText _,
      List.forall_mem_singleton.mpr (FilePath.isUnicode_ofText _)⟩
  exact ⟨value, plain, reads, admitted, finite, unicode,
    (typed _ _).mpr ⟨admitted, finite, unicode⟩, readsPlain, finitePlain,
    (untyped _).mpr ⟨⟨_, readsPlain⟩, finitePlain⟩, (typed _ _).mpr ⟨rfl, rfl, texts⟩⟩

/-- A path of one byte that is part of no text. -/
def strayByte : Value := path ⟨[0xFF]⟩

/-- The JSON form of that path is a replacement character, which is read as another path. -/
theorem stray_byte_replaced :
    ValueType.path.admits strayByte = true ∧ strayByte.isFinite = true ∧
      strayByte.toJson? = some (.string "\uFFFD") ∧
      (∃ back, ofJson (some .path) (.string "\uFFFD") = .ok back ∧
        back.equal strayByte = false) ∧
      ¬ Stored (some .path) strayByte := by
  refine ⟨rfl, rfl, rfl, ⟨path (.ofText "\uFFFD"), rfl, by decide +kernel⟩, ?_⟩
  intro stored
  have unicode := (stored_typed_iff.mp stored).2.2
  exact absurd (unicode _ List.mem_cons_self) (by decide +kernel)

end Value
end CommandGrammar
