import CommandGrammar.GrammarFile.Writer
import CommandGrammar.Proofs.JsonText
import CommandGrammar.Proofs.Keyed

/-! Records read back from what they are written as. A reader goes with the way in which its values
are written: what it has read it reads again as the same. A record is written as slots, one for each
field and in the order of its fields, and each field finds its own slot again. -/
namespace CommandGrammar

namespace Json

/-- All numbers of a value are read again from their text. -/
def ReadsBack (json : Json) : Prop := ∀ n ∈ json.numbers, n.ReadsBack

/-- The numbers that are not integers are read again from their text. -/
def FloatsReadBack (json : Json) : Prop :=
  ∀ x, .float x ∈ json.numbers → (JsonNumber.float x).ReadsBack

theorem mem_itemNumbers {n : JsonNumber} {items : List Json} :
    n ∈ itemNumbers items ↔ ∃ item ∈ items, n ∈ item.numbers := by
  induction items with
  | nil => simp [itemNumbers]
  | cons item rest ih => simp [itemNumbers, ih]

theorem mem_memberNumbers {n : JsonNumber} {members : List (String × Json)} :
    n ∈ memberNumbers members ↔ ∃ member ∈ members, n ∈ member.2.numbers := by
  induction members with
  | nil => simp [memberNumbers]
  | cons member rest ih => simp [memberNumbers, ih]

theorem readsBack_array {items : List Json} :
    (array items).ReadsBack ↔ ∀ item ∈ items, item.ReadsBack := by
  constructor
  · intro all item member n held
    exact all n (mem_itemNumbers.mpr ⟨item, member, held⟩)
  · intro each n held
    obtain ⟨item, member, held⟩ := mem_itemNumbers.mp held
    exact each item member n held

theorem readsBack_object {members : List (String × Json)} :
    (object members).ReadsBack ↔ ∀ member ∈ members, member.2.ReadsBack := by
  constructor
  · intro all value member n held
    exact all n (mem_memberNumbers.mpr ⟨value, member, held⟩)
  · intro each n held
    obtain ⟨value, member, held⟩ := mem_memberNumbers.mp held
    exact each value member n held

theorem FloatsReadBack.item {items : List Json} (floats : (array items).FloatsReadBack) :
    ∀ item ∈ items, item.FloatsReadBack :=
  fun item member x held => floats x (mem_itemNumbers.mpr ⟨item, member, held⟩)

theorem FloatsReadBack.member {members : List (String × Json)}
    (floats : (object members).FloatsReadBack) :
    ∀ member ∈ members, member.2.FloatsReadBack :=
  fun value member x held => floats x (mem_memberNumbers.mpr ⟨value, member, held⟩)

theorem raws_eq_map (items : List Json) : raws items = items.map raw := by
  induction items with
  | nil => rfl
  | cons item rest ih => rw [raws, ih, List.map_cons]

/-- A value that is left out if it says nothing. -/
def shownUnless (empty : Bool) (json : Json) : Option Json := if empty then none else some json

theorem textMember_eq (name text : String) :
    textMember name text = optionalMember name (shownUnless text.isEmpty (string text)) := by
  unfold textMember shownUnless
  split <;> rfl

theorem listMember_eq (name : String) (items : List Json) :
    listMember name items = optionalMember name (shownUnless items.isEmpty (array items)) := by
  unfold listMember shownUnless
  split <;> rfl

/-- An object of those members that have a value. -/
def record (slots : List (String × Option Json)) : Json :=
  object (slots.flatMap fun slot => optionalMember slot.1 slot.2)

theorem mem_record {slots : List (String × Option Json)} {member : String × Json} :
    member ∈ slots.flatMap (fun slot => optionalMember slot.1 slot.2) ↔
      ∃ slot ∈ slots, member.1 = slot.1 ∧ slot.2 = some member.2 := by
  obtain ⟨key, value⟩ := member
  rw [List.mem_flatMap]
  refine exists_congr fun slot => and_congr_right fun _ => ?_
  cases slot.2 <;> simp [optionalMember, eq_comm]

theorem readsBack_record {slots : List (String × Option Json)}
    (each : ∀ slot ∈ slots, ∀ json ∈ slot.2, json.ReadsBack) : (record slots).ReadsBack := by
  refine readsBack_object.mpr fun member held => ?_
  obtain ⟨slot, known, -, filled⟩ := mem_record.mp held
  exact each slot known member.2 filled

theorem FloatsReadBack.slot {slots : List (String × Option Json)}
    (floats : (record slots).FloatsReadBack) :
    ∀ slot ∈ slots, ∀ json ∈ slot.2, json.FloatsReadBack :=
  fun slot known json filled =>
    floats.member (slot.1, json) (mem_record.mpr ⟨slot, known, rfl, filled⟩)

end Json

namespace RawJson
open Json StringPart

/-- What a reader has read is written as something that it reads as the same. -/
structure Rereads {α : Type} (read : RawJson → Option α) (write : α → Json) : Prop where
  again : ∀ {json a}, read json = some a → (write a).FloatsReadBack →
    (write a).ReadsBack ∧ read (write a).raw = some a
  null : ∀ {json a}, read json = some a → (write a).raw = null → json = null

theorem rereads_text : Rereads text? Json.string where
  again := by
    intro _ text _ _
    refine ⟨fun _ member => absurd member List.not_mem_nil, ?_⟩
    rw [Json.raw, text?, decode_ofText, Option.map_some, String.ofList_toList]
  null := nofun

theorem rereads_bool : Rereads bool? Json.bool where
  again := fun _ _ => ⟨fun _ member => absurd member List.not_mem_nil, rfl⟩
  null := nofun

theorem nat_lt {limit m : Nat} {json : RawJson} (read : json.nat? limit = some m) : m < limit := by
  unfold nat? at read
  split at read
  · split at read
    · split at read
      · rename_i fits
        cases read
        omega
      · contradiction
    · contradiction
  · contradiction

/-- Natural numbers are integers of 64 bits, so their text needs no assumption. -/
theorem nat_ofNat {limit m : Nat} (bound : limit ≤ Numeral.wordCount) (below : m < limit) :
    (Json.ofNat m).ReadsBack ∧ (Json.ofNat m).raw.nat? limit = some m := by
  have readsBack : (JsonNumber.int m).ReadsBack := JsonNumber.readsBack_natural (by omega)
  refine ⟨fun n member => List.mem_singleton.mp member ▸ readsBack, ?_⟩
  rw [Json.ofNat, Json.raw, nat?, readsBack.numeral.2]
  simp [below]

theorem rereads_nat {limit : Nat} (bound : limit ≤ Numeral.wordCount) :
    Rereads (nat? limit) Json.ofNat where
  again := fun read _ => nat_ofNat bound (nat_lt read)
  null := nofun

section Lists
variable {α : Type} {read : RawJson → Option α} {write : α → Json} {as : List α}

theorem mapM_again (rereads : Rereads read write) {items : List RawJson}
    (given : items.mapM read = some as) (floats : ∀ a ∈ as, (write a).FloatsReadBack) :
    (∀ a ∈ as, (write a).ReadsBack) ∧ (as.map fun a => (write a).raw).mapM read = some as := by
  induction items generalizing as with
  | nil =>
    cases given
    exact ⟨fun _ member => absurd member List.not_mem_nil, rfl⟩
  | cons item rest ih =>
    rw [List.mapM_cons] at given
    obtain ⟨first, readFirst, given⟩ := Option.bind_eq_some_iff.mp given
    obtain ⟨others, readOthers, given⟩ := Option.bind_eq_some_iff.mp given
    cases given
    obtain ⟨floatsFirst, floatsOthers⟩ := List.forall_mem_cons.mp floats
    obtain ⟨readsBackFirst, firstAgain⟩ := rereads.again readFirst floatsFirst
    obtain ⟨readsBackOthers, othersAgain⟩ := ih readOthers floatsOthers
    refine ⟨List.forall_mem_cons.mpr ⟨readsBackFirst, readsBackOthers⟩, ?_⟩
    rw [List.map_cons, List.mapM_cons, firstAgain, othersAgain]
    rfl

theorem rereads_list {read : Reader α} {levels : Nat}
    (rereads : ∀ below, levels = below + 1 → Rereads (read below) write) :
    Rereads (list? read levels) fun as => Json.array (as.map write) where
  again := by
    intro json as given floats
    cases levels with
    | zero => simp [list?] at given
    | succ levels =>
      cases json with
      | array items =>
        have each : ∀ a ∈ as, (write a).FloatsReadBack := fun a member =>
          floats.item (write a) (List.mem_map_of_mem member)
        obtain ⟨readsBack, again⟩ := mapM_again (rereads levels rfl) given each
        refine ⟨readsBack_array.mpr (List.forall_mem_map.mpr readsBack), ?_⟩
        rw [Json.raw, raws_eq_map, List.map_map]
        exact again
      | null | bool | number | string | object => contradiction
  null := nofun

end Lists

theorem jsonItems_raws {levels : Nat} {items : List Json}
    (each : ∀ item ∈ items, item.raw.json? levels = some item) :
    jsonItems? levels (raws items) = some items := by
  induction items with
  | nil => rfl
  | cons item rest ih =>
    obtain ⟨first, others⟩ := List.forall_mem_cons.mp each
    rw [raws, jsonItems?, first, ih others]
    rfl

theorem jsonMembers_raws {levels : Nat} {members : List (String × Json)}
    (each : ∀ member ∈ members, member.2.raw.json? levels = some member.2) :
    jsonMembers? levels (rawMembers members) = some members := by
  induction members with
  | nil => rfl
  | cons member rest ih =>
    obtain ⟨first, others⟩ := List.forall_mem_cons.mp each
    rw [rawMembers, jsonMembers?, decode_ofText, first, ih others]
    simp [String.ofList_toList]

mutual

theorem json_again {levels : Nat} (raw : RawJson) {json : Json}
    (read : raw.json? levels = some json) (floats : json.FloatsReadBack) :
    json.ReadsBack ∧ json.raw.json? levels = some json := by
  cases raw with
  | null | bool =>
    cases read
    exact ⟨fun _ member => absurd member List.not_mem_nil, rfl⟩
  | number numeral =>
    obtain ⟨n, meant, same⟩ := Option.map_eq_some_iff.mp read
    cases same
    have readsBack : n.ReadsBack := by
      cases n with
      | int n => exact JsonNumber.readsBack_int meant
      | float x => exact floats x List.mem_cons_self
    refine ⟨fun m member => List.mem_singleton.mp member ▸ readsBack, ?_⟩
    rw [Json.raw, json?, readsBack.numeral.2, Option.map_some]
  | string parts =>
    obtain ⟨cs, decoded, same⟩ := Option.map_eq_some_iff.mp read
    cases same
    refine ⟨fun _ member => absurd member List.not_mem_nil, ?_⟩
    rw [Json.raw, json?, decode_ofText, Option.map_some, String.ofList_toList]
  | array items =>
    cases levels with
    | zero => simp [json?] at read
    | succ levels =>
      obtain ⟨found, given, same⟩ := Option.map_eq_some_iff.mp read
      cases same
      have each := jsonItems_again items given
      refine ⟨readsBack_array.mpr fun item member => (each item member (floats.item item member)).1,
        ?_⟩
      rw [Json.raw, json?, jsonItems_raws fun item member =>
        (each item member (floats.item item member)).2]
      rfl
  | object members =>
    cases levels with
    | zero => simp [json?] at read
    | succ levels =>
      obtain ⟨found, given, same⟩ := Option.map_eq_some_iff.mp read
      cases same
      have each := jsonMembers_again members given
      have kept : ∀ member ∈ Keyed.sorted found,
          member.2.ReadsBack ∧ member.2.raw.json? levels = some member.2 := fun member held =>
        each member (Keyed.mem_sorted held) (floats.member member held)
      refine ⟨readsBack_object.mpr fun member held => (kept member held).1, ?_⟩
      rw [Json.raw, json?, jsonMembers_raws fun member held => (kept member held).2,
        Option.map_some, Keyed.sorted_of_ascending (Keyed.ascending_sorted found)]

theorem jsonItems_again {levels : Nat} (items : List RawJson) {jsons : List Json}
    (read : jsonItems? levels items = some jsons) :
    ∀ json ∈ jsons, json.FloatsReadBack → json.ReadsBack ∧ json.raw.json? levels = some json := by
  cases items with
  | nil =>
    cases read
    exact fun _ member => absurd member List.not_mem_nil
  | cons item rest =>
    obtain ⟨first, readFirst, read⟩ := Option.bind_eq_some_iff.mp read
    obtain ⟨others, readOthers, read⟩ := Option.bind_eq_some_iff.mp read
    cases read
    exact List.forall_mem_cons.mpr ⟨json_again item readFirst, jsonItems_again rest readOthers⟩

theorem jsonMembers_again {levels : Nat} (members : List (List StringPart × RawJson))
    {given : List (String × Json)} (read : jsonMembers? levels members = some given) :
    ∀ member ∈ given, member.2.FloatsReadBack →
      member.2.ReadsBack ∧ member.2.raw.json? levels = some member.2 := by
  cases members with
  | nil =>
    cases read
    exact fun _ member => absurd member List.not_mem_nil
  | cons member rest =>
    obtain ⟨key, value⟩ := member
    obtain ⟨key, named, read⟩ := Option.bind_eq_some_iff.mp read
    obtain ⟨first, readFirst, read⟩ := Option.bind_eq_some_iff.mp read
    obtain ⟨others, readOthers, read⟩ := Option.bind_eq_some_iff.mp read
    cases read
    exact List.forall_mem_cons.mpr ⟨json_again value readFirst, jsonMembers_again rest readOthers⟩

end

theorem rereads_json (levels : Nat) : Rereads (json? levels) id where
  again := fun {json} _ read floats => json_again json read floats
  null := by
    intro json value read written
    cases value with
    | null =>
      cases json with
      | null => rfl
      | bool | number | string => simp [json?] at read
      | array | object => cases levels <;> simp [json?] at read
    | bool | number | string | array | object => contradiction

/-- The members of a record under their names, as they are read again. -/
def slotFields (slots : List (String × Option Json)) : Fields :=
  slots.flatMap fun slot => slot.2.toList.map fun json => (slot.1, json.raw)

theorem slotFields_cons (name : String) (value : Option Json)
    (slots : List (String × Option Json)) :
    slotFields ((name, value) :: slots) =
      (value.toList.map fun json => (name, json.raw)) ++ slotFields slots :=
  List.flatMap_cons

theorem slotFields_keys (slots : List (String × Option Json)) :
    ((slotFields slots).map Prod.fst).Sublist (slots.map Prod.fst) := by
  induction slots with
  | nil => exact .slnil
  | cons slot rest ih =>
    obtain ⟨name, value⟩ := slot
    rw [slotFields_cons]
    cases value with
    | none => exact ih.cons name
    | some json => exact ih.cons_cons name

theorem lookup_slotFields {slots : List (String × Option Json)}
    (distinct : (slots.map Prod.fst).Nodup) :
    ∀ slot ∈ slots, (slotFields slots).lookup slot.1 = slot.2.map Json.raw := by
  induction slots with
  | nil => exact fun _ member => absurd member List.not_mem_nil
  | cons slot rest ih =>
    obtain ⟨name, value⟩ := slot
    obtain ⟨fresh, distinct⟩ := List.nodup_cons.mp distinct
    have absent : (slotFields rest).lookup name = none := by
      refine List.lookup_eq_none_iff.mpr fun field member => ?_
      rw [bne_iff_ne]
      rintro rfl
      exact fresh ((slotFields_keys rest).subset (List.mem_map_of_mem member))
    rw [slotFields_cons]
    refine List.forall_mem_cons.mpr ⟨?_, fun slot member => ?_⟩
    · cases value with
      | none => exact absent
      | some json => exact List.lookup_cons_self
    · have other : slot.1 ≠ name := by
        intro same
        exact fresh (List.mem_map.mpr ⟨slot, member, same⟩)
      rw [← ih distinct slot member]
      cases value with
      | none => rfl
      | some json => exact (Keyed.lookup_cons name json.raw _ slot.1).trans (if_neg other)

theorem namedMembers_raw (members : List (String × Json)) :
    (rawMembers members).mapM namedMember? =
      some (members.map fun member => (member.1, member.2.raw)) := by
  induction members with
  | nil => rfl
  | cons member rest ih =>
    rw [rawMembers, List.mapM_cons, ih, namedMember?, decode_ofText]
    simp [String.ofList_toList]

/-- The fields of a record that was written are its slots. -/
theorem fields_record {names : List String} (slots : List (String × Option Json))
    (named : slots.map Prod.fst = names) (distinct : names.Nodup) :
    (record slots).raw.fields? names = some (slotFields slots) := by
  have keys := named ▸ slotFields_keys slots
  have given : (rawMembers (slots.flatMap fun slot => optionalMember slot.1 slot.2)).mapM
      namedMember? = some (slotFields slots) := by
    rw [namedMembers_raw, List.map_flatMap]
    simp only [optionalMember, List.map_map]
    rfl
  have known : (slotFields slots).filter (fun member => names.contains member.1) =
      slotFields slots := by
    refine List.filter_eq_self.mpr fun field member => ?_
    exact List.contains_iff_mem.mpr (keys.subset (List.mem_map_of_mem member))
  rw [record, Json.raw, fields?, given, Option.bind_eq_bind, Option.bind_some]
  dsimp only
  rw [known]
  exact if_pos (distinct.sublist keys)

/-- What is found in some fields is found again in the slots that it is written in. -/
structure Restored {α : Type} (slots : List (String × Option Json)) (find : Fields → Option α)
    (a : α) : Prop where
  readsBack : (∀ slot ∈ slots, ∀ json ∈ slot.2, json.FloatsReadBack) →
    ∀ slot ∈ slots, ∀ json ∈ slot.2, json.ReadsBack
  again : (∀ slot ∈ slots, ∀ json ∈ slot.2, json.FloatsReadBack) →
    ∀ fields : Fields, (∀ slot ∈ slots, fields.lookup slot.1 = slot.2.map Json.raw) →
      find fields = some a

theorem restored_nil {α : Type} (a : α) : Restored [] (fun _ => some a) a where
  readsBack := nofun
  again := fun _ _ _ => rfl

theorem Restored.bind {α β : Type} {slot : String × Option Json}
    {slots : List (String × Option Json)} {find : Fields → Option α} {a : α}
    {next : Fields → α → Option β} {b : β} (first : Restored [slot] find a)
    (rest : Restored slots (next · a) b) :
    Restored (slot :: slots) (fun fields => (find fields).bind (next fields)) b where
  readsBack := by
    intro floats
    obtain ⟨floatsFirst, floatsRest⟩ := List.forall_mem_cons.mp floats
    exact List.forall_mem_cons.mpr
      ⟨first.readsBack (by simpa using floatsFirst) slot List.mem_cons_self,
        rest.readsBack floatsRest⟩
  again := by
    intro floats fields found
    obtain ⟨floatsFirst, floatsRest⟩ := List.forall_mem_cons.mp floats
    obtain ⟨foundFirst, foundRest⟩ := List.forall_mem_cons.mp found
    rw [first.again (by simpa using floatsFirst) fields (by simpa using foundFirst),
      Option.bind_some]
    exact rest.again floatsRest fields foundRest

theorem rereads_none {α : Type} {write : α → Json} : Rereads (fun _ => none) write where
  again := nofun
  null := nofun

/-- A record is read again if all its fields are. -/
theorem rereads_record {α : Type} {names : List String} {read : RawJson → Option α}
    {write : α → Json} {slots : α → List (String × Option Json)} {find : Fields → Option α}
    (opened : ∀ json, read json = (json.fields? names).bind find)
    (written : ∀ a, write a = record (slots a)) (named : ∀ a, (slots a).map Prod.fst = names)
    (distinct : names.Nodup)
    (restored : ∀ fields a, find fields = some a → Restored (slots a) find a) :
    Rereads read write where
  again := by
    intro json a given floats
    rw [opened] at given ⊢
    obtain ⟨fields, -, found⟩ := Option.bind_eq_some_iff.mp given
    rw [written] at floats ⊢
    have restored := restored fields a found
    refine ⟨readsBack_record (restored.readsBack floats.slot), ?_⟩
    rw [fields_record (slots a) (named a) distinct, Option.bind_some]
    exact restored.again floats.slot _ (lookup_slotFields (named a ▸ distinct))
  null := by
    intro json a _ nothing
    rw [written] at nothing
    contradiction

section Fields
variable {α β : Type} {read : RawJson → Option α} {write : α → Json}
  (rereads : Rereads read write) {fields : Fields} {name : String} {default a : α}
include rereads

theorem Rereads.restored {json : RawJson} (given : read json = some a)
    {find : Fields → Option β} {b : β}
    (finds : ∀ fields : Fields, fields.lookup name = some (write a).raw →
      read (write a).raw = some a → find fields = some b) :
    Restored [(name, some (write a))] find b := by
  have again (floats : ∀ slot ∈ [(name, some (write a))], ∀ json ∈ slot.2, json.FloatsReadBack) :=
    rereads.again given (floats _ List.mem_cons_self (write a) rfl)
  constructor
  case readsBack =>
    intro floats slot member json filled
    cases List.mem_singleton.mp member
    cases filled
    exact (again floats).1
  case again =>
    exact fun floats fields found =>
      finds fields (found _ List.mem_cons_self) (again floats).2

omit rereads in
/-- A field that is left out is restored if it is found to be missing. -/
theorem restored_missing {find : Fields → Option β} {b : β}
    (finds : ∀ fields : Fields, fields.lookup name = none → find fields = some b) :
    Restored [(name, none)] find b where
  readsBack := by
    intro _ slot member json filled
    cases List.mem_singleton.mp member
    contradiction
  again := fun _ fields found => finds fields (found _ List.mem_cons_self)

theorem restored_required (given : fields.required name read = some a) :
    Restored [(name, some (write a))] (·.required name read) a := by
  obtain ⟨json, _, given⟩ := Option.bind_eq_some_iff.mp given
  refine rereads.restored given fun fields found again => ?_
  rw [Fields.required, found]
  exact again

theorem restored_optional {a : Option α} (given : fields.optional name read = some a) :
    Restored [(name, a.map write)] (·.optional name read) a := by
  cases a with
  | none =>
    refine restored_missing fun fields missing => ?_
    rw [Fields.optional, missing]
  | some a =>
    -- A null counts as nothing, so what was read is not written as one.
    obtain ⟨json, filled, given⟩ : ∃ json, json ≠ null ∧ read json = some a := by
      unfold Fields.optional at given
      split at given
      · cases given
      · cases given
      · rename_i json filled _
        obtain ⟨_, read, same⟩ := Option.map_eq_some_iff.mp given
        cases same
        exact ⟨json, filled, read⟩
    refine rereads.restored given fun fields found again => ?_
    rw [Fields.optional, found]
    split
    · contradiction
    · rename_i nothing
      exact absurd (rereads.null given (Option.some.inj nothing)) filled
    · rename_i same
      cases same
      rw [again, Option.map_some]

omit rereads in
theorem withDefault_eq_some (given : fields.withDefault name default read = some a) :
    a = default ∨ ∃ json, read json = some a := by
  unfold Fields.withDefault at given
  split at given
  · exact .inl (Option.some.inj given).symm
  · exact .inr ⟨_, given⟩

/-- A field that is always written. -/
theorem restored_written (basis : ∃ json, read json = some default)
    (given : fields.withDefault name default read = some a) :
    Restored [(name, some (write a))] (·.withDefault name default read) a := by
  obtain ⟨json, given⟩ : ∃ json, read json = some a :=
    (withDefault_eq_some given).elim (fun same => same ▸ basis) id
  refine rereads.restored given fun fields found again => ?_
  rw [Fields.withDefault, found]
  exact again

/-- A field that is written only if it says something. -/
theorem restored_unless {empty : Bool} (blank : empty = true ↔ a = default)
    (given : fields.withDefault name default read = some a) :
    Restored [(name, shownUnless empty (write a))] (·.withDefault name default read) a := by
  cases empty with
  | true =>
    refine restored_missing fun fields missing => ?_
    rw [Fields.withDefault, missing, blank.mp rfl]
  | false =>
    have said : a ≠ default := fun same => absurd (blank.mpr same) (by decide)
    obtain ⟨json, given⟩ := (withDefault_eq_some given).resolve_left said
    refine rereads.restored given fun fields found again => ?_
    rw [Fields.withDefault, found]
    exact again

end Fields

end RawJson
end CommandGrammar
