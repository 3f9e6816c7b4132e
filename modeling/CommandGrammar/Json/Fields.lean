import CommandGrammar.Json.Syntax
import CommandGrammar.Keyed

/-! Reading JSON text as a record. A record is an object, or an array of its fields in order.
Members with other names are not looked at; a field may not be given twice. Values that are looked
at may nest only so deep. -/
namespace CommandGrammar
namespace RawJson

/-- A reader of values below a level that still allows so many levels of nesting. -/
abbrev Reader (α : Type) := Nat → RawJson → Option α

def text? : RawJson → Option String
  | string parts => (StringPart.decode? parts).map .ofList
  | _ => none

def bool? : RawJson → Option Bool
  | bool b => some b
  | _ => none

/-- A natural number below the limit, written as an integer. -/
def nat? (limit : Nat) : RawJson → Option Nat
  | number numeral =>
    match numeral.number? with
    | some (.int n) => if 0 ≤ n ∧ n < limit then some n.toNat else none
    | _ => none
  | _ => none

/-- The items of an array, which uses up one level. -/
def list? {α : Type} (read : Reader α) : Reader (List α)
  | levels + 1, array items => items.mapM (read levels)
  | _, _ => none

def texts? : Reader (List String) := list? fun _ => text?

mutual

/-- A JSON value; the members of an object are sorted, and the last one of a name counts. -/
def json? (levels : Nat) : RawJson → Option Json
  | null => some .null
  | bool b => some (.bool b)
  | number numeral => numeral.number?.map .number
  | string parts => (StringPart.decode? parts).map fun cs => .string (.ofList cs)
  | array items =>
    match levels with
    | 0 => none
    | levels + 1 => (jsonItems? levels items).map .array
  | object members =>
    match levels with
    | 0 => none
    | levels + 1 => (jsonMembers? levels members).map fun members => .object (Keyed.sorted members)

def jsonItems? (levels : Nat) : List RawJson → Option (List Json)
  | [] => some []
  | item :: rest => do
    let item ← item.json? levels
    let items ← jsonItems? levels rest
    some (item :: items)

def jsonMembers? (levels : Nat) :
    List (List StringPart × RawJson) → Option (List (String × Json))
  | [] => some []
  | (key, value) :: rest => do
    let key ← StringPart.decode? key
    let value ← value.json? levels
    let members ← jsonMembers? levels rest
    some ((.ofList key, value) :: members)

end

/-- The fields given of a record, under their names. -/
abbrev Fields := List (String × RawJson)

def namedMember? (member : List StringPart × RawJson) : Option (String × RawJson) :=
  (StringPart.decode? member.1).map fun cs => (.ofList cs, member.2)

def fields? (names : List String) : RawJson → Option Fields
  | array items => if items.length ≤ names.length then some (names.zip items) else none
  | object members => do
    let given ← members.mapM namedMember?
    let known := given.filter fun member => names.contains member.1
    if (known.map Prod.fst).Nodup then some known else none
  | _ => none

namespace Fields
variable {α : Type}

def required (fields : Fields) (name : String) (read : RawJson → Option α) : Option α :=
  (fields.lookup name).bind read

/-- A field that may be left out. -/
def withDefault (fields : Fields) (name : String) (default : α) (read : RawJson → Option α) :
    Option α :=
  match fields.lookup name with
  | none => some default
  | some value => read value

/-- A field that may be left out or null. -/
def optional (fields : Fields) (name : String) (read : RawJson → Option α) : Option (Option α) :=
  match fields.lookup name with
  | none | some null => some none
  | some value => (read value).map some

end Fields
end RawJson
end CommandGrammar
