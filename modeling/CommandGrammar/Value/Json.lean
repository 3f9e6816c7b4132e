import CommandGrammar.Json
import CommandGrammar.Value.Type

/-! Values as JSON. A string is converted to the declared type, a number may widen to a float, and
a single item stands for a list of one. The unit has no JSON form, and that of a path is the text
that shows it. -/
namespace CommandGrammar

inductive DefaultError where
  | unconvertible (message : String)
  | unsupported
  | mismatch (json : Json) (type : ValueType)

def DefaultError.message : DefaultError → String
  | unconvertible message => s!"invalid default value: {message}"
  | unsupported => "default value must be a string, number, boolean or array"
  | mismatch json type => s!"invalid default value {json.text}: expected {type.name}"

namespace JsonNumber

def int64? : JsonNumber → Option Int64
  | int n =>
    if Int64.minValue.toInt ≤ n ∧ n ≤ Int64.maxValue.toInt then some (.ofInt n) else none
  | float _ => none

def toBinary64 : JsonNumber → Binary64
  | int n => .ofInt n
  | float x => x

end JsonNumber

namespace Value

/-- The value in the shape of the type, or a list of one if the type is that of its items. -/
def fit (json : Json) (type : Option ValueType) (value : Value) : Except DefaultError Value :=
  match type with
  | none => .ok value
  | some type =>
    if type.admits value then .ok value
    else
      match type with
      | .list element =>
        if element.admits value then .ok (list [value]) else .error (.mismatch json type)
      | _ => .error (.mismatch json type)

/-- An integer unless a float is wanted or it is too large for one. -/
def ofNumber (type : Option ValueType) (n : JsonNumber) : Value :=
  if type.map ValueType.element = some .float then float n.toBinary64
  else
    match n.int64? with
    | some n => int n
    | none => float n.toBinary64

def ofText (type : Option ValueType) (text : String) : Except DefaultError Value :=
  match type with
  | none => .ok (string text)
  | some type => (type.convert text).mapError .unconvertible

mutual

/-- The value that a JSON document means under a declared type. -/
def ofJson (type : Option ValueType) : Json → Except DefaultError Value
  | .string text => (ofText type text).bind (fit (.string text) type)
  | .bool b => fit (.bool b) type (bool b)
  | .number n => fit (.number n) type (ofNumber type n)
  | .array items =>
    (ofItems (type.map ValueType.element) items).bind fun values =>
      fit (.array items) type (list values)
  | .null | .object _ => .error .unsupported

def ofItems (type : Option ValueType) : List Json → Except DefaultError (List Value)
  | [] => .ok []
  | item :: rest => do
    let value ← ofJson type item
    let values ← ofItems type rest
    .ok (value :: values)

end

mutual

/-- Units among the items of a list are left out, and a float that is not finite is null. -/
def toJson? : Value → Option Json
  | unit => none
  | bool b => some (.bool b)
  | int n => some (.number (.int n.toInt))
  | float x => some (if x.isFinite then .number (.float x) else .null)
  | string text => some (.string text)
  | path file => some (.string file.display)
  | list items => some (.array (toJsons items))

def toJsons : List Value → List Json
  | [] => []
  | item :: rest => item.toJson?.toList ++ toJsons rest

end

end Value
end CommandGrammar
