import CommandGrammar.Arity
import CommandGrammar.Text.Blank
import CommandGrammar.Value

/-! The declared types of values: their names, the values that conform to them, and the conversion
of a single argument. Lists nest to any depth, and a list type converts one argument to a list of
one item. -/
namespace CommandGrammar
open Text

inductive ValueType where
  | string
  | bool
  | int
  | float
  | path
  | list (element : ValueType)
deriving DecidableEq

namespace ValueType

def name : ValueType → String
  | string => "string"
  | bool => "bool"
  | int => "int"
  | float => "float"
  | path => "path"
  | list element => "list<" ++ element.name ++ ">"

/-- The scalar types with the words that name them. -/
def words : List (String × ValueType) :=
  [("string", string), ("str", string), ("bool", bool), ("boolean", bool), ("int", int),
    ("integer", int), ("float", float), ("number", float), ("path", path), ("file", path)]

/-- The text between `list<` and `>`. -/
def listBody? (cs : List Char) : Option { body : List Char // body.length < cs.length } :=
  match cs with
  | 'l' :: 'i' :: 's' :: 't' :: '<' :: rest =>
    if rest.getLast? = some '>' then
      some ⟨rest.dropLast, by simp only [List.length_dropLast, List.length_cons]; omega⟩
    else none
  | _ => none

/-- Blanks are free around a name and inside the angle brackets, but not in front of `<`. -/
def parseChars? (cs : List Char) : Option ValueType :=
  match listBody? (trimChars cs) with
  | some ⟨body, _⟩ => (parseChars? body).map list
  | none => words.lookup (.ofList (trimChars cs))
termination_by cs.length
decreasing_by
  have := length_trimChars_le cs
  omega

def parse? (text : String) : Option ValueType :=
  parseChars? text.toList

def isList : ValueType → Bool
  | list _ => true
  | _ => false

/-- The type of each single value of a multi-valued argument. -/
def element : ValueType → ValueType
  | list element => element
  | scalar => scalar

/-- The arity of an argument that declares a type only. -/
def defaultArity (forCommand : Bool) : ValueType → Arity
  | bool => .zeroOrOne
  | list _ => if forCommand then .zeroOrMore else .oneOrMore
  | _ => .exactlyOne

/-- Whether the value has the shape of the type; an integer does not count as a float. -/
def admits : ValueType → Value → Bool
  | string, .string _ => true
  | bool, .bool _ => true
  | int, .int _ => true
  | float, .float _ => true
  | path, .path _ => true
  | list element, .list items => items.all element.admits
  | _, _ => false

def conversionMessage (raw : String) (type : ValueType) : String :=
  s!"Cannot parse argument '{raw}' as expected type {type.name}."

/-- Converts one argument. Numbers may have blanks around them, words may not. -/
def convert : ValueType → String → Except String Value
  | string, raw => .ok (.string raw)
  | path, raw => .ok (.path (.ofText raw))
  | bool, raw =>
    let word := lowercase raw
    if word = "true" then .ok (.bool true)
    else if word = "false" then .ok (.bool false)
    else .error (conversionMessage raw bool)
  | int, raw =>
    match Decimal.int64? (trimChars raw.toList) with
    | some n => .ok (.int n)
    | none => .error (conversionMessage raw int)
  | float, raw =>
    match Binary64.parse? (trimChars raw.toList) with
    | some x => .ok (.float x)
    | none => .error (conversionMessage raw float)
  | list element, raw => (element.convert raw).map fun item => .list [item]

/-- The words that a type itself suggests. -/
def suggestions (type : ValueType) : List String :=
  if type.element = bool then ["false", "true"] else []

end ValueType
end CommandGrammar
