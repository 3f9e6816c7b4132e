import CommandGrammar.Parse

/-! Looking up occurrences and values by name, the innermost command first. Values are found under
lookup keys, so that letter case, dashes and underscores do not count; a value asked for under a
type is given in that type or not at all. -/
namespace CommandGrammar

/-- Where a value may come from. -/
inductive Source where
  | anywhere
  | options
  | arguments
deriving DecidableEq

/-- A value that is asked for. -/
structure Request where
  name : String
  type : Option ValueType := none
  source : Source := .anywhere

namespace Resolved

def value? (resolved : Resolved) : Option Value := resolved.verdict.value?

/-- The value in the given type, converted again from the arguments if it has another one. -/
def valueAs? (resolved : Resolved) (value : Value) : Option ValueType → Option Value
  | none => some value
  | some type =>
    if type.admits value then some value
    else
      match value, type, resolved.texts with
      | .unit, .bool, _ => some (.bool true)
      | .unit, _, _ => none
      | _, .list element, text :: texts =>
        ((text :: texts).mapM element.convert).toOption.map .list
      | _, type, text :: _ => (type.convert text).toOption
      | value, type, [] => (type.convert value.text).toOption

def hasKey (resolved : Resolved) (key : String) : Bool :=
  Alias.lookupKey resolved.symbol.name == key ||
    resolved.symbol.aliases.any fun own => Alias.lookupKey own == key

end Resolved

namespace Parse

/-- The first occurrence under the given one that is called by the name. -/
def child? (parse : Parse) (i : Nat) (name : String) : Option (Nat × Resolved) :=
  (parse.children i).find? fun entry => entry.2.symbol.isCalled name

/-- A command on the path called by the name, or else what is called so under it. -/
def findAt? (parse : Parse) (name : String) (frame : Frame) : Option (Nat × Resolved) :=
  if frame.command.isCalled name then
    (parse.occurrences[frame.occurrence]?).map fun resolved => (frame.occurrence, resolved)
  else parse.child? frame.occurrence name

def find? (parse : Parse) (name : String) : Option (Nat × Resolved) :=
  parse.path.toList.findSome? (parse.findAt? name)

def valueFor? (parse : Parse) (name : String) : Option Value :=
  (parse.find? name).bind fun entry => entry.2.value?

def optionAt? (parse : Parse) (key : String) (frame : Frame) : Option Resolved :=
  ((parse.children frame.occurrence).find? fun entry =>
    entry.2.kind == .option && entry.2.hasKey key).map Prod.snd

/-- The command itself, if its argument takes values and has the key. -/
def argumentAt? (parse : Parse) (key : String) (frame : Frame) : Option Resolved :=
  let argument := frame.command.argument
  if argument.arity.takesValues && (argument.name.map Alias.lookupKey) == some key then
    parse.occurrences[frame.occurrence]?
  else none

def lookupAt? (parse : Parse) (key : String) (source : Source) (frame : Frame) :
    Option Resolved :=
  let option := if source = .arguments then none else parse.optionAt? key frame
  let argument := if source = .options then none else parse.argumentAt? key frame
  option.or argument

def lookup? (parse : Parse) (key : String) (source : Source) : Option Resolved :=
  parse.path.toList.findSome? (parse.lookupAt? key source)

/-- The value that answers a request. -/
def request? (parse : Parse) (request : Request) : Option Value := do
  let resolved ← parse.lookup? (Alias.lookupKey request.name) request.source
  let value ← resolved.value?
  resolved.valueAs? value request.type

/-- The value under a name, in whatever type it has. -/
def get? (parse : Parse) (name : String) : Option Value :=
  parse.request? ⟨name, none, .anywhere⟩

/-- The answers to all requests that have one, under their names. -/
def bind (parse : Parse) (requests : List Request) : Keyed Value :=
  .ofList (requests.filterMap fun request =>
    (parse.request? request).map fun value => (request.name, value))

end Parse
end CommandGrammar
