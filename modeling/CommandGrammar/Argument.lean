import CommandGrammar.Validator
import CommandGrammar.Value.Type

/-! The argument of a command or an option: how many values it takes, what they are converted to,
and what completes them. A draft may leave the arity open; it then follows from the declared type,
or is one value for a converter, or none. -/
namespace CommandGrammar

structure ArgumentTraits where
  name : Option String := none
  description : String := ""
  type : Option ValueType := none
  default : Option Value := none
  /-- Replaces the conversion by type; it is given all values at once. -/
  converter : Option (List String → Except String Value) := none
  validators : List Validator := []
  /-- If there are any, no other value is accepted. -/
  allowed : List String := []
  suggestions : List String := []
  /-- Further suggestions that depend on the text to complete. -/
  sources : List (String → List String) := []

structure Argument extends ArgumentTraits where
  arity : Arity

structure ArgumentDraft extends ArgumentTraits where
  arity : Option Arity := none

namespace ArgumentDraft

def effectiveArity (draft : ArgumentDraft) (forCommand : Bool) : Arity :=
  match draft.arity, draft.type with
  | some arity, _ => arity
  | none, some type => type.defaultArity forCommand
  | none, none => if draft.converter.isSome then .exactlyOne else .zero

/-- The argument with its arity settled and each allowed value listed once. -/
def settle (draft : ArgumentDraft) (forCommand : Bool) : Argument :=
  { draft with
    arity := draft.effectiveArity forCommand
    allowed := draft.allowed.eraseDups }

end ArgumentDraft

namespace Argument

/-- A single boolean, for which presence alone means true. -/
def isFlag (argument : Argument) : Bool :=
  argument.arity.max == 1 && argument.type == some .bool

def allows (argument : Argument) (text : String) : Bool :=
  argument.allowed.isEmpty || argument.allowed.contains text

def convert (argument : Argument) (texts : List String) : Except String Value :=
  if argument.arity.max = 0 then .ok .unit
  else
    match argument.converter with
    | some converter => converter texts
    | none =>
      let type := argument.type.getD .string
      if argument.arity.max = 1 then
        match texts with
        | [] => .ok .unit
        | text :: _ => type.convert text
      else (texts.mapM type.element.convert).map .list

/-- All candidates for a value, whether or not they fit the text to complete. -/
def suggest (argument : Argument) (text : String) : List String :=
  argument.suggestions ++ argument.allowed ++ argument.sources.flatMap (· text) ++
    match argument.type with
    | some type => type.suggestions
    | none => []

end Argument
end CommandGrammar
