import CommandGrammar.Text.Blank

/-! Directives are arguments of the form `[name]` or `[name:value]` in front of a command line. -/
namespace CommandGrammar
open Text

structure Directive where
  name : String
  value : Option String
deriving DecidableEq

namespace Directive

/-- A name is not empty and holds neither blanks nor brackets. -/
def isName (name : List Char) : Bool :=
  !name.isEmpty && name.all fun c => !(isBlank c || c == '[' || c == ']')

/-- The part before the first colon names the directive; the rest is its value. -/
def ofBody (body : List Char) : Option Directive :=
  let name := body.takeWhile (· != ':')
  if isName name then
    some ⟨.ofList name, match body.dropWhile (· != ':') with
      | [] => none
      | _ :: value => some (.ofList value)⟩
  else none

def parse? (raw : String) : Option Directive :=
  match raw.toList with
  | '[' :: rest => if rest.getLast? = some ']' then ofBody rest.dropLast else none
  | _ => none

end Directive
end CommandGrammar
