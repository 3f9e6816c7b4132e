import CommandGrammar.Files
import CommandGrammar.Alias
import CommandGrammar.Token
import CommandGrammar.Value

/-! Checks on a converted value. A validator sees every command and option that was matched, but of
the values only the one it is asked about, since outcomes are recorded after all checks have run. -/
namespace CommandGrammar

/-- A matched command or option as a validator sees it. -/
structure Glimpse where
  isCommand : Bool
  name : String
  aliases : List String
  token : Token
  tokens : List Token
  parent : Option Nat
  implicit : Bool

/-- The occurrence under check, its value, and all occurrences around it. -/
structure View where
  subject : Glimpse
  value : Value
  all : List Glimpse

namespace View

def parent? (view : View) : Option Glimpse :=
  view.subject.parent.bind fun i => view.all[i]?

/-- The index of the parent, or of the subject itself if it has none. -/
def family (view : View) : Nat := view.subject.parent.getD 0

/-- What was matched under the same parent; under the subject itself if it has no parent. -/
def relatives (view : View) : List Glimpse :=
  view.all.filter fun other => other.parent == some view.family

def texts (view : View) : List String := view.subject.tokens.map Token.text

end View

inductive Validator where
  /-- Every argument names an existing file or directory. -/
  | existingFiles
  /-- Every argument names an existing directory. -/
  | existingDirectories
  /-- No argument holds a character that paths cannot hold. -/
  | legalPaths
  /-- A check of the user's own; a message that is not blank refuses the value. -/
  | custom (check : View → Option String)

namespace Validator

def missingFile? (files : Files) (path : String) : Option String :=
  match files.isDirectory path with
  | .ok _ => none
  | .error .notFound => some s!"File does not exist: {path}"
  | .error fault => some fault.message

def missingDirectory? (files : Files) (path : String) : Option String :=
  match files.isDirectory path with
  | .ok true => none
  | .ok false | .error .notFound => some s!"Directory does not exist: {path}"
  | .error fault => some fault.message

/-- NUL is the only character that no path can hold. -/
def illegalCharacter? (path : String) : Option String :=
  if '\x00' ∈ path.toList then some "Character not allowed in a path: \\u\x7b0\x7d" else none

def check (files : Files) (view : View) : Validator → Option String
  | existingFiles => view.texts.findSome? (missingFile? files)
  | existingDirectories => view.texts.findSome? (missingDirectory? files)
  | legalPaths => view.texts.findSome? illegalCharacter?
  | custom check => check view

end Validator
end CommandGrammar
