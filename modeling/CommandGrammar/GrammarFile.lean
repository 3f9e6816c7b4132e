import CommandGrammar.Json

/-! The content of a grammar file: a command with its argument, options and subcommands, as it is
written down. Types are still names and defaults still JSON values. -/
namespace CommandGrammar

/-- Bounds of an arity; without upper bound there is none. -/
structure ArityEntry where
  min : Nat
  max : Option Nat
deriving DecidableEq

structure ArgumentEntry where
  name : Option String := none
  description : String := ""
  type : Option String := none
  arity : Option ArityEntry := none
  default : Option Json := none
  allowed : List String := []
  suggestions : List String := []
  existingFiles : Bool := false
  existingDirectories : Bool := false
  legalPaths : Bool := false

structure OptionEntry where
  aliases : List String
  name : Option String := none
  description : String := ""
  hidden : Bool := false
  argument : Option ArgumentEntry := none

structure CommandEntry where
  /-- The first alias. -/
  name : String
  aliases : List String := []
  description : String := ""
  hidden : Bool := false
  subcommandRequired : Option Bool := none
  strict : Option Bool := none
  argument : Option ArgumentEntry := none
  options : List OptionEntry := []
  commands : List CommandEntry := []

structure GrammarFile where
  version : Nat
  command : CommandEntry

namespace GrammarFile

/-- The one version of the format. -/
def currentVersion : Nat := 1

def ofCommand (command : CommandEntry) : GrammarFile := ⟨currentVersion, command⟩

end GrammarFile
end CommandGrammar
