import CommandGrammar.Declaration
import CommandGrammar.GrammarFile
import CommandGrammar.Value.Json

/-! The grammar that a file describes. Options are declared in front of subcommands. What is wrong
with an argument is told before anything about the names of symbols. -/
namespace CommandGrammar

inductive ArgumentError where
  | unknownType (name : String)
  | badDefault (error : DefaultError)

def ArgumentError.message : ArgumentError → String
  | unknownType name => s!"unknown value-type '{name}'"
  | badDefault error => error.message

inductive GrammarError where
  | commandArgument (command : String) (error : ArgumentError)
  | optionArgument (option : String) (error : ArgumentError)
  | build (command : String) (error : BuildError)

/-- What went wrong, from the outside inwards. -/
def GrammarError.chain : GrammarError → List String
  | commandArgument command error => [s!"argument of command '{command}'", error.message]
  | optionArgument option error => [s!"argument of option '{option}'", error.message]
  | build command error => [s!"invalid grammar for command '{command}'", error.message]

def ArityEntry.toArity (entry : ArityEntry) : Arity := ⟨entry.min, entry.max.getD Arity.unbounded⟩

namespace ArgumentEntry

def declaredType (entry : ArgumentEntry) : Except ArgumentError (Option ValueType) :=
  match entry.type with
  | none => .ok none
  | some name =>
    match ValueType.parse? name with
    | none => .error (.unknownType name)
    | some type => .ok (some type)

def defaultValue (entry : ArgumentEntry) (type : Option ValueType) :
    Except ArgumentError (Option Value) :=
  match entry.default with
  | none => .ok none
  | some json => ((Value.ofJson type json).map some).mapError .badDefault

def validators (entry : ArgumentEntry) : List Validator :=
  (if entry.existingFiles then [.existingFiles] else []) ++
    (if entry.existingDirectories then [.existingDirectories] else []) ++
    if entry.legalPaths then [.legalPaths] else []

def draft (entry : ArgumentEntry) : Except ArgumentError ArgumentDraft := do
  let type ← entry.declaredType
  let default ← entry.defaultValue type
  .ok { name := entry.name
        description := entry.description
        type, default
        validators := entry.validators
        allowed := entry.allowed
        suggestions := entry.suggestions
        arity := entry.arity.map ArityEntry.toArity }

/-- The draft of an argument, which may be missing. -/
def draftOf (entry : Option ArgumentEntry) : Except ArgumentError ArgumentDraft :=
  match entry with
  | none => .ok {}
  | some entry => entry.draft

end ArgumentEntry

namespace OptionEntry

def declaration (entry : OptionEntry) : Except GrammarError Declaration := do
  let label := entry.aliases.headD "?"
  let argument ← (ArgumentEntry.draftOf entry.argument).mapError (.optionArgument label)
  .ok (.option { entry with argument })

end OptionEntry

namespace CommandEntry

mutual

def declaration : CommandEntry → Except GrammarError Declaration
  | entry@{ commands, .. } => do
    let argument ← (ArgumentEntry.draftOf entry.argument).mapError (.commandArgument entry.name)
    let options ← entry.options.mapM OptionEntry.declaration
    let subcommands ← declarations commands
    let heading : Heading :=
      { aliases := entry.name :: entry.aliases
        description := entry.description
        hidden := entry.hidden
        argument }
    .ok (.command heading entry.subcommandRequired (entry.strict.getD true)
      (options ++ subcommands))

def declarations : List CommandEntry → Except GrammarError (List Declaration)
  | [] => .ok []
  | entry :: rest => do
    let first ← entry.declaration
    let others ← declarations rest
    .ok (first :: others)

end

end CommandEntry

namespace GrammarFile

def build (file : GrammarFile) : Except GrammarError Symbol := do
  let declaration ← file.command.declaration
  declaration.build.mapError (.build file.command.name)

end GrammarFile
end CommandGrammar
