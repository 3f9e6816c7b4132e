import CommandGrammar.GrammarFile

/-! Grammar files written as JSON. Fields stand in a fixed order; what is empty or absent is left
out, while flags are always written. -/
namespace CommandGrammar

namespace Json

/-- A member that is written only if there is a value. -/
def optionalMember (name : String) (value : Option Json) : List (String × Json) :=
  value.toList.map fun json => (name, json)

def textMember (name text : String) : List (String × Json) :=
  if text.isEmpty then [] else [(name, string text)]

def listMember (name : String) (items : List Json) : List (String × Json) :=
  if items.isEmpty then [] else [(name, array items)]

def ofNat (n : Nat) : Json := number (.int n)

end Json

open Json

def ArityEntry.toJson (entry : ArityEntry) : Json :=
  object ([("min", ofNat entry.min)] ++ optionalMember "max" (entry.max.map ofNat))

def ArgumentEntry.toJson (entry : ArgumentEntry) : Json :=
  object (
    optionalMember "name" (entry.name.map string) ++
    textMember "description" entry.description ++
    optionalMember "value-type" (entry.type.map string) ++
    optionalMember "arity" (entry.arity.map ArityEntry.toJson) ++
    optionalMember "default" entry.default ++
    listMember "allowed-values" (entry.allowed.map string) ++
    listMember "suggestions" (entry.suggestions.map string) ++
    [("existing-files-only", bool entry.existingFiles),
      ("existing-directories-only", bool entry.existingDirectories),
      ("legal-file-paths-only", bool entry.legalPaths)])

def OptionEntry.toJson (entry : OptionEntry) : Json :=
  object (
    [("aliases", array (entry.aliases.map string))] ++
    optionalMember "name" (entry.name.map string) ++
    textMember "description" entry.description ++
    [("hidden", bool entry.hidden)] ++
    optionalMember "argument" (entry.argument.map ArgumentEntry.toJson))

namespace CommandEntry

mutual

def toJson : CommandEntry → Json
  | entry@{ commands, .. } =>
    object (
      [("name", string entry.name)] ++
      listMember "aliases" (entry.aliases.map string) ++
      textMember "description" entry.description ++
      [("hidden", bool entry.hidden)] ++
      optionalMember "subcommand-required" (entry.subcommandRequired.map bool) ++
      optionalMember "treat-unmatched-tokens-as-errors" (entry.strict.map bool) ++
      optionalMember "argument" (entry.argument.map ArgumentEntry.toJson) ++
      listMember "options" (entry.options.map OptionEntry.toJson) ++
      listMember "commands" (toJsons commands))

def toJsons : List CommandEntry → List Json
  | [] => []
  | entry :: rest => entry.toJson :: toJsons rest

end

end CommandEntry

namespace GrammarFile

def toJson (file : GrammarFile) : Json :=
  object [("format-version", ofNat file.version), ("command", file.command.toJson)]

/-- The text of the file, indented. -/
def text (file : GrammarFile) : String := file.toJson.pretty

end GrammarFile
end CommandGrammar
