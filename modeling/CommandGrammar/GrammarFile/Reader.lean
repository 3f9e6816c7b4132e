import CommandGrammar.GrammarFile
import CommandGrammar.Json.Fields

/-! Grammar files read from their text. -/
namespace CommandGrammar
open RawJson

def ArityEntry.read? : Reader ArityEntry
  | 0, _ => none
  | _ + 1, raw => do
    let fields ← raw.fields? ["min", "max"]
    let min ← fields.withDefault "min" 0 (nat? (Nat.pow 2 64))
    let max ← fields.optional "max" (nat? (Nat.pow 2 64))
    some { min, max }

def ArgumentEntry.fieldNames : List String :=
  ["name", "description", "value-type", "arity", "default", "allowed-values", "suggestions",
    "existing-files-only", "existing-directories-only", "legal-file-paths-only"]

def ArgumentEntry.read? : Reader ArgumentEntry
  | 0, _ => none
  | levels + 1, raw => do
    let fields ← raw.fields? fieldNames
    let name ← fields.optional "name" text?
    let description ← fields.withDefault "description" "" text?
    let type ← fields.optional "value-type" text?
    let arity ← fields.optional "arity" (ArityEntry.read? levels)
    let default ← fields.optional "default" (json? levels)
    let allowed ← fields.withDefault "allowed-values" [] (texts? levels)
    let suggestions ← fields.withDefault "suggestions" [] (texts? levels)
    let existingFiles ← fields.withDefault "existing-files-only" false bool?
    let existingDirectories ← fields.withDefault "existing-directories-only" false bool?
    let legalPaths ← fields.withDefault "legal-file-paths-only" false bool?
    some { name, description, type, arity, default, allowed, suggestions, existingFiles,
           existingDirectories, legalPaths }

def OptionEntry.fieldNames : List String :=
  ["aliases", "name", "description", "hidden", "argument"]

def OptionEntry.read? : Reader OptionEntry
  | 0, _ => none
  | levels + 1, raw => do
    let fields ← raw.fields? fieldNames
    let aliases ← fields.required "aliases" (texts? levels)
    let name ← fields.optional "name" text?
    let description ← fields.withDefault "description" "" text?
    let hidden ← fields.withDefault "hidden" false bool?
    let argument ← fields.optional "argument" (ArgumentEntry.read? levels)
    some { aliases, name, description, hidden, argument }

def CommandEntry.fieldNames : List String :=
  ["name", "aliases", "description", "hidden", "subcommand-required",
    "treat-unmatched-tokens-as-errors", "argument", "options", "commands"]

namespace CommandEntry

mutual

def read? : Reader CommandEntry
  | 0, _ => none
  | levels + 1, raw => do
    let fields ← raw.fields? fieldNames
    let name ← fields.required "name" text?
    let aliases ← fields.withDefault "aliases" [] (texts? levels)
    let description ← fields.withDefault "description" "" text?
    let hidden ← fields.withDefault "hidden" false bool?
    let subcommandRequired ← fields.optional "subcommand-required" bool?
    let strict ← fields.optional "treat-unmatched-tokens-as-errors" bool?
    let argument ← fields.optional "argument" (ArgumentEntry.read? levels)
    let options ← fields.withDefault "options" [] (list? OptionEntry.read? levels)
    let commands ← fields.withDefault "commands" [] (readAll? levels)
    some { name, aliases, description, hidden, subcommandRequired, strict, argument, options,
           commands }

/-- Subcommands lie two levels below their command. -/
def readAll? : Reader (List CommandEntry)
  | levels + 1, .array items => items.mapM (read? levels)
  | _, _ => none

end

end CommandEntry

namespace GrammarFile

def read? : Reader GrammarFile
  | 0, _ => none
  | levels + 1, raw => do
    let fields ← raw.fields? ["format-version", "command"]
    let version ← fields.required "format-version" (nat? (Nat.pow 2 32))
    let command ← fields.required "command" (CommandEntry.read? levels)
    some { version, command }

/-- Values that are looked at may nest this deep. -/
def levelLimit : Nat := 127

inductive ReadError where
  | notGrammar
  | unknownVersion (version : Nat)
deriving DecidableEq

def ReadError.message : ReadError → String
  | notGrammar => "invalid grammar JSON"
  | unknownVersion version =>
    s!"unsupported grammar format-version {version} (expected {currentVersion})"

/-- The grammar file that a text holds. -/
def parse (text : String) : Except ReadError GrammarFile :=
  match (RawJson.parse? text).bind (read? levelLimit) with
  | none => .error .notGrammar
  | some file =>
    if file.version = currentVersion then .ok file else .error (.unknownVersion file.version)

end GrammarFile
end CommandGrammar
