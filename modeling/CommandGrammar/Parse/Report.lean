import CommandGrammar.Parse.Diagram
import CommandGrammar.Value.Json

/-! The report on a parse: the values found, and what was wrong. A value stands under the name of
its option, or under the name of its argument if a command has one; of values under one name the
last one counts. -/
namespace CommandGrammar

structure ErrorReport where
  kind : String
  message : String
  token : String

structure Report where
  input : String
  command : String
  diagram : String
  values : Keyed Json
  directives : Keyed (List String)
  unmatched : List String
  errors : List ErrorReport

def Fault.kind : Fault → String
  | missing => "missing-required-value"
  | tooMany _ => "too-many-values"
  | disallowed _ => "disallowed-value"
  | unconvertible _ => "type-conversion-failed"
  | invalid _ => "custom-validation-failed"

def ParseError.kind : ParseError → String
  | malformedDirective _ => "tokenize-error"
  | refused _ _ fault => fault.kind
  | unrecognized _ => "unrecognized-token"
  | subcommandMissing .. => "required-subcommand-missing"

def ErrorReport.ofError (error : ParseError) : ErrorReport :=
  ⟨error.kind, error.message, error.token.text⟩

namespace Resolved

def reportKey (resolved : Resolved) : String :=
  if resolved.kind = .command then resolved.symbol.argument.name.getD resolved.symbol.name
  else resolved.symbol.name

/-- Key and value, unless the occurrence has none to report. Mere presence is reported as true. -/
def reportEntry? (resolved : Resolved) : Option (String × Json) :=
  if resolved.kind == .command && !resolved.symbol.arity.takesValues then none
  else resolved.verdict.value?.map fun value =>
    (resolved.reportKey, value.toJson?.getD (.bool true))

end Resolved

namespace Report

def ofParse (parse : Parse) : Report where
  input := parse.line
  command := parse.innermost.name
  diagram := parse.diagram
  values := .ofList (parse.occurrences.filterMap Resolved.reportEntry?)
  directives := parse.directives
  unmatched := parse.unmatched.map Token.text
  errors := parse.errors.map .ofError

def errorJson (error : ErrorReport) : Json :=
  .object [("kind", .string error.kind), ("message", .string error.message),
    ("token", .string error.token)]

def stringArray (texts : List String) : Json := .array (texts.map .string)

/-- Directives are left out if there are none. -/
def toJson (report : Report) : Json :=
  let directives :=
    if report.directives.isEmpty then []
    else
      [("directives", Json.object (report.directives.map fun (name, values) =>
        (name, stringArray values)))]
  .object (
    [("input", .string report.input), ("command", .string report.command),
      ("diagram", .string report.diagram), ("values", .object report.values)] ++
    directives ++
    [("unmatched", stringArray report.unmatched),
      ("errors", .array (report.errors.map errorJson))])

end Report
end CommandGrammar
