import CommandGrammar.Completion
import CommandGrammar.GrammarFile.Export
import CommandGrammar.GrammarFile.Reader
import CommandGrammar.GrammarFile.Writer
import CommandGrammar.Outline
import CommandGrammar.Parse.Report
import CommandGrammar.Tool.Options

/-! The command line tool as a function of its arguments and the files it can see: it checks a
grammar file, parses arguments under one, or completes a command line. -/
namespace CommandGrammar.Tool

/-- What a run of the tool prints and how it ends. -/
structure Answer where
  code : Nat
  output : String := ""
  errors : String := ""

/-- A failure with its causes, from the outside inwards. -/
structure Failure where
  message : String
  causes : List String := []

namespace Failure

/-- The text with every line but the first moved to the right. -/
def hanging (columns : Nat) (text : String) : String :=
  .ofList (text.toList.flatMap fun c =>
    if c = '\n' then '\n' :: List.replicate columns ' ' else [c])

/-- Causes are numbered if there are several. -/
def causeLines : List String → List String
  | [] => []
  | [cause] => ["    " ++ hanging 4 cause]
  | causes => causes.zipIdx.map fun (cause, i) => s!"    {i}: " ++ hanging 7 cause

def text (failure : Failure) : String :=
  let causes :=
    if failure.causes.isEmpty then ""
    else "\n\nCaused by:\n" ++ "\n".intercalate (causeLines failure.causes)
  "Error: " ++ failure.message ++ causes ++ "\n"

end Failure

def Answer.ofFailure (failure : Failure) : Answer := { code := 1, errors := failure.text }

/-- One text a line. -/
def lines (texts : List String) : String := String.join (texts.map (· ++ "\n"))

/-- The grammar in a file. -/
def load (files : Files) (path : String) : Except Failure Symbol := do
  let text ← (files.read path).mapError fun fault =>
    ⟨s!"failed to read grammar file: {path}", [fault.message]⟩
  let file ← (GrammarFile.parse text).mapError fun
    | .notGrammar =>
      ⟨s!"in grammar file: {path}",
        [GrammarFile.ReadError.notGrammar.message, "the text is not that of a grammar"]⟩
    | error => ⟨s!"in grammar file: {path}", [error.message]⟩
  file.build.mapError fun error => ⟨s!"failed to compile grammar: {path}", error.chain⟩

def check (files : Files) (path : String) (json : Bool) : Except Failure Answer := do
  let root ← load files path
  if json then .ok { code := 0, output := (GrammarFile.ofSymbol root).text ++ "\n" }
  else
    .ok { code := 0
          output := root.outline
          errors := s!"OK: {root.preorder.length} symbol(s)\n" }

/-- The arguments behind the last directive. -/
def behindDirectives (parse : Parse) : List String :=
  let positions := (parse.tokens.filter (·.kind == .directive)).filterMap Token.position
  match positions.max? with
  | none => []
  | some last => parse.args.drop (last + 1)

/-- Completes the arguments behind the directives. -/
def complete (root : Symbol) (parse : Parse) (values : List String) : Except Failure Answer := do
  let line := Line.render (behindDirectives parse)
  let cursor ← match values.getLast? with
    | none => .ok line.length
    | some raw => (position raw).mapError fun error =>
      { message := s!"invalid suggest position: {raw}", causes := [error.message] }
  .ok { code := 0, output := lines (root.suggest line cursor) }

/-- What is printed on a parse, and a failure if it has errors. -/
def report (parse : Parse) (json : Bool) : Answer :=
  let errors := parse.errors
  let failure := if errors.isEmpty then "" else
    Failure.text { message := s!"{errors.length} parse error(s)" }
  let code := if errors.isEmpty then 0 else 1
  if json then
    { code, output := (Report.ofParse parse).toJson.pretty ++ "\n", errors := failure }
  else
    { code
      output := parse.diagram ++ "\n"
      errors := lines (errors.map fun error => "error: " ++ error.message) ++ failure }

def parse (files : Files) (path : String) (json : Bool) (args : List String) :
    Except Failure Answer := do
  let root ← load files path
  let parse := root.parse files args
  match parse.directives.lookup "suggest" with
  | some values => complete root parse values
  | none => .ok (report parse json)

def suggest (files : Files) (path : String) (cursor : Option Nat) (line : String) :
    Except Failure Answer := do
  let root ← load files path
  if (Directive.parse? (Text.trim line)).isSome then
    .error { message := "directives are not allowed in a suggest request" }
  else .ok { code := 0, output := lines (root.suggest line (cursor.getD line.length)) }

def helpChoice : Choice := ⟨"help", some 'h', none⟩
def jsonChoice : Choice := ⟨"json", none, none⟩
def grammarChoice : Choice := ⟨"grammar", some 'g', some .path⟩
def positionChoice : Choice := ⟨"position", some 'p', some .position⟩

def checkForm : Form := ⟨[helpChoice, jsonChoice], .path, false, false⟩
def parseForm : Form := ⟨[helpChoice, jsonChoice, grammarChoice], .text, true, true⟩
def suggestForm : Form := ⟨[helpChoice, grammarChoice, positionChoice], .text, true, false⟩

namespace Filled

def has (filled : Filled) (name : String) : Bool := (filled.options.lookup name).isSome

/-- A path that has to be given. -/
def path : Option String → Except Stop String
  | some path => .ok path
  | none => .error .usage

def cursor (filled : Filled) : Except Stop (Option Nat) :=
  match filled.options.lookup "position" with
  | none => .ok none
  | some raw => ((position raw).map some).mapError fun _ => .usage

end Filled

inductive Action where
  | check (json : Bool)
  | parse (json : Bool) (args : List String)
  | suggest (cursor : Option Nat) (line : String)

/-- Something to do with the grammar in a file. -/
structure Order where
  path : String
  action : Action

/-- What there is help on. -/
def forms : List String := ["check", "parse", "suggest", "help"]

/-- What the arguments ask for. -/
def order : List String → Except Stop Order
  | "check" :: args => do
    let filled ← checkForm.read args
    let path ← Filled.path filled.values.head?
    .ok ⟨path, .check (filled.has "json")⟩
  | "parse" :: args => do
    let filled ← parseForm.read args
    let path ← Filled.path (filled.options.lookup "grammar")
    .ok ⟨path, .parse (filled.has "json") filled.values⟩
  | "suggest" :: args => do
    let filled ← suggestForm.read args
    let path ← Filled.path (filled.options.lookup "grammar")
    let cursor ← filled.cursor
    .ok ⟨path, .suggest cursor (filled.values.headD "")⟩
  | "--help" :: _ | "-h" :: _ | ["help"] => .error .help
  | ["help", form] => .error (if form ∈ forms then .help else .usage)
  | _ => .error .usage

def perform (files : Files) (order : Order) : Except Failure Answer :=
  match order.action with
  | .check json => check files order.path json
  | .parse json args => parse files order.path json args
  | .suggest cursor line => suggest files order.path cursor line

def usage : String :=
  "usage: check [--json] FILE\n" ++
  "       parse --grammar FILE [--json] [--] [ARGS..]\n" ++
  "       suggest --grammar FILE [--position N] [--] [LINE]\n"

def usageCode : Nat := 2

/-- Runs the tool. -/
def run (files : Files) (args : List String) : Answer :=
  match order args with
  | .error .help => { code := 0, output := usage }
  | .error .usage => { code := usageCode, errors := usage }
  | .ok order =>
    match perform files order with
    | .ok answer => answer
    | .error failure => .ofFailure failure

end CommandGrammar.Tool
