import CommandGrammar.Keyed
import CommandGrammar.Line
import CommandGrammar.Routing

/-! The reading of an argument list under a grammar. It always exists: what is wrong with the
arguments is told by verdicts on the occurrences, by the values left over, and by the list of errors
that follows from both. The same errors can be noted one by one while the arguments are read. -/
namespace CommandGrammar

/-- An occurrence together with what became of its values. -/
structure Resolved extends Occurrence where
  verdict : Verdict

structure Parse where
  args : List String
  tokens : List Token
  occurrences : List Resolved
  /-- The commands entered, starting from the root. -/
  path : Nesting Frame
  /-- Values that nothing took. -/
  unmatched : List Token

/-- The kinds of errors that can be told apart. -/
inductive Cause where
  | malformed
  | missing
  | tooMany
  | unconvertible
  | disallowed (text : String) (allowed : List String)
  | invalid
  | unrecognized
  | subcommandMissing
deriving DecidableEq

namespace Cause

def ofFault (symbol : Symbol) : Fault → Cause
  | .missing => missing
  | .tooMany _ => tooMany
  | .disallowed text => disallowed text symbol.argument.allowed
  | .unconvertible _ => unconvertible
  | .invalid _ => invalid

/-- Whether the values of an occurrence are to blame. -/
def isRefusal : Cause → Bool
  | missing | tooMany | unconvertible | disallowed .. | invalid => true
  | malformed | unrecognized | subcommandMissing => false

theorem isRefusal_ofFault (symbol : Symbol) (fault : Fault) :
    (ofFault symbol fault).isRefusal = true := by
  cases fault <;> rfl

end Cause

/-- All that is told of an error. -/
structure Complaint where
  cause : Cause
  message : String
  occurrence? : Option Nat
  token : Token
  isRetryable : Bool

inductive ParseError where
  | malformedDirective (token : Token)
  | refused (occurrence : Nat) (resolved : Resolved) (fault : Fault)
  | unrecognized (token : Token)
  | subcommandMissing (occurrence : Nat) (token : Token)

namespace ParseError

def cause : ParseError → Cause
  | malformedDirective _ => .malformed
  | refused _ resolved fault => .ofFault resolved.symbol fault
  | unrecognized _ => .unrecognized
  | subcommandMissing .. => .subcommandMissing

def message : ParseError → String
  | malformedDirective token => token.malformedMessage
  | refused _ resolved fault => fault.message resolved.symbol
  | unrecognized token => s!"Unrecognized command or argument '{token.text}'"
  | subcommandMissing .. => "Required command was not provided."

/-- The token to blame. -/
def token : ParseError → Token
  | malformedDirective token | unrecognized token | subcommandMissing _ token => token
  | refused _ resolved _ => resolved.token

/-- The occurrence that the error is about. -/
def occurrence? : ParseError → Option Nat
  | malformedDirective _ | unrecognized _ => none
  | refused i .. | subcommandMissing i _ => some i

/-- Whether the value could have been offered elsewhere. -/
def isRetryable : ParseError → Bool
  | refused _ resolved fault => fault.isRetryable resolved.symbol
  | _ => false

def complaint (error : ParseError) : Complaint :=
  ⟨error.cause, error.message, error.occurrence?, error.token, error.isRetryable⟩

/-- Notes an argument in front that is no directive. -/
def noteToken (errors : List ParseError) (token : Token) : List ParseError :=
  if token.kind == .unparsed then errors ++ [malformedDirective token] else errors

/-- Notes an occurrence whose values are refused. -/
def noteVerdict (errors : List ParseError) (entry : Resolved × Nat) : List ParseError :=
  match entry.1.verdict with
  | .accepted .. => errors
  | .refused fault => errors ++ [refused entry.2 entry.1 fault]

/-- Notes a value that nothing took. -/
def noteLeftover (errors : List ParseError) (token : Token) : List ParseError :=
  errors ++ [unrecognized token]

end ParseError

namespace Parse

/-- The index of the innermost command. -/
def command (parse : Parse) : Nat := parse.path.innermost.occurrence

def innermost (parse : Parse) : Symbol := parse.path.innermost.command

/-- Adds a directive; one without value only makes its name known. -/
def addDirective (directives : Keyed (List String)) (directive : Directive) :
    Keyed (List String) :=
  directives.alter directive.name fun values => values.getD [] ++ directive.value.toList

/-- The values of each directive in front of the command line. -/
def directives (parse : Parse) : Keyed (List String) :=
  ((parse.tokens.filter (·.kind == .directive)).filterMap fun token =>
    Directive.parse? token.text).foldl addDirective []

def unparsed (parse : Parse) : List Token := Token.malformed parse.tokens

/-- The arguments as one command line. -/
def line (parse : Parse) : String := Line.render parse.args

/-- The occurrences with their indices. -/
def indexed (parse : Parse) : List (Nat × Resolved) :=
  parse.occurrences.zipIdx.map fun (resolved, i) => (i, resolved)

/-- The indices of the occurrences under one. -/
def below (parse : Parse) (i : Nat) : List Nat :=
  match parse.occurrences[i]? with
  | some resolved => resolved.children
  | none => []

def children (parse : Parse) (i : Nat) : List (Nat × Resolved) :=
  (parse.below i).filterMap fun j => parse.occurrences[j]?.map fun resolved => (j, resolved)

/-- Refused values, in the order of occurrences. -/
def refusals (parse : Parse) : List ParseError :=
  parse.indexed.filterMap fun (i, resolved) =>
    resolved.verdict.fault?.map (.refused i resolved)

/-- The token that introduced an occurrence. -/
def tokenOf (parse : Parse) (i : Nat) : Token :=
  match parse.occurrences[i]? with
  | some resolved => resolved.token
  | none => .implicit "" .command

def leftovers (parse : Parse) : List ParseError :=
  if parse.innermost.isStrict then parse.unmatched.map .unrecognized else []

def missingSubcommand (parse : Parse) : List ParseError :=
  if parse.innermost.subcommandRequired && parse.innermost.children.any Symbol.isCommand then
    [.subcommandMissing parse.command (parse.tokenOf parse.command)]
  else []

/-- All errors: of directives, of occurrences, of values left over, of a command too few. -/
def errors (parse : Parse) : List ParseError :=
  parse.unparsed.map .malformedDirective ++ parse.refusals ++ parse.leftovers ++
    parse.missingSubcommand

def errorsOf (parse : Parse) (i : Nat) : List ParseError :=
  parse.errors.filter fun error => error.occurrence? == some i

end Parse

namespace Routing

/-- Gives a verdict on every occurrence. -/
def resolve (files : Files) (routing : Routing) : List Resolved :=
  let occurrences := routing.completed.occurrences
  let all := occurrences.map Occurrence.glimpse
  occurrences.map fun occurrence => { occurrence with verdict := .of files all occurrence }

/-- The token that introduced an occurrence. -/
def tokenOf (routing : Routing) (i : Nat) : Token :=
  match routing.occurrences[i]? with
  | some occurrence => occurrence.token
  | none => .implicit "" .command

/-- The errors that are noted once all tokens have been routed. -/
def finish (routing : Routing) : List ParseError :=
  let ⟨i, command⟩ := routing.path.innermost
  let leftovers :=
    if command.isStrict then routing.unmatched.foldl ParseError.noteLeftover [] else []
  if command.subcommandRequired && command.children.any Symbol.isCommand then
    leftovers ++ [.subcommandMissing i (routing.completed.tokenOf i)]
  else leftovers

end Routing

namespace Symbol

/-- Reads an argument list under the grammar. -/
def parse (root : Symbol) (files : Files) (args : List String) : Parse :=
  let tokens := root.tokenize args
  let routing := (Routing.start root).run tokens
  ⟨args, tokens, routing.resolve files, routing.path, routing.unmatched⟩

/-- The errors as they are noted while the arguments are read: first those of the tokens, then those
of the occurrences one after the other, and behind them what the routing has noted at its end. -/
def notedErrors (root : Symbol) (files : Files) (args : List String) : List ParseError :=
  let tokens := root.tokenize args
  let routing := (Routing.start root).run tokens
  let malformed := tokens.foldl ParseError.noteToken []
  (routing.resolve files).zipIdx.foldl ParseError.noteVerdict malformed ++ routing.finish

/-- Reads a command line. -/
def parseLine (root : Symbol) (files : Files) (line : String) : Parse :=
  root.parse files (Line.split line)

end Symbol
end CommandGrammar
