import CommandGrammar.Directive
import CommandGrammar.Nesting
import CommandGrammar.Symbol
import CommandGrammar.Token

/-! The tokens of an argument list. What an argument is depends on the commands entered before it: a
command names a child of the innermost one, and an option belongs to any of them. An argument may
hold several tokens, as an assignment `--name=value` or a cluster `-abc` does. -/
namespace CommandGrammar

/-- Text and kind of a token whose position is not yet known. -/
abbrev Piece := String × TokenKind

namespace Piece

/-- An option and its value, separated by the first `=` or `:`. -/
def assignment? (commands : List Symbol) (raw : List Char) : Option (List Piece) :=
  let isName := fun c => c != '=' && c != ':'
  let name := raw.takeWhile isName
  match raw.dropWhile isName with
  | [] => none
  | _ :: value =>
    if name ≠ [] ∧ (Symbol.optionIn? commands (.ofList name)).isSome then
      some [(.ofList name, .option), (.ofList value, .argument)]
    else none

/-- Each character names a short option, up to one that needs a value and takes what is left. -/
def shortOptions? (commands : List Symbol) : List Char → Option (List Piece)
  | [] => some []
  | c :: rest => do
    let option ← Symbol.optionIn? commands (.ofList ['-', c])
    if 0 < option.arity.min ∧ rest ≠ [] then
      some [(.ofList ['-', c], .option), (.ofList rest, .argument)]
    else
      let others ← shortOptions? commands rest
      some ((.ofList ['-', c], .option) :: others)

/-- At least two characters behind a single dash. -/
def cluster? (commands : List Symbol) : List Char → Option (List Piece)
  | '-' :: first :: second :: rest =>
    if first = '-' then none else shortOptions? commands (first :: second :: rest)
  | _ => none

/-- An argument that names no command: an option, an assignment, a cluster, or else a value. -/
def ofWord (commands : List Symbol) (raw : String) : List Piece :=
  if (Symbol.optionIn? commands raw).isSome then [(raw, .option)]
  else
    match assignment? commands raw.toList with
    | some pieces => pieces
    | none => (cluster? commands raw.toList).getD [(raw, .argument)]

/-- An argument in front of the command line that opens a bracket. -/
def ofBracket (raw : String) : Piece :=
  (raw, if (Directive.parse? raw).isSome then .directive else .unparsed)

end Piece

inductive Phase where
  /-- Only directives so far. -/
  | directives
  | words
  /-- Behind `--`, where everything is a value. -/
  | values
deriving DecidableEq

/-- How far an argument list has been read. -/
structure Classifier where
  phase : Phase
  commands : Nesting Symbol

namespace Classifier

def start (root : Symbol) : Classifier := ⟨.directives, .single root⟩

/-- Reads an argument that may name a command. The first one may name the root. -/
def word (reader : Classifier) (first : Bool) (raw : String) : Classifier × List Piece :=
  if raw = "--" then (⟨.values, reader.commands⟩, [(raw, .endOfOptions)])
  else
    match reader.commands.innermost.subcommand? raw with
    | some command => (⟨.words, reader.commands.enter command⟩, [(raw, .command)])
    | none =>
      (⟨.words, reader.commands⟩,
        if first && reader.commands.innermost.answersTo raw then [(raw, .command)]
        else Piece.ofWord reader.commands.toList raw)

def step (reader : Classifier) (raw : String) : Classifier × List Piece :=
  match reader.phase with
  | .directives =>
    if raw.toList.head? = some '[' then (reader, [Piece.ofBracket raw]) else reader.word true raw
  | .words => reader.word false raw
  | .values => (reader, [(raw, .argument)])

/-- How far the reader is after a list of arguments. -/
def run (reader : Classifier) (args : List String) : Classifier :=
  args.foldl (fun reader raw => (reader.step raw).1) reader

/-- The tokens of a list of arguments, the first of which has the given position. -/
def tokens (reader : Classifier) (position : Nat) : List String → List Token
  | [] => []
  | raw :: rest =>
    let (next, pieces) := reader.step raw
    pieces.map (fun piece => ⟨piece.1, piece.2, some position⟩) ++ next.tokens (position + 1) rest

theorem tokens_append (reader : Classifier) (position : Nat) (args more : List String) :
    reader.tokens position (args ++ more) =
      reader.tokens position args ++ (reader.run args).tokens (position + args.length) more := by
  induction args generalizing reader position with
  | nil => rfl
  | cons raw rest ih =>
    simp only [List.cons_append, tokens, ih, run, List.foldl_cons, List.length_cons,
      List.append_assoc]
    congr 3
    omega

end Classifier

namespace Symbol

/-- The tokens of an argument list under the grammar. -/
def tokenize (root : Symbol) (args : List String) : List Token :=
  (Classifier.start root).tokens 0 args

end Symbol

namespace Token

/-- The arguments in front of a command line that look like a directive but are none. -/
def malformed (tokens : List Token) : List Token :=
  tokens.filter (·.kind == .unparsed)

def malformedMessage (token : Token) : String :=
  s!"Invalid directive syntax '{token.text}'"

end Token
end CommandGrammar
