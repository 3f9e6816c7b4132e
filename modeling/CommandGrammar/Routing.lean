import CommandGrammar.Token.Classifier
import CommandGrammar.Verdict

/-! Routing of tokens to occurrences. A command opens a new innermost occurrence, an option opens a
window for its values, and a value goes through the window, to the innermost command, or nowhere.
An option that needs no value gives back one it cannot convert, and its window stays open. -/
namespace CommandGrammar

/-- The occurrence of a command that has been entered. -/
structure Frame where
  occurrence : Nat
  command : Symbol

/-- An option that may take values until its occurrence holds `limit` of them. -/
structure Window where
  occurrence : Nat
  option : Symbol
  limit : Nat

structure Routing where
  occurrences : List Occurrence
  path : Nesting Frame
  window : Option Window
  /-- Whether anything but directives has been met. -/
  started : Bool
  unmatched : List Token

namespace Routing

/-- The root command occurs before any token is met. -/
def start (root : Symbol) : Routing where
  occurrences := [.met .command root (.implicit (root.aliases.headD "") .command) none]
  path := .single ⟨0, root⟩
  window := none
  started := false
  unmatched := []

def tokensOf (routing : Routing) (i : Nat) : List Token :=
  match routing.occurrences[i]? with
  | some occurrence => occurrence.tokens
  | none => []

def childrenOf (routing : Routing) (i : Nat) : List Nat :=
  match routing.occurrences[i]? with
  | some occurrence => occurrence.children
  | none => []

/-- Adds a value to an occurrence. -/
def give (routing : Routing) (i : Nat) (token : Token) : Routing :=
  { routing with
    occurrences := routing.occurrences.modify i fun occurrence =>
      { occurrence with tokens := occurrence.tokens ++ [token] } }

/-- Adds an occurrence and notes it under its parent. -/
def push (routing : Routing) (occurrence : Occurrence) : Routing :=
  let noted :=
    match occurrence.parent with
    | some parent => routing.occurrences.modify parent fun owner =>
        { owner with children := owner.children ++ [routing.occurrences.length] }
    | none => routing.occurrences
  { routing with occurrences := noted ++ [occurrence] }

/-- A value for the innermost command, if that has room for it. -/
def toCommand (routing : Routing) (token : Token) : Routing :=
  let frame := routing.path.innermost
  if (routing.tokensOf frame.occurrence).length < frame.command.arity.max then
    routing.give frame.occurrence token
  else { routing with unmatched := routing.unmatched ++ [token] }

def value (routing : Routing) (token : Token) : Routing :=
  match routing.window with
  | none => routing.toCommand token
  | some window =>
    let held := routing.tokensOf window.occurrence
    if window.limit ≤ held.length then { routing with window := none }.toCommand token
    else if window.option.declines ((held ++ [token]).map Token.text) then
      routing.toCommand token
    else
      { routing.give window.occurrence token with
        window := if held.length + 1 < window.limit then some window else none }

/-- Enters a child of the innermost command. Only the first token may name the root. -/
def command (routing : Routing) (token : Token) : Routing :=
  let frame := routing.path.innermost
  match frame.command.subcommand? token.text with
  | some child =>
    { routing.push (.met .command child token (some frame.occurrence)) with
      path := routing.path.enter ⟨routing.occurrences.length, child⟩
      window := none }
  | none =>
    if !routing.started && frame.command.answersTo token.text then
      { routing with
        occurrences := routing.occurrences.modify frame.occurrence fun occurrence =>
          { occurrence with token } }
    else routing.value token

/-- The option meant by a token, and the entered command that declares it. -/
def optionMeant? (routing : Routing) (raw : String) : Option (Frame × Symbol) :=
  routing.path.toList.findSome? fun frame =>
    (frame.command.option? raw).map fun option => (frame, option)

/-- The occurrence of an option under the command that declares it. -/
def occurrenceOf? (routing : Routing) (frame : Frame) (option : Symbol) : Option Nat :=
  (routing.childrenOf frame.occurrence).find? fun i =>
    routing.occurrences[i]?.any fun occurrence => occurrence.symbol.id == option.id

/-- An option named again takes at least one more value, so that the excess shows in it. -/
def reopenedLimit (option : Symbol) (held : Nat) : Nat :=
  if option.arity.max = 0 then 0 else max option.arity.max (held + 1)

/-- Opens the window of an option, which gets an occurrence when it is first named. -/
def option (routing : Routing) (token : Token) : Routing :=
  match routing.optionMeant? token.text with
  | none => routing.value token
  | some (frame, option) =>
    match routing.occurrenceOf? frame option with
    | some i =>
      { routing with
        window := some ⟨i, option, reopenedLimit option (routing.tokensOf i).length⟩ }
    | none =>
      { routing.push (.met .option option token (some frame.occurrence)) with
        window := some ⟨routing.occurrences.length, option, option.arity.max⟩ }

def step (routing : Routing) (token : Token) : Routing :=
  match token.kind with
  | .directive | .unparsed => routing
  | .endOfOptions => { routing with window := none, started := true }
  | .command => { routing.command token with started := true }
  | .option => { routing.option token with started := true }
  | .argument => { routing.value token with started := true }

def run (routing : Routing) (tokens : List Token) : Routing :=
  tokens.foldl step routing

theorem run_append (routing : Routing) (tokens more : List Token) :
    routing.run (tokens ++ more) = (routing.run tokens).run more :=
  List.foldl_append

/-- The options of an entered command that have a default and were not given. -/
def missingDefaults (routing : Routing) (frame : Frame) : List Symbol :=
  frame.command.children.filter fun child =>
    child.isOption && child.argument.default.isSome &&
      (routing.occurrenceOf? frame child).isNone

/-- Adds implicit occurrences for the missing options of an entered command. -/
def addDefaults (routing : Routing) (frame : Frame) : Routing :=
  (routing.missingDefaults frame).foldl (fun routing option =>
    routing.push (.missing option frame.occurrence)) routing

/-- Adds what was not given, to outer commands first. -/
def completed (routing : Routing) : Routing :=
  routing.path.toList.reverse.foldl addDefaults routing

end Routing
end CommandGrammar
