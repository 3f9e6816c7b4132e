import CommandGrammar.Proofs.Portable
import CommandGrammar.Proofs.Windows

/-! A grammar and what files keep of it read an argument list in lockstep. Tokens depend on aliases
and arities only, and routing asks besides whether an option declines its values, which does not
depend on what files leave out. -/
namespace CommandGrammar

/-- What every argument has that comes from a file: no converter, and only checks of paths. -/
structure Argument.IsWritten (argument : Argument) : Prop where
  converter : argument.converter = none
  validators : ∀ validator ∈ argument.validators, ∀ check, validator ≠ .custom check

namespace Symbol

theorem children_portable (symbol : Symbol) :
    symbol.portable.children = symbol.children.map portable := by
  rw [portable_eq, ← portableAll_eq]

theorem argument_portable (symbol : Symbol) :
    symbol.portable.argument = symbol.argument.portable := by
  rw [portable_eq]

@[simp] theorem id_portable (symbol : Symbol) : symbol.portable.id = symbol.id := by
  rw [portable_eq]

@[simp] theorem name_portable (symbol : Symbol) : symbol.portable.name = symbol.name := by
  rw [portable_eq]

@[simp] theorem aliases_portable (symbol : Symbol) : symbol.portable.aliases = symbol.aliases := by
  rw [portable_eq]

@[simp] theorem arity_portable (symbol : Symbol) : symbol.portable.arity = symbol.arity := by
  rw [arity, argument_portable, Argument.arity_portable, arity]

@[simp] theorem answersTo_portable (symbol : Symbol) (raw : String) :
    symbol.portable.answersTo raw = symbol.answersTo raw := by
  rw [answersTo, aliases_portable, answersTo]

theorem subcommand_portable (command : Symbol) (raw : String) :
    command.portable.subcommand? raw = (command.subcommand? raw).map portable := by
  simp only [subcommand?, children_portable, List.find?_map, Function.comp_def, isCommand_portable,
    answersTo_portable]

theorem option_portable (command : Symbol) (raw : String) :
    command.portable.option? raw = (command.option? raw).map portable := by
  simp only [option?, children_portable, List.find?_map, Function.comp_def, isOption_portable,
    answersTo_portable]

theorem optionIn_portable (commands : List Symbol) (raw : String) :
    optionIn? (commands.map portable) raw = (optionIn? commands raw).map portable := by
  induction commands with
  | nil => rfl
  | cons command outer ih =>
    rw [optionIn?, optionIn?, List.map_cons, List.findSome?_cons, List.findSome?_cons,
      option_portable]
    cases command.option? raw with
    | none => exact ih
    | some option => rfl

theorem display_portable (symbol : Symbol) : symbol.portable.display = symbol.display := by
  rw [display, aliases_portable, display]

/-- Values that an option is offered are declined in both or in neither. -/
theorem declines_portable {symbol : Symbol} (written : symbol.argument.IsWritten)
    {texts : List String} (offered : texts ≠ []) :
    symbol.portable.declines texts = symbol.declines texts := by
  have retryable (fault : Fault) :
      fault.isRetryable symbol.portable = fault.isRetryable symbol := by
    cases fault <;> simp only [Fault.isRetryable, isOption_portable, arity_portable]
  have objection : symbol.portable.objection? texts = symbol.objection? texts := by
    cases elided : symbol.argument.isElided with
    | true =>
      have closed : symbol.arity.max = 0 := (Argument.max_of_elided elided).1
      have some := List.length_pos_iff.mpr offered
      rw [objection?, objection?, arity_portable, closed, if_pos some, if_pos some]
    | false =>
      have argument := symbol.argument_portable
      rw [Argument.portable_of_kept elided, ← written.converter] at argument
      simp only [objection?, disallowed?, arity_portable, argument]
      rfl
  simp only [declines, objection, retryable]

end Symbol

namespace Piece

theorem shortOptions_portable (commands : List Symbol) (letters : List Char) :
    shortOptions? (commands.map Symbol.portable) letters = shortOptions? commands letters := by
  induction letters with
  | nil => rfl
  | cons letter rest ih =>
    simp only [shortOptions?, Symbol.optionIn_portable, ih]
    cases Symbol.optionIn? commands (.ofList ['-', letter]) with
    | none => rfl
    | some option =>
      have arity : option.portable.argument.arity = option.argument.arity := option.arity_portable
      simp only [Option.map_some, Option.bind_eq_bind, Option.bind_some, Symbol.arity_portable]

theorem ofWord_portable (commands : List Symbol) (raw : String) :
    ofWord (commands.map Symbol.portable) raw = ofWord commands raw := by
  have assignment : assignment? (commands.map Symbol.portable) raw.toList =
      assignment? commands raw.toList := by
    simp only [assignment?, Symbol.optionIn_portable, Option.isSome_map]
  have cluster : cluster? (commands.map Symbol.portable) raw.toList =
      cluster? commands raw.toList := by
    unfold cluster?
    split <;> simp only [shortOptions_portable]
  simp only [ofWord, assignment, cluster, Symbol.optionIn_portable, Option.isSome_map]

end Piece

namespace Classifier

def portable (reader : Classifier) : Classifier :=
  { reader with commands := reader.commands.map Symbol.portable }

theorem word_portable (reader : Classifier) (first : Bool) (raw : String) :
    reader.portable.word first raw = ((reader.word first raw).1.portable,
      (reader.word first raw).2) := by
  have innermost : reader.portable.commands.innermost =
      reader.commands.innermost.portable := rfl
  have scope : reader.portable.commands.toList = reader.commands.toList.map Symbol.portable := rfl
  simp only [word, innermost, scope, Symbol.subcommand_portable, Symbol.answersTo_portable,
    Piece.ofWord_portable]
  split
  · rfl
  · cases reader.commands.innermost.subcommand? raw <;> rfl

theorem step_portable (reader : Classifier) (raw : String) :
    reader.portable.step raw = ((reader.step raw).1.portable, (reader.step raw).2) := by
  have phase : reader.portable.phase = reader.phase := rfl
  simp only [step, phase, word_portable]
  cases reader.phase with
  | directives =>
    dsimp only
    split <;> rfl
  | words => rfl
  | values => rfl

theorem tokens_portable (reader : Classifier) (position : Nat) (args : List String) :
    reader.portable.tokens position args = reader.tokens position args := by
  induction args generalizing reader position with
  | nil => rfl
  | cons raw rest ih => rw [tokens_cons, tokens_cons, step_portable, ih]

end Classifier

theorem Symbol.tokenize_portable (root : Symbol) (args : List String) :
    root.portable.tokenize args = root.tokenize args :=
  Classifier.tokens_portable (.start root) 0 args

def Frame.portable (frame : Frame) : Frame := { frame with command := frame.command.portable }

def Window.portable (window : Window) : Window := { window with option := window.option.portable }

def Occurrence.portable (occurrence : Occurrence) : Occurrence :=
  { occurrence with symbol := occurrence.symbol.portable }

namespace Routing
variable {routing : Routing}

def portable (routing : Routing) : Routing :=
  { routing with
    occurrences := routing.occurrences.map Occurrence.portable
    path := routing.path.map Frame.portable
    window := routing.window.map Window.portable }

theorem length_portable (routing : Routing) :
    routing.portable.occurrences.length = routing.occurrences.length :=
  List.length_map _

theorem tokensOf_portable (routing : Routing) (i : Nat) :
    routing.portable.tokensOf i = routing.tokensOf i := by
  simp only [tokensOf, portable, List.getElem?_map]
  cases routing.occurrences[i]? <;> rfl

theorem childrenOf_portable (routing : Routing) (i : Nat) :
    routing.portable.childrenOf i = routing.childrenOf i := by
  simp only [childrenOf, portable, List.getElem?_map]
  cases routing.occurrences[i]? <;> rfl

theorem occurrenceOf_portable (routing : Routing) (frame : Frame) (option : Symbol) :
    routing.portable.occurrenceOf? frame.portable option.portable =
      routing.occurrenceOf? frame option := by
  have place : frame.portable.occurrence = frame.occurrence := rfl
  simp only [occurrenceOf?, childrenOf_portable, place, Symbol.id_portable]
  congr 1
  funext i
  simp only [portable, List.getElem?_map]
  cases routing.occurrences[i]? with
  | none => rfl
  | some occurrence => simp [Occurrence.portable]

theorem optionMeant_portable (routing : Routing) (raw : String) :
    routing.portable.optionMeant? raw = (routing.optionMeant? raw).map fun (frame, option) =>
      (frame.portable, option.portable) := by
  have frames : routing.portable.path.toList = routing.path.toList.map Frame.portable := rfl
  rw [optionMeant?, optionMeant?, frames]
  induction routing.path.toList with
  | nil => rfl
  | cons frame outer ih =>
    have command : frame.portable.command = frame.command.portable := rfl
    rw [List.map_cons, List.findSome?_cons, List.findSome?_cons, command, Symbol.option_portable]
    cases frame.command.option? raw with
    | none => exact ih
    | some option => rfl

theorem give_portable (routing : Routing) (i : Nat) (token : Token) :
    routing.portable.give i token = (routing.give i token).portable := by
  simp only [give, portable]
  rw [Occurrence.modify_map (fun occurrence =>
    { occurrence with tokens := occurrence.tokens ++ [token] }) fun _ => rfl]

theorem push_portable (routing : Routing) (occurrence : Occurrence) :
    routing.portable.push occurrence.portable = (routing.push occurrence).portable := by
  obtain ⟨kind, symbol, token, parent, children, tokens, implicit⟩ := occurrence
  cases parent with
  | none =>
    simp only [push, Occurrence.portable, portable, List.map_append]
    rfl
  | some p =>
    simp only [push, Occurrence.portable, portable, List.map_append, List.length_map]
    rw [Occurrence.modify_map (fun owner =>
      { owner with children := owner.children ++ [routing.occurrences.length] }) fun _ => rfl]
    rfl

theorem toCommand_portable (routing : Routing) (token : Token) :
    routing.portable.toCommand token = (routing.toCommand token).portable := by
  have innermost : routing.portable.path.innermost = routing.path.innermost.portable := rfl
  have place : routing.path.innermost.portable.occurrence = routing.path.innermost.occurrence := rfl
  have arity : routing.path.innermost.portable.command.arity =
      routing.path.innermost.command.arity := Symbol.arity_portable _
  simp only [toCommand, innermost, place, arity, tokensOf_portable, give_portable,
    apply_ite portable]
  rfl

theorem value_portable (written : ∀ window, routing.window = some window →
    window.option.argument.IsWritten) (token : Token) :
    routing.portable.value token = (routing.value token).portable := by
  cases current : routing.window with
  | none =>
    have window : routing.portable.window = none := by rw [portable, current]; rfl
    rw [value, value, window, current]
    exact toCommand_portable routing token
  | some window =>
    have currentToo : routing.portable.window = some window.portable := by
      rw [portable, current]; rfl
    have place : window.portable.occurrence = window.occurrence := rfl
    have limit : window.portable.limit = window.limit := rfl
    have declines : window.portable.option.declines
        ((routing.tokensOf window.occurrence ++ [token]).map Token.text) =
          window.option.declines
            ((routing.tokensOf window.occurrence ++ [token]).map Token.text) :=
      Symbol.declines_portable (written window current) (by simp)
    rw [value, value, currentToo, current]
    simp only [place, limit, tokensOf_portable, declines, give_portable]
    by_cases full : window.limit ≤ (routing.tokensOf window.occurrence).length
    · simp only [if_pos full]
      exact toCommand_portable { routing with window := none } token
    · simp only [if_neg full]
      split
      · exact toCommand_portable routing token
      · simp only [portable]
        split <;> rfl

theorem command_portable (written : ∀ window, routing.window = some window →
    window.option.argument.IsWritten) (token : Token) :
    routing.portable.command token = (routing.command token).portable := by
  have innermost : routing.portable.path.innermost = routing.path.innermost.portable := rfl
  have place : routing.path.innermost.portable.occurrence = routing.path.innermost.occurrence := rfl
  have command : routing.path.innermost.portable.command =
    routing.path.innermost.command.portable := rfl
  have started : routing.portable.started = routing.started := rfl
  simp only [Routing.command, innermost, place, command, started, length_portable,
    Symbol.subcommand_portable, Symbol.answersTo_portable, value_portable written]
  cases routing.path.innermost.command.subcommand? token.text with
  | some child =>
    have pushed := push_portable routing
      (.met .command child token (some routing.path.innermost.occurrence))
    exact congrArg (fun after : Routing => { after with
      path := routing.portable.path.enter ⟨routing.occurrences.length, child.portable⟩
      window := none }) pushed
  | none =>
    simp only [Option.map_none]
    split
    · simp only [portable]
      rw [Occurrence.modify_map (fun occurrence => { occurrence with token }) fun _ => rfl]
    · rfl

theorem option_step_portable (written : ∀ window, routing.window = some window →
    window.option.argument.IsWritten) (token : Token) :
    routing.portable.option token = (routing.option token).portable := by
  simp only [option, optionMeant_portable, value_portable written, length_portable]
  cases routing.optionMeant? token.text with
  | none => rfl
  | some meant =>
    obtain ⟨frame, option⟩ := meant
    simp only [Option.map_some, occurrenceOf_portable, tokensOf_portable]
    cases routing.occurrenceOf? frame option with
    | some i =>
      simp only [portable, reopenedLimit, Option.map_some, Window.portable,
        Symbol.arity_portable]
    | none =>
      have pushed := push_portable routing (.met .option option token (some frame.occurrence))
      have arity := option.arity_portable
      simp only [arity]
      exact congrArg (fun after : Routing => { after with
        window := some ⟨routing.occurrences.length, option.portable, option.arity.max⟩ }) pushed

theorem step_portable (written : ∀ window, routing.window = some window →
    window.option.argument.IsWritten) (token : Token) :
    routing.portable.step token = (routing.step token).portable := by
  simp only [step, command_portable written, option_step_portable written, value_portable written]
  cases token.kind <;> rfl

end Routing

namespace Symbol
variable {root : Symbol} {args : List String} {before after : List Token}

/-- Windows are those of options of the grammar. -/
theorem window_in_tree (numbered : root.Numbered) (split : root.tokenize args = before ++ after) :
    ∀ window, (root.routed before).window = some window → window.option ∈ root.preorder := by
  refine routed_induction
    (motive := fun _ routing => ∀ window, routing.window = some window →
      window.option ∈ root.preorder) ?_ ?_ split
  · intro window current
    contradiction
  · intro before token after split move inTree window current
    have grown := grown_routed numbered split
    cases move.opening current with
    | stays earlier => exact inTree window earlier
    | first _ meant | again _ meant =>
      obtain ⟨onPath, owned, -⟩ := Routing.optionMeant_eq_some meant
      exact mem_preorder_of_child (grown.mem_preorder onPath) owned

theorem routed_portable (numbered : root.Numbered)
    (written : ∀ symbol ∈ root.preorder, symbol.argument.IsWritten)
    (split : root.tokenize args = before ++ after) :
    root.portable.routed before = (root.routed before).portable := by
  refine routed_induction
    (motive := fun before routing => root.portable.routed before = routing.portable) ?_ ?_ split
  · simp [routed, Routing.run, Routing.start, Routing.portable, Occurrence.portable,
      Occurrence.met, Frame.portable, Nesting.single, Nesting.map]
  · intro before token after split move lockstep
    have inTree := window_in_tree numbered split
    rw [routed_concat, routed_concat, lockstep]
    exact Routing.step_portable (fun window current => written _ (inTree window current)) token

end Symbol
end CommandGrammar
