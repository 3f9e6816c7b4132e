import CommandGrammar.Proofs.Mirror

/-! Tokens are read for their texts and kinds. Where they stand is only carried along, so moving the
tokens of a command line moves what their reading quotes and changes nothing else. Validators could
look at positions; those that do not are told apart. -/
namespace CommandGrammar
variable {move : Nat → Nat}

namespace Token

/-- The token at another place; what has no place stays without one. -/
def moved (move : Nat → Nat) (token : Token) : Token :=
  { token with position := token.position.map move }

@[simp] theorem moved_text (move : Nat → Nat) (token : Token) :
    (token.moved move).text = token.text := rfl

@[simp] theorem moved_kind (move : Nat → Nat) (token : Token) :
    (token.moved move).kind = token.kind := rfl

@[simp] theorem texts_moved (move : Nat → Nat) (tokens : List Token) :
    (tokens.map (moved move)).map text = tokens.map text := by
  rw [List.map_map]
  rfl

theorem malformed_append (tokens more : List Token) :
    malformed (tokens ++ more) = malformed tokens ++ malformed more :=
  List.filter_append _ _

theorem malformed_moved (move : Nat → Nat) (tokens : List Token) :
    malformed (tokens.map (moved move)) = (malformed tokens).map (moved move) := by
  rw [malformed, List.filter_map]
  rfl

end Token

def Occurrence.moved (move : Nat → Nat) (occurrence : Occurrence) : Occurrence :=
  { occurrence with
    token := occurrence.token.moved move
    tokens := occurrence.tokens.map (Token.moved move) }

def Resolved.moved (move : Nat → Nat) (resolved : Resolved) : Resolved :=
  { resolved.toOccurrence.moved move with verdict := resolved.verdict }

def Glimpse.moved (move : Nat → Nat) (glimpse : Glimpse) : Glimpse :=
  { glimpse with
    token := glimpse.token.moved move
    tokens := glimpse.tokens.map (Token.moved move) }

def View.moved (move : Nat → Nat) (view : View) : View :=
  ⟨view.subject.moved move, view.value, view.all.map (Glimpse.moved move)⟩

namespace ParseError

/-- The same error about the moved tokens. -/
def moved (move : Nat → Nat) : ParseError → ParseError
  | malformedDirective token => malformedDirective (token.moved move)
  | refused i resolved fault => refused i (resolved.moved move) fault
  | unrecognized token => unrecognized (token.moved move)
  | subcommandMissing i token => subcommandMissing i (token.moved move)

end ParseError

namespace Routing

def moved (move : Nat → Nat) (routing : Routing) : Routing :=
  { routing with
    occurrences := routing.occurrences.map (Occurrence.moved move)
    unmatched := routing.unmatched.map (Token.moved move) }

@[simp] theorem moved_path (move : Nat → Nat) (routing : Routing) :
    (routing.moved move).path = routing.path := rfl

@[simp] theorem moved_window (move : Nat → Nat) (routing : Routing) :
    (routing.moved move).window = routing.window := rfl

@[simp] theorem moved_started (move : Nat → Nat) (routing : Routing) :
    (routing.moved move).started = routing.started := rfl

theorem moved_length (move : Nat → Nat) (routing : Routing) :
    (routing.moved move).occurrences.length = routing.occurrences.length :=
  List.length_map _

theorem tokensOf_moved (move : Nat → Nat) (routing : Routing) (i : Nat) :
    (routing.moved move).tokensOf i = (routing.tokensOf i).map (Token.moved move) := by
  simp only [tokensOf, moved, List.getElem?_map]
  cases routing.occurrences[i]? <;> rfl

theorem childrenOf_moved (move : Nat → Nat) (routing : Routing) (i : Nat) :
    (routing.moved move).childrenOf i = routing.childrenOf i := by
  simp only [childrenOf, moved, List.getElem?_map]
  cases routing.occurrences[i]? <;> rfl

theorem occurrenceOf_moved (move : Nat → Nat) (routing : Routing) (frame : Frame)
    (option : Symbol) :
    (routing.moved move).occurrenceOf? frame option = routing.occurrenceOf? frame option := by
  refine occurrenceOf_congr ?_ (childrenOf_moved move routing) frame option
  exact List.map_map

theorem give_moved (move : Nat → Nat) (routing : Routing) (i : Nat) (token : Token) :
    (routing.moved move).give i (token.moved move) = (routing.give i token).moved move := by
  simp only [give, moved]
  rw [Occurrence.modify_map fun occurrence =>
    { occurrence with tokens := occurrence.tokens ++ [token.moved move] }]
  intro occurrence
  simp only [Occurrence.moved, List.map_append, List.map_cons, List.map_nil]

theorem push_moved (move : Nat → Nat) (routing : Routing) (occurrence : Occurrence) :
    (routing.moved move).push (occurrence.moved move) = (routing.push occurrence).moved move := by
  obtain ⟨kind, symbol, token, parent, children, tokens, implicit⟩ := occurrence
  cases parent with
  | none =>
    simp only [push, Occurrence.moved, moved, List.map_append]
    rfl
  | some p =>
    simp only [push, Occurrence.moved, moved, List.map_append, List.length_map]
    rw [Occurrence.modify_map (fun owner =>
      { owner with children := owner.children ++ [routing.occurrences.length] }) (fun _ => rfl)]
    rfl

theorem toCommand_moved (move : Nat → Nat) (routing : Routing) (token : Token) :
    (routing.moved move).toCommand (token.moved move) = (routing.toCommand token).moved move := by
  simp only [toCommand, tokensOf_moved, List.length_map, give_moved, moved_path,
    apply_ite (moved move)]
  congr 1
  simp only [moved, List.map_append, List.map_cons, List.map_nil]

theorem value_moved (move : Nat → Nat) (routing : Routing) (token : Token) :
    (routing.moved move).value (token.moved move) = (routing.value token).moved move := by
  unfold value
  rw [moved_window]
  cases routing.window with
  | none => exact toCommand_moved move routing token
  | some window =>
    have offered : ((routing.tokensOf window.occurrence).map (Token.moved move) ++
        [token.moved move]).map Token.text =
          (routing.tokensOf window.occurrence ++ [token]).map Token.text := by
      rw [List.map_append, Token.texts_moved, List.map_append]
      rfl
    simp only [tokensOf_moved, List.length_map, offered, give_moved]
    by_cases full : window.limit ≤ (routing.tokensOf window.occurrence).length
    · simp only [if_pos full]
      exact toCommand_moved move { routing with window := none } token
    · simp only [if_neg full]
      split
      · exact toCommand_moved move routing token
      · rfl

theorem command_moved (move : Nat → Nat) (routing : Routing) (token : Token) :
    (routing.moved move).command (token.moved move) = (routing.command token).moved move := by
  simp only [command, moved_path, moved_started, moved_length, Token.moved_text, value_moved]
  cases routing.path.innermost.command.subcommand? token.text with
  | some child =>
    have pushed := push_moved move routing
      (.met .command child token (some routing.path.innermost.occurrence))
    exact congrArg (fun after : Routing => { after with
      path := routing.path.enter ⟨routing.occurrences.length, child⟩, window := none }) pushed
  | none =>
    -- Both sides test the same, but not by the same terms, so the cases are told beforehand.
    by_cases names :
      (!routing.started && routing.path.innermost.command.answersTo token.text) = true
    · simp only [if_pos names, moved]
      rw [Occurrence.modify_map (fun occurrence =>
        { occurrence with token := token.moved move }) (fun _ => rfl)]
    · simp only [if_neg names]

theorem option_moved (move : Nat → Nat) (routing : Routing) (token : Token) :
    (routing.moved move).option (token.moved move) = (routing.option token).moved move := by
  simp only [option, optionMeant?, moved_path, moved_length, Token.moved_text, value_moved,
    occurrenceOf_moved, tokensOf_moved, List.length_map]
  split
  · rfl
  · rename_i frame option _
    cases routing.occurrenceOf? frame option with
    | some i => rfl
    | none =>
      have pushed := push_moved move routing
        (.met .option option token (some frame.occurrence))
      exact congrArg (fun after : Routing => { after with
        window := some ⟨routing.occurrences.length, option, option.arity.max⟩ }) pushed

theorem step_moved (move : Nat → Nat) (routing : Routing) (token : Token) :
    (routing.moved move).step (token.moved move) = (routing.step token).moved move := by
  simp only [step, Token.moved_kind, command_moved, option_moved, value_moved]
  cases token.kind <;> rfl

theorem run_moved (move : Nat → Nat) (routing : Routing) (tokens : List Token) :
    (routing.moved move).run (tokens.map (Token.moved move)) = (routing.run tokens).moved move := by
  induction tokens generalizing routing with
  | nil => rfl
  | cons token rest ih => rw [List.map_cons, run_cons, step_moved, ih, run_cons]

theorem completed_moved (move : Nat → Nat) (routing : Routing) :
    (routing.moved move).completed = routing.completed.moved move := by
  have unnoticed : Unnoticed (moved move) fun _ => True := by
    constructor
    case path => exact moved_path move
    case found => exact occurrenceOf_moved move
    case push =>
      intro routing option parent _
      exact push_moved move routing (.missing option parent)
    case onward => exact fun _ _ _ holds => holds
  exact unnoticed.completed trivial

end Routing

namespace Validator

/-- Whether a validator says the same wherever the tokens stand. -/
def IgnoresPositions (validator : Validator) : Prop :=
  ∀ files view move, validator.check files (view.moved move) = validator.check files view

theorem ignoresPositions_of_texts {validator : Validator}
    (reads : ∀ files (view other : View), view.texts = other.texts →
      validator.check files view = validator.check files other) : validator.IgnoresPositions :=
  fun files view move => reads files _ view (Token.texts_moved move view.subject.tokens)

/-- Only a check of the user's own could look at more than the texts. -/
theorem check_of_texts {validator : Validator} (builtin : ∀ check, validator ≠ .custom check)
    (files : Files) {view other : View} (same : view.texts = other.texts) :
    validator.check files view = validator.check files other := by
  cases validator with
  | custom check => exact absurd rfl (builtin check)
  | existingFiles | existingDirectories | legalPaths => rw [check, check, same]

theorem ignoresPositions_of_builtin {validator : Validator}
    (builtin : ∀ check, validator ≠ .custom check) : validator.IgnoresPositions :=
  ignoresPositions_of_texts fun files _ _ same => check_of_texts builtin files same

end Validator

/-- Whether no validator of a grammar looks at positions. -/
def Symbol.IgnoresPositions (root : Symbol) : Prop :=
  ∀ symbol ∈ root.preorder, ∀ validator ∈ symbol.argument.validators, validator.IgnoresPositions

namespace Verdict
variable {occurrence : Occurrence}

theorem complaint_moved (move : Nat → Nat) (files : Files) (view : View)
    {validators : List Validator}
    (ignores : ∀ validator ∈ validators, validator.IgnoresPositions) :
    complaint? files (view.moved move) validators = complaint? files view validators := by
  unfold complaint?
  rw [List.filterMap_congr fun validator member => ignores validator member files view move]

theorem of_moved (move : Nat → Nat) (files : Files) (all : List Glimpse)
    (ignores : ∀ validator ∈ occurrence.symbol.argument.validators, validator.IgnoresPositions) :
    of files (all.map (Glimpse.moved move)) (occurrence.moved move) = of files all occurrence := by
  have texts : (occurrence.moved move).texts = occurrence.texts :=
    Token.texts_moved move occurrence.tokens
  have symbol : (occurrence.moved move).symbol = occurrence.symbol := rfl
  have complaint (value : Value) :
      complaint? files ⟨(occurrence.moved move).glimpse, value, all.map (Glimpse.moved move)⟩
          occurrence.symbol.argument.validators =
        complaint? files ⟨occurrence.glimpse, value, all⟩ occurrence.symbol.argument.validators :=
    complaint_moved move files ⟨occurrence.glimpse, value, all⟩ ignores
  simp only [of, ofValues, ofConversion, texts, symbol, complaint]
  rfl

end Verdict

namespace Routing

theorem resolve_moved (move : Nat → Nat) (files : Files) (routing : Routing)
    (ignores : ∀ occurrence ∈ routing.completed.occurrences,
      ∀ validator ∈ occurrence.symbol.argument.validators, validator.IgnoresPositions) :
    (routing.moved move).resolve files = (routing.resolve files).map (Resolved.moved move) := by
  simp only [resolve, completed_moved]
  simp only [moved, List.map_map]
  apply List.map_congr_left
  intro occurrence member
  have verdict := Verdict.of_moved move files
    (routing.completed.occurrences.map Occurrence.glimpse) (ignores occurrence member)
  rw [List.map_map] at verdict
  exact congrArg (Resolved.mk (occurrence.moved move)) verdict

end Routing

/-- No occurrence is judged by where the tokens stand. -/
theorem Symbol.resolve_moved {root : Symbol} (numbered : root.Numbered)
    (ignores : root.IgnoresPositions) (move : Nat → Nat) (files : Files) (args : List String) :
    ((root.routed (root.tokenize args)).moved move).resolve files =
      ((root.routed (root.tokenize args)).resolve files).map (Resolved.moved move) :=
  Routing.resolve_moved move files _ fun _ member => ignores _ (symbol_arena numbered member)

namespace Parse

/-- The same parse with its tokens at other places. -/
def moved (move : Nat → Nat) (parse : Parse) : Parse where
  args := parse.args
  tokens := parse.tokens.map (Token.moved move)
  occurrences := parse.occurrences.map (Resolved.moved move)
  path := parse.path
  unmatched := parse.unmatched.map (Token.moved move)

variable {parse : Parse}

theorem moved_innermost (move : Nat → Nat) (parse : Parse) :
    (parse.moved move).innermost = parse.innermost := rfl

theorem indexed_moved (move : Nat → Nat) (parse : Parse) :
    (parse.moved move).indexed =
      parse.indexed.map fun (i, resolved) => (i, resolved.moved move) := by
  simp only [indexed, moved, List.zipIdx_map, List.map_map]
  rfl

theorem refusals_moved (move : Nat → Nat) (parse : Parse) :
    (parse.moved move).refusals = parse.refusals.map (ParseError.moved move) := by
  rw [refusals, indexed_moved, List.filterMap_map, refusals, List.map_filterMap]
  apply List.filterMap_congr
  rintro ⟨i, resolved⟩ -
  rw [Option.map_map]
  rfl

theorem leftovers_moved (move : Nat → Nat) (parse : Parse) :
    (parse.moved move).leftovers = parse.leftovers.map (ParseError.moved move) := by
  rw [leftovers, moved_innermost, leftovers]
  split
  · rw [moved, List.map_map, List.map_map]
    rfl
  · rfl

theorem tokenOf_moved (move : Nat → Nat) (parse : Parse) (i : Nat) :
    (parse.moved move).tokenOf i = (parse.tokenOf i).moved move := by
  simp only [tokenOf, moved, List.getElem?_map]
  cases parse.occurrences[i]? <;> rfl

theorem missingSubcommand_moved (move : Nat → Nat) (parse : Parse) :
    (parse.moved move).missingSubcommand = parse.missingSubcommand.map (ParseError.moved move) := by
  rw [missingSubcommand, moved_innermost, tokenOf_moved, missingSubcommand]
  split <;> rfl

/-- Errors about anything but directives follow the tokens, whatever else the arguments hold. -/
theorem errors_moved {whole : Parse}
    (same : whole = { parse.moved move with args := whole.args, tokens := whole.tokens }) :
    whole.errors = whole.unparsed.map .malformedDirective ++
      (parse.refusals ++ parse.leftovers ++ parse.missingSubcommand).map
        (ParseError.moved move) := by
  have refusals : whole.refusals = parse.refusals.map (ParseError.moved move) := by
    rw [same]
    exact refusals_moved move parse
  have leftovers : whole.leftovers = parse.leftovers.map (ParseError.moved move) := by
    rw [same]
    exact leftovers_moved move parse
  have missing : whole.missingSubcommand =
      parse.missingSubcommand.map (ParseError.moved move) := by
    rw [same]
    exact missingSubcommand_moved move parse
  simp only [errors, refusals, leftovers, missing, List.map_append, List.append_assoc]

end Parse

end CommandGrammar
