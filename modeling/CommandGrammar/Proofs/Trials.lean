import CommandGrammar.Proofs.Errors
import CommandGrammar.Proofs.Windows

/-! Values on trial. An open option tries a value together with those it holds, and gives it back if
they cannot be converted and need not be there. So what an option holds has passed its last trial,
and the verdict in the end finds the fault that the trial has found. -/
namespace CommandGrammar

/-- Whether a fault shows while an option may still take more. What is missing may yet come, and
validators wait for the end. -/
def Fault.isEarly : Fault → Bool
  | tooMany _ | disallowed _ | unconvertible _ => true
  | missing | invalid _ => false

namespace Symbol
variable {symbol : Symbol} {texts : List String} {fault : Fault}

/-- No value at all is only refused by a converter of the argument's own. -/
theorem converter_of_unconvertible
    (failed : symbol.argument.convert [] = .error message) :
    0 < symbol.arity.max ∧ ∃ converter, symbol.argument.converter = some converter ∧
      converter [] = .error message := by
  unfold Argument.convert at failed
  split at failed
  · contradiction
  · rename_i takes
    refine ⟨Nat.pos_of_ne_zero takes, ?_⟩
    split at failed
    · rename_i converter own
      exact ⟨converter, own, failed⟩
    · simp only at failed
      split at failed
      · contradiction
      · rw [List.mapM_nil] at failed
        contradiction

/-- An option that need not have values keeps none that cannot be converted. -/
theorem convertible_of_kept (isOption : symbol.isOption = true) (optional : symbol.arity.min = 0)
    (kept : symbol.declines texts = false) :
    symbol.objection? texts ≠ some (.unconvertible message) := by
  intro objects
  rw [declines, objects] at kept
  simp [Fault.isRetryable, isOption, optional] at kept

end Symbol

namespace Verdict
variable {files : Files} {all : List Glimpse} {occurrence : Occurrence} {fault : Fault}

theorem refused_iff_of_early {found : Fault} (early : found.isEarly = true) :
    (refused found = refused fault ∧ fault.isEarly = true) ↔ some found = some fault := by
  constructor
  · rintro ⟨same, -⟩
    exact congrArg some (refused.inj same)
  · intro same
    obtain rfl := Option.some.inj same
    exact ⟨rfl, early⟩

/-- Once there are enough values, the verdict finds what a trial of them finds. -/
theorem refused_early_iff (explicit : occurrence.implicit = false)
    (given : occurrence.texts ≠ [])
    (enough : occurrence.symbol.arity.min ≤ occurrence.texts.length) :
    (Verdict.of files all occurrence = .refused fault ∧ fault.isEarly = true) ↔
      occurrence.symbol.objection? occurrence.texts = some fault := by
  have some : occurrence.texts.isEmpty = false := List.isEmpty_eq_false_iff.mpr given
  rw [of, explicit, ofValues, Symbol.objection?]
  simp only [some, Bool.and_false, Bool.false_and, Bool.false_eq_true, if_false]
  rw [if_neg (Nat.not_lt.mpr enough)]
  split
  case isTrue => exact refused_iff_of_early rfl
  case isFalse =>
    cases disallowed : occurrence.symbol.disallowed? occurrence.texts with
    | some found =>
      obtain ⟨text, -, rfl⟩ := Option.map_eq_some_iff.mp disallowed
      exact refused_iff_of_early rfl
    | none =>
      rw [ofConversion]
      cases occurrence.symbol.argument.convert occurrence.texts with
      | error message => exact refused_iff_of_early rfl
      | ok value =>
        -- Only a validator may speak now, and validators are not heard on trial.
        refine iff_of_false ?_ (fun objects => by contradiction)
        rintro ⟨same, early⟩
        dsimp only at same
        split at same
        · cases same
          contradiction
        · contradiction

/-- Without values, only an argument that has neither a default nor is a flag is converted. -/
theorem converted_of_unconvertible (valueless : occurrence.texts = [])
    (refuses : of files all occurrence = refused (.unconvertible message)) :
    occurrence.implicit = false ∧ occurrence.symbol.argument.default = none ∧
      ¬ (occurrence.symbol.isOption = true ∧ occurrence.symbol.argument.isFlag = true) ∧
      occurrence.symbol.argument.convert [] = .error message := by
  have failed : occurrence.symbol.argument.convert [] = .error message := by
    cases refusal_of refuses with
    | unconvertible _ failed => rwa [valueless] at failed
  unfold of at refuses
  split at refuses
  · contradiction
  · rename_i explicit
    simp only [ofValues, valueless, List.isEmpty_nil, Bool.and_true, Bool.true_and] at refuses
    split at refuses
    · contradiction
    · rename_i noFlag
      rw [Bool.and_eq_true] at noFlag
      refine ⟨Bool.eq_false_iff.mpr explicit, ?_, noFlag, failed⟩
      split at refuses
      · split at refuses
        · exact (refusal_defaultOr refuses).1
        · cases refuses
      · split at refuses
        · cases refuses
        · split at refuses
          · rename_i found
            obtain ⟨text, -, rfl⟩ := Option.map_eq_some_iff.mp found
            cases refuses
          · exact (refusal_defaultOr refuses).1

theorem unconvertible_of_outcome {verdict : Verdict}
    (outcome : verdict.outcome = .unconvertible message) :
    verdict = .refused (.unconvertible message) := by
  cases verdict with
  | accepted => contradiction
  | refused fault => cases fault <;> cases outcome; rfl

end Verdict

/-- An option tries a value behind some tokens: its window is open there, and with what it holds
there the value makes up `held`. -/
structure Trial (root : Symbol) (i : Nat) (option : Symbol) (held earlier : List Token)
    (value : Token) : Prop where
  kind : value.kind = .argument
  opened : ∃ window, (root.routed earlier).openWindow = some window ∧ window.occurrence = i ∧
    window.option = option
  tried : (root.routed earlier).tokensOf i ++ [value] = held

namespace Symbol
variable {root : Symbol} {files : Files} {args : List String} {before after : List Token}

/-- Behind some of the tokens an option has tried what it holds, and has kept it. -/
def Passed (root : Symbol) (tokens : List Token) (i : Nat) (option : Symbol)
    (held : List Token) : Prop :=
  ∃ earlier value later, tokens = earlier ++ value :: later ∧
    Trial root i option held earlier value ∧ option.declines (held.map Token.text) = false

theorem Passed.concat {tokens held : List Token} {i : Nat} {option : Symbol}
    (passed : root.Passed tokens i option held) (token : Token) :
    root.Passed (tokens ++ [token]) i option held := by
  obtain ⟨earlier, value, later, rfl, trial⟩ := passed
  exact ⟨earlier, value, later ++ [token], by simp, trial⟩

/-- Every option that holds values has kept them on trial. -/
def Tried (root : Symbol) (before : List Token) (routing : Routing) : Prop :=
  ∀ i option parent, routing.links[i]? = some (option, parent) → option.isOption = true →
    routing.tokensOf i ≠ [] → root.Passed before i option (routing.tokensOf i)

theorem Tried.move (numbered : root.Numbered)
    (split : root.tokenize args = before ++ token :: after)
    (move : (root.routed before).Move token (root.routed (before ++ [token])))
    (tried : root.Tried before (root.routed before)) :
    root.Tried (before ++ [token]) (root.routed (before ++ [token])) := by
  intro i option parent placed isOption holds
  have grown := grown_routed numbered split
  have windowed := windowed_routed numbered split
  have old := (move.old_or_empty placed).resolve_right holds
  have earlier (same : (root.routed (before ++ [token])).tokensOf i =
      (root.routed before).tokensOf i) :
      root.Passed (before ++ [token]) i option ((root.routed (before ++ [token])).tokensOf i) := by
    rw [same] at holds ⊢
    exact (tried i option parent old isOption holds).concat token
  cases move.storage grown windowed with
  | kept same => exact earlier (same i)
  | @filled window kind opened accepted added =>
    by_cases here : window.occurrence = i
    · obtain ⟨-, _, placedWindow⟩ := windowed window (Routing.openWindow_eq_some.mp opened).1
      subst here
      rw [old] at placedWindow
      cases placedWindow
      have grew := added window.occurrence
      rw [if_pos rfl] at grew
      exact ⟨before, token, [], rfl, ⟨kind, ⟨window, opened, rfl, rfl⟩, grew.symm⟩,
        grew ▸ accepted⟩
    · exact earlier (by rw [added, if_neg here, List.append_nil])
  | taken _ _ added =>
    -- The value goes to a command, so it does not go to the option.
    refine earlier ?_
    rw [added, if_neg, List.append_nil]
    rintro rfl
    obtain ⟨isCommand, _, placedCommand⟩ := grown.found List.mem_cons_self
    rw [old] at placedCommand
    cases placedCommand
    rw [not_command isOption] at isCommand
    contradiction

theorem tried_routed (numbered : root.Numbered) (split : root.tokenize args = before ++ after) :
    root.Tried before (root.routed before) := by
  refine routed_induction (motive := root.Tried) ?_ ?_ split
  · intro i option parent _ _ holds
    cases i <;> exact absurd rfl holds
  · exact fun _ _ _ split move tried => tried.move numbered split move

/-- What an option holds in the end is what it has kept on its last trial. -/
theorem tried_parse (numbered : root.Numbered) {i : Nat} {resolved : Resolved}
    (found : (root.parse files args).occurrences[i]? = some resolved)
    (isOption : resolved.symbol.isOption = true) (holds : resolved.tokens ≠ []) :
    root.Passed (root.tokenize args) i resolved.symbol resolved.tokens := by
  obtain ⟨-, placed⟩ := (placed_or_valueless numbered found).resolve_right fun valueless =>
    holds valueless.2
  rw [tokensOf_parse found] at holds ⊢
  exact tried_routed numbered (List.append_nil _).symm i _ _ placed isOption holds

end Symbol

/-- Nothing joins the values of a trial that are those held in the end. -/
theorem Trial.last {root option : Symbol} {args : List String} {i : Nat}
    {held earlier between rest : List Token} {value : Token}
    (trial : Trial root i option held earlier value) (numbered : root.Numbered)
    (split : root.tokenize args = earlier ++ value :: (between ++ rest))
    (kept : option.declines (held.map Token.text) = false)
    (final : (root.routed (root.tokenize args)).tokensOf i = held) :
    (root.routed (earlier ++ value :: between)).tokensOf i = held := by
  obtain ⟨kind, ⟨window, opened, rfl, rfl⟩, rfl⟩ := trial
  obtain ⟨_, _, met⟩ := Symbol.met split
  have move := Routing.move_step met.understood
  rw [← Symbol.routed_concat] at move
  have filled := move.fills (Symbol.windowed_routed numbered split) kind opened kept
  have splitBetween : root.tokenize args = earlier ++ [value] ++ between ++ rest := by
    simpa using split
  have splitRest : root.tokenize args = earlier ++ [value] ++ between ++ rest ++ [] := by
    rw [List.append_nil, splitBetween]
  have grew := (Symbol.routed_extends numbered splitBetween window.occurrence).2
  have ended := (Symbol.routed_extends numbered splitRest window.occurrence).2
  rw [filled] at grew
  rw [← splitBetween, final] at ended
  rw [List.append_cons]
  exact ended.eq_of_length_le grew.length_le

/-- An option without values, whose own converter refuses to be given none. -/
structure Resolved.Unfed (resolved : Resolved) (message : String) : Prop where
  explicit : resolved.implicit = false
  isOption : resolved.symbol.isOption = true
  valueless : resolved.tokens = []
  optional : resolved.symbol.arity.min = 0
  takes : 0 < resolved.symbol.arity.max
  noDefault : resolved.symbol.argument.default = none
  noFlag : resolved.symbol.argument.isFlag = false
  refuses : ∃ converter, resolved.symbol.argument.converter = some converter ∧
    converter [] = .error message

/-- What is given back on trial leaves no fault for which it could be given back still. -/
structure Settled (root : Symbol) (parse : Parse) : Prop where
  convertible : ∀ resolved ∈ parse.occurrences, resolved.symbol.isOption = true →
    resolved.implicit = false → resolved.symbol.arity.min = 0 → resolved.tokens ≠ [] →
    ∀ message, resolved.verdict.outcome ≠ .unconvertible message
  retryable : ∀ error ∈ parse.errors, error.isRetryable = true → ∃ i resolved message,
    error = .refused i resolved (.unconvertible message) ∧
      parse.occurrences[i]? = some resolved ∧ resolved.Unfed message
  /-- Without converters of its own, a grammar has nothing to give back still. -/
  ordinary : (∀ symbol ∈ root.preorder, symbol.argument.converter = none) →
    ∀ error ∈ parse.errors, error.isRetryable = false
  /-- The verdict finds a fault that shows on trial if and only if the last trial has found it. -/
  tried : ∀ {i resolved}, parse.occurrences[i]? = some resolved →
    resolved.symbol.isOption = true → resolved.tokens ≠ [] →
    resolved.symbol.arity.min ≤ resolved.tokens.length →
    ∃ earlier value later, parse.tokens = earlier ++ value :: later ∧
      Trial root i resolved.symbol resolved.tokens earlier value ∧
      (∀ between rest, later = between ++ rest →
        (root.routed (earlier ++ value :: between)).tokensOf i = resolved.tokens) ∧
      ∀ fault, (resolved.verdict = .refused fault ∧ fault.isEarly = true) ↔
        resolved.symbol.objection? resolved.texts = some fault

namespace Symbol
variable {root : Symbol} {files : Files} {args : List String} {i : Nat} {resolved : Resolved}

theorem refused_early_parse (numbered : root.Numbered)
    (found : (root.parse files args).occurrences[i]? = some resolved)
    (holds : resolved.tokens ≠ [])
    (enough : resolved.symbol.arity.min ≤ resolved.tokens.length) (fault : Fault) :
    (resolved.verdict = .refused fault ∧ fault.isEarly = true) ↔
      resolved.symbol.objection? resolved.texts = some fault := by
  obtain ⟨explicit, -⟩ := (placed_or_valueless numbered found).resolve_right fun valueless =>
    holds valueless.2
  rw [judged_parse root files args resolved (List.mem_of_getElem? found)]
  refine Verdict.refused_early_iff explicit ?_ ?_
  · rwa [Occurrence.texts, Ne, List.map_eq_nil_iff]
  · rwa [Occurrence.texts, List.length_map]

theorem convertible_parse (numbered : root.Numbered)
    (found : (root.parse files args).occurrences[i]? = some resolved)
    (isOption : resolved.symbol.isOption = true) (optional : resolved.symbol.arity.min = 0)
    (holds : resolved.tokens ≠ []) (message : String) :
    resolved.verdict ≠ .refused (.unconvertible message) := by
  intro refused
  obtain ⟨_, _, _, -, -, kept⟩ := tried_parse numbered found isOption holds
  have enough : resolved.symbol.arity.min ≤ resolved.tokens.length := optional ▸ Nat.zero_le _
  exact convertible_of_kept isOption optional kept
    ((refused_early_parse numbered found holds enough _).mp ⟨refused, rfl⟩)

theorem retryable_parse (numbered : root.Numbered) {error : ParseError}
    (member : error ∈ (root.parse files args).errors) (retryable : error.isRetryable = true) :
    ∃ i resolved message, error = .refused i resolved (.unconvertible message) ∧
      (root.parse files args).occurrences[i]? = some resolved ∧ resolved.Unfed message := by
  cases error with
  | malformedDirective | unrecognized | subcommandMissing => contradiction
  | refused i resolved fault =>
    cases fault with
    | missing | tooMany | disallowed | invalid => contradiction
    | unconvertible message =>
      obtain ⟨found, refused⟩ := Parse.refused_mem_errors.mp member
      obtain ⟨isOption, optional⟩ : resolved.symbol.isOption = true ∧
          resolved.symbol.arity.min = 0 := by
        simpa [ParseError.isRetryable, Fault.isRetryable] using retryable
      have valueless : resolved.tokens = [] := by
        by_contra holds
        exact convertible_parse numbered found isOption optional holds message refused
      have verdict := judged_parse root files args resolved (List.mem_of_getElem? found)
      obtain ⟨explicit, noDefault, noFlag, failed⟩ := Verdict.converted_of_unconvertible
        (List.map_eq_nil_iff.mpr valueless) (verdict.symm.trans refused)
      obtain ⟨takes, refuses⟩ := converter_of_unconvertible failed
      exact ⟨i, resolved, message, rfl, found, explicit, isOption, valueless, optional, takes,
        noDefault, by simpa [isOption] using noFlag, refuses⟩

end Symbol

theorem settled_parse {heading : Heading} {subcommandRequired : Option Bool} {strict : Bool}
    {children : List Declaration} {root : Symbol}
    (built : (Declaration.command heading subcommandRequired strict children).build = .ok root)
    (files : Files) (args : List String) : Settled root (root.parse files args) := by
  have numbered := Declaration.numbered_build built
  constructor
  case convertible =>
    intro resolved member isOption _ optional holds message outcome
    obtain ⟨i, found⟩ := List.mem_iff_getElem?.mp member
    refine Symbol.convertible_parse numbered found isOption optional holds message ?_
    exact Verdict.unconvertible_of_outcome outcome
  case retryable => exact fun _ => Symbol.retryable_parse numbered
  case ordinary =>
    intro ordinary error member
    by_contra retryable
    rw [Bool.not_eq_false] at retryable
    obtain ⟨i, resolved, message, -, found, unfed⟩ :=
      Symbol.retryable_parse numbered member retryable
    obtain ⟨converter, own, -⟩ := unfed.refuses
    have inTree : resolved.symbol ∈ root.preorder :=
      (Symbol.grown_arena numbered args).arena.mem_preorder (Symbol.link_parse found)
    rw [ordinary _ inTree] at own
    contradiction
  case tried =>
    intro i resolved found isOption holds enough
    obtain ⟨earlier, value, later, split, trial, kept⟩ :=
      Symbol.tried_parse numbered found isOption holds
    refine ⟨earlier, value, later, split, trial, ?_,
      Symbol.refused_early_parse numbered found holds enough⟩
    rintro between rest rfl
    exact trial.last numbered split kept (Symbol.tokensOf_parse found).symm

theorem settled_parse_sample : ∃ root, Declaration.sample.build = .ok root ∧
    Settled root (root.parse .absent ["run", "-n", "x", "-d", "1"]) := by
  obtain ⟨root, built⟩ : ∃ root, Declaration.sample.build = .ok root := ⟨_, rfl⟩
  exact ⟨root, built, settled_parse built _ _⟩

end CommandGrammar
