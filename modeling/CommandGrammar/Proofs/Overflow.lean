import CommandGrammar.Proofs.Accounting
import CommandGrammar.Proofs.Construction
import CommandGrammar.Proofs.Errors
import CommandGrammar.Proofs.Windows

/-! How many values an occurrence may hold. A command never takes more than its arity allows. Each
further naming of an option makes room for one more value, and one that comes when the option is
already full goes there and is told as an excess. -/
namespace CommandGrammar

namespace Symbol
variable {root option : Symbol} {args : List String} {before after : List Token} {token : Token}

/-- How many of the tokens name an option. -/
def namings (root : Symbol) (args : List String) (tokens : List Token) (option : Symbol) : Nat :=
  (Token.only .option tokens).countP fun token =>
    (root.optionNamed? args token).any fun named => named.id == option.id

/-- The most values that a symbol may hold when so many tokens have named it. -/
def capacity (symbol : Symbol) (namings : Nat) : Nat :=
  if symbol.isCommand = true ∨ symbol.arity.max = 0 then symbol.arity.max
  else symbol.arity.max + (namings - 1)

theorem max_le_capacity (symbol : Symbol) (namings : Nat) :
    symbol.arity.max ≤ symbol.capacity namings := by
  unfold capacity
  split <;> omega

theorem capacity_mono (symbol : Symbol) {few many : Nat} (fewer : few ≤ many) :
    symbol.capacity few ≤ symbol.capacity many := by
  unfold capacity
  split <;> omega

/-- Naming an option again makes room for the value that its window admits. -/
theorem reopenedLimit_le_capacity {held namings : Nat} (isOption : option.isOption = true)
    (fits : held ≤ option.capacity namings) (named : 0 < namings) :
    Routing.reopenedLimit option held ≤ option.capacity (namings + 1) := by
  unfold Routing.reopenedLimit
  unfold capacity at *
  simp only [not_command isOption, Bool.false_eq_true, false_or] at *
  split
  · exact Nat.zero_le _
  · rename_i takes
    rw [if_neg takes] at fits
    omega

theorem namings_le (root : Symbol) (args : List String) (before : List Token) (token : Token)
    (option : Symbol) :
    root.namings args before option ≤ root.namings args (before ++ [token]) option := by
  apply List.Sublist.countP_le
  exact (List.sublist_append_left before [token]).filter _

theorem namings_concat (kind : token.kind = .option)
    (named : root.optionNamed? args token = some option) :
    root.namings args (before ++ [token]) option = root.namings args before option + 1 := by
  rw [namings, Token.only_concat_same before kind, List.countP_append, List.countP_singleton,
    if_pos (by simp [named])]
  rfl

end Symbol

namespace Routing
variable {root option : Symbol} {args : List String} {before : List Token} {token : Token}
  {routing after : Routing}

/-- An option that has been met has been named. -/
theorem Accounts.namings_pos {i : Nat} {parent : Option Nat}
    (accounts : Accounts root args before routing)
    (placed : routing.links[i]? = some (option, parent)) (isOption : option.isOption = true) :
    0 < root.namings args before option := by
  obtain ⟨occurrence, found, linked⟩ := links_getElem?_eq_some.mp placed
  obtain ⟨rfl, -⟩ := Prod.mk.inj linked
  have used := (accounts.options.any_firstUses occurrence.symbol.id).mpr
    ⟨occurrence, List.mem_of_getElem? found, isOption, rfl⟩
  obtain ⟨token, met, named, names, same⟩ := (firstUses_used _).mp used
  rw [Symbol.namings, List.countP_pos_iff]
  exact ⟨token, met, by simp [names, same]⟩

/-- No occurrence holds more than its symbol may, and no window admits more. -/
structure Bounded (root : Symbol) (args : List String) (before : List Token) (routing : Routing) :
    Prop where
  held : ∀ {i symbol parent}, routing.links[i]? = some (symbol, parent) →
    (routing.tokensOf i).length ≤ symbol.capacity (root.namings args before symbol)
  limit : ∀ {window}, routing.window = some window →
    window.limit ≤ window.option.capacity (root.namings args before window.option)

theorem Bounded.start (root : Symbol) (args : List String) :
    Bounded root args [] (.start root) where
  held := by
    intro i symbol parent _
    cases i <;> exact Nat.zero_le _
  limit := fun opened => by contradiction

theorem Bounded.move {place : Nat} (bounded : Bounded root args before routing)
    (accounts : Accounts root args before routing) (numbered : root.Numbered)
    (grown : Grown root routing) (windowed : routing.Windowed)
    (found : Symbol.Met root args routing token place raw) (move : Move routing token after) :
    Bounded root args (before ++ [token]) after := by
  have wider (symbol : Symbol) : symbol.capacity (root.namings args before symbol) ≤
      symbol.capacity (root.namings args (before ++ [token]) symbol) :=
    symbol.capacity_mono (root.namings_le args before token symbol)
  constructor
  case held =>
    intro i symbol parent placed
    rcases move.old_or_empty placed with old | empty
    · have fits := Nat.le_trans (bounded.held old) (wider symbol)
      cases move.storage grown windowed with
      | kept same => rwa [same]
      | @filled window _ opened _ added =>
        rw [added, List.length_append]
        obtain ⟨current, room⟩ := openWindow_eq_some.mp opened
        by_cases here : window.occurrence = i
        · obtain ⟨-, _, placedWindow⟩ := windowed window current
          rw [here, old] at placedWindow
          cases placedWindow
          have limit := Nat.le_trans (bounded.limit current) (wider window.option)
          rw [here] at room
          rw [if_pos here, List.length_singleton]
          exact Nat.le_trans room limit
        · rwa [if_neg here]
      | taken _ room added =>
        rw [added, List.length_append]
        by_cases here : routing.path.innermost.occurrence = i
        · obtain ⟨-, _, placedCommand⟩ := grown.found List.mem_cons_self
          rw [here, old] at placedCommand
          cases placedCommand
          rw [HasRoom, here] at room
          rw [if_pos here, List.length_singleton]
          exact Nat.le_trans room (Symbol.max_le_capacity _ _)
        · rwa [if_neg here]
    · rw [empty]
      exact Nat.zero_le _
  case limit =>
    intro window current
    have names := ListsOptions.named found
    cases move.opening current with
    | stays same => exact Nat.le_trans (bounded.limit same) (wider window.option)
    | first _ _ _ _ limit => exact limit ▸ Symbol.max_le_capacity _ _
    | again kind meant present limit =>
      have isOption := (optionMeant_eq_some meant).2.2
      have placed := grown.link_of_meant numbered meant present
      rw [meant, Option.map_some] at names
      rw [limit, Symbol.namings_concat kind names]
      exact Symbol.reopenedLimit_le_capacity isOption (bounded.held placed)
        (accounts.namings_pos placed isOption)

/-- An option that has been met is reopened with room for one more value than it holds. -/
theorem Move.reopens {frame : Frame} {i : Nat} {parent : Option Nat}
    (move : Move routing token after) (numbered : root.Numbered) (grown : Grown root routing)
    (kind : token.kind = .option) (meant : routing.optionMeant? token.text = some (frame, option))
    (placed : routing.links[i]? = some (option, parent)) :
    after.window = some ⟨i, option, reopenedLimit option (routing.tokensOf i).length⟩ ∧
      ∀ j, after.tokensOf j = routing.tokensOf j := by
  cases move with
  | skip kind' => rcases kind' with kind' | kind' <;> simp [kind] at kind'
  | close kind' | enter kind' | name kind' | fill kind' | take kind' | leave kind' =>
    rw [kind] at kind'
    contradiction
  | «open» _ meant' absent =>
    cases meant.symm.trans meant'
    exact absurd rfl (grown.unmet numbered meant absent _ (List.mem_of_getElem? placed))
  | @reopen other _ _ _ meant' present =>
    cases meant.symm.trans meant'
    have placedOther := grown.link_of_meant numbered meant present
    cases grown.arena.index_unique numbered placed placedOther rfl
    exact ⟨rfl, fun _ => rfl⟩

end Routing

/-- Too many values are no reason to give one of them back. -/
theorem Symbol.declines_overfull {symbol : Symbol} {texts : List String}
    (exceeds : symbol.arity.max < texts.length) : symbol.declines texts = false := by
  rw [declines, objection?, if_pos exceeds]
  rfl

theorem Verdict.of_overfull {files : Files} {all : List Glimpse} {occurrence : Occurrence}
    (explicit : occurrence.implicit = false)
    (ordered : occurrence.symbol.arity.min ≤ occurrence.symbol.arity.max)
    (exceeds : occurrence.symbol.arity.max < occurrence.tokens.length) :
    Verdict.of files all occurrence = .refused (.tooMany occurrence.tokens.length) := by
  have count : occurrence.texts.length = occurrence.tokens.length := List.length_map _
  have some : occurrence.texts.isEmpty = false := by
    rw [List.isEmpty_eq_false_iff, ← List.length_pos_iff, count]
    omega
  rw [of, explicit, ofValues]
  simp only [some, count, Bool.and_false, Bool.false_and, Bool.false_eq_true, if_false]
  rw [if_neg (by omega), if_pos exceeds]

namespace Symbol
variable {root : Symbol} {files : Files} {args : List String} {before after : List Token}

theorem bounded_routed (numbered : root.Numbered) (split : root.tokenize args = before ++ after) :
    Routing.Bounded root args before (root.routed before) := by
  refine routed_induction (motive := Routing.Bounded root args) (.start root args) ?_ split
  intro before token after split move bounded
  obtain ⟨place, raw, found⟩ := met split
  exact bounded.move (accounts_routed numbered split) numbered (grown_routed numbered split)
    (windowed_routed numbered split) found move

theorem bounded_parse (numbered : root.Numbered) {i : Nat} {resolved : Resolved}
    (found : (root.parse files args).occurrences[i]? = some resolved) :
    resolved.tokens.length ≤
      resolved.symbol.capacity (root.namings args (root.tokenize args) resolved.symbol) := by
  rcases placed_or_valueless numbered found with ⟨-, placed⟩ | ⟨-, valueless⟩
  · rw [tokensOf_parse found]
    exact (bounded_routed numbered (List.append_nil _).symm).held placed
  · rw [valueless]
    exact Nat.zero_le _

/-- A value that follows the renewed name of a full option is stored with it. -/
theorem overfilled (numbered : root.Numbered) {naming value : Token} {i : Nat} {option : Symbol}
    {parent : Option Nat} (split : root.tokenize args = before ++ naming :: value :: after)
    (named : naming.kind = .option) (means : root.optionNamed? args naming = some option)
    (kind : value.kind = .argument)
    (placed : (root.routed before).links[i]? = some (option, parent))
    (takes : 0 < option.arity.max)
    (full : option.arity.max ≤ ((root.routed before).tokensOf i).length) :
    (root.routed (before ++ [naming] ++ [value])).tokensOf i =
      (root.routed before).tokensOf i ++ [value] := by
  have splitValue : root.tokenize args = before ++ [naming] ++ value :: after := by
    rw [split, List.append_assoc, List.singleton_append]
  obtain ⟨_, _, metNaming⟩ := met split
  obtain ⟨_, _, metValue⟩ := met splitValue
  have moveNaming := Routing.move_step metNaming.understood
  have moveValue := Routing.move_step metValue.understood
  rw [← routed_concat] at moveNaming moveValue
  have meant := (Routing.ListsOptions.named metNaming).symm.trans means
  obtain ⟨frame, inFrame⟩ : ∃ frame, (root.routed before).optionMeant? naming.text =
      some (frame, option) := by simpa using meant
  have grown := grown_routed numbered split
  obtain ⟨window, kept⟩ := moveNaming.reopens numbered grown named inFrame placed
  have limit : Routing.reopenedLimit option ((root.routed before).tokensOf i).length =
      ((root.routed before).tokensOf i).length + 1 := by
    rw [Routing.reopenedLimit, if_neg (by omega)]
    omega
  rw [limit] at window
  have opened : (root.routed (before ++ [naming])).openWindow = some _ :=
    Routing.openWindow_eq_some.mpr ⟨window, by rw [kept]; exact Nat.lt_succ_self _⟩
  have filled := moveValue.fills (windowed_routed numbered splitValue) kind opened
    (declines_overfull ?_)
  · rwa [kept] at filled
  · rw [List.length_map, List.length_append, List.length_singleton, kept]
    exact Nat.lt_succ_of_le full

end Symbol

/-- How many values the occurrences of a parse hold, and which excess is told. -/
structure Contained (root : Symbol) (parse : Parse) : Prop where
  command : ∀ resolved ∈ parse.occurrences, resolved.symbol.isCommand = true →
    resolved.tokens.length ≤ resolved.symbol.arity.max
  valueless : ∀ resolved ∈ parse.occurrences, resolved.symbol.isOption = true →
    resolved.symbol.arity.max = 0 → resolved.tokens = []
  named : ∀ resolved ∈ parse.occurrences, resolved.symbol.isOption = true →
    resolved.implicit = false → 1 ≤ root.namings parse.args parse.tokens resolved.symbol
  option : ∀ resolved ∈ parse.occurrences, resolved.symbol.isOption = true →
    0 < resolved.symbol.arity.max → resolved.tokens.length ≤
      resolved.symbol.arity.max + (root.namings parse.args parse.tokens resolved.symbol - 1)
  /-- Only an option named more than once is ever blamed for too many values. -/
  excess : ∀ error ∈ parse.errors, error.cause = .tooMany → ∃ i resolved,
    error.occurrence? = some i ∧ parse.occurrences[i]? = some resolved ∧
      resolved.symbol.isOption = true ∧
      2 ≤ root.namings parse.args parse.tokens resolved.symbol
  /-- A value that follows the renewed name of a full option is kept as an excess. -/
  overflow : ∀ {before naming value after}, parse.tokens = before ++ naming :: value :: after →
    ∀ occurrence ∈ (root.routed before).occurrences, naming.kind = .option →
      root.optionNamed? parse.args naming = some occurrence.symbol →
      0 < occurrence.symbol.arity.max →
      occurrence.symbol.arity.max ≤ occurrence.tokens.length → value.kind = .argument →
      ∃ i resolved, parse.occurrences[i]? = some resolved ∧
        resolved.symbol = occurrence.symbol ∧
        occurrence.tokens ++ [value] <+: resolved.tokens ∧
        resolved.verdict.outcome = .tooMany ∧
        .refused i resolved (.tooMany resolved.tokens.length) ∈ parse.errors

namespace Symbol
variable {root : Symbol} {files : Files} {args : List String}

theorem overflow_told (numbered : root.Numbered)
    (ordered : ∀ symbol ∈ root.preorder, symbol.arity.min ≤ symbol.arity.max)
    {i : Nat} {option : Symbol} {parent : Option Nat} {held : List Token}
    (placed : (root.routed (root.tokenize args)).links[i]? = some (option, parent))
    (grew : held <+: (root.routed (root.tokenize args)).tokensOf i)
    (exceeds : option.arity.max < held.length) :
    ∃ resolved, (root.parse files args).occurrences[i]? = some resolved ∧
      resolved.symbol = option ∧ held <+: resolved.tokens ∧
      resolved.verdict.outcome = .tooMany ∧
      .refused i resolved (.tooMany resolved.tokens.length) ∈ (root.parse files args).errors := by
  obtain ⟨occurrence, met, linked⟩ := Routing.links_getElem?_eq_some.mp placed
  obtain ⟨resolved, found, same⟩ := resolved_of_met files met
  have symbols : resolved.symbol = option :=
    (congrArg Occurrence.symbol same).trans (Prod.mk.inj linked).1
  have introduced := introduced_routed numbered (List.append_nil (root.tokenize args)).symm
  have explicit : resolved.implicit = false :=
    (congrArg Occurrence.implicit same).trans (introduced occurrence (List.mem_of_getElem? met)).1
  have inTree : resolved.symbol ∈ root.preorder :=
    (grown_arena numbered args).arena.mem_preorder (link_parse found)
  have tokens := tokensOf_parse found
  have longer : resolved.symbol.arity.max < resolved.tokens.length := by
    rw [tokens, symbols]
    exact Nat.lt_of_lt_of_le exceeds grew.length_le
  have verdict := judged_parse root files args resolved (List.mem_of_getElem? found)
  rw [Verdict.of_overfull explicit (ordered _ inTree) longer] at verdict
  refine ⟨resolved, found, symbols, tokens ▸ grew, ?_, ?_⟩
  · rw [verdict]
    rfl
  · exact Parse.refused_mem_errors.mpr ⟨found, verdict⟩

end Symbol

theorem contained_parse {heading : Heading} {subcommandRequired : Option Bool} {strict : Bool}
    {children : List Declaration} {root : Symbol}
    (built : (Declaration.command heading subcommandRequired strict children).build = .ok root)
    (files : Files) (args : List String) : Contained root (root.parse files args) := by
  have numbered := Declaration.numbered_build built
  have fits : ∀ resolved ∈ (root.parse files args).occurrences, resolved.tokens.length ≤
      resolved.symbol.capacity (root.namings args (root.tokenize args) resolved.symbol) := by
    intro resolved member
    obtain ⟨i, found⟩ := List.mem_iff_getElem?.mp member
    exact Symbol.bounded_parse numbered found
  constructor
  case command =>
    intro resolved member isCommand
    have bound := fits resolved member
    rwa [Symbol.capacity, if_pos (.inl isCommand)] at bound
  case valueless =>
    intro resolved member isOption closed
    have bound := fits resolved member
    rw [Symbol.capacity, if_pos (.inr closed), closed] at bound
    exact List.length_eq_zero_iff.mp (Nat.le_zero.mp bound)
  case named =>
    intro resolved member isOption explicit
    obtain ⟨i, found⟩ := List.mem_iff_getElem?.mp member
    have placed := (Symbol.placed_or_valueless numbered found).resolve_right (by simp [explicit])
    exact (Symbol.accounts_routed numbered (List.append_nil _).symm).namings_pos placed.2 isOption
  case option =>
    intro resolved member isOption takes
    have bound := fits resolved member
    rwa [Symbol.capacity, if_neg (by simp [Symbol.not_command isOption]; omega)] at bound
  case excess =>
    intro error member cause
    cases error with
    | malformedDirective | unrecognized | subcommandMissing => contradiction
    | refused i resolved fault =>
      obtain ⟨found, verdict⟩ := Parse.refused_mem_errors.mp member
      refine ⟨i, resolved, rfl, found, ?_⟩
      have listed := List.mem_of_getElem? found
      have judged := Symbol.judged_parse root files args resolved listed
      have bound := fits resolved listed
      cases Verdict.refusal_of (judged.symm.trans verdict) with
      | missing | disallowed | unconvertible | invalid => contradiction
      | tooMany many =>
        rw [Occurrence.texts, List.length_map] at many
        unfold Symbol.capacity at bound
        split at bound
        · omega
        · rename_i reopenable
          rw [not_or] at reopenable
          refine ⟨by simpa [Symbol.isOption] using reopenable.1, ?_⟩
          show 2 ≤ root.namings args (root.tokenize args) resolved.symbol
          omega
  case overflow =>
    intro before naming value after split occurrence member named means takes full kind
    obtain ⟨i, found⟩ := List.mem_iff_getElem?.mp member
    have placed : (root.routed before).links[i]? = some (occurrence.symbol, occurrence.parent) :=
      Routing.links_getElem?_eq_some.mpr ⟨occurrence, found, rfl⟩
    have holds : (root.routed before).tokensOf i = occurrence.tokens := by
      rw [Routing.tokensOf, found]
    have filled := Symbol.overfilled numbered split named means kind placed takes (holds ▸ full)
    have splitAfter : root.tokenize args = before ++ ([naming] ++ [value]) ++ after := by
      rw [show root.tokenize args = before ++ naming :: value :: after from split]
      simp only [List.append_assoc, List.cons_append, List.nil_append]
    have kept := (Symbol.routed_extends numbered splitAfter i).1 _ placed
    obtain ⟨placedEnd, grew⟩ := Symbol.routed_extends numbered
      (splitAfter.trans (List.append_nil _).symm) i
    rw [← splitAfter, ← List.append_assoc, filled, holds] at grew
    rw [← splitAfter] at placedEnd
    refine ⟨i, Symbol.overflow_told numbered (fun _ => Declaration.arity_of_built built)
      (placedEnd _ kept) grew ?_⟩
    rw [List.length_append, List.length_singleton]
    exact Nat.lt_succ_of_le full

theorem contained_parse_sample : ∃ root, Declaration.sample.build = .ok root ∧
    Contained root (root.parse .absent ["-n", "1", "-n", "2", "run", "-d", "3", "-d", "x"]) := by
  obtain ⟨root, built⟩ : ∃ root, Declaration.sample.build = .ok root := ⟨_, rfl⟩
  exact ⟨root, built, contained_parse built _ _⟩

end CommandGrammar
