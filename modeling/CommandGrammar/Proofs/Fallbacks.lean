import CommandGrammar.Proofs.Accounting
import CommandGrammar.Proofs.Errors
import CommandGrammar.Proofs.Windows

/-! Where defaults stand in. Every option of a command that was entered has one result under it if
the option was named or has a default, and none otherwise. The result is a default exactly if no
token has named the option; it then holds nothing, and is neither blamed nor validated. -/
namespace CommandGrammar

namespace Parse

/-- A token of the stream names the option. -/
def Names (root : Symbol) (parse : Parse) (option : Symbol) : Prop :=
  ∃ token ∈ parse.tokens, token.kind = .option ∧
    root.optionNamed? parse.args token = some option

/-- The results of a symbol under an occurrence. -/
def resultsFor (parse : Parse) (c : Nat) (symbol : Symbol) : List (Nat × Resolved) :=
  (parse.children c).filter fun entry => entry.2.symbol.id == symbol.id

/-- Only the innermost command is ever told to lack a subcommand. -/
theorem subcommandMissing_mem_errors {parse : Parse} {i : Nat} {token : Token}
    (member : .subcommandMissing i token ∈ parse.errors) : i = parse.command := by
  simp only [errors, refusals, leftovers, missingSubcommand, List.mem_append, List.mem_map,
    List.mem_filterMap, Option.map_eq_some_iff, reduceCtorEq, and_false, exists_false, false_or]
    at member
  rcases member with left | missing
  · split at left <;> simp at left
  · split at missing
    · simp only [List.mem_singleton, ParseError.subcommandMissing.injEq] at missing
      exact missing.1
    · cases missing

/-- The results of one symbol are at most as many as the indices they stand at. -/
theorem IsTree.resultsFor_nodup {parse : Parse} (tree : parse.IsTree) (c : Nat) (symbol : Symbol) :
    (parse.resultsFor c symbol).Nodup := by
  have indices : (parse.children c).Pairwise fun first second => first.1 < second.1 :=
    tree.children_ascending c
  exact (indices.imp fun before same => by simp [same] at before).filter _

end Parse

namespace Verdict
variable {files : Files} {all : List Glimpse} {occurrence : Occurrence}

@[simp] theorem isDefault_accepted (value : Value) (byDefault : Bool) :
    (accepted value byDefault).isDefault = byDefault := rfl

@[simp] theorem isDefault_refused (fault : Fault) : (refused fault).isDefault = false := rfl

/-- A default is accepted without a look at anything else. -/
theorem of_implicit {value : Value} (implicit : occurrence.implicit = true)
    (default : occurrence.symbol.argument.default = some value) :
    of files all occurrence = accepted value true := by
  rw [of, if_pos implicit, default, Option.getD_some]

theorem isDefault_ofConversion : (ofConversion files all occurrence).isDefault = false := by
  simp only [ofConversion]
  split
  · rfl
  · split <;> rfl

theorem isDefault_defaultOr {argument : Argument} {otherwise : Verdict}
    (own : otherwise.isDefault = false) :
    (defaultOr argument otherwise).isDefault = argument.default.isSome := by
  unfold defaultOr
  split
  · rename_i given
    rw [given]
    rfl
  · rename_i none
    rw [none, own]
    rfl

/-- A default takes the place of values in a command, and in an option that may do without values
and does not mean true by being given. -/
structure FallsBack (occurrence : Occurrence) : Prop where
  valueless : occurrence.tokens = []
  given : occurrence.symbol.argument.default.isSome = true
  place : occurrence.symbol.isCommand = true ∨ occurrence.symbol.isOption = true ∧
    occurrence.symbol.arity.min = 0 ∧ occurrence.symbol.argument.isFlag = false

/-- What has taken values is no default. -/
theorem isDefault_ofValues_held (held : occurrence.texts.isEmpty = false) :
    (ofValues files all occurrence).isDefault = false := by
  simp only [ofValues, held, Bool.and_false, Bool.false_and, Bool.false_eq_true, if_false]
  split
  · rfl
  · split
    · rfl
    · split
      · rfl
      · exact isDefault_ofConversion

theorem isDefault_ofValues_nil (valueless : occurrence.texts = []) :
    (ofValues files all occurrence).isDefault =
      (occurrence.symbol.argument.default.isSome && (occurrence.symbol.isCommand ||
        occurrence.symbol.arity.min == 0 && !occurrence.symbol.argument.isFlag)) := by
  have allowed : occurrence.symbol.disallowed? [] = none := rfl
  have conversion : (defaultOr occurrence.symbol.argument
      (ofConversion files all occurrence)).isDefault =
        occurrence.symbol.argument.default.isSome := isDefault_defaultOr isDefault_ofConversion
  have missing : (defaultOr occurrence.symbol.argument (refused .missing)).isDefault =
      occurrence.symbol.argument.default.isSome := isDefault_defaultOr rfl
  simp only [ofValues, valueless, List.isEmpty_nil, List.length_nil, Bool.and_true,
    Bool.true_and, Nat.not_lt_zero, if_false, allowed, if_true]
  cases kind : occurrence.symbol.isCommand <;>
    cases flag : occurrence.symbol.argument.isFlag <;>
    cases needed : occurrence.symbol.arity.min <;>
    simp [Symbol.isOption, kind, conversion, missing]

theorem isDefault_ofValues_iff :
    (ofValues files all occurrence).isDefault = true ↔ FallsBack occurrence := by
  cases valueless : occurrence.texts with
  | nil =>
    rw [isDefault_ofValues_nil valueless]
    have none : occurrence.tokens = [] := List.map_eq_nil_iff.mp valueless
    simp only [Bool.and_eq_true, Bool.or_eq_true, beq_iff_eq, Bool.not_eq_true']
    constructor
    · rintro ⟨given, isCommand | ⟨optional, noFlag⟩⟩
      · exact ⟨none, given, .inl isCommand⟩
      · refine ⟨none, given, ?_⟩
        cases kind : occurrence.symbol.isCommand with
        | true => exact .inl rfl
        | false => exact .inr ⟨by simp [Symbol.isOption, kind], optional, noFlag⟩
    · rintro ⟨-, given, isCommand | ⟨-, optional, noFlag⟩⟩
      · exact ⟨given, .inl isCommand⟩
      · exact ⟨given, .inr ⟨optional, noFlag⟩⟩
  | cons first rest =>
    rw [isDefault_ofValues_held (by rw [valueless]; rfl)]
    refine iff_of_false (by simp) fun fallsBack => ?_
    have none : occurrence.texts = [] := List.map_eq_nil_iff.mpr fallsBack.valueless
    rw [none] at valueless
    contradiction

end Verdict

namespace Symbol
variable {root option : Symbol} {files : Files} {args : List String} {i c : Nat}

/-- A default stands for an option that has one, and holds nothing. -/
theorem missing_of_implicit (numbered : root.Numbered) {resolved : Resolved}
    (found : (root.parse files args).occurrences[i]? = some resolved)
    (implicit : resolved.implicit = true) :
    resolved.symbol.isOption = true ∧ resolved.symbol.argument.default.isSome = true ∧
      resolved.tokens = [] := by
  obtain ⟨defaults, bare, areDefaults⟩ := bare_arena numbered args
  have listed : resolved.bare ∈ (root.arena args).occurrences.map Occurrence.bare := by
    rw [← occurrences_parse root files, List.map_map]
    exact List.mem_map.mpr ⟨resolved, List.mem_of_getElem? found, rfl⟩
  rw [bare, List.mem_append] at listed
  rcases listed with met | added
  · obtain ⟨occurrence, member, same⟩ := List.mem_map.mp met
    have introduced := introduced_routed numbered (List.append_nil (root.tokenize args)).symm
    have explicit : resolved.implicit = false :=
      (congrArg Occurrence.implicit same).symm.trans (introduced occurrence member).1
    rw [explicit] at implicit
    contradiction
  · obtain ⟨frame, -, option, -, isOption, given, same⟩ := areDefaults.owned _ added
    have symbols : resolved.symbol = option := congrArg Occurrence.symbol same
    exact ⟨symbols ▸ isOption, symbols ▸ given, congrArg Occurrence.tokens same⟩

/-- An option is named where it has a result that is not a default. -/
theorem named_iff (numbered : root.Numbered) (files : Files) (args : List String)
    (inTree : option ∈ root.preorder) (isOption : option.isOption = true) :
    (root.parse files args).Names root option ↔
      ∃ resolved ∈ (root.parse files args).occurrences,
        resolved.implicit = false ∧ resolved.symbol = option := by
  have options := (accounts_routed numbered (List.append_nil (root.tokenize args)).symm).options
  rw [Routing.ListsOptions, ← introductions_parse numbered files] at options
  constructor
  · rintro ⟨token, member, kind, names⟩
    have listed : token ∈ Token.only .option (root.tokenize args) :=
      List.mem_filter.mpr ⟨member, beq_iff_eq.mpr kind⟩
    have used := (firstUses_used option.id).mpr ⟨token, listed, option, names, rfl⟩
    obtain ⟨entry, introduced, same⟩ := List.any_eq_true.mp (options ▸ used)
    obtain ⟨resolved, explicit, rfl⟩ := List.mem_map.mp (List.mem_filter.mp introduced).1
    obtain ⟨met, explicit⟩ := List.mem_filter.mp explicit
    obtain ⟨i, found⟩ := List.mem_iff_getElem?.mp met
    have placed := (grown_arena numbered args).arena.mem_preorder (link_parse found)
    exact ⟨resolved, met, by simpa using explicit,
      numbered.eq_of_id placed inTree (beq_iff_eq.mp same)⟩
  · rintro ⟨resolved, met, explicit, rfl⟩
    have introduced : (resolved.symbol, resolved.token) ∈
        (root.parse files args).introductions.filter fun entry => entry.1.isOption := by
      refine List.mem_filter.mpr ⟨List.mem_map_of_mem (List.mem_filter.mpr ⟨met, ?_⟩), isOption⟩
      rw [explicit]
      rfl
    rw [options, mem_firstUses] at introduced
    obtain ⟨before, after, split, names, -⟩ := introduced
    have listed : resolved.token ∈ Token.only .option (root.tokenize args) :=
      split ▸ List.mem_append_right _ List.mem_cons_self
    obtain ⟨member, kind⟩ := List.mem_filter.mp listed
    exact ⟨resolved.token, member, beq_iff_eq.mp kind, names⟩

/-- The result of an option is a default exactly if no token names the option. -/
theorem implicit_iff (numbered : root.Numbered) {child : Resolved}
    (found : (root.parse files args).occurrences[i]? = some child)
    (isOption : child.symbol.isOption = true) :
    child.implicit = true ↔ ¬ (root.parse files args).Names root child.symbol := by
  have arena := (grown_arena numbered args).arena
  have named := named_iff numbered files args (arena.mem_preorder (link_parse found)) isOption
  constructor
  · intro implicit names
    obtain ⟨other, met, explicit, same⟩ := named.mp names
    obtain ⟨j, foundOther⟩ := List.mem_iff_getElem?.mp met
    cases index_unique_parse numbered foundOther found same
    cases foundOther.symm.trans found
    rw [implicit] at explicit
    contradiction
  · intro unnamed
    by_contra explicit
    exact unnamed (named.mpr
      ⟨child, List.mem_of_getElem? found, Bool.eq_false_iff.mpr explicit, rfl⟩)

/-- A result of an option stands under the command that declares the option, wherever that is. -/
theorem mem_resultsFor_iff (numbered : root.Numbered) {command child : Resolved}
    (entered : (root.parse files args).occurrences[c]? = some command)
    (owned : option ∈ command.symbol.children) :
    (i, child) ∈ (root.parse files args).resultsFor c option ↔
      (root.parse files args).occurrences[i]? = some child ∧ child.symbol = option := by
  have tree := isTree_parse numbered files args
  have arena := (grown_arena numbered args).arena
  have declares := arena.mem_preorder (link_parse entered)
  have inTree := mem_preorder_of_child declares owned
  rw [Parse.resultsFor, List.mem_filter, tree.mem_children_iff, beq_iff_eq]
  constructor
  · rintro ⟨⟨found, -⟩, same⟩
    exact ⟨found, numbered.eq_of_id (arena.mem_preorder (link_parse found)) inTree same⟩
  · rintro ⟨found, rfl⟩
    have later : 0 < i := by
      rcases Nat.eq_zero_or_pos i with rfl | later
      · have first := Option.some.inj (arena.first.symm.trans (link_parse found))
        have isRoot : child.symbol = root := (congrArg Prod.fst first).symm
        exact absurd (congrArg Symbol.id isRoot) (numbered.child_id_ne_root declares owned)
      · exact later
    obtain ⟨p, owner, above, parent, -, placed, -, ownedToo⟩ :=
      arena.owned (link_parse found) later
    have owners := numbered.owner_unique (arena.mem_preorder placed) declares ownedToo owned rfl
    have places := arena.index_unique numbered placed (link_parse entered)
      (congrArg Symbol.id owners)
    exact ⟨⟨found, places ▸ parent⟩, rfl⟩

/-- An option has no second result. -/
theorem resultsFor_eq_singleton (numbered : root.Numbered) {command child : Resolved}
    (entered : (root.parse files args).occurrences[c]? = some command)
    (owned : option ∈ command.symbol.children)
    (found : (root.parse files args).occurrences[i]? = some child)
    (means : child.symbol = option) :
    (root.parse files args).resultsFor c option = [(i, child)] := by
  have tree := isTree_parse numbered files args
  apply List.perm_singleton.mp
  rw [List.perm_ext_iff_of_nodup (tree.resultsFor_nodup c option) (List.nodup_singleton _)]
  rintro ⟨j, other⟩
  rw [mem_resultsFor_iff numbered entered owned, List.mem_singleton, Prod.mk.injEq]
  constructor
  · rintro ⟨foundOther, meansOther⟩
    obtain rfl := index_unique_parse numbered foundOther found (meansOther.trans means.symm)
    exact ⟨rfl, Option.some.inj (foundOther.symm.trans found)⟩
  · rintro ⟨rfl, rfl⟩
    exact ⟨found, means⟩

/-- An option with a default has a result once its command has been entered. -/
theorem result_of_default (numbered : root.Numbered) {command : Resolved}
    (entered : (root.parse files args).occurrences[c]? = some command)
    (isCommand : command.symbol.isCommand = true) (owned : option ∈ command.symbol.children)
    (isOption : option.isOption = true) (given : option.argument.default.isSome = true) :
    ∃ i : Nat, ∃ child : Resolved,
      (root.parse files args).occurrences[i]? = some child ∧ child.symbol = option := by
  have grown := grown_routed numbered (List.append_nil (root.tokenize args)).symm
  obtain ⟨frame, onPath, -, command⟩ :=
    (grown_arena numbered args).frame_of_command (link_parse entered) isCommand
  rw [← path_parse root files] at onPath
  rw [← command] at owned
  have linked := grown.link_completed numbered onPath owned isOption given
  obtain ⟨i, placed⟩ := List.mem_iff_getElem?.mp linked
  obtain ⟨child, found, same⟩ := link_parse_inv files placed
  exact ⟨i, child, found, (Prod.mk.inj same).1⟩

end Symbol

/-- The occurrence with other validators of its values. -/
def Occurrence.validatedBy (occurrence : Occurrence) (validators : List Validator) : Occurrence :=
  let argument := { occurrence.symbol.argument with validators }
  { occurrence with symbol := { occurrence.symbol with argument } }

/-- A default that stands in for an option: it holds nothing and is accepted as it is. -/
structure StandsIn (parse : Parse) (i : Nat) (resolved : Resolved) : Prop where
  isOption : resolved.symbol.isOption = true
  valueless : resolved.tokens = []
  childless : parse.below i = []
  accepted : ∃ value, resolved.symbol.argument.default = some value ∧
    resolved.verdict = .accepted value true
  blameless : ∀ error ∈ parse.errors, error.occurrence? ≠ some i
  /-- Validators are not asked, whatever they would say. -/
  unvalidated : ∀ files all validators,
    Verdict.of files all (resolved.validatedBy validators) = resolved.verdict

namespace Symbol
variable {root : Symbol} {files : Files} {args : List String} {i : Nat}

theorem blameless_parse (numbered : root.Numbered) {resolved : Resolved}
    (found : (root.parse files args).occurrences[i]? = some resolved)
    (isOption : resolved.symbol.isOption = true) (accepted : resolved.verdict.fault? = none) :
    ∀ error ∈ (root.parse files args).errors, error.occurrence? ≠ some i := by
  intro error member blamed
  cases error with
  | malformedDirective | unrecognized => contradiction
  | refused j other fault =>
    cases blamed
    obtain ⟨foundOther, refused⟩ := Parse.refused_mem_errors.mp member
    cases found.symm.trans foundOther
    rw [refused] at accepted
    contradiction
  | subcommandMissing j token =>
    cases blamed
    have innermost := Parse.subcommandMissing_mem_errors member
    obtain ⟨command, foundCommand, -, isCommand⟩ := innermost_parse numbered files args
    rw [← innermost, found] at foundCommand
    cases foundCommand
    rw [not_command isOption] at isCommand
    contradiction

theorem standsIn_parse (numbered : root.Numbered) {resolved : Resolved}
    (found : (root.parse files args).occurrences[i]? = some resolved)
    (implicit : resolved.implicit = true) : StandsIn (root.parse files args) i resolved := by
  obtain ⟨isOption, given, valueless⟩ := missing_of_implicit numbered found implicit
  obtain ⟨value, default⟩ := Option.isSome_iff_exists.mp given
  have verdict := judged_parse root files args resolved (List.mem_of_getElem? found)
  rw [Verdict.of_implicit implicit default] at verdict
  constructor
  case isOption => exact isOption
  case valueless => exact valueless
  case childless => exact leaves_parse numbered found isOption
  case accepted => exact ⟨value, default, verdict⟩
  case blameless => exact blameless_parse numbered found isOption (by rw [verdict]; rfl)
  case unvalidated =>
    intro files all validators
    rw [verdict]
    exact Verdict.of_implicit implicit default

end Symbol

/-- Where results are defaults. -/
structure Supplied (root : Symbol) (parse : Parse) : Prop where
  /-- An option that was named or has a default has one result, under its command. -/
  present : ∀ {c command}, parse.occurrences[c]? = some command →
    command.symbol.isCommand = true → ∀ option ∈ command.symbol.children,
    option.isOption = true →
    parse.Names root option ∨ option.argument.default.isSome = true →
    ∃ i child, parse.resultsFor c option = [(i, child)] ∧ child.symbol = option ∧
      (child.implicit = true ↔ ¬ parse.Names root option)
  absent : ∀ {c command}, parse.occurrences[c]? = some command →
    command.symbol.isCommand = true → ∀ option ∈ command.symbol.children,
    option.isOption = true → ¬ parse.Names root option →
    option.argument.default = none → parse.resultsFor c option = []
  implicit : ∀ {i resolved}, parse.occurrences[i]? = some resolved →
    resolved.implicit = true → StandsIn parse i resolved
  explicit : ∀ resolved ∈ parse.occurrences, resolved.implicit = false →
    (resolved.verdict.isDefault = true ↔ Verdict.FallsBack resolved.toOccurrence)

theorem supplied_parse {heading : Heading} {subcommandRequired : Option Bool} {strict : Bool}
    {children : List Declaration} {root : Symbol}
    (built : (Declaration.command heading subcommandRequired strict children).build = .ok root)
    (files : Files) (args : List String) : Supplied root (root.parse files args) := by
  have numbered := Declaration.numbered_build built
  have inTree : ∀ {c : Nat} {command : Resolved} {option : Symbol},
      (root.parse files args).occurrences[c]? = some command →
      option ∈ command.symbol.children → option ∈ root.preorder := fun entered owned =>
    Symbol.mem_preorder_of_child
      ((Symbol.grown_arena numbered args).arena.mem_preorder (Symbol.link_parse entered)) owned
  constructor
  case present =>
    intro c command entered isCommand option owned isOption needed
    obtain ⟨i, child, found, rfl⟩ : ∃ i : Nat, ∃ child : Resolved,
        (root.parse files args).occurrences[i]? = some child ∧ child.symbol = option := by
      rcases needed with names | given
      · obtain ⟨child, met, -, means⟩ :=
          (Symbol.named_iff numbered files args (inTree entered owned) isOption).mp names
        obtain ⟨i, found⟩ := List.mem_iff_getElem?.mp met
        exact ⟨i, child, found, means⟩
      · exact Symbol.result_of_default numbered entered isCommand owned isOption given
    exact ⟨i, child, Symbol.resultsFor_eq_singleton numbered entered owned found rfl, rfl,
      Symbol.implicit_iff numbered found isOption⟩
  case absent =>
    intro c command entered _ option owned isOption unnamed none
    apply List.eq_nil_iff_forall_not_mem.mpr
    rintro ⟨i, child⟩ listed
    obtain ⟨found, rfl⟩ := (Symbol.mem_resultsFor_iff numbered entered owned).mp listed
    -- Without a name the result would be a default, and the option has none.
    have implicit := (Symbol.implicit_iff numbered found isOption).mpr unnamed
    obtain ⟨-, given, -⟩ := Symbol.missing_of_implicit numbered found implicit
    rw [none] at given
    contradiction
  case implicit => exact fun found implicit => Symbol.standsIn_parse numbered found implicit
  case explicit =>
    intro resolved member explicit
    rw [Symbol.judged_parse root files args resolved member, Verdict.of,
      if_neg (Bool.eq_false_iff.mp explicit)]
    exact Verdict.isDefault_ofValues_iff

theorem supplied_parse_sample : ∃ root, Declaration.sample.build = .ok root ∧
    Supplied root (root.parse .absent ["run", "-v", "-n", "1"]) := by
  obtain ⟨root, built⟩ : ∃ root, Declaration.sample.build = .ok root := ⟨_, rfl⟩
  exact ⟨root, built, supplied_parse built _ _⟩

end CommandGrammar
