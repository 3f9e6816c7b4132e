import CommandGrammar.Proofs.Accounting
import CommandGrammar.Proofs.Spelling
import CommandGrammar.Proofs.Windows

/-! More arguments continue a parse. What has been met and what it holds stays where it is, and what
is new comes behind it. Only a root that nothing has named yet may still be given its token. -/
namespace CommandGrammar

namespace Classifier
variable {reader : Classifier} {args : List String}

/-- Only brackets leave a reader in front of the command line. -/
theorem opensBracket_of_phase (phase : (reader.run args).phase = .directives) :
    reader.phase = .directives ∧ ∀ raw ∈ args, opensBracket raw = true := by
  induction args using List.reverseRecOn with
  | nil => exact ⟨phase, List.forall_mem_nil _⟩
  | append_singleton args raw ih =>
    rw [run_append] at phase
    have reading := step_reading (reader.run args) raw
    have ends : ((reader.run args).step raw).1.phase = .directives := phase
    generalize (reader.run args).step raw = result at reading ends
    obtain ⟨next, pieces⟩ := result
    cases reading with
    | directive before bracket =>
      obtain ⟨start, opens⟩ := ih before
      refine ⟨start, List.forall_mem_append.mpr ⟨opens, ?_⟩⟩
      exact List.forall_mem_singleton.mpr (beq_iff_eq.mpr bracket)
    | value before =>
      cases before.symm.trans ends
    | endOfOptions | command | root | word => contradiction

end Classifier

namespace Routing
variable {root : Symbol} {routing after : Routing} {token : Token}

theorem Move.unmatched_prefix (move : Move routing token after) :
    routing.unmatched <+: after.unmatched := by
  cases move with
  | skip | close | enter | name | «open» | reopen | fill | take => exact List.prefix_refl _
  | leave => exact List.prefix_append _ _

theorem Grown.children_prefix (grown : Grown root routing) (grownAfter : Grown root after)
    (links : routing.links <+: after.links) (i : Nat) :
    routing.childrenOf i <+: after.childrenOf i := by
  obtain ⟨more, same⟩ := links
  rw [grown.noted, grownAfter.noted, ← same, List.findIdxs_append]
  exact List.prefix_append _ _

/-- A root is named late if nothing but brackets came before its token. -/
structure NamedLate (routing : Routing) (i : Nat) (early late : Token) : Prop where
  root : i = 0
  fresh : routing.started = false
  implicit : early.position = none
  explicit : late.position.isSome = true

/-- What has been introduced keeps its token, unless it is the root and is named only now. -/
theorem Introduction.kept (introduction : Introduction routing token after)
    (fresh : routing.started = false → routing = .start root)
    (positioned : token.position.isSome = true) {i : Nat} {symbol : Symbol} {early : Token}
    (found : routing.introductions[i]? = some (symbol, early)) :
    ∃ late, after.introductions[i]? = some (symbol, late) ∧
      (late = early ∨ NamedLate routing i early late) := by
  have bound := (List.getElem?_eq_some_iff.mp found).1
  cases introduction with
  | idle _ _ same | again _ _ _ same => exact ⟨early, same ▸ found, .inl rfl⟩
  | entered _ _ added | first _ _ _ added =>
    refine ⟨early, ?_, .inl rfl⟩
    rw [added, List.getElem?_append_left bound, found]
  | root _ notStarted named =>
    have start := fresh notStarted
    rw [start] at found named bound
    obtain rfl : i = 0 := Nat.lt_one_iff.mp bound
    cases found
    refine ⟨token, ?_, .inr ⟨rfl, notStarted, rfl, positioned⟩⟩
    rw [introductions, named]
    rfl

end Routing

namespace Symbol
variable {root : Symbol} {args : List String} {before between after : List Token}

theorem unmatched_extends (split : root.tokenize args = before ++ between ++ after) :
    (root.routed before).unmatched <+: (root.routed (before ++ between)).unmatched := by
  refine routed_onward (motive := fun _ routing =>
    (root.routed before).unmatched <+: routing.unmatched) (List.prefix_refl _) ?_ split
  intro between token rest _ move kept
  exact kept.trans move.unmatched_prefix

theorem introductions_extend (numbered : root.Numbered)
    (split : root.tokenize args = before ++ between ++ after) {i : Nat} {symbol : Symbol}
    {early : Token} (found : (root.routed before).introductions[i]? = some (symbol, early)) :
    ∃ late, (root.routed (before ++ between)).introductions[i]? = some (symbol, late) ∧
      (late = early ∨ (root.routed before).NamedLate i early late) := by
  refine routed_onward (motive := fun _ routing => ∃ late,
    routing.introductions[i]? = some (symbol, late) ∧
      (late = early ∨ (root.routed before).NamedLate i early late))
    ⟨early, found, .inl rfl⟩ ?_ split
  rintro between token rest split move ⟨middle, foundMiddle, same⟩
  obtain ⟨_, _, met⟩ := met split
  obtain ⟨late, foundLate, kept⟩ := move.introduction.kept
    (accounts_routed numbered split).commands.fresh (by rw [met.position, Option.isSome_some])
    foundMiddle
  refine ⟨late, foundLate, ?_⟩
  rcases kept with rfl | named
  · exact same
  · -- Nothing had been met in front of this token, so nothing had been met earlier either.
    have notStarted : (root.routed before).started = false := by
      by_contra started
      rw [Bool.not_eq_false] at started
      have onward := Routing.started_run started between
      rw [← routed_append, named.fresh] at onward
      contradiction
    rcases same with rfl | earlier
    · exact .inr ⟨named.root, notStarted, named.implicit, named.explicit⟩
    · exact .inr ⟨named.root, notStarted, earlier.implicit, named.explicit⟩

end Symbol

/-- Symbols tell the kinds of their occurrences. -/
theorem Occurrence.kind_eq {early late : Occurrence} (hasKind : early.HasKind)
    (hasKindLate : late.HasKind) (same : late.symbol = early.symbol) : late.kind = early.kind := by
  unfold HasKind at hasKind hasKindLate
  rw [same] at hasKindLate
  split at hasKind
  · rename_i isCommand
    rw [if_pos isCommand] at hasKindLate
    exact hasKindLate.1.trans hasKind.1.symm
  · rename_i isOption
    rw [if_neg isOption] at hasKindLate
    exact hasKindLate.1.trans hasKind.1.symm

theorem filter_prefix_of_pairwise {α : Type} {p : α → Bool} {entries : List α}
    (ordered : entries.Pairwise fun first second => p second = true → p first = true) :
    entries.filter p <+: entries := by
  induction entries with
  | nil => exact List.prefix_refl _
  | cons first rest ih =>
    obtain ⟨here, later⟩ := List.pairwise_cons.mp ordered
    cases passes : p first with
    | true =>
      rw [List.filter_cons_of_pos passes, List.prefix_cons_inj]
      exact ih later
    | false =>
      have none : rest.filter p = [] := by
        apply List.filter_eq_nil_iff.mpr
        intro second member passesLater
        rw [here second member passesLater] at passes
        contradiction
      rw [List.filter_cons_of_neg (by simp [passes]), none]
      exact List.nil_prefix

namespace Parse

/-- What was met on the command line, without options added for their defaults. -/
def met (parse : Parse) : List Resolved :=
  parse.occurrences.filter fun resolved => !resolved.implicit

/-- What was met under an occurrence. -/
def metBelow (parse : Parse) (i : Nat) : List Nat :=
  (parse.below i).filter fun j => parse.occurrences[j]?.any fun resolved => !resolved.implicit

end Parse

namespace Symbol
variable {root : Symbol} {files : Files} {args : List String} {i : Nat}

/-- The number of occurrences that were met. -/
def reach (root : Symbol) (args : List String) : Nat :=
  (root.routed (root.tokenize args)).occurrences.length

theorem met_parse (numbered : root.Numbered) (files : Files) (args : List String) :
    (root.parse files args).met = (root.parse files args).occurrences.take (root.reach args) := by
  have front : (root.parse files args).met <+: (root.parse files args).occurrences := by
    apply filter_prefix_of_pairwise
    refine (defaults_last numbered files args).imp fun ordered explicit => ?_
    rw [Bool.not_eq_true'] at explicit ⊢
    exact Bool.eq_false_iff.mpr fun implicit => by simp [ordered implicit] at explicit
  have count := congrArg List.length (introductions_parse numbered files args)
  simp only [Parse.introductions, Routing.introductions, List.length_map] at count
  rw [reach, ← count]
  exact List.prefix_iff_eq_take.mp front

theorem met_at (numbered : root.Numbered) {resolved : Resolved} :
    (root.parse files args).met[i]? = some resolved ↔
      (root.parse files args).occurrences[i]? = some resolved ∧ i < root.reach args := by
  rw [met_parse numbered, List.getElem?_take]
  split
  · rename_i bound
    exact (and_iff_left bound).symm
  · rename_i beyond
    exact iff_of_false (by simp) fun found => beyond found.2

/-- What was met is not implicit. -/
theorem isMet_iff (numbered : root.Numbered) (files : Files) (args : List String) (j : Nat) :
    ((root.parse files args).occurrences[j]?.any fun resolved => !resolved.implicit) = true ↔
      j < root.reach args := by
  constructor
  · intro explicit
    cases found : (root.parse files args).occurrences[j]? with
    | none => simp [found] at explicit
    | some resolved =>
      rw [found, Option.any_some, Bool.not_eq_true'] at explicit
      have placed := (placed_or_valueless numbered found).resolve_right (by simp [explicit])
      have bound := (List.getElem?_eq_some_iff.mp placed.2).1
      rwa [Routing.links_length] at bound
  · intro bound
    have introduced := introduced_routed numbered (List.append_nil (root.tokenize args)).symm
    obtain ⟨resolved, found, same⟩ := resolved_of_met files (List.getElem?_eq_getElem bound)
    have explicit := (introduced _ (List.getElem_mem bound)).1
    rw [found, Option.any_some, Bool.not_eq_true']
    exact (congrArg Occurrence.implicit same).trans explicit

theorem links_arena (root : Symbol) (args : List String) : ∃ defaults,
    (root.arena args).links = (root.routed (root.tokenize args)).links ++ defaults := by
  obtain ⟨defaults, added, -⟩ :=
    (Routing.completes_completed (root.routed (root.tokenize args))).defaults
  refine ⟨defaults.map Occurrence.link, ?_⟩
  have links := congrArg (List.map Occurrence.link) added
  rw [List.map_append, List.map_map, List.map_map] at links
  exact links

theorem metBelow_parse (numbered : root.Numbered) (files : Files) (args : List String) (i : Nat) :
    (root.parse files args).metBelow i = (root.routed (root.tokenize args)).childrenOf i := by
  obtain ⟨defaults, links⟩ := root.links_arena args
  have grown := grown_routed numbered (List.append_nil (root.tokenize args)).symm
  have kept : ∀ j, ((root.parse files args).occurrences[j]?.any fun resolved =>
      !resolved.implicit) = decide (j < root.reach args) := by
    intro j
    rw [Bool.eq_iff_iff, isMet_iff numbered, decide_eq_true_iff]
  rw [Parse.metBelow, below_parse, (grown_arena numbered args).noted, links, List.findIdxs_append,
    List.filter_append, grown.noted, Routing.links_length]
  simp only [kept]
  rw [List.filter_eq_self.mpr, List.filter_eq_nil_iff.mpr, List.append_nil]
  · intro j member
    have beyond := List.ge_of_mem_findIdxs j member
    rw [decide_eq_true_iff, reach]
    omega
  · intro j member
    have bound := List.lt_add_of_mem_findIdxs j member
    rw [decide_eq_true_iff, reach, ← Routing.links_length]
    omega

end Symbol

/-- What was met keeps its place and what it holds as the command line goes on. -/
structure Resolved.Continues (args : List String) (i : Nat) (early late : Resolved) : Prop where
  kind : late.kind = early.kind
  symbol : late.symbol = early.symbol
  parent : late.parent = early.parent
  /-- Only a root is named late, and only behind nothing but brackets. -/
  token : late.token = early.token ∨ i = 0 ∧ early.token.position = none ∧
    late.token.position.isSome = true ∧ ∀ raw ∈ args, raw.toList.head? = some '['
  tokens : early.tokens <+: late.tokens

/-- The parse of a longer command line goes on where the parse of a shorter one ends. -/
structure Parse.Continues (parse longer : Parse) : Prop where
  tokens : parse.tokens <+: longer.tokens
  malformed : (Token.malformed parse.tokens).map (fun token => (token.malformedMessage, token)) <+:
    (Token.malformed longer.tokens).map fun token => (token.malformedMessage, token)
  /-- What was met stands in front of what was not. -/
  front : parse.met <+: parse.occurrences ∧ longer.met <+: longer.occurrences
  met : ∀ {i early}, parse.met[i]? = some early → ∃ late, longer.met[i]? = some late ∧
    early.Continues parse.args i late ∧ parse.metBelow i <+: longer.metBelow i
  unmatched : parse.unmatched <+: longer.unmatched

namespace Symbol
variable {root : Symbol} {args more : List String}

theorem tokenize_append (root : Symbol) (args more : List String) :
    root.tokenize (args ++ more) = root.tokenize args ++
      ((Classifier.start root).run args).tokens (0 + args.length) more :=
  Classifier.tokens_append _ _ _ _

/-- As long as nothing has been met, every argument is a bracket. -/
theorem brackets_of_fresh (fresh : (root.routed (root.tokenize args)).started = false) :
    ∀ raw ∈ args, raw.toList.head? = some '[' := by
  have phase := ((Follows.initial root).run 0 args).phase.mpr fresh
  intro raw member
  exact beq_iff_eq.mp ((Classifier.opensBracket_of_phase phase).2 raw member)

theorem token_continues (numbered : root.Numbered) {i : Nat} {early late : Resolved}
    (found : (root.parse files args).met[i]? = some early)
    (foundLate : (root.parse files (args ++ more)).met[i]? = some late) :
    late.token = early.token ∨ i = 0 ∧ early.token.position = none ∧
      late.token.position.isSome = true ∧ ∀ raw ∈ args, raw.toList.head? = some '[' := by
  have introduced := introductions_parse numbered files args
  have introducedLate := introductions_parse numbered files (args ++ more)
  have named : (root.routed (root.tokenize args)).introductions[i]? =
      some (early.symbol, early.token) := by
    rw [← introduced, Parse.introductions, List.getElem?_map]
    exact congrArg (Option.map _) found
  have namedLate : (root.routed (root.tokenize (args ++ more))).introductions[i]? =
      some (late.symbol, late.token) := by
    rw [← introducedLate, Parse.introductions, List.getElem?_map]
    exact congrArg (Option.map _) foundLate
  have split := (root.tokenize_append args more).trans (List.append_nil _).symm
  obtain ⟨token, foundToken, kept⟩ := introductions_extend numbered split named
  rw [← tokenize_append, namedLate, Option.some.injEq, Prod.mk.injEq] at foundToken
  obtain ⟨-, rfl⟩ := foundToken
  rcases kept with same | renamed
  · exact .inl same
  · exact .inr ⟨renamed.root, renamed.implicit, renamed.explicit, brackets_of_fresh renamed.fresh⟩

theorem met_continues (numbered : root.Numbered) (files : Files) (more : List String) {i : Nat}
    {early : Resolved} (found : (root.parse files args).met[i]? = some early) :
    ∃ late, (root.parse files (args ++ more)).met[i]? = some late ∧
      early.Continues args i late := by
  have split := (root.tokenize_append args more).trans (List.append_nil _).symm
  obtain ⟨listed, bound⟩ := (met_at numbered).mp found
  have explicit : early.implicit = false := by
    simpa using (List.mem_filter.mp (List.mem_of_getElem? found)).2
  have placed := (placed_or_valueless numbered listed).resolve_right (by simp [explicit])
  obtain ⟨links, tokens⟩ := routed_extends numbered split i
  rw [← tokenize_append] at links tokens
  obtain ⟨occurrence, metLate, linked⟩ :=
    Routing.links_getElem?_eq_some.mp (links _ placed.2)
  obtain ⟨late, listedLate, same⟩ := resolved_of_met files metLate
  obtain ⟨symbol, parent⟩ := Prod.mk.inj linked
  have foundLate : (root.parse files (args ++ more)).met[i]? = some late :=
    (met_at numbered).mpr ⟨listedLate, (List.getElem?_eq_some_iff.mp metLate).1⟩
  have sameSymbol : late.symbol = early.symbol :=
    (congrArg Occurrence.symbol same).trans symbol
  refine ⟨late, foundLate, ?_⟩
  constructor
  case kind =>
    exact Occurrence.kind_eq
      (hasKind_parse numbered files args early (List.mem_of_getElem? listed))
      (hasKind_parse numbered files _ late (List.mem_of_getElem? listedLate)) sameSymbol
  case symbol => exact sameSymbol
  case parent => exact (congrArg Occurrence.parent same).trans parent
  case token => exact token_continues numbered found foundLate
  case tokens =>
    rw [tokensOf_parse listed, tokensOf_parse listedLate]
    exact tokens

theorem metBelow_continues (numbered : root.Numbered) (files : Files) (args more : List String)
    (i : Nat) :
    (root.parse files args).metBelow i <+: (root.parse files (args ++ more)).metBelow i := by
  have split := (root.tokenize_append args more).trans (List.append_nil _).symm
  have grown := grown_routed numbered (List.append_nil (root.tokenize args)).symm
  have grownLate := grown_routed numbered (List.append_nil (root.tokenize (args ++ more))).symm
  rw [metBelow_parse numbered, metBelow_parse numbered]
  refine grown.children_prefix grownLate ?_ i
  rw [List.prefix_iff_getElem?]
  intro j bound
  have extended := (routed_extends numbered split j).1
  rw [← tokenize_append] at extended
  exact extended _ (List.getElem?_eq_getElem bound)

end Symbol

theorem continues_parse {heading : Heading} {subcommandRequired : Option Bool} {strict : Bool}
    {children : List Declaration} {root : Symbol}
    (built : (Declaration.command heading subcommandRequired strict children).build = .ok root)
    (files : Files) (args more : List String) :
    (root.parse files args).Continues (root.parse files (args ++ more)) := by
  have numbered := Declaration.numbered_build built
  have tokens : root.tokenize args <+: root.tokenize (args ++ more) :=
    root.tokenize_append args more ▸ List.prefix_append _ _
  constructor
  case tokens => exact tokens
  case malformed => exact (tokens.filter _).map _
  case front =>
    rw [Symbol.met_parse numbered, Symbol.met_parse numbered]
    exact ⟨List.take_prefix _ _, List.take_prefix _ _⟩
  case met =>
    intro i early found
    obtain ⟨late, foundLate, continued⟩ := Symbol.met_continues numbered files more found
    exact ⟨late, foundLate, continued, Symbol.metBelow_continues numbered files args more i⟩
  case unmatched =>
    have split := (root.tokenize_append args more).trans (List.append_nil _).symm
    have unmatched := Symbol.unmatched_extends split
    rw [← Symbol.tokenize_append] at unmatched
    exact unmatched

theorem continues_parse_sample : ∃ root, Declaration.sample.build = .ok root ∧
    (root.parse .absent ["[x]"]).Continues
      (root.parse .absent (["[x]"] ++ ["tool", "-n", "run", "a", "-n", "1"])) := by
  obtain ⟨root, built⟩ : ∃ root, Declaration.sample.build = .ok root := ⟨_, rfl⟩
  exact ⟨root, built, continues_parse built _ _ _⟩

end CommandGrammar
