import CommandGrammar.Proofs.Defaults
import CommandGrammar.Proofs.Walks

/-! The occurrences of a parse form a tree that mirrors part of the grammar: each stands once under
the occurrence of the symbol above its own. Walks down and up stay within the arena and end. -/
namespace CommandGrammar

/-- Kind and introducing token fit the symbol. -/
def Occurrence.HasKind (occurrence : Occurrence) : Prop :=
  if occurrence.symbol.isCommand then occurrence.kind = .command ∧ occurrence.token.kind = .command
  else occurrence.kind = .option ∧ occurrence.token.kind = .option

theorem Occurrence.hasKind_bare (occurrence : Occurrence) :
    occurrence.bare.HasKind ↔ occurrence.HasKind := Iff.rfl

namespace Routing
variable {root : Symbol} {routing after : Routing} {token : Token}

/-- Everything met was introduced by a token of its kind. -/
def Introduced (routing : Routing) : Prop :=
  ∀ occurrence ∈ routing.occurrences, occurrence.implicit = false ∧ occurrence.HasKind

theorem Introduced.push (introduced : routing.Introduced) (occurrence : Occurrence)
    (explicit : occurrence.implicit = false) (kind : occurrence.HasKind) :
    (routing.push occurrence).Introduced :=
  forall_push (fun _ _ held => held) introduced ⟨explicit, kind⟩

theorem Introduced.move (introduced : routing.Introduced) (grown : Grown root routing)
    (move : Move routing token after) : after.Introduced := by
  cases move with
  | skip | close | reopen | leave => exact introduced
  | fill | take => exact Occurrence.forall_modify introduced fun _ _ held => held
  | @enter child kind entered =>
    have isCommand := (Symbol.subcommand_eq_some entered).2
    exact introduced.push (.met .command child token (some routing.path.innermost.occurrence)) rfl
      (by simp [Occurrence.HasKind, Occurrence.met, isCommand, kind])
  | @«open» frame option kind meant absent =>
    obtain ⟨-, -, isOption⟩ := optionMeant_eq_some meant
    have noCommand := Symbol.not_command isOption
    exact introduced.push (.met .option option token (some frame.occurrence)) rfl
      (by simp [Occurrence.HasKind, Occurrence.met, noCommand, kind])
  | name kind unknown fresh named =>
    refine Occurrence.forall_modify introduced ?_
    rintro occurrence found ⟨explicit, fits⟩
    obtain ⟨isCommand, above, placed⟩ := grown.found List.mem_cons_self
    obtain ⟨other, foundOther, linked⟩ := links_getElem?_eq_some.mp placed
    cases found.symm.trans foundOther
    have symbols : occurrence.symbol = routing.path.innermost.command := (Prod.mk.inj linked).1
    simp only [Occurrence.HasKind, symbols, isCommand, if_true] at fits ⊢
    exact ⟨explicit, fits.1, kind⟩

end Routing

theorem Symbol.introduced_routed {root : Symbol} (numbered : root.Numbered)
    (split : root.tokenize args = before ++ after) : (root.routed before).Introduced := by
  refine Symbol.routed_induction (motive := fun _ routing => routing.Introduced) ?_ ?_ split
  · intro occurrence member
    cases List.mem_singleton.mp member
    exact ⟨rfl, by simp [Occurrence.HasKind, Occurrence.met, numbered.isCommand, Token.implicit]⟩
  · intro before token after split move introduced
    exact introduced.move (Symbol.grown_routed numbered split) move

namespace Symbol
variable {root : Symbol} {files : Files} {args : List String}

/-- The routing of all tokens of an argument list, with defaults. -/
def arena (root : Symbol) (args : List String) : Routing :=
  (root.routed (root.tokenize args)).completed

theorem grown_arena (numbered : root.Numbered) (args : List String) :
    Routing.Grown root (root.arena args) :=
  (grown_routed numbered (List.append_nil _).symm).completed numbered

theorem symbol_arena (numbered : root.Numbered) {occurrence : Occurrence}
    (member : occurrence ∈ (root.arena args).occurrences) :
    occurrence.symbol ∈ root.preorder := by
  obtain ⟨i, found⟩ := List.mem_iff_getElem?.mp member
  exact (grown_arena numbered args).arena.mem_preorder
    (Routing.links_getElem?_eq_some.mpr ⟨occurrence, found, rfl⟩)

/-- Behind what was met stand the defaults of the commands on the path, those of outer commands
first. -/
theorem bare_arena (numbered : root.Numbered) (args : List String) : ∃ defaults,
    (root.arena args).occurrences.map Occurrence.bare =
      (root.routed (root.tokenize args)).occurrences.map Occurrence.bare ++ defaults ∧
    Routing.DefaultsOf (root.routed (root.tokenize args)).path.toList.reverse defaults := by
  have grown := grown_routed numbered (List.append_nil (root.tokenize args)).symm
  exact Routing.defaults_foldl _ (List.pairwise_reverse.mpr grown.descending)

theorem occurrences_parse (root : Symbol) (files : Files) (args : List String) :
    (root.parse files args).occurrences.map Resolved.toOccurrence =
      (root.arena args).occurrences := by
  simp only [parse, Routing.resolve, List.map_map, Function.comp_def, List.map_id']
  rfl

theorem links_parse (root : Symbol) (files : Files) (args : List String) :
    (root.parse files args).occurrences.map (·.link) = (root.arena args).links := by
  rw [Routing.links, ← occurrences_parse root files, List.map_map]
  rfl

theorem below_parse (root : Symbol) (files : Files) (args : List String) (i : Nat) :
    (root.parse files args).below i = (root.arena args).childrenOf i := by
  rw [Parse.below, Routing.childrenOf, ← occurrences_parse root files, List.getElem?_map]
  cases (root.parse files args).occurrences[i]? <;> rfl

theorem path_parse (root : Symbol) (files : Files) (args : List String) :
    (root.parse files args).path = (root.arena args).path :=
  (Routing.completes_completed _).path.symm

theorem link_parse {i : Nat} {resolved : Resolved}
    (found : (root.parse files args).occurrences[i]? = some resolved) :
    (root.arena args).links[i]? = some (resolved.symbol, resolved.parent) := by
  rw [← links_parse root files, List.getElem?_map, found]
  rfl

theorem link_parse_inv (files : Files) {i : Nat} {link : Symbol × Option Nat}
    (placed : (root.arena args).links[i]? = some link) :
    ∃ resolved, (root.parse files args).occurrences[i]? = some resolved ∧
      (resolved.symbol, resolved.parent) = link := by
  rw [← links_parse root files, List.getElem?_map] at placed
  exact Option.map_eq_some_iff.mp placed

theorem parentOf_parse {i p : Nat} :
    (root.parse files args).parentOf? i = some p ↔
      ∃ symbol, (root.arena args).links[i]? = some (symbol, some p) := by
  rw [Parse.parentOf?, Option.bind_eq_some_iff]
  constructor
  · rintro ⟨resolved, found, parent⟩
    exact ⟨resolved.symbol, parent ▸ link_parse found⟩
  · rintro ⟨symbol, placed⟩
    obtain ⟨resolved, found, same⟩ := link_parse_inv files placed
    exact ⟨resolved, found, (Prod.mk.inj same).2⟩

theorem isTree_parse (numbered : root.Numbered) (files : Files) (args : List String) :
    (root.parse files args).IsTree := by
  have grown := grown_arena numbered args
  constructor
  case first =>
    obtain ⟨resolved, found, same⟩ := link_parse_inv files grown.arena.first
    rw [Parse.parentOf?, found]
    exact (Prod.mk.inj same).2
  case above =>
    intro i bound later
    have placed := link_parse (List.getElem?_eq_getElem bound)
    obtain ⟨p, _, _, parent, before, -⟩ := grown.arena.owned placed later
    exact ⟨p, before, parentOf_parse.mpr ⟨_, parent ▸ placed⟩⟩
  case noted =>
    intro i
    rw [below_parse, grown.noted, ← links_parse root files, List.findIdxs_map]
    rfl

/-- A symbol has one occurrence at most. -/
theorem index_unique_parse (numbered : root.Numbered) {i j : Nat} {resolved other : Resolved}
    (found : (root.parse files args).occurrences[i]? = some resolved)
    (foundOther : (root.parse files args).occurrences[j]? = some other)
    (same : resolved.symbol = other.symbol) : i = j :=
  (grown_arena numbered args).arena.index_unique numbered (link_parse found)
    (link_parse foundOther) (congrArg Symbol.id same)

/-- Every occurrence but the first stands under that of the command that declares its symbol. -/
theorem above_parse (numbered : root.Numbered) {i : Nat} {resolved : Resolved}
    (found : (root.parse files args).occurrences[i]? = some resolved) (later : 0 < i) :
    ∃ p owner, resolved.parent = some p ∧ p < i ∧
      (root.parse files args).occurrences[p]? = some owner ∧ owner.symbol.isCommand = true ∧
      root.parentOf? resolved.symbol.id = some owner.symbol := by
  have grown := grown_arena numbered args
  obtain ⟨p, owner, _, parent, before, placed, isCommand, owned⟩ :=
    grown.arena.owned (link_parse found) later
  obtain ⟨other, foundOther, same⟩ := link_parse_inv files placed
  obtain ⟨rfl, -⟩ := Prod.mk.inj same
  exact ⟨p, other, parent, before, foundOther, isCommand,
    numbered.parentOf_child (grown.arena.mem_preorder placed) owned⟩

theorem leaves_parse (numbered : root.Numbered) {i : Nat} {resolved : Resolved}
    (found : (root.parse files args).occurrences[i]? = some resolved)
    (isOption : resolved.symbol.isOption = true) : (root.parse files args).below i = [] := by
  have tree := isTree_parse numbered files args
  apply List.eq_nil_iff_forall_not_mem.mpr
  intro j member
  have parent := tree.mem_below.mp member
  obtain ⟨child, foundChild, under⟩ := Option.bind_eq_some_iff.mp parent
  have later := Nat.zero_lt_of_lt (tree.lt_of_parent parent).1
  obtain ⟨p, owner, same, -, foundOwner, isCommand, -⟩ := above_parse numbered foundChild later
  cases same.symm.trans under
  cases foundOwner.symm.trans found
  rw [not_command isOption] at isCommand
  contradiction

theorem bare_parse (root : Symbol) (files : Files) (args : List String) :
    ∃ defaults : List Occurrence,
      (root.parse files args).occurrences.map (·.bare) =
        (root.routed (root.tokenize args)).occurrences.map Occurrence.bare ++ defaults ∧
      ∀ occurrence ∈ defaults, occurrence.IsDefault := by
  obtain ⟨defaults, added, isDefault⟩ :=
    (Routing.completes_completed (root.routed (root.tokenize args))).defaults
  refine ⟨defaults, ?_, isDefault⟩
  rw [← added, ← arena, ← occurrences_parse root files, List.map_map]
  rfl

theorem met_or_default {resolved : Resolved}
    (member : resolved ∈ (root.parse files args).occurrences) :
    (∃ occurrence ∈ (root.routed (root.tokenize args)).occurrences,
      occurrence.bare = resolved.bare) ∨ resolved.bare.IsDefault := by
  obtain ⟨defaults, bare, isDefault⟩ := bare_parse root files args
  have listed : resolved.bare ∈ (root.parse files args).occurrences.map (·.bare) :=
    List.mem_map_of_mem member
  rw [bare, List.mem_append] at listed
  exact listed.imp List.mem_map.mp (isDefault _)

theorem hasKind_parse (numbered : root.Numbered) (files : Files) (args : List String) :
    ∀ resolved ∈ (root.parse files args).occurrences, resolved.HasKind := by
  have introduced := introduced_routed numbered (List.append_nil (root.tokenize args)).symm
  intro resolved member
  rw [← Occurrence.hasKind_bare]
  rcases met_or_default member with ⟨occurrence, found, same⟩ | ⟨option, parent, isOption, same⟩
  · rw [← same, Occurrence.hasKind_bare]
    exact (introduced occurrence found).2
  · have noCommand := not_command isOption
    simp [same, Occurrence.HasKind, Occurrence.missing, noCommand, Token.implicit]

theorem defaults_last (numbered : root.Numbered) (files : Files) (args : List String) :
    (root.parse files args).occurrences.Pairwise fun earlier later =>
      earlier.implicit = true → later.implicit = true := by
  obtain ⟨defaults, bare, isDefault⟩ := bare_parse root files args
  have introduced := introduced_routed numbered (List.append_nil (root.tokenize args)).symm
  have ordered : ((root.parse files args).occurrences.map (·.bare)).Pairwise
      fun earlier later => earlier.implicit = true → later.implicit = true := by
    rw [bare, List.pairwise_append]
    refine ⟨?_, ?_, ?_⟩
    · rw [List.pairwise_map]
      apply List.pairwise_of_forall_mem_list
      intro earlier met later _ implicit
      rw [Occurrence.bare, (introduced earlier met).1] at implicit
      contradiction
    · apply List.pairwise_of_forall_mem_list
      exact fun _ _ later added _ => (isDefault later added).implicit
    · exact fun _ _ later added _ => (isDefault later added).implicit
  rw [List.pairwise_map] at ordered
  exact ordered

theorem climb_path {links : Links} {frames : List Frame} {frame : Frame}
    (numbered : root.Numbered) (chain : Chain links (frame :: frames))
    (same : links = (root.arena args).links) (deep : frame.occurrence < depth) :
    (root.parse files args).climb depth frame.occurrence =
      (frame :: frames).map Frame.occurrence := by
  have tree := isTree_parse numbered files args
  obtain ⟨depth, rfl⟩ : ∃ fewer, depth = fewer + 1 := ⟨depth - 1, by omega⟩
  induction frames generalizing frame depth with
  | nil =>
    cases chain with
    | root => exact tree.climb_root depth
  | cons outer rest ih =>
    obtain ⟨chain, placed⟩ := chain.above
    have parent : (root.parse files args).parentOf? frame.occurrence = some outer.occurrence :=
      parentOf_parse.mpr ⟨frame.command, same ▸ placed⟩
    have before := (tree.lt_of_parent parent).1
    obtain ⟨depth, rfl⟩ : ∃ fewer, depth = fewer + 1 := ⟨depth - 1, by omega⟩
    rw [Parse.climb_child parent, ih chain depth (by omega)]
    rfl

theorem climb_command (numbered : root.Numbered) (files : Files) (args : List String)
    (deep : (root.parse files args).command < depth) :
    (root.parse files args).climb depth (root.parse files args).command =
      (root.parse files args).path.toList.map Frame.occurrence := by
  rw [Parse.command, path_parse] at deep ⊢
  exact climb_path numbered (grown_arena numbered args).chain rfl deep

theorem frames_parse (numbered : root.Numbered) (files : Files) (args : List String) :
    ∀ frame ∈ (root.parse files args).path.toList, ∃ resolved,
      (root.parse files args).occurrences[frame.occurrence]? = some resolved ∧
        resolved.symbol = frame.command := by
  intro frame onPath
  rw [path_parse] at onPath
  obtain ⟨-, above, placed⟩ := (grown_arena numbered args).found onPath
  obtain ⟨resolved, found, same⟩ := link_parse_inv files placed
  exact ⟨resolved, found, (Prod.mk.inj same).1⟩

/-- The innermost command has its occurrence. -/
theorem innermost_parse (numbered : root.Numbered) (files : Files) (args : List String) :
    ∃ resolved, (root.parse files args).occurrences[(root.parse files args).command]? =
        some resolved ∧
      resolved.symbol = (root.parse files args).innermost ∧ resolved.symbol.isCommand = true := by
  obtain ⟨isCommand, above, placed⟩ := (grown_arena numbered args).found List.mem_cons_self
  rw [← path_parse root files] at isCommand placed
  obtain ⟨resolved, found, same⟩ := link_parse_inv files placed
  have symbols : resolved.symbol = (root.parse files args).innermost := (Prod.mk.inj same).1
  exact ⟨resolved, found, symbols, symbols ▸ isCommand⟩

/-- Climbing from the innermost command goes through the path. -/
theorem climb_frames (numbered : root.Numbered) (files : Files) (args : List String)
    (deep : (root.parse files args).command < depth) :
    ((root.parse files args).climb depth (root.parse files args).command).filterMap
      (root.parse files args).frameAt? = (root.parse files args).path.toList := by
  rw [climb_command numbered files args deep]
  exact Parse.filterMap_frameAt (frames_parse numbered files args)

end Symbol

/-- The occurrences of a parse are a tree within the grammar. -/
structure Mirrors (root : Symbol) (parse : Parse) : Prop where
  first : ∃ resolved, parse.occurrences[0]? = some resolved ∧ resolved.symbol = root ∧
    resolved.kind = .command ∧ resolved.parent = none
  above : ∀ {i resolved}, parse.occurrences[i]? = some resolved → 0 < i →
    ∃ p owner, resolved.parent = some p ∧ p < i ∧ parse.occurrences[p]? = some owner ∧
      owner.symbol.isCommand = true ∧ root.parentOf? resolved.symbol.id = some owner.symbol
  symbols : ∀ resolved ∈ parse.occurrences,
    root.at? resolved.symbol.id = some resolved.symbol ∧ resolved.HasKind
  apart : (parse.occurrences.map fun resolved => resolved.symbol.id).Nodup
  /-- Every occurrence is noted once under its parent and under no other. -/
  noted : ∀ i p, (parse.below p).count i = if parse.parentOf? i = some p then 1 else 0
  ascending : ∀ p, (parse.below p).Pairwise (· < ·)
  inside : ∀ p, ∀ i ∈ parse.below p, p < i ∧ i < parse.occurrences.length
  leaves : ∀ {i resolved}, parse.occurrences[i]? = some resolved →
    resolved.symbol.isOption = true → parse.below i = []
  /-- Walking down from the root meets every occurrence exactly once. -/
  walked : ∀ depth, parse.occurrences.length ≤ depth →
    (parse.walk depth 0).Perm (List.range parse.occurrences.length)
  /-- A diagram is not cut off. -/
  drawn : ∀ {i resolved}, parse.occurrences[i]? = some resolved → ∀ more,
    parse.sketch (parse.occurrences.length + more) (i, resolved) =
      parse.sketch parse.occurrences.length (i, resolved)
  /-- Climbing passes earlier and earlier occurrences and ends at the root. -/
  climbed : ∀ {i}, i < parse.occurrences.length → ∀ depth, i < depth →
    (parse.climb depth i).getLast? = some 0 ∧ (parse.climb depth i).Pairwise (· > ·) ∧
      ∀ j ∈ parse.climb depth i, j ≤ i
  /-- The commands met are those of the path, each under the one before. -/
  commands : parse.occurrences.findIdxs (fun resolved => resolved.symbol.isCommand) =
    (parse.path.toList.map Frame.occurrence).reverse
  path : ∀ depth, parse.command < depth →
    parse.climb depth parse.command = parse.path.toList.map Frame.occurrence
  frames : ∀ frame ∈ parse.path.toList, ∃ resolved,
    parse.occurrences[frame.occurrence]? = some resolved ∧ resolved.symbol = frame.command
  /-- Searches climb from the innermost command. -/
  found : ∀ name depth, parse.command < depth → parse.find? name =
    ((parse.climb depth parse.command).filterMap parse.frameAt?).findSome? (parse.findAt? name)
  lookedUp : ∀ key source depth, parse.command < depth → parse.lookup? key source =
    ((parse.climb depth parse.command).filterMap parse.frameAt?).findSome?
      (parse.lookupAt? key source)
  defaultsLast : parse.occurrences.Pairwise fun earlier later =>
    earlier.implicit = true → later.implicit = true

theorem mirrors_parse {heading : Heading} {subcommandRequired : Option Bool} {strict : Bool}
    {children : List Declaration} {root : Symbol}
    (built : (Declaration.command heading subcommandRequired strict children).build = .ok root)
    (files : Files) (args : List String) : Mirrors root (root.parse files args) := by
  have numbered := Declaration.numbered_build built
  have tree := Symbol.isTree_parse numbered files args
  have grown := Symbol.grown_arena numbered args
  obtain ⟨start, foundStart, same⟩ := Symbol.link_parse_inv files grown.arena.first
  constructor
  case first =>
    obtain ⟨rfl, parent⟩ := Prod.mk.inj same
    have kind := Symbol.hasKind_parse numbered files args start (List.mem_of_getElem? foundStart)
    rw [Occurrence.HasKind, if_pos numbered.isCommand] at kind
    exact ⟨start, foundStart, rfl, kind.1, parent⟩
  case above => exact fun found later => Symbol.above_parse numbered found later
  case symbols =>
    intro resolved member
    obtain ⟨i, found⟩ := List.mem_iff_getElem?.mp member
    exact ⟨numbered.at_id (grown.arena.mem_preorder (Symbol.link_parse found)),
      Symbol.hasKind_parse numbered files args resolved member⟩
  case apart =>
    have ids := grown.arena.ids_nodup numbered
    rw [← Symbol.links_parse root files, List.map_map] at ids
    exact ids
  case noted => exact fun i p => tree.count_below p i
  case ascending => exact tree.ascending
  case inside => exact fun p i member => tree.lt_of_parent (tree.mem_below.mp member)
  case leaves => exact fun found isOption => Symbol.leaves_parse numbered found isOption
  case walked =>
    intro depth deep
    exact tree.walk_perm (List.getElem?_eq_some_iff.mp foundStart).1 deep
  case drawn =>
    intro i resolved found more
    have bound := (List.getElem?_eq_some_iff.mp found).1
    exact tree.sketch_ends resolved bound (Nat.le_add_left _ _) more
  case climbed =>
    intro i bound depth deep
    exact ⟨(tree.climb_ends bound deep).1, tree.climb_descending depth i,
      fun j member => tree.le_of_mem_climb member⟩
  case commands =>
    have commands := grown.commands
    rw [← Symbol.links_parse root files, List.findIdxs_map, ← Symbol.path_parse root files]
      at commands
    exact commands
  case path => exact fun depth deep => Symbol.climb_command numbered files args deep
  case frames => exact Symbol.frames_parse numbered files args
  case found =>
    intro name depth deep
    rw [Symbol.climb_frames numbered files args deep, Parse.find?]
  case lookedUp =>
    intro key source depth deep
    rw [Symbol.climb_frames numbered files args deep, Parse.lookup?]
  case defaultsLast => exact Symbol.defaults_last numbered files args

theorem mirrors_parse_sample : ∃ root, Declaration.sample.build = .ok root ∧
    Mirrors root (root.parse .absent ["-n", "x", "run", "-v", "y"]) := by
  obtain ⟨root, built⟩ : ∃ root, Declaration.sample.build = .ok root := ⟨_, rfl⟩
  exact ⟨root, built, mirrors_parse built _ _⟩

end CommandGrammar
