import CommandGrammar.Proofs.Scope

/-! The arena of occurrences grows as a copy of part of the grammar: every occurrence but the first
stands under an earlier one whose symbol declares its own, and no symbol has two. The commands in it
are those of the path. -/
namespace CommandGrammar

abbrev Links := List (Symbol × Option Nat)

/-- Every occurrence but the first stands under an earlier one of the command that declares its
symbol, and no two under one command have the same symbol. -/
structure Arena (root : Symbol) (links : Links) : Prop where
  first : links[0]? = some (root, none)
  owned : ∀ {i symbol parent}, links[i]? = some (symbol, parent) → 0 < i →
    ∃ p owner above, parent = some p ∧ p < i ∧ links[p]? = some (owner, above) ∧
      owner.isCommand = true ∧ symbol ∈ owner.children
  apart : (links.map fun link => (link.2, link.1.id)).Nodup

namespace Arena
variable {root symbol owner twin : Symbol} {links : Links} {i j p : Nat} {parent other : Option Nat}

theorem mem_preorder (arena : Arena root links) (found : links[i]? = some (symbol, parent)) :
    symbol ∈ root.preorder := by
  induction i using Nat.strongRecOn generalizing symbol parent with
  | _ i ih =>
    rcases Nat.eq_zero_or_pos i with rfl | later
    · cases arena.first.symm.trans found
      exact root.mem_preorder_self
    · obtain ⟨p, owner, above, -, before, foundOwner, -, owned⟩ := arena.owned found later
      exact Symbol.mem_preorder_of_child (ih p before foundOwner) owned

theorem parent_lt (arena : Arena root links) (found : links[i]? = some (symbol, some p)) :
    p < i := by
  rcases Nat.eq_zero_or_pos i with rfl | later
  · cases arena.first.symm.trans found
  · obtain ⟨q, _, _, same, before, -⟩ := arena.owned found later
    cases same
    exact before

/-- No two occurrences have the same symbol: by induction on the arena, their parents agree, and
under one parent symbols are apart. -/
theorem index_unique (arena : Arena root links) (numbered : root.Numbered)
    (found : links[i]? = some (symbol, parent)) (foundTwin : links[j]? = some (twin, other))
    (same : symbol.id = twin.id) : i = j := by
  induction i using Nat.strongRecOn generalizing j symbol twin parent other with
  | _ i ih =>
    have notRoot : ∀ {k child above}, links[k]? = some (child, above) → 0 < k →
        child.id ≠ root.id := by
      intro k child above found later
      obtain ⟨p, owner, above, -, -, foundOwner, -, owned⟩ := arena.owned found later
      exact numbered.child_id_ne_root (arena.mem_preorder foundOwner) owned
    rcases Nat.eq_zero_or_pos i with rfl | later
    · cases arena.first.symm.trans found
      rcases Nat.eq_zero_or_pos j with rfl | laterTwin
      · rfl
      · exact absurd same.symm (notRoot foundTwin laterTwin)
    · rcases Nat.eq_zero_or_pos j with rfl | laterTwin
      · cases arena.first.symm.trans foundTwin
        exact absurd same (notRoot found later)
      · obtain ⟨p, owner, _, rfl, before, foundOwner, -, owned⟩ := arena.owned found later
        obtain ⟨q, owner', _, rfl, -, foundOwner', -, owned'⟩ := arena.owned foundTwin laterTwin
        have owners := numbered.owner_unique (arena.mem_preorder foundOwner)
          (arena.mem_preorder foundOwner') owned owned' same
        have parents := ih p before foundOwner foundOwner' (congrArg Symbol.id owners)
        have bound : i < (links.map fun link => (link.2, link.1.id)).length := by
          rw [List.length_map]
          exact (List.getElem?_eq_some_iff.mp found).1
        apply (List.getElem?_inj bound arena.apart).mp
        rw [List.getElem?_map, List.getElem?_map, found, foundTwin, Option.map_some,
          Option.map_some, parents, same]

theorem ids_nodup (arena : Arena root links) (numbered : root.Numbered) :
    (links.map fun link => link.1.id).Nodup := by
  apply List.nodup_iff_getElem?_ne_getElem?.mpr
  intro i j before bound same
  rw [List.length_map] at bound
  have found := List.getElem?_eq_getElem (Nat.lt_trans before bound)
  have foundTwin := List.getElem?_eq_getElem bound
  rw [List.getElem?_map, List.getElem?_map, found, foundTwin] at same
  have equal := arena.index_unique numbered found foundTwin (Option.some.inj same)
  omega

/-- An occurrence may be added under a command that has none of the same symbol. -/
theorem concat {above : Option Nat} (arena : Arena root links)
    (placed : links[p]? = some (owner, above)) (isCommand : owner.isCommand = true)
    (owned : symbol ∈ owner.children)
    (absent : ∀ link ∈ links, link.2 = some p → link.1.id ≠ symbol.id) :
    Arena root (links ++ [(symbol, some p)]) where
  first := by
    rw [List.getElem?_append_left (List.getElem?_eq_some_iff.mp arena.first).1]
    exact arena.first
  owned := by
    intro i child parent found later
    rcases Nat.lt_or_ge i links.length with old | new
    · rw [List.getElem?_append_left old] at found
      obtain ⟨q, other, aboveOther, same, before, foundOther, rest⟩ := arena.owned found later
      refine ⟨q, other, aboveOther, same, before, ?_, rest⟩
      rw [List.getElem?_append_left (Nat.lt_trans before old)]
      exact foundOther
    · rw [List.getElem?_append_right new] at found
      cases List.mem_singleton.mp (List.mem_of_getElem? found)
      have bound := (List.getElem?_eq_some_iff.mp placed).1
      refine ⟨p, owner, above, rfl, Nat.lt_of_lt_of_le bound new, ?_, isCommand, owned⟩
      rw [List.getElem?_append_left bound]
      exact placed
  apart := by
    rw [List.map_append, List.nodup_append]
    refine ⟨arena.apart, List.pairwise_singleton _ _, ?_⟩
    intro key old other new same
    cases List.mem_singleton.mp new
    obtain ⟨link, found, rfl⟩ := List.mem_map.mp old
    obtain ⟨parents, ids⟩ := Prod.mk.inj same
    exact absent link found parents ids

end Arena

/-- The commands entered one inside another, innermost first, as they stand in the arena. -/
inductive Chain (links : Links) : List Frame → Prop where
  | root : links[0]? = some (command, none) → command.isCommand = true → Chain links [⟨0, command⟩]
  | enter {outer : Frame} : Chain links (outer :: frames) →
      links[i]? = some (child, some outer.occurrence) → child.isCommand = true →
      Chain links (⟨i, child⟩ :: outer :: frames)

namespace Chain
variable {links : Links} {frames : List Frame} {frame : Frame}

theorem found (chain : Chain links frames) (member : frame ∈ frames) :
    frame.command.isCommand = true ∧
      ∃ above, links[frame.occurrence]? = some (frame.command, above) := by
  induction chain with
  | root first isCommand =>
    cases List.mem_singleton.mp member
    exact ⟨isCommand, none, first⟩
  | @enter i child frames outer chain placed isCommand ih =>
    rcases List.mem_cons.mp member with rfl | member
    · exact ⟨isCommand, some outer.occurrence, placed⟩
    · exact ih member

theorem above {inner outer : Frame} (chain : Chain links (inner :: outer :: frames)) :
    Chain links (outer :: frames) ∧
      links[inner.occurrence]? = some (inner.command, some outer.occurrence) := by
  cases chain with
  | enter chain placed isCommand => exact ⟨chain, placed⟩

theorem append (chain : Chain links frames) (more : Links) : Chain (links ++ more) frames := by
  have kept : ∀ {i : Nat} {link}, links[i]? = some link →
      (links ++ more)[i]? = some link := by
    intro i link found
    rw [List.getElem?_append_left (List.getElem?_eq_some_iff.mp found).1]
    exact found
  induction chain with
  | root first isCommand => exact .root (kept first) isCommand
  | enter _ placed isCommand ih => exact .enter ih (kept placed) isCommand

theorem lt_innermost {root : Symbol} (chain : Chain links (frame :: frames))
    (arena : Arena root links) : ∀ other ∈ frames, other.occurrence < frame.occurrence := by
  induction frames generalizing frame with
  | nil => exact fun _ member => absurd member List.not_mem_nil
  | cons outer rest ih =>
    obtain ⟨chain, placed⟩ := chain.above
    have below := arena.parent_lt placed
    intro other member
    rcases List.mem_cons.mp member with rfl | member
    · exact below
    · exact Nat.lt_trans (ih chain other member) below

end Chain

namespace Routing
variable {root : Symbol} {routing after : Routing} {token : Token} {frame : Frame}
  {option child symbol : Symbol} {i p : Nat}

/-- The arena of a routing copies part of the grammar, and its commands are the path. Under every
occurrence those are noted that name it as theirs. -/
structure Grown (root : Symbol) (routing : Routing) : Prop where
  arena : Arena root routing.links
  chain : Chain routing.links routing.path.toList
  commands : routing.links.findIdxs (fun link => link.1.isCommand) =
    (routing.path.toList.map Frame.occurrence).reverse
  noted : ∀ i, routing.childrenOf i = routing.links.findIdxs fun link => link.2 == some i

namespace Grown

theorem start (numbered : root.Numbered) : Grown root (.start root) where
  arena := by
    constructor
    case first => rfl
    case owned =>
      intro i symbol parent found later
      cases i with
      | zero => contradiction
      | succ i => cases found
    case apart => exact List.pairwise_singleton _ _
  chain := .root rfl numbered.isCommand
  commands := by
    simp [links, Occurrence.link, Routing.start, Occurrence.met, numbered.isCommand]
  noted := by
    intro i
    cases i <;> rfl

theorem found (grown : Grown root routing) (member : frame ∈ routing.path.toList) :
    frame.command.isCommand = true ∧
      ∃ above, routing.links[frame.occurrence]? = some (frame.command, above) :=
  grown.chain.found member

theorem innermost_lt (grown : Grown root routing) :
    routing.path.innermost.occurrence < routing.occurrences.length := by
  obtain ⟨-, above, placed⟩ := grown.found List.mem_cons_self
  rw [← links_length]
  exact (List.getElem?_eq_some_iff.mp placed).1

theorem mem_preorder (grown : Grown root routing) (member : frame ∈ routing.path.toList) :
    frame.command ∈ root.preorder := by
  obtain ⟨-, above, placed⟩ := grown.found member
  exact grown.arena.mem_preorder placed

theorem mem_childrenOf (grown : Grown root routing) :
    i ∈ routing.childrenOf p ↔ ∃ symbol, routing.links[i]? = some (symbol, some p) := by
  rw [grown.noted, List.mem_findIdxs_iff_exists_getElem_pos]
  constructor
  · rintro ⟨bound, parent⟩
    exact ⟨_, (List.getElem?_eq_getElem bound).trans
      (congrArg some (Prod.ext rfl (beq_iff_eq.mp parent)))⟩
  · rintro ⟨symbol, placed⟩
    obtain ⟨bound, same⟩ := List.getElem?_eq_some_iff.mp placed
    exact ⟨bound, by simp [same]⟩

theorem occurrenceOf_eq_none (grown : Grown root routing)
    (absent : routing.occurrenceOf? frame option = none) :
    ∀ link ∈ routing.links, link.2 = some frame.occurrence → link.1.id ≠ option.id := by
  rintro ⟨symbol, _⟩ member rfl same
  obtain ⟨i, placed⟩ := List.mem_iff_getElem?.mp member
  have differs := List.find?_eq_none.mp absent i (grown.mem_childrenOf.mpr ⟨symbol, placed⟩)
  obtain ⟨occurrence, found, linked⟩ := links_getElem?_eq_some.mp placed
  have symbols := (Prod.mk.inj linked).1
  rw [found, Option.any_some, beq_iff_eq, symbols] at differs
  exact differs same

theorem occurrenceOf_eq_some (grown : Grown root routing)
    (present : routing.occurrenceOf? frame option = some i) :
    ∃ symbol, routing.links[i]? = some (symbol, some frame.occurrence) ∧
      symbol.id = option.id := by
  obtain ⟨symbol, placed⟩ := grown.mem_childrenOf.mp (List.mem_of_find?_eq_some present)
  obtain ⟨occurrence, found, linked⟩ := links_getElem?_eq_some.mp placed
  have fits := List.find?_some present
  rw [found, Option.any_some, beq_iff_eq] at fits
  have symbols := (Prod.mk.inj linked).1
  exact ⟨symbol, placed, symbols ▸ fits⟩

/-- An option of a command of the path has the occurrence found for it there. -/
theorem occurrence_named (grown : Grown root routing) (numbered : root.Numbered)
    (onPath : frame ∈ routing.path.toList) (owned : option ∈ frame.command.children)
    (present : routing.occurrenceOf? frame option = some i) :
    ∃ occurrence, routing.occurrences[i]? = some occurrence ∧ occurrence.symbol = option ∧
      occurrence.parent = some frame.occurrence := by
  obtain ⟨symbol, placed, same⟩ := grown.occurrenceOf_eq_some present
  have inTree := Symbol.mem_preorder_of_child (grown.mem_preorder onPath) owned
  cases numbered.eq_of_id (grown.arena.mem_preorder placed) inTree same
  obtain ⟨occurrence, found, linked⟩ := links_getElem?_eq_some.mp placed
  exact ⟨occurrence, found, Prod.mk.inj linked⟩

/-- No command has two occurrences on the path. -/
theorem frame_unique {other : Frame} (grown : Grown root routing) (numbered : root.Numbered)
    (onPath : frame ∈ routing.path.toList) (onPathOther : other ∈ routing.path.toList)
    (same : other.command = frame.command) : other = frame := by
  obtain ⟨-, _, placed⟩ := grown.found onPath
  obtain ⟨-, _, placedOther⟩ := grown.found onPathOther
  have occurrences := grown.arena.index_unique numbered placedOther placed
    (congrArg Symbol.id same)
  cases other
  cases frame
  exact congr (congrArg Frame.mk occurrences) same

/-- Every command that has been met is on the path. -/
theorem frame_of_command {parent : Option Nat} (grown : Grown root routing)
    (placed : routing.links[i]? = some (symbol, parent)) (isCommand : symbol.isCommand = true) :
    ∃ frame ∈ routing.path.toList, frame.occurrence = i ∧ frame.command = symbol := by
  have listed : i ∈ routing.links.findIdxs fun link => link.1.isCommand := by
    obtain ⟨bound, same⟩ := List.getElem?_eq_some_iff.mp placed
    rw [List.mem_findIdxs_iff_exists_getElem_pos]
    refine ⟨bound, ?_⟩
    rw [same]
    exact isCommand
  rw [grown.commands, List.mem_reverse, List.mem_map] at listed
  obtain ⟨frame, onPath, rfl⟩ := listed
  obtain ⟨-, above, placedFrame⟩ := grown.found onPath
  have same := Option.some.inj (placedFrame.symm.trans placed)
  exact ⟨frame, onPath, rfl, congrArg Prod.fst same⟩

/-- The innermost command has no command under it yet: any would lie on the path behind it. -/
theorem innermost_childless (grown : Grown root routing) (numbered : root.Numbered)
    {child : Symbol} (owned : child ∈ routing.path.innermost.command.children)
    (isCommand : child.isCommand = true) : ∀ link ∈ routing.links,
      link.2 = some routing.path.innermost.occurrence → link.1.id ≠ child.id := by
  rintro ⟨symbol, parent⟩ member rfl same
  obtain ⟨i, placed⟩ := List.mem_iff_getElem?.mp member
  have inTree := Symbol.mem_preorder_of_child (grown.mem_preorder List.mem_cons_self) owned
  have twin := numbered.eq_of_id (grown.arena.mem_preorder placed) inTree same
  obtain ⟨frame, onPath, rfl, -⟩ := grown.frame_of_command placed (twin ▸ isCommand)
  have before := grown.arena.parent_lt placed
  rcases List.mem_cons.mp onPath with rfl | outer
  · omega
  · have := grown.chain.lt_innermost grown.arena frame outer
    omega

/-- What an occurrence keeps that comes under a command of the path. -/
theorem pushed {occurrence : Occurrence} (grown : Grown root routing)
    (onPath : frame ∈ routing.path.toList)
    (linked : occurrence.link = (symbol, some frame.occurrence))
    (childless : occurrence.children = []) (owned : symbol ∈ frame.command.children)
    (absent : ∀ link ∈ routing.links, link.2 = some frame.occurrence → link.1.id ≠ symbol.id)
    (grew : after.occurrences = (routing.push occurrence).occurrences) :
    after.links = routing.links ++ [(symbol, some frame.occurrence)] ∧ Arena root after.links ∧
      ∀ i, after.childrenOf i = after.links.findIdxs fun link => link.2 == some i := by
  obtain ⟨isCommand, above, placed⟩ := grown.found onPath
  have links : after.links = routing.links ++ [(symbol, some frame.occurrence)] := by
    rw [Routing.links, grew, ← linked]
    exact links_push _ _
  refine ⟨links, links ▸ grown.arena.concat placed isCommand owned absent, fun i => ?_⟩
  have bound := (List.getElem?_eq_some_iff.mp placed).1
  rw [links_length] at bound
  have children := childrenOf_push routing (Prod.mk.inj linked).2 childless bound i
  rw [childrenOf_eq, ← grew, ← childrenOf_eq] at children
  rw [children, links, List.findIdxs_append, List.findIdxs_singleton, grown.noted, links_length]
  congr 1
  simp only [beq_iff_eq, Option.some.injEq, Nat.zero_add]

theorem push_command (grown : Grown root routing) (numbered : root.Numbered)
    (owned : child ∈ routing.path.innermost.command.children) (isCommand : child.isCommand = true)
    (grew : after.occurrences = (routing.push
      (.met .command child token (some routing.path.innermost.occurrence))).occurrences)
    (path : after.path = routing.path.enter ⟨routing.occurrences.length, child⟩) :
    Grown root after := by
  obtain ⟨links, arena, noted⟩ := grown.pushed List.mem_cons_self rfl rfl owned
    (grown.innermost_childless numbered owned isCommand) grew
  refine ⟨arena, ?_, ?_, noted⟩
  · rw [links, path, ← links_length]
    exact .enter (grown.chain.append _) List.getElem?_concat_length isCommand
  · rw [links, path, List.findIdxs_append, grown.commands, List.findIdxs_singleton,
      if_pos isCommand, Nat.zero_add, links_length]
    simp

theorem push_option {occurrence : Occurrence} (grown : Grown root routing)
    (onPath : frame ∈ routing.path.toList)
    (linked : occurrence.link = (option, some frame.occurrence))
    (childless : occurrence.children = []) (owned : option ∈ frame.command.children)
    (isOption : option.isOption = true)
    (absent : ∀ link ∈ routing.links, link.2 = some frame.occurrence → link.1.id ≠ option.id)
    (grew : after.occurrences = (routing.push occurrence).occurrences)
    (path : after.path = routing.path) : Grown root after := by
  obtain ⟨links, arena, noted⟩ := grown.pushed onPath linked childless owned absent grew
  refine ⟨arena, ?_, ?_, noted⟩
  · rw [links, path]
    exact grown.chain.append _
  · rw [links, path, List.findIdxs_append, grown.commands, List.findIdxs_singleton,
      if_neg (Bool.eq_false_iff.mp (Symbol.not_command isOption)), List.append_nil]

theorem growth (grown : Grown root routing) (numbered : root.Numbered)
    (growth : Growth routing token after) : Grown root after := by
  cases growth with
  | still links children path =>
    exact ⟨links ▸ grown.arena, links ▸ path ▸ grown.chain, links ▸ path ▸ grown.commands,
      links ▸ children ▸ grown.noted⟩
  | entered kind entered grew path =>
    obtain ⟨owned, isCommand⟩ := Symbol.subcommand_eq_some entered
    exact grown.push_command numbered owned isCommand grew path
  | opened kind meant absent grew path =>
    obtain ⟨onPath, owned, isOption⟩ := optionMeant_eq_some meant
    exact grown.push_option onPath rfl rfl owned isOption (grown.occurrenceOf_eq_none absent) grew
      path

/-- Defaults of a command of the path come one after the other; those still to come stay absent. -/
theorem push_missing {options : List Symbol} (grown : Grown root routing)
    (onPath : frame ∈ routing.path.toList)
    (owned : ∀ option ∈ options, option ∈ frame.command.children ∧ option.isOption = true)
    (distinct : (options.map Symbol.id).Nodup)
    (absent : ∀ option ∈ options, ∀ link ∈ routing.links,
      link.2 = some frame.occurrence → link.1.id ≠ option.id) :
    Grown root (options.foldl (fun routing option =>
      routing.push (.missing option frame.occurrence)) routing) := by
  induction options generalizing routing with
  | nil => exact grown
  | cons first rest ih =>
    obtain ⟨fresh, distinct⟩ := List.nodup_cons.mp distinct
    obtain ⟨here, isOption⟩ := owned first List.mem_cons_self
    have next := grown.push_option onPath rfl rfl here isOption (absent first List.mem_cons_self)
      (rfl : (routing.push (.missing first frame.occurrence)).occurrences = _) rfl
    apply ih next onPath (fun option later => owned option (List.mem_cons_of_mem _ later)) distinct
    intro option later link member parent same
    rw [links_push, List.mem_append, List.mem_singleton] at member
    rcases member with old | rfl
    · exact absent option (List.mem_cons_of_mem _ later) link old parent same
    · exact fresh (same ▸ List.mem_map_of_mem later)

end Grown
end Routing

/-- The arena behind every prefix of a stream. -/
theorem Symbol.grown_routed {root : Symbol} (numbered : root.Numbered)
    (split : root.tokenize args = before ++ after) :
    Routing.Grown root (root.routed before) := by
  refine Symbol.routed_induction (motive := fun _ routing => Routing.Grown root routing)
    (.start numbered) ?_ split
  intro before token after split move grown
  exact grown.growth numbered move.growth

end CommandGrammar
