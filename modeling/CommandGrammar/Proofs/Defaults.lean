import CommandGrammar.Proofs.Arena

/-! What the implicit occurrences of options with defaults add to a routing. They stand behind
everything met and under commands of the path, so the arena stays a copy of part of the grammar. -/
namespace CommandGrammar

namespace Occurrence

/-- An occurrence apart from those under it. -/
def bare (occurrence : Occurrence) : Occurrence := { occurrence with children := [] }

def IsDefault (occurrence : Occurrence) : Prop :=
  ∃ option parent, option.isOption = true ∧ occurrence = missing option parent

theorem IsDefault.implicit {occurrence : Occurrence} (isDefault : occurrence.IsDefault) :
    occurrence.implicit = true := by
  obtain ⟨option, parent, -, rfl⟩ := isDefault
  rfl

theorem IsDefault.valueless {occurrence : Occurrence} (isDefault : occurrence.IsDefault) :
    occurrence.tokens = [] := by
  obtain ⟨option, parent, -, rfl⟩ := isDefault
  rfl

end Occurrence

namespace Routing
variable {root : Symbol} {routing after last : Routing} {frame : Frame}

/-- Only defaults have been added. -/
structure Completes (routing after : Routing) : Prop where
  path : after.path = routing.path
  unmatched : after.unmatched = routing.unmatched
  defaults : ∃ defaults : List Occurrence,
    after.occurrences.map Occurrence.bare = routing.occurrences.map Occurrence.bare ++ defaults ∧
      ∀ occurrence ∈ defaults, occurrence.IsDefault

namespace Completes

theorem refl (routing : Routing) : Completes routing routing where
  path := rfl
  unmatched := rfl
  defaults := ⟨[], (List.append_nil _).symm, List.forall_mem_nil _⟩

theorem trans (first : Completes routing after) (second : Completes after last) :
    Completes routing last where
  path := second.path.trans first.path
  unmatched := second.unmatched.trans first.unmatched
  defaults := by
    obtain ⟨early, added, isDefault⟩ := first.defaults
    obtain ⟨late, addedLate, isDefaultLate⟩ := second.defaults
    refine ⟨early ++ late, ?_, ?_⟩
    · rw [addedLate, added, List.append_assoc]
    · exact List.forall_mem_append.mpr ⟨isDefault, isDefaultLate⟩

theorem push {option : Symbol} (isOption : option.isOption = true) (parent : Nat) :
    Completes routing (routing.push (.missing option parent)) where
  path := rfl
  unmatched := rfl
  defaults := ⟨_, map_push (fun _ _ => rfl) routing _,
    List.forall_mem_singleton.mpr ⟨option, parent, isOption, rfl⟩⟩

theorem push_all {options : List Symbol} (parent : Nat)
    (isOption : ∀ option ∈ options, option.isOption = true) :
    Completes routing (options.foldl (fun routing option =>
      routing.push (.missing option parent)) routing) := by
  induction options generalizing routing with
  | nil => exact refl routing
  | cons first rest ih =>
    have here : Completes routing _ := push (isOption first List.mem_cons_self) parent
    exact here.trans (ih fun option later => isOption option (List.mem_cons_of_mem _ later))

end Completes

theorem mem_missingDefaults {option : Symbol} (missing : option ∈ routing.missingDefaults frame) :
    option ∈ frame.command.children ∧ option.isOption = true ∧
      routing.occurrenceOf? frame option = none := by
  obtain ⟨owned, fits⟩ := List.mem_filter.mp missing
  simp only [Bool.and_eq_true, Option.isNone_iff_eq_none] at fits
  exact ⟨owned, fits.1.1, fits.2⟩

theorem completes_addDefaults (routing : Routing) (frame : Frame) :
    Completes routing (routing.addDefaults frame) :=
  .push_all _ fun _ missing => (mem_missingDefaults missing).2.1

theorem completes_completed (routing : Routing) : Completes routing routing.completed := by
  rw [completed]
  generalize routing.path.toList.reverse = frames
  induction frames generalizing routing with
  | nil => exact .refl routing
  | cons frame rest ih => exact (completes_addDefaults routing frame).trans (ih _)

/-- A change that nobody notices who looks options up or adds one, as long as an invariant holds. -/
structure Unnoticed (change : Routing → Routing) (kept : Routing → Prop) : Prop where
  path : ∀ routing, (change routing).path = routing.path
  found : ∀ routing frame option,
    (change routing).occurrenceOf? frame option = routing.occurrenceOf? frame option
  push : ∀ routing option parent, kept routing →
    (change routing).push (.missing option parent) = change (routing.push (.missing option parent))
  onward : ∀ routing option parent, kept routing → kept (routing.push (.missing option parent))

namespace Unnoticed
variable {change : Routing → Routing} {kept : Routing → Prop}

theorem addDefaults (unnoticed : Unnoticed change kept) (holds : kept routing) (frame : Frame) :
    (change routing).addDefaults frame = change (routing.addDefaults frame) ∧
      kept (routing.addDefaults frame) := by
  simp only [Routing.addDefaults, missingDefaults, unnoticed.found]
  induction frame.command.children.filter (fun child =>
    child.isOption && child.argument.default.isSome &&
      (routing.occurrenceOf? frame child).isNone) generalizing routing with
  | nil => exact ⟨rfl, holds⟩
  | cons option rest ih =>
    rw [List.foldl_cons, List.foldl_cons, unnoticed.push _ _ _ holds]
    exact ih (unnoticed.onward _ _ _ holds)

/-- The change may be made before or after defaults are added. -/
theorem completed (unnoticed : Unnoticed change kept) (holds : kept routing) :
    (change routing).completed = change routing.completed := by
  rw [Routing.completed, Routing.completed, unnoticed.path]
  induction routing.path.toList.reverse generalizing routing with
  | nil => rfl
  | cons frame rest ih =>
    obtain ⟨same, still⟩ := unnoticed.addDefaults holds frame
    rw [List.foldl_cons, List.foldl_cons, same]
    exact ih still

end Unnoticed

theorem bare_addDefaults (routing : Routing) (frame : Frame) :
    (routing.addDefaults frame).occurrences.map Occurrence.bare =
      routing.occurrences.map Occurrence.bare ++
        (routing.missingDefaults frame).map (Occurrence.missing · frame.occurrence) := by
  rw [addDefaults]
  generalize routing.missingDefaults frame = options
  induction options generalizing routing with
  | nil => exact (List.append_nil _).symm
  | cons option rest ih =>
    rw [List.foldl_cons, ih, map_push fun _ _ => rfl, List.append_assoc]
    rfl

theorem links_bare (routing : Routing) :
    routing.links = (routing.occurrences.map Occurrence.bare).map Occurrence.link := by
  rw [List.map_map]
  rfl

theorem links_foldl (routing : Routing) (frames : List Frame) {link : Symbol × Option Nat}
    (linked : link ∈ routing.links) : link ∈ (frames.foldl addDefaults routing).links := by
  induction frames generalizing routing with
  | nil => exact linked
  | cons frame rest ih =>
    refine ih (routing.addDefaults frame) ?_
    rw [links_bare, bare_addDefaults, List.map_append, ← links_bare]
    exact List.mem_append_left _ linked

/-- Defaults of options of these commands, in the order of the commands. -/
structure DefaultsOf (frames : List Frame) (defaults : List Occurrence) : Prop where
  owned : ∀ default ∈ defaults, ∃ frame ∈ frames, ∃ option ∈ frame.command.children,
    option.isOption = true ∧ option.argument.default.isSome = true ∧
      default = .missing option frame.occurrence
  nest : defaults.Pairwise fun earlier later =>
    ∃ p q, earlier.parent = some p ∧ later.parent = some q ∧ p ≤ q

/-- Defaults added to one command after the other are ordered as the commands are. -/
theorem defaults_foldl (routing : Routing) {frames : List Frame}
    (ascending : frames.Pairwise fun outer inner => outer.occurrence < inner.occurrence) :
    ∃ defaults : List Occurrence,
      (frames.foldl addDefaults routing).occurrences.map Occurrence.bare =
        routing.occurrences.map Occurrence.bare ++ defaults ∧ DefaultsOf frames defaults := by
  induction frames generalizing routing with
  | nil => exact ⟨[], (List.append_nil _).symm, List.forall_mem_nil _, .nil⟩
  | cons frame rest ih =>
    obtain ⟨outermost, ascending⟩ := List.pairwise_cons.mp ascending
    obtain ⟨defaults, added, areDefaults⟩ := ih (routing.addDefaults frame) ascending
    have here : ∀ default ∈ (routing.missingDefaults frame).map
        (Occurrence.missing · frame.occurrence), default.parent = some frame.occurrence := by
      intro default member
      obtain ⟨option, -, rfl⟩ := List.mem_map.mp member
      rfl
    refine ⟨(routing.missingDefaults frame).map (Occurrence.missing · frame.occurrence) ++ defaults,
      ?_, ?_, ?_⟩
    · rw [List.foldl_cons, added, bare_addDefaults, List.append_assoc]
    · refine List.forall_mem_append.mpr ⟨fun default member => ?_, fun default member => ?_⟩
      · obtain ⟨option, missing, rfl⟩ := List.mem_map.mp member
        obtain ⟨owned, fits⟩ := List.mem_filter.mp missing
        simp only [Bool.and_eq_true] at fits
        exact ⟨frame, List.mem_cons_self, option, owned, fits.1.1, fits.1.2, rfl⟩
      · obtain ⟨inner, later, rest⟩ := areDefaults.owned default member
        exact ⟨inner, List.mem_cons_of_mem _ later, rest⟩
    · refine List.pairwise_append.mpr ⟨?_, areDefaults.nest, ?_⟩
      · apply List.pairwise_of_forall_mem_list
        intro first listed second listedToo
        exact ⟨_, _, here first listed, here second listedToo, Nat.le_refl _⟩
      · intro first listed second later
        obtain ⟨inner, under, option, -, -, -, rfl⟩ := areDefaults.owned second later
        exact ⟨_, _, here first listed, rfl, Nat.le_of_lt (outermost inner under)⟩

namespace Grown

/-- Commands were entered from the outermost inwards. -/
theorem descending (grown : Grown root routing) :
    routing.path.toList.Pairwise fun inner outer => outer.occurrence < inner.occurrence := by
  have ascending : (routing.path.toList.map Frame.occurrence).reverse.Pairwise (· < ·) :=
    grown.commands ▸ List.pairwise_findIdxs
  rw [List.pairwise_reverse, List.pairwise_map] at ascending
  exact ascending

theorem addDefaults (grown : Grown root routing) (numbered : root.Numbered)
    (onPath : frame ∈ routing.path.toList) : Grown root (routing.addDefaults frame) := by
  apply grown.push_missing onPath
  case owned =>
    intro option missing
    obtain ⟨owned, isOption, -⟩ := mem_missingDefaults missing
    exact ⟨owned, isOption⟩
  case distinct =>
    have ids := numbered.children_ids_nodup (grown.mem_preorder onPath)
    exact ids.sublist (List.Sublist.map _ List.filter_sublist)
  case absent =>
    intro option missing
    exact grown.occurrenceOf_eq_none (mem_missingDefaults missing).2.2

theorem completed (grown : Grown root routing) (numbered : root.Numbered) :
    Grown root routing.completed := by
  have onPath : ∀ frame ∈ routing.path.toList.reverse, frame ∈ routing.path.toList :=
    fun _ member => List.mem_reverse.mp member
  rw [Routing.completed]
  generalize routing.path.toList.reverse = frames at onPath
  induction frames generalizing routing with
  | nil => exact grown
  | cons frame rest ih =>
    apply ih (grown.addDefaults numbered (onPath frame List.mem_cons_self))
    intro other later
    rw [(completes_addDefaults routing frame).path]
    exact onPath other (List.mem_cons_of_mem _ later)

theorem link_addDefaults (grown : Grown root routing) (numbered : root.Numbered)
    (onPath : frame ∈ routing.path.toList) {option : Symbol}
    (owned : option ∈ frame.command.children) (isOption : option.isOption = true)
    (given : option.argument.default.isSome = true) :
    (option, some frame.occurrence) ∈ (routing.addDefaults frame).links := by
  rw [links_bare, bare_addDefaults, List.map_append, ← links_bare, List.mem_append]
  cases present : routing.occurrenceOf? frame option with
  | some i =>
    obtain ⟨occurrence, found, linked⟩ := grown.occurrence_named numbered onPath owned present
    exact .inl (List.mem_of_getElem? (links_getElem?_eq_some.mpr
      ⟨occurrence, found, Prod.ext linked.1 linked.2⟩))
  | none =>
    have missing : option ∈ routing.missingDefaults frame :=
      List.mem_filter.mpr ⟨owned, by simp [isOption, given, present]⟩
    exact .inr (List.mem_map_of_mem (List.mem_map_of_mem missing))

/-- Every option with a default has an occurrence once its command has been entered. -/
theorem link_completed (grown : Grown root routing) (numbered : root.Numbered)
    (onPath : frame ∈ routing.path.toList) {option : Symbol}
    (owned : option ∈ frame.command.children) (isOption : option.isOption = true)
    (given : option.argument.default.isSome = true) :
    (option, some frame.occurrence) ∈ routing.completed.links := by
  have entered : ∀ other ∈ routing.path.toList.reverse, other ∈ routing.path.toList :=
    fun _ member => List.mem_reverse.mp member
  have listed := List.mem_reverse.mpr onPath
  rw [Routing.completed]
  generalize routing.path.toList.reverse = frames at entered listed
  induction frames generalizing routing with
  | nil => contradiction
  | cons first rest ih =>
    have path := (completes_addDefaults routing first).path
    rcases List.mem_cons.mp listed with rfl | later
    · rw [List.foldl_cons]
      exact links_foldl _ _ (grown.link_addDefaults numbered onPath owned isOption given)
    · refine ih (grown.addDefaults numbered (entered first List.mem_cons_self)) (path ▸ onPath) ?_
        later
      exact fun other member => path ▸ entered other (List.mem_cons_of_mem _ member)

end Grown
end Routing
end CommandGrammar
