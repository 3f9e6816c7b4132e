import CommandGrammar.Parse.Diagram
import CommandGrammar.Parse.Lookup
import Mathlib.Data.List.Nodup

/-! Walks over the occurrences of a parse, down along the children noted and up along the parents.
Parents stand before their children, so a walk that may take as many steps as there are occurrences
reaches an end. -/
namespace CommandGrammar
namespace Parse
variable {parse : Parse} {depth i j p : Nat}

def parentOf? (parse : Parse) (i : Nat) : Option Nat :=
  parse.occurrences[i]?.bind (·.parent)

/-- An occurrence and all below it, each in front of its children. -/
def walk (parse : Parse) : Nat → Nat → List Nat
  | 0, _ => []
  | depth + 1, i => i :: (parse.below i).flatMap (parse.walk depth)

/-- An occurrence and all above it. -/
def climb (parse : Parse) : Nat → Nat → List Nat
  | 0, _ => []
  | depth + 1, i => i ::
    match parse.parentOf? i with
    | some p => parse.climb depth p
    | none => []

/-- An occurrence as the frame of its command. -/
def frameAt? (parse : Parse) (i : Nat) : Option Frame :=
  parse.occurrences[i]?.map fun resolved => ⟨i, resolved.symbol⟩

theorem filterMap_frameAt {frames : List Frame} (found : ∀ frame ∈ frames, ∃ resolved,
    parse.occurrences[frame.occurrence]? = some resolved ∧ resolved.symbol = frame.command) :
    (frames.map Frame.occurrence).filterMap parse.frameAt? = frames := by
  have same : ∀ frame ∈ frames, (parse.frameAt? ∘ Frame.occurrence) frame = some frame := by
    intro frame member
    obtain ⟨resolved, placed, symbol⟩ := found frame member
    rw [Function.comp_apply, frameAt?, placed, Option.map_some, symbol]
  rw [List.filterMap_map, List.filterMap_congr same, List.filterMap_some]

theorem climb_child (parent : parse.parentOf? i = some p) (depth : Nat) :
    parse.climb (depth + 1) i = i :: parse.climb depth p := by
  rw [climb, parent]

/-- Parents come first, and each notes its children in order. -/
structure IsTree (parse : Parse) : Prop where
  first : parse.parentOf? 0 = none
  above : ∀ {i}, i < parse.occurrences.length → 0 < i → ∃ p, p < i ∧ parse.parentOf? i = some p
  noted : ∀ i, parse.below i = parse.occurrences.findIdxs fun resolved => resolved.parent == some i

namespace IsTree

theorem mem_below (tree : parse.IsTree) : j ∈ parse.below i ↔ parse.parentOf? j = some i := by
  rw [tree.noted, List.mem_findIdxs_iff_exists_getElem_pos, parentOf?]
  constructor
  · rintro ⟨bound, parent⟩
    rw [List.getElem?_eq_getElem bound, Option.bind_some]
    exact beq_iff_eq.mp parent
  · intro parent
    obtain ⟨resolved, found, parent⟩ := Option.bind_eq_some_iff.mp parent
    obtain ⟨bound, rfl⟩ := List.getElem?_eq_some_iff.mp found
    exact ⟨bound, beq_iff_eq.mpr parent⟩

theorem ascending (tree : parse.IsTree) (i : Nat) : (parse.below i).Pairwise (· < ·) := by
  rw [tree.noted]
  exact List.pairwise_findIdxs

theorem count_below (tree : parse.IsTree) (i j : Nat) :
    (parse.below i).count j = if parse.parentOf? j = some i then 1 else 0 := by
  have distinct : (parse.below i).Nodup := (tree.ascending i).imp Nat.ne_of_lt
  rw [distinct.count]
  simp only [tree.mem_below]

theorem lt_of_parent (tree : parse.IsTree) (parent : parse.parentOf? i = some p) :
    p < i ∧ i < parse.occurrences.length := by
  have bound : i < parse.occurrences.length := by
    obtain ⟨resolved, found, -⟩ := Option.bind_eq_some_iff.mp parent
    exact (List.getElem?_eq_some_iff.mp found).1
  rcases Nat.eq_zero_or_pos i with rfl | later
  · rw [tree.first] at parent
    contradiction
  · obtain ⟨q, before, same⟩ := tree.above bound later
    cases parent.symm.trans same
    exact ⟨before, bound⟩

theorem lt_of_mem_walk (tree : parse.IsTree) (bound : i < parse.occurrences.length)
    (member : j ∈ parse.walk depth i) : j < parse.occurrences.length := by
  induction depth generalizing i with
  | zero => cases member
  | succ depth ih =>
    rcases List.mem_cons.mp member with rfl | member
    · exact bound
    · obtain ⟨child, below, member⟩ := List.mem_flatMap.mp member
      exact ih (tree.lt_of_parent (tree.mem_below.mp below)).2 member

theorem le_of_mem_walk (tree : parse.IsTree) (member : j ∈ parse.walk depth i) : i ≤ j := by
  induction depth generalizing i with
  | zero => cases member
  | succ depth ih =>
    rcases List.mem_cons.mp member with rfl | member
    · exact Nat.le_refl _
    · obtain ⟨child, below, member⟩ := List.mem_flatMap.mp member
      have later := (tree.lt_of_parent (tree.mem_below.mp below)).1
      exact Nat.le_trans (Nat.le_of_lt later) (ih member)

/-- A walk meets an occurrence at its start, or else behind its parent: by induction on the depth,
summed over the children. -/
theorem count_walk (tree : parse.IsTree) (parent : parse.parentOf? j = some p) (depth i : Nat) :
    (parse.walk (depth + 1) i).count j =
      (if i = j then 1 else 0) + (parse.walk depth i).count p := by
  induction depth generalizing i with
  | zero =>
    simp only [walk, List.count_cons, List.flatMap_eq_nil_iff.mpr fun _ _ => rfl, List.count_nil,
      beq_iff_eq]
    omega
  | succ depth ih =>
    have siblings : ∀ children : List Nat,
        (children.flatMap (parse.walk (depth + 1))).count j =
          children.count j + (children.flatMap (parse.walk depth)).count p := by
      intro children
      induction children with
      | nil => rfl
      | cons child rest behind =>
        rw [List.flatMap_cons, List.count_append, behind, ih, List.flatMap_cons, List.count_append,
          List.count_cons]
        simp only [beq_iff_eq]
        omega
    rw [walk, List.count_cons, siblings, tree.count_below, parent, walk, List.count_cons]
    simp only [beq_iff_eq, Option.some.injEq, eq_comm (a := p)]
    omega

theorem count_walk_root (tree : parse.IsTree) (bound : j < parse.occurrences.length)
    (deep : j < depth) : (parse.walk depth 0).count j = 1 := by
  induction j using Nat.strongRecOn generalizing depth with
  | _ j ih =>
    obtain ⟨depth, rfl⟩ : ∃ fewer, depth = fewer + 1 := ⟨depth - 1, by omega⟩
    rcases Nat.eq_zero_or_pos j with rfl | later
    · have absent : 0 ∉ (parse.below 0).flatMap (parse.walk depth) := by
        intro member
        obtain ⟨child, below, member⟩ := List.mem_flatMap.mp member
        have later := (tree.lt_of_parent (tree.mem_below.mp below)).1
        have := tree.le_of_mem_walk member
        omega
      rw [walk, List.count_cons_self, List.count_eq_zero_of_not_mem absent]
    · obtain ⟨p, before, parent⟩ := tree.above bound later
      rw [tree.count_walk parent, if_neg (by omega), Nat.zero_add]
      exact ih p before (by omega) (by omega)

/-- A walk from the root meets every occurrence exactly once. -/
theorem walk_perm (tree : parse.IsTree) (nonempty : 0 < parse.occurrences.length)
    (deep : parse.occurrences.length ≤ depth) :
    (parse.walk depth 0).Perm (List.range parse.occurrences.length) := by
  apply List.perm_iff_count.mpr
  intro j
  rw [List.nodup_range.count]
  by_cases bound : j < parse.occurrences.length
  · rw [tree.count_walk_root bound (by omega), if_pos (List.mem_range.mpr bound)]
  · rw [if_neg (fun member => bound (List.mem_range.mp member)), List.count_eq_zero_of_not_mem]
    exact fun member => bound (tree.lt_of_mem_walk nonempty member)

theorem climb_root (tree : parse.IsTree) (depth : Nat) : parse.climb (depth + 1) 0 = [0] := by
  rw [climb, tree.first]

theorem le_of_mem_climb (tree : parse.IsTree) (member : j ∈ parse.climb depth i) : j ≤ i := by
  induction depth generalizing i with
  | zero => cases member
  | succ depth ih =>
    cases parent : parse.parentOf? i with
    | none =>
      rw [climb, parent] at member
      exact Nat.le_of_eq (List.mem_singleton.mp member)
    | some p =>
      rw [climb_child parent] at member
      rcases List.mem_cons.mp member with rfl | member
      · exact Nat.le_refl _
      · exact Nat.le_trans (ih member) (Nat.le_of_lt (tree.lt_of_parent parent).1)

theorem climb_descending (tree : parse.IsTree) (depth i : Nat) :
    (parse.climb depth i).Pairwise (· > ·) := by
  induction depth generalizing i with
  | zero => exact .nil
  | succ depth ih =>
    cases parent : parse.parentOf? i with
    | none =>
      rw [climb, parent]
      exact List.pairwise_singleton _ _
    | some p =>
      rw [climb_child parent]
      refine List.pairwise_cons.mpr ⟨fun j member => ?_, ih p⟩
      exact Nat.lt_of_le_of_lt (tree.le_of_mem_climb member) (tree.lt_of_parent parent).1

/-- A climb ends at the root, however many more steps it may take. -/
theorem climb_ends (tree : parse.IsTree) (bound : i < parse.occurrences.length)
    (deep : i < depth) :
    (parse.climb depth i).getLast? = some 0 ∧ parse.climb depth i = parse.climb (i + 1) i := by
  induction i using Nat.strongRecOn generalizing depth with
  | _ i ih =>
    obtain ⟨depth, rfl⟩ : ∃ fewer, depth = fewer + 1 := ⟨depth - 1, by omega⟩
    rcases Nat.eq_zero_or_pos i with rfl | later
    · rw [tree.climb_root, tree.climb_root]
      exact ⟨rfl, rfl⟩
    · obtain ⟨p, before, parent⟩ := tree.above bound later
      have inRange := Nat.lt_trans before bound
      obtain ⟨last, stable⟩ := ih p before inRange (by omega : p < depth)
      obtain ⟨-, short⟩ := ih p before inRange before
      rw [climb_child parent, climb_child parent, stable, short]
      rw [stable] at last
      exact ⟨by rw [List.getLast?_cons, last]; rfl, rfl⟩

theorem mem_children_iff (tree : parse.IsTree) {resolved : Resolved} :
    (j, resolved) ∈ parse.children i ↔
      parse.occurrences[j]? = some resolved ∧ resolved.parent = some i := by
  constructor
  · intro member
    obtain ⟨k, below, found⟩ := List.mem_filterMap.mp member
    obtain ⟨other, found, same⟩ := Option.map_eq_some_iff.mp found
    cases same
    have parent := tree.mem_below.mp below
    rw [parentOf?, found, Option.bind_some] at parent
    exact ⟨found, parent⟩
  · rintro ⟨found, parent⟩
    have below : j ∈ parse.below i := tree.mem_below.mpr (by rw [parentOf?, found]; exact parent)
    exact List.mem_filterMap.mpr ⟨j, below, by rw [found, Option.map_some]⟩

theorem children_ascending (tree : parse.IsTree) (i : Nat) :
    (parse.children i).Pairwise fun entry later => entry.1 < later.1 := by
  refine (tree.ascending i).filterMap _ ?_
  rintro j k before entry found later foundLater
  obtain ⟨_, -, rfl⟩ := Option.map_eq_some_iff.mp found
  obtain ⟨_, -, rfl⟩ := Option.map_eq_some_iff.mp foundLater
  exact before

theorem mem_children (tree : parse.IsTree) {resolved : Resolved}
    (member : (j, resolved) ∈ parse.children i) :
    i < j ∧ j < parse.occurrences.length ∧ parse.occurrences[j]? = some resolved := by
  obtain ⟨found, parent⟩ := tree.mem_children_iff.mp member
  have above : parse.parentOf? j = some i := by rw [parentOf?, found]; exact parent
  obtain ⟨before, bound⟩ := tree.lt_of_parent above
  exact ⟨before, bound, found⟩

/-- A sketch has reached the bottom when it may go as deep as there are occurrences behind. -/
theorem sketch_ends (tree : parse.IsTree) (resolved : Resolved)
    (bound : i < parse.occurrences.length) (deep : parse.occurrences.length ≤ i + depth)
    (more : Nat) :
    parse.sketch (depth + more) (i, resolved) = parse.sketch depth (i, resolved) := by
  induction depth generalizing i resolved with
  | zero => omega
  | succ depth ih =>
    have inner : ∀ child ∈ parse.children i,
        parse.sketch (depth + more) child = parse.sketch depth child := by
      rintro ⟨j, below⟩ member
      obtain ⟨later, inRange, -⟩ := tree.mem_children member
      exact ih below inRange (by omega)
    rw [Nat.add_right_comm, sketch, sketch]
    simp only [List.map_congr_left fun child member => congrArg (" " ++ ·) (inner child member)]

end IsTree
end Parse
end CommandGrammar
