import CommandGrammar.Keyed
import Mathlib.Data.List.Induction
import Mathlib.Data.String.Basic

/-! Entries gathered under keys. Each key is listed once, where it first came up, with all that was
added under it. Entries that are sorted by their keys are not changed by sorting them again. -/
namespace CommandGrammar

section Duplicates
variable {α : Type} [BEq α] [LawfulBEq α] {items : List α}

theorem eraseDups_concat (items : List α) (last : α) :
    (items ++ [last]).eraseDups =
      if last ∈ items then items.eraseDups else items.eraseDups ++ [last] := by
  rw [List.eraseDups_append]
  split
  · rename_i known
    have nothing : [last].removeAll items = [] := by simp [List.removeAll, known]
    rw [nothing, List.eraseDups_nil, List.append_nil]
  · rename_i fresh
    have single : [last].removeAll items = [last] := by simp [List.removeAll, fresh]
    rw [single, List.eraseDups_cons, List.filter_nil, List.eraseDups_nil]

theorem nodup_eraseDups (items : List α) : items.eraseDups.Nodup := by
  induction items using List.reverseRecOn with
  | nil => exact List.nodup_nil
  | append_singleton items last ih =>
    rw [eraseDups_concat]
    split
    · exact ih
    · rename_i fresh
      refine List.nodup_append.mpr ⟨ih, List.pairwise_singleton _ last, ?_⟩
      rintro item member other single rfl
      rw [List.mem_singleton.mp single] at member
      exact fresh (List.mem_eraseDups.mp member)

theorem eraseDups_of_nodup (distinct : items.Nodup) : items.eraseDups = items := by
  induction items with
  | nil => rfl
  | cons first rest ih =>
    obtain ⟨fresh, distinct⟩ := List.nodup_cons.mp distinct
    have others : rest.filter (fun item => !item == first) = rest := by
      refine List.filter_eq_self.mpr fun item member => ?_
      rw [Bool.not_eq_true', beq_eq_false_iff_ne]
      rintro rfl
      exact fresh member
    rw [List.eraseDups_cons, others, ih distinct]

end Duplicates

namespace Keyed
variable {α β : Type} {keys : List String} {key : String}

theorem lookup_cons (key : String) (value : α) (entries : Keyed α) (other : String) :
    List.lookup other ((key, value) :: entries) =
      if other = key then some value else entries.lookup other := by
  rw [List.lookup_cons]
  by_cases same : other = key
  · rw [if_pos same, beq_iff_eq.mpr same]
  · rw [if_neg same, beq_eq_false_iff_ne.mpr same]

theorem lookup_set (entries : Keyed α) (key other : String) (value : α) :
    (set entries key value).lookup other =
      if other = key then some value else entries.lookup other := by
  induction entries with
  | nil => exact lookup_cons key value [] other
  | cons first rest ih =>
    obtain ⟨known, held⟩ := first
    by_cases here : known = key
    · subst here
      rw [set, alter, if_pos rfl, lookup_cons, lookup_cons]
      split <;> rfl
    · rw [set, alter, if_neg here, lookup_cons, lookup_cons, ← set, ih]
      by_cases same : other = known
      · rw [same, if_pos rfl, if_pos rfl, if_neg here]
      · rw [if_neg same, if_neg same]

/-- The last value under a key stays. -/
theorem lookup_ofList {before after : List (String × α)} {value : α}
    (last : ∀ entry ∈ after, entry.1 ≠ key) :
    (ofList (before ++ (key, value) :: after)).lookup key = some value := by
  induction after using List.reverseRecOn with
  | nil => rw [ofList, List.foldl_append, List.foldl_cons, List.foldl_nil, lookup_set, if_pos rfl]
  | append_singleton after entry ih =>
    obtain ⟨earlier, apart⟩ := List.forall_mem_append.mp last
    rw [ofList, ← List.cons_append, ← List.append_assoc, List.foldl_append, List.foldl_cons,
      List.foldl_nil, lookup_set, if_neg (apart entry List.mem_cons_self).symm]
    exact ih earlier

theorem mem_set {entries : Keyed α} {value : α} {entry : String × α}
    (member : entry ∈ set entries key value) : entry = (key, value) ∨ entry ∈ entries := by
  induction entries with
  | nil => exact .inl (List.mem_singleton.mp member)
  | cons first rest ih =>
    obtain ⟨known, held⟩ := first
    rw [set, alter] at member
    split_ifs at member with here
    · subst here
      exact (List.mem_cons.mp member).imp_right (List.mem_cons_of_mem _)
    · rcases List.mem_cons.mp member with rfl | member
      · exact .inr List.mem_cons_self
      · exact (ih member).imp_right (List.mem_cons_of_mem _)

theorem mem_ofList {given : List (String × α)} {entry : String × α}
    (member : entry ∈ ofList given) : entry ∈ given := by
  induction given using List.reverseRecOn with
  | nil => exact member
  | append_singleton given last ih =>
    rw [ofList, List.foldl_append] at member
    rcases mem_set member with rfl | member
    · exact List.mem_append_right _ List.mem_cons_self
    · exact List.mem_append_left _ (ih member)

theorem alter_of_mem (distinct : keys.Nodup) (known : key ∈ keys) (value : String → α)
    (f : Option α → α) :
    alter (keys.map fun k => (k, value k)) key f =
      keys.map fun k => (k, if k = key then f (some (value k)) else value k) := by
  induction keys with
  | nil => contradiction
  | cons first rest ih =>
    obtain ⟨fresh, distinct⟩ := List.nodup_cons.mp distinct
    by_cases here : first = key
    · subst here
      have others : rest.map (fun k => (k, value k)) =
          rest.map fun k => (k, if k = first then f (some (value k)) else value k) := by
        refine List.map_congr_left fun k member => ?_
        rw [if_neg]
        rintro rfl
        exact fresh member
      simp only [List.map_cons, alter, if_pos, others]
    · have later := (List.mem_cons.mp known).resolve_left (Ne.symm here)
      simp only [List.map_cons, alter, if_neg here, ih distinct later]

theorem alter_of_notMem (fresh : key ∉ keys) (value : String → α) (f : Option α → α) :
    alter (keys.map fun k => (k, value k)) key f =
      (keys.map fun k => (k, value k)) ++ [(key, f none)] := by
  induction keys with
  | nil => rfl
  | cons first rest ih =>
    obtain ⟨apart, later⟩ := not_or.mp (List.mem_cons.not.mp fresh)
    simp only [List.map_cons, alter, if_neg (Ne.symm apart), ih later, List.cons_append]

/-- Lists that are added to one after the other hold in the end all that was added under their
key. -/
theorem foldl_alter (keyOf : β → String) (values : β → List α) (items : List β) :
    items.foldl (fun entries item =>
        alter entries (keyOf item) fun held => held.getD [] ++ values item) [] =
      (items.map keyOf).eraseDups.map fun key =>
        (key, (items.filter (keyOf · == key)).flatMap values) := by
  induction items using List.reverseRecOn with
  | nil => rfl
  | append_singleton items last ih =>
    rw [List.foldl_append, ih, List.foldl_cons, List.foldl_nil, List.map_append, List.map_singleton,
      eraseDups_concat]
    -- The last item goes under a key that is listed, or brings a new one.
    split
    · rename_i known
      rw [alter_of_mem (nodup_eraseDups _) (List.mem_eraseDups.mpr known)]
      refine List.map_congr_left fun key _ => ?_
      rw [List.filter_append, List.flatMap_append]
      by_cases same : keyOf last = key
      · simp [same]
      · simp [same, Ne.symm same]
    · rename_i fresh
      rw [alter_of_notMem (fun member => fresh (List.mem_eraseDups.mp member)), List.map_append]
      congr 1
      · refine List.map_congr_left fun key member => ?_
        have other : keyOf last ≠ key := by
          rintro rfl
          exact fresh (List.mem_eraseDups.mp member)
        simp [List.filter_append, other]
      · have nothing : items.filter (keyOf · == keyOf last) = [] := by
          refine List.filter_eq_nil_iff.mpr fun item member same => ?_
          exact fresh (List.mem_map.mpr ⟨item, member, beq_iff_eq.mp same⟩)
        simp [nothing]

section Sorted
variable {α : Type} {entries : Keyed α} {key : String} {value : α}

/-- Keys stand in ascending order, each of them once. -/
def Ascending (entries : Keyed α) : Prop := entries.Pairwise fun entry other => entry.1 < other.1

theorem mem_insert {entry : String × α} (member : entry ∈ entries.insert key value) :
    entry = (key, value) ∨ entry ∈ entries := by
  induction entries with
  | nil => exact .inl (List.mem_singleton.mp member)
  | cons first rest ih =>
    obtain ⟨k, v⟩ := first
    rw [insert] at member
    split_ifs at member
    · exact (List.mem_cons.mp member).imp_right (List.mem_cons_of_mem _)
    · exact List.mem_cons.mp member
    · rcases List.mem_cons.mp member with rfl | member
      · exact .inr List.mem_cons_self
      · exact (ih member).imp_right (List.mem_cons_of_mem _)

theorem mem_sorted {given : List (String × α)} {entry : String × α}
    (member : entry ∈ sorted given) : entry ∈ given := by
  induction given using List.reverseRecOn with
  | nil => exact member
  | append_singleton given last ih =>
    rw [sorted, List.foldl_append] at member
    rcases mem_insert member with rfl | member
    · exact List.mem_append_right _ List.mem_cons_self
    · exact List.mem_append_left _ (ih member)

theorem ascending_insert (ascending : Ascending entries) :
    Ascending (entries.insert key value) := by
  induction entries with
  | nil => exact List.pairwise_singleton _ _
  | cons first rest ih =>
    obtain ⟨k, v⟩ := first
    obtain ⟨above, ascending⟩ := List.pairwise_cons.mp ascending
    rw [insert]
    split_ifs with same below
    · exact List.pairwise_cons.mpr ⟨same ▸ above, ascending⟩
    · refine List.pairwise_cons.mpr ⟨?_, List.pairwise_cons.mpr ⟨above, ascending⟩⟩
      exact List.forall_mem_cons.mpr ⟨below, fun entry member => below.trans (above entry member)⟩
    · refine List.pairwise_cons.mpr ⟨fun entry member => ?_, ih ascending⟩
      rcases mem_insert member with rfl | member
      · exact (lt_or_gt_of_ne same).resolve_left below
      · exact above entry member

theorem ascending_sorted (given : List (String × α)) : Ascending (sorted given) := by
  induction given using List.reverseRecOn with
  | nil => exact .nil
  | append_singleton given last ih =>
    rw [sorted, List.foldl_append]
    exact ascending_insert ih

theorem insert_above (above : ∀ entry ∈ entries, entry.1 < key) :
    entries.insert key value = entries ++ [(key, value)] := by
  induction entries with
  | nil => rfl
  | cons first rest ih =>
    obtain ⟨k, v⟩ := first
    obtain ⟨later, above⟩ := List.forall_mem_cons.mp above
    rw [insert, if_neg (ne_of_gt later), if_neg (lt_asymm later), ih above]
    rfl

theorem sorted_of_ascending (ascending : Ascending entries) : sorted entries = entries := by
  induction entries using List.reverseRecOn with
  | nil => rfl
  | append_singleton entries last ih =>
    obtain ⟨ascending, -, above⟩ := List.pairwise_append.mp ascending
    have before :
        entries.foldl (fun entries entry => insert entries entry.1 entry.2) [] = entries :=
      ih ascending
    rw [sorted, List.foldl_append, before]
    exact insert_above fun entry member => above entry member last List.mem_cons_self

end Sorted
end Keyed
end CommandGrammar
