import CommandGrammar.Parse.Report
import CommandGrammar.Proofs.Keyed
import CommandGrammar.Proofs.Mirror

/-! What a report shows of several options that go by one name: the one that came into the arena
last. Defaults come behind everything that was given, those of outer commands first. So among
defaults the innermost command has its way, but any of them takes the place of what was given. -/
namespace CommandGrammar

namespace Symbol
variable {root : Symbol} {files : Files} {args : List String}

theorem defaults_nest (numbered : root.Numbered) (files : Files) (args : List String) :
    (root.parse files args).occurrences.Pairwise fun earlier later =>
      earlier.implicit = true → ∃ p q, earlier.parent = some p ∧ later.parent = some q ∧ p ≤ q := by
  have introduced := introduced_routed numbered (List.append_nil (root.tokenize args)).symm
  obtain ⟨defaults, added, areDefaults⟩ := bare_arena numbered args
  have bare : (root.parse files args).occurrences.map (·.bare) =
      (root.routed (root.tokenize args)).occurrences.map Occurrence.bare ++ defaults := by
    rw [← added, ← occurrences_parse root files, List.map_map]
    rfl
  have ordered : ((root.parse files args).occurrences.map (·.bare)).Pairwise
      fun earlier later => earlier.implicit = true →
        ∃ p q, earlier.parent = some p ∧ later.parent = some q ∧ p ≤ q := by
    have given : ∀ occurrence ∈
        (root.routed (root.tokenize args)).occurrences.map Occurrence.bare,
        occurrence.implicit ≠ true := by
      intro occurrence member
      obtain ⟨met, found, rfl⟩ := List.mem_map.mp member
      exact Bool.eq_false_iff.mp (introduced met found).1
    rw [bare, List.pairwise_append]
    refine ⟨?_, areDefaults.nest.imp fun nest => fun _ => nest, ?_⟩
    · apply List.pairwise_of_forall_mem_list
      exact fun earlier met _ _ implicit => absurd implicit (given earlier met)
    · exact fun earlier met _ _ implicit => absurd implicit (given earlier met)
  rw [List.pairwise_map] at ordered
  exact ordered

end Symbol

theorem exists_last {α : Type} {items : List α} {holds : α → Prop}
    (some : ∃ item ∈ items, holds item) : ∃ before last after, items = before ++ last :: after ∧
      holds last ∧ ∀ other ∈ after, ¬ holds other := by
  induction items using List.reverseRecOn with
  | nil =>
    obtain ⟨item, member, -⟩ := some
    contradiction
  | append_singleton items last ih =>
    by_cases here : holds last
    · exact ⟨items, last, [], rfl, here, List.forall_mem_nil _⟩
    · obtain ⟨item, member, fits⟩ := some
      have earlier : item ∈ items := by
        refine (List.mem_append.mp member).resolve_right fun single => here ?_
        rwa [← List.mem_singleton.mp single]
      obtain ⟨before, found, after, split, fitsFound, others⟩ := ih ⟨item, earlier, fits⟩
      refine ⟨before, found, after ++ [last], ?_, fitsFound, ?_⟩
      · rw [split, List.append_assoc, List.cons_append]
      · exact List.forall_mem_append.mpr ⟨others, List.forall_mem_singleton.mpr here⟩

namespace Resolved
variable {resolved : Resolved} {name : String}

/-- An option that has a value to report under the name. -/
structure Reports (resolved : Resolved) (name : String) : Prop where
  kind : resolved.kind = .option
  named : resolved.symbol.name = name
  accepted : resolved.verdict.isAccepted = true

theorem Reports.entry (reports : resolved.Reports name) : ∃ value,
    resolved.verdict.value? = some value ∧
      resolved.reportEntry? = some (name, value.toJson?.getD (.bool true)) := by
  obtain ⟨value, accepted⟩ := Option.isSome_iff_exists.mp reports.accepted
  refine ⟨value, accepted, ?_⟩
  unfold reportEntry?
  simp [reportKey, reports.kind, reports.named, accepted]

/-- What is reported under a name is an option of that name or the argument of a command. -/
theorem reports_of_entry {json : Json} (entry : resolved.reportEntry? = some (name, json)) :
    resolved.kind = .command ∨ resolved.Reports name := by
  cases kind : resolved.kind with
  | command => exact .inl rfl
  | option =>
    unfold reportEntry? at entry
    rw [reportKey, kind] at entry
    obtain ⟨value, accepted, same⟩ := Option.map_eq_some_iff.mp entry
    exact .inr ⟨kind, (Prod.mk.inj same).1, Option.isSome_iff_exists.mpr ⟨value, accepted⟩⟩

end Resolved

namespace Parse
variable {parse : Parse} {inner outer shown other : Resolved} {name : String} {i j : Nat}

/-- The one stands under a command that was entered inside the command of the other. -/
def Inside (parse : Parse) (inner outer : Resolved) : Prop :=
  ∃ closer frame, [closer, frame].Sublist parse.path.toList ∧
    inner.parent = some closer.occurrence ∧ outer.parent = some frame.occurrence

/-- How the occurrences of a parse follow each other. -/
structure Arranged (parse : Parse) : Prop where
  path : parse.path.toList.Pairwise fun inner outer => outer.occurrence < inner.occurrence
  last : parse.occurrences.Pairwise fun earlier later =>
    earlier.implicit = true → later.implicit = true
  nest : parse.occurrences.Pairwise fun earlier later =>
    earlier.implicit = true → ∃ p q, earlier.parent = some p ∧ later.parent = some q ∧ p ≤ q

theorem Inside.lt (inside : parse.Inside inner outer) (arranged : parse.Arranged) :
    ∃ p q, inner.parent = some p ∧ outer.parent = some q ∧ q < p := by
  obtain ⟨closer, frame, listed, under, around⟩ := inside
  exact ⟨_, _, under, around, List.pairwise_iff_forall_sublist.mp arranged.path listed⟩

/-- Nothing else that reports under the name comes later. -/
structure Last (parse : Parse) (name : String) (i : Nat) (shown : Resolved) : Prop where
  found : parse.occurrences[i]? = some shown
  reports : shown.Reports name
  others : ∀ other ∈ parse.occurrences.drop (i + 1), ¬ other.Reports name

theorem exists_last_reporting
    (reported : ∃ resolved ∈ parse.occurrences, resolved.Reports name) :
    ∃ i shown, parse.Last name i shown := by
  obtain ⟨before, shown, after, split, reports, others⟩ := exists_last reported
  refine ⟨before.length, shown, ?_, reports, ?_⟩
  · rw [split, List.getElem?_append_right (Nat.le_refl _), Nat.sub_self, List.getElem?_cons_zero]
  · rw [split, List.append_cons, List.drop_left' (by simp)]
    exact others

namespace Last

theorem cases (last : parse.Last name i shown) (found : parse.occurrences[j]? = some other)
    (reports : other.Reports name) : j = i ∧ other = shown ∨ j < i := by
  rcases Nat.lt_trichotomy j i with before | rfl | after
  · exact .inr before
  · exact .inl ⟨rfl, Option.some.inj (found.symm.trans last.found)⟩
  · refine absurd reports (last.others other ?_)
    refine List.mem_of_getElem? (i := j - (i + 1)) ?_
    rw [List.getElem?_drop, Nat.add_sub_cancel' after, found]

theorem value (last : parse.Last name i shown)
    (noArgument : ∀ resolved ∈ parse.occurrences, resolved.kind = .command →
      ∀ json, resolved.reportEntry? ≠ some (name, json)) :
    ∃ value, shown.verdict.value? = some value ∧
      (Report.ofParse parse).values.lookup name = some (value.toJson?.getD (.bool true)) := by
  obtain ⟨value, accepted, entry⟩ := last.reports.entry
  refine ⟨value, accepted, ?_⟩
  obtain ⟨bound, rfl⟩ := List.getElem?_eq_some_iff.mp last.found
  have split := List.take_append_drop i parse.occurrences
  rw [List.drop_eq_getElem_cons bound] at split
  rw [Report.ofParse, ← split, List.filterMap_append, List.filterMap_cons_some entry]
  refine Keyed.lookup_ofList ?_
  rintro ⟨key, json⟩ member rfl
  obtain ⟨other, later, entryOther⟩ := List.mem_filterMap.mp member
  rcases Resolved.reports_of_entry entryOther with kind | reports
  · exact noArgument other (List.mem_of_mem_drop later) kind json entryOther
  · exact last.others other later reports

/-- A default takes the place of everything that was given. -/
theorem given (last : parse.Last name i shown) (arranged : parse.Arranged)
    (explicit : shown.implicit = false) (member : other ∈ parse.occurrences)
    (reports : other.Reports name) : other.implicit = false := by
  obtain ⟨j, found⟩ := List.mem_iff_getElem?.mp member
  rcases last.cases found reports with ⟨rfl, rfl⟩ | earlier
  · exact explicit
  · obtain ⟨bound, rfl⟩ := List.getElem?_eq_some_iff.mp found
    obtain ⟨boundShown, rfl⟩ := List.getElem?_eq_some_iff.mp last.found
    refine Bool.eq_false_iff.mpr fun implicit => ?_
    have shownToo :=
      List.pairwise_iff_getElem.mp arranged.last j i bound boundShown earlier implicit
    rw [explicit] at shownToo
    contradiction

/-- Among defaults the innermost command has its way. -/
theorem defaults (last : parse.Last name i shown) (arranged : parse.Arranged)
    (member : other ∈ parse.occurrences) (reports : other.Reports name)
    (implicit : other.implicit = true) : ¬ parse.Inside other shown := by
  intro inside
  obtain ⟨p, q, under, around, less⟩ := inside.lt arranged
  obtain ⟨j, found⟩ := List.mem_iff_getElem?.mp member
  rcases last.cases found reports with ⟨rfl, rfl⟩ | earlier
  · cases under.symm.trans around
    exact Nat.lt_irrefl _ less
  · obtain ⟨bound, rfl⟩ := List.getElem?_eq_some_iff.mp found
    obtain ⟨boundShown, rfl⟩ := List.getElem?_eq_some_iff.mp last.found
    obtain ⟨p', q', under', around', atMost⟩ :=
      List.pairwise_iff_getElem.mp arranged.nest j i bound boundShown earlier implicit
    cases under.symm.trans under'
    cases around.symm.trans around'
    omega

theorem innermost (last : parse.Last name i shown) (arranged : parse.Arranged)
    (clear : ∀ j other, parse.occurrences[j]? = some other → other.Reports name →
      other.implicit = false → j < i → ¬ parse.Inside other shown)
    (member : other ∈ parse.occurrences) (reports : other.Reports name) :
    ¬ parse.Inside other shown := by
  cases implicit : other.implicit with
  | true => exact last.defaults arranged member reports implicit
  | false =>
    obtain ⟨j, found⟩ := List.mem_iff_getElem?.mp member
    rcases last.cases found reports with ⟨rfl, rfl⟩ | earlier
    · intro inside
      obtain ⟨p, q, under, around, less⟩ := inside.lt arranged
      cases under.symm.trans around
      exact Nat.lt_irrefl _ less
    · exact clear j other found reports implicit earlier

end Last
end Parse

theorem Symbol.arranged_parse {root : Symbol} (numbered : root.Numbered) (files : Files)
    (args : List String) : (root.parse files args).Arranged where
  path := by
    rw [path_parse]
    exact (grown_arena numbered args).descending
  last := defaults_last numbered files args
  nest := defaults_nest numbered files args

/-- The report shows under a name the value of an occurrence, the last one of that name. -/
structure Shows (parse : Parse) (name : String) (i : Nat) (shown : Resolved) : Prop where
  found : parse.occurrences[i]? = some shown
  reports : shown.Reports name
  value : ∃ value, shown.verdict.value? = some value ∧
    (Report.ofParse parse).values.lookup name = some (value.toJson?.getD (.bool true))
  last : ∀ j other, parse.occurrences[j]? = some other → other.Reports name → j ≤ i
  /-- A default takes the place of everything that was given. -/
  given : shown.implicit = false →
    ∀ other ∈ parse.occurrences, other.Reports name → other.implicit = false
  /-- Among defaults the innermost command has its way. -/
  defaults : ∀ other ∈ parse.occurrences, other.Reports name → other.implicit = true →
    ¬ parse.Inside other shown
  /-- It is that of the innermost command, unless one further in was given before. -/
  innermost : (∀ other ∈ parse.occurrences, other.Reports name → ¬ parse.Inside other shown) ↔
    ∀ j other, parse.occurrences[j]? = some other → other.Reports name →
      other.implicit = false → j < i → ¬ parse.Inside other shown

theorem shown_parse {heading : Heading} {subcommandRequired : Option Bool} {strict : Bool}
    {children : List Declaration} {root : Symbol}
    (built : (Declaration.command heading subcommandRequired strict children).build = .ok root)
    {files : Files} {args : List String} {name : String}
    (reported : ∃ resolved ∈ (root.parse files args).occurrences, resolved.Reports name)
    (noArgument : ∀ resolved ∈ (root.parse files args).occurrences, resolved.kind = .command →
      ∀ json, resolved.reportEntry? ≠ some (name, json)) :
    ∃ i shown, Shows (root.parse files args) name i shown := by
  have arranged := Symbol.arranged_parse (Declaration.numbered_build built) files args
  obtain ⟨i, shown, last⟩ := Parse.exists_last_reporting reported
  refine ⟨i, shown, ?_⟩
  constructor
  case found => exact last.found
  case reports => exact last.reports
  case value => exact last.value noArgument
  case last =>
    intro j other found reports
    rcases last.cases found reports with ⟨rfl, -⟩ | earlier
    · exact Nat.le_refl _
    · exact Nat.le_of_lt earlier
  case given => exact fun explicit other member => last.given arranged explicit member
  case defaults => exact fun other member => last.defaults arranged member
  case innermost =>
    constructor
    · exact fun clear j other found reports _ _ => clear other (List.mem_of_getElem? found) reports
    · exact fun clear other member => last.innermost arranged clear member

/-- A tool with a level, and a command with a level of its own. -/
def Declaration.levelled : Declaration :=
  .command { aliases := ["tool"] } none true
    [.option
      { aliases := ["--level"], argument := { type := some .int, default := some (.int 2) } },
      .command { aliases := ["run"] } none true
        [.option { aliases := ["--level"], argument := { type := some .int } }]]

theorem shown_parse_sample : ∃ root, Declaration.levelled.build = .ok root ∧
    ∃ i shown, Shows (root.parse .absent ["run", "--level", "1"]) "level" i shown := by
  obtain ⟨root, built, option, commands⟩ : ∃ root, Declaration.levelled.build = .ok root ∧
      ((root.parse .absent ["run", "--level", "1"]).occurrences.any fun resolved =>
        resolved.kind = .option ∧ resolved.symbol.name = "level" ∧
          resolved.verdict.isAccepted = true) = true ∧
      ((root.parse .absent ["run", "--level", "1"]).occurrences.all fun resolved =>
        resolved.kind = .command → resolved.reportEntry?.isNone = true) = true :=
    ⟨_, rfl, by decide +kernel, by decide +kernel⟩
  refine ⟨root, built, shown_parse built ?_ ?_⟩
  · obtain ⟨resolved, member, fits⟩ := List.any_eq_true.mp option
    obtain ⟨kind, named, accepted⟩ := of_decide_eq_true fits
    exact ⟨resolved, member, kind, named, accepted⟩
  · intro resolved member kind json entry
    have nothing := of_decide_eq_true (List.all_eq_true.mp commands resolved member) kind
    rw [entry] at nothing
    contradiction

/-- Whether an occurrence is an option, its name, whether it is a default, what it stands under,
and its number. -/
def Resolved.summary (resolved : Resolved) :
    OccurrenceKind × String × Bool × Option Nat × Option Int64 :=
  (resolved.kind, resolved.symbol.name, resolved.implicit, resolved.parent,
    resolved.verdict.value?.bind Value.int?)

theorem Resolved.of_summary {resolved : Resolved} {name : String} {implicit : Bool}
    {parent : Option Nat} {n : Int64}
    (same : resolved.summary = (.option, name, implicit, parent, some n)) :
    resolved.Reports name ∧ resolved.implicit = implicit ∧ resolved.parent = parent ∧
      resolved.verdict.value? = some (.int n) := by
  simp only [summary, Prod.mk.injEq] at same
  obtain ⟨kind, named, given, under, number⟩ := same
  obtain ⟨value, accepted, isInt⟩ := Option.bind_eq_some_iff.mp number
  cases value with
  | int m =>
    cases isInt
    exact ⟨⟨kind, named, Option.isSome_iff_exists.mpr ⟨_, accepted⟩⟩, given, under, accepted⟩
  | unit | bool | float | string | path | list => cases isInt

/-- The default of the tool is shown in place of the level that its command was given. -/
theorem default_replaces_given : ∃ root, Declaration.levelled.build = .ok root ∧
    (∃ given ∈ (root.parse .absent ["run", "--level", "1"]).occurrences,
      given.Reports "level" ∧ given.implicit = false ∧ given.verdict.value? = some (.int 1)) ∧
    (∀ resolved ∈ (root.parse .absent ["run", "--level", "1"]).occurrences,
      resolved.kind = .command → resolved.reportKey ≠ "level") ∧
    ¬ ∃ shown ∈ (root.parse .absent ["run", "--level", "1"]).occurrences,
      shown.Reports "level" ∧
      (∀ other ∈ (root.parse .absent ["run", "--level", "1"]).occurrences,
        other.Reports "level" →
          ¬ (root.parse .absent ["run", "--level", "1"]).Inside other shown) ∧
      ∃ value, shown.verdict.value? = some value ∧
        (Report.ofParse (root.parse .absent ["run", "--level", "1"])).values.lookup "level" =
          some (value.toJson?.getD (.bool true)) := by
  obtain ⟨root, built, path, summaries, keys, text⟩ : ∃ root,
      Declaration.levelled.build = .ok root ∧
      (root.parse .absent ["run", "--level", "1"]).path.toList.map Frame.occurrence = [1, 0] ∧
      (root.parse .absent ["run", "--level", "1"]).occurrences.map Resolved.summary =
        [(.command, "tool", false, none, none), (.command, "run", false, some 0, none),
          (.option, "level", false, some 1, some 1), (.option, "level", true, some 0, some 2)] ∧
      ((root.parse .absent ["run", "--level", "1"]).occurrences.all fun resolved =>
        resolved.kind = .command → resolved.reportKey ≠ "level") = true ∧
      ((Report.ofParse (root.parse .absent ["run", "--level", "1"])).values.lookup "level").map
        Json.text = some "2" :=
    ⟨_, rfl, by decide +kernel, by decide +kernel, by decide +kernel, by decide +kernel⟩
  refine ⟨root, built, ?_⟩
  generalize root.parse .absent ["run", "--level", "1"] = parse at *
  obtain ⟨given, member, same⟩ : ∃ given ∈ parse.occurrences,
      given.summary = (.option, "level", false, some 1, some 1) := by
    rw [← List.mem_map, summaries]
    decide
  obtain ⟨reports, explicit, under, one⟩ := Resolved.of_summary same
  refine ⟨⟨given, member, reports, explicit, one⟩,
    fun resolved listed => of_decide_eq_true (List.all_eq_true.mp keys resolved listed), ?_⟩
  rintro ⟨shown, listed, shows, clear, value, accepted, found⟩
  have summary : shown.summary ∈ parse.occurrences.map Resolved.summary :=
    List.mem_map_of_mem listed
  simp only [summaries, List.mem_cons, List.not_mem_nil, or_false] at summary
  rcases summary with isTool | isRun | isGiven | isDefault
  · cases shows.kind.symm.trans (Prod.mk.inj isTool).1
  · cases shows.kind.symm.trans (Prod.mk.inj isRun).1
  · obtain ⟨-, -, -, value'⟩ := Resolved.of_summary isGiven
    cases accepted.symm.trans value'
    rw [found] at text
    exact absurd text (by decide +kernel)
  · obtain ⟨-, -, around, -⟩ := Resolved.of_summary isDefault
    refine clear given member reports ?_
    obtain ⟨closer, frame, path, inner, outer⟩ : ∃ closer frame,
        parse.path.toList = [closer, frame] ∧ closer.occurrence = 1 ∧ frame.occurrence = 0 := by
      obtain ⟨closer, rest, path, inner, rest'⟩ := List.map_eq_cons_iff.mp path
      obtain ⟨frame, none, rfl, outer, nothing⟩ := List.map_eq_cons_iff.mp rest'
      rw [List.map_eq_nil_iff.mp nothing] at path
      exact ⟨closer, frame, path, inner, outer⟩
    exact ⟨closer, frame, path ▸ List.Sublist.refl _, inner ▸ under, outer ▸ around⟩

end CommandGrammar
