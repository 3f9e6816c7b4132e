import CommandGrammar.Proofs.Construction
import CommandGrammar.Proofs.Mirror

/-! Options of one command that go by one lookup key. Siblings are kept apart by their bare aliases,
but values are looked up under keys, which leave out more. So an option may have namesakes, and a
key finds the one of them that came up first. The search by name, which goes by bare aliases, finds
the option itself. -/
namespace CommandGrammar

/-- A symbol goes by the key of its name and of each of its aliases. -/
def Symbol.HasKey (symbol : Symbol) (key : String) : Prop :=
  Alias.lookupKey symbol.name = key ∨ ∃ own ∈ symbol.aliases, Alias.lookupKey own = key

theorem Resolved.hasKey_iff {resolved : Resolved} {key : String} :
    resolved.hasKey key = true ↔ resolved.symbol.HasKey key := by
  simp [hasKey, Symbol.HasKey]

/-- Among entries in ascending order, the one found is the lowest that passes. -/
theorem find_lowest {α : Type} {entries : List (Nat × α)} {passes : Nat × α → Bool}
    {found other : Nat × α} (ascending : entries.Pairwise fun entry later => entry.1 < later.1)
    (search : entries.find? passes = some found) (member : other ∈ entries)
    (also : passes other = true) : found.1 ≤ other.1 := by
  obtain ⟨-, before, after, rfl, none⟩ := List.find?_eq_some_iff_append.mp search
  obtain ⟨-, ordered, -⟩ := List.pairwise_append.mp ascending
  rcases List.mem_append.mp member with earlier | later
  · have fails := none other earlier
    rw [also] at fails
    contradiction
  · rcases List.mem_cons.mp later with rfl | later
    · exact Nat.le_refl _
    · exact Nat.le_of_lt ((List.pairwise_cons.mp ordered).1 other later)

namespace Parse
variable {parse : Parse} {key raw : String} {i j : Nat} {resolved found : Resolved}

/-- An option of the innermost command. -/
structure OptionAt (parse : Parse) (i : Nat) (resolved : Resolved) : Prop where
  placed : parse.occurrences[i]? = some resolved
  owned : resolved.parent = some parse.command
  kind : resolved.kind = .option

/-- The option of the innermost command that has a key and came up before all others that do. -/
structure FirstUnder (parse : Parse) (key : String) (i : Nat) (resolved : Resolved) : Prop where
  option : parse.OptionAt i resolved
  hasKey : resolved.symbol.HasKey key
  first : ∀ j other, parse.OptionAt j other → other.symbol.HasKey key → i ≤ j

theorem IsTree.mem_options_iff (tree : parse.IsTree) :
    ((j, resolved) ∈ parse.children parse.command ∧
      (resolved.kind == .option && resolved.hasKey key) = true) ↔
      parse.OptionAt j resolved ∧ resolved.symbol.HasKey key := by
  rw [tree.mem_children_iff, Bool.and_eq_true, beq_iff_eq, Resolved.hasKey_iff]
  constructor
  · rintro ⟨⟨placed, owned⟩, kind, hasKey⟩
    exact ⟨⟨placed, owned, kind⟩, hasKey⟩
  · rintro ⟨⟨placed, owned, kind⟩, hasKey⟩
    exact ⟨⟨placed, owned⟩, kind, hasKey⟩

/-- A key is looked up in the first option that has it, if any does. -/
theorem IsTree.optionAt_innermost (tree : parse.IsTree) (option : parse.OptionAt i resolved)
    (hasKey : resolved.symbol.HasKey key) : ∃ j found,
      parse.optionAt? key parse.path.innermost = some found ∧ parse.FirstUnder key j found := by
  obtain ⟨member, fits⟩ := tree.mem_options_iff.mpr ⟨option, hasKey⟩
  cases search : (parse.children parse.command).find? fun entry =>
      entry.2.kind == .option && entry.2.hasKey key with
  | none => exact absurd fits (List.find?_eq_none.mp search _ member)
  | some entry =>
    obtain ⟨j, found⟩ := entry
    have passes := List.find?_some search
    obtain ⟨here, also⟩ :=
      tree.mem_options_iff.mp ⟨List.mem_of_find?_eq_some search, passes⟩
    have lookup : parse.optionAt? key parse.path.innermost = some found := by
      rw [optionAt?, ← command, search, Option.map_some]
    refine ⟨j, found, lookup, here, also, fun k other optionOther hasKeyOther => ?_⟩
    obtain ⟨member, fits⟩ := tree.mem_options_iff.mpr ⟨optionOther, hasKeyOther⟩
    exact find_lowest (tree.children_ascending _) search member fits

/-- Values of options come first wherever options are asked. -/
theorem request_option {source : Source} (asked : source ≠ .arguments)
    (found : parse.optionAt? (Alias.lookupKey raw) parse.path.innermost = some resolved) :
    parse.request? ⟨raw, none, source⟩ = resolved.value? := by
  have answers : parse.lookup? (Alias.lookupKey raw) source = some resolved := by
    rw [lookup?, Nesting.toList, List.findSome?_cons, lookupAt?, if_neg asked, found]
    rfl
  simp [request?, answers, Resolved.valueAs?]

end Parse

namespace Symbol
variable {root : Symbol} {files : Files} {args : List String} {i : Nat} {resolved : Resolved}

/-- What stands under the innermost command is declared by it. -/
theorem owned_parse (numbered : root.Numbered)
    (placed : (root.parse files args).occurrences[i]? = some resolved)
    (owned : resolved.parent = some (root.parse files args).command) :
    resolved.symbol ∈ (root.parse files args).innermost.children := by
  have grown := grown_arena numbered args
  have link := link_parse placed
  rw [owned] at link
  obtain ⟨p, owner, _, parent, -, placedOwner, -, member⟩ :=
    grown.arena.owned link (Nat.zero_lt_of_lt (grown.arena.parent_lt link))
  cases parent
  have onPath : (root.arena args).path.innermost ∈ (root.arena args).path.toList :=
    List.mem_cons_self
  obtain ⟨-, _, placedFrame⟩ := grown.found onPath
  rw [Parse.command, path_parse] at placedOwner
  cases placedOwner.symm.trans placedFrame
  rw [Parse.innermost, path_parse]
  exact member

theorem isOption_parse (numbered : root.Numbered)
    (placed : (root.parse files args).occurrences[i]? = some resolved)
    (kind : resolved.kind = .option) : resolved.symbol.isOption = true := by
  have fits := hasKind_parse numbered files args resolved (List.mem_of_getElem? placed)
  cases isCommand : resolved.symbol.isCommand with
  | true =>
    rw [Occurrence.HasKind, if_pos isCommand, kind] at fits
    cases fits.1
  | false => rw [isOption, isCommand, Bool.not_false]

end Symbol

namespace Declaration
variable {declaration : Declaration} {root : Symbol} {files : Files} {args : List String} {i : Nat}
  {resolved : Resolved} {raw : String}

/-- No sibling is called by a bare alias of another, so the search by name finds the option. -/
theorem child_named (built : declaration.build = .ok root) (numbered : root.Numbered)
    (option : (root.parse files args).OptionAt i resolved) (own : raw ∈ resolved.symbol.aliases) :
    (root.parse files args).child? (root.parse files args).command raw = some (i, resolved) := by
  have tree := Symbol.isTree_parse numbered files args
  have called : resolved.symbol.isCalled raw = true :=
    Symbol.isCalled_iff.mpr (List.mem_map_of_mem own)
  have member := tree.mem_children_iff.mpr ⟨option.placed, option.owned⟩
  have inTree : (root.parse files args).innermost ∈ root.preorder := by
    rw [Parse.innermost, Symbol.path_parse]
    exact (Symbol.grown_arena numbered args).mem_preorder List.mem_cons_self
  cases search : (root.parse files args).child? (root.parse files args).command raw with
  | none => exact absurd called (List.find?_eq_none.mp search _ member)
  | some entry =>
    obtain ⟨j, found⟩ := entry
    obtain ⟨placed, owned⟩ := tree.mem_children_iff.mp (List.mem_of_find?_eq_some search)
    have calledToo := List.find?_some search
    have same : found.symbol = resolved.symbol :=
      eq_of_apart (apart_of_built built inTree raw)
        (Symbol.owned_parse numbered placed owned)
        (Symbol.owned_parse numbered option.placed option.owned) calledToo called
    cases Symbol.index_unique_parse numbered placed option.placed same
    cases placed.symm.trans option.placed
    rfl

end Declaration

/-- What is found under an alias of an option of the innermost command. -/
structure Answers (parse : Parse) (raw : String) (i : Nat) (resolved : Resolved) : Prop where
  /-- The search by name finds the option itself, unless its command is called so, too. -/
  named : parse.innermost.isCalled raw = false →
    parse.find? raw = some (i, resolved) ∧ parse.valueFor? raw = resolved.value?
  /-- Values are those of the first option that has the key of the alias. -/
  first : ∃ j found, j ≤ i ∧ parse.FirstUnder (Alias.lookupKey raw) j found ∧
    parse.get? raw = found.value? ∧ parse.request? ⟨raw, none, .options⟩ = found.value?
  /-- That is the option itself if no other that has the key came up before. -/
  earliest : parse.FirstUnder (Alias.lookupKey raw) i resolved →
    parse.get? raw = resolved.value? ∧
      parse.request? ⟨raw, none, .options⟩ = resolved.value?
  /-- It always is if no other that the command declares has the key. -/
  alone : (∀ option ∈ parse.innermost.children, option.isOption = true →
      option.HasKey (Alias.lookupKey raw) → option = resolved.symbol) →
    parse.get? raw = resolved.value? ∧
      parse.request? ⟨raw, none, .options⟩ = resolved.value?

theorem own_alias_answers {heading : Heading} {subcommandRequired : Option Bool} {strict : Bool}
    {children : List Declaration} {root : Symbol}
    (built : (Declaration.command heading subcommandRequired strict children).build = .ok root)
    {files : Files} {args : List String} {i : Nat} {resolved : Resolved} {raw : String}
    (option : (root.parse files args).OptionAt i resolved)
    (own : raw ∈ resolved.symbol.aliases) : Answers (root.parse files args) raw i resolved := by
  have numbered := Declaration.numbered_build built
  have tree := Symbol.isTree_parse numbered files args
  have hasKey : resolved.symbol.HasKey (Alias.lookupKey raw) := .inr ⟨raw, own, rfl⟩
  obtain ⟨j, found, lookup, first⟩ := tree.optionAt_innermost option hasKey
  have get : (root.parse files args).get? raw = found.value? :=
    Parse.request_option (by decide) lookup
  have request : (root.parse files args).request? ⟨raw, none, .options⟩ = found.value? :=
    Parse.request_option (by decide) lookup
  have below : j ≤ i := first.first i resolved option hasKey
  -- Whatever makes the two one occurrence makes the value found that of the option.
  have itself (same : j = i) : (root.parse files args).get? raw = resolved.value? ∧
      (root.parse files args).request? ⟨raw, none, .options⟩ = resolved.value? := by
    subst same
    cases first.option.placed.symm.trans option.placed
    exact ⟨get, request⟩
  constructor
  case named =>
    intro other
    have search : (root.parse files args).find? raw = some (i, resolved) := by
      rw [Parse.find?, Nesting.toList, List.findSome?_cons, Parse.findAt?, ← Parse.innermost,
        other, ← Parse.command, Declaration.child_named built numbered option own]
      rfl
    exact ⟨search, by rw [Parse.valueFor?, search, Option.bind_some]⟩
  case first => exact ⟨j, found, below, first, get, request⟩
  case earliest =>
    exact fun earliest =>
      itself (Nat.le_antisymm below (earliest.first j found first.option first.hasKey))
  case alone =>
    intro alone
    have owned := Symbol.owned_parse numbered first.option.placed first.option.owned
    have isOption := Symbol.isOption_parse numbered first.option.placed first.option.kind
    have same := alone found.symbol owned isOption first.hasKey
    exact itself (Symbol.index_unique_parse numbered first.option.placed option.placed same)

/-- A tool with two options whose names differ by a dash only. -/
def Declaration.dashed : Declaration :=
  .command { aliases := ["tool"] } none true
    [.option { aliases := ["--dry-run"], argument := { type := some .int } },
      .option { aliases := ["--dryrun"], argument := { type := some .int } }]

/-- Whether an occurrence is an option, what it stands under, its aliases, and its number. -/
def Resolved.label (resolved : Resolved) :
    OccurrenceKind × Option Nat × List String × Option Int64 :=
  (resolved.kind, resolved.parent, resolved.symbol.aliases, resolved.value?.bind Value.int?)

theorem own_alias_answers_dashed : ∃ root, Declaration.dashed.build = .ok root ∧
    ∃ resolved, (root.parse .absent ["--dryrun", "2"]).OptionAt 1 resolved ∧
      "--dryrun" ∈ resolved.symbol.aliases ∧
      Answers (root.parse .absent ["--dryrun", "2"]) "--dryrun" 1 resolved := by
  obtain ⟨root, built, command, labels⟩ : ∃ root, Declaration.dashed.build = .ok root ∧
      (root.parse .absent ["--dryrun", "2"]).command = 0 ∧
      (root.parse .absent ["--dryrun", "2"]).occurrences[1]?.map Resolved.label =
        some (.option, some 0, ["--dryrun"], some 2) :=
    ⟨_, rfl, by decide +kernel, by decide +kernel⟩
  obtain ⟨resolved, placed, label⟩ := Option.map_eq_some_iff.mp labels
  simp only [Resolved.label, Prod.mk.injEq] at label
  obtain ⟨kind, owned, aliases, -⟩ := label
  have option : (root.parse .absent ["--dryrun", "2"]).OptionAt 1 resolved :=
    ⟨placed, command ▸ owned, kind⟩
  have own : "--dryrun" ∈ resolved.symbol.aliases := by
    rw [aliases]
    exact List.mem_cons_self
  exact ⟨root, built, resolved, option, own, own_alias_answers built option own⟩

/-- The value of the one option is given for the other, by the very alias it was given under. -/
theorem namesake_answers : ∃ root, Declaration.dashed.build = .ok root ∧
    ∃ resolved, (root.parse .absent ["--dry-run", "1", "--dryrun", "2"]).OptionAt 2 resolved ∧
      "--dryrun" ∈ resolved.symbol.aliases ∧ resolved.verdict.isAccepted = true ∧
      (root.parse .absent ["--dry-run", "1", "--dryrun", "2"]).get? "--dryrun" ≠
        resolved.value? ∧
      (root.parse .absent ["--dry-run", "1", "--dryrun", "2"]).request?
        ⟨"--dryrun", none, .options⟩ ≠ resolved.value? := by
  obtain ⟨root, built, command, labels, get, request⟩ : ∃ root,
      Declaration.dashed.build = .ok root ∧
      (root.parse .absent ["--dry-run", "1", "--dryrun", "2"]).command = 0 ∧
      (root.parse .absent ["--dry-run", "1", "--dryrun", "2"]).occurrences[2]?.map
        Resolved.label = some (.option, some 0, ["--dryrun"], some 2) ∧
      ((root.parse .absent ["--dry-run", "1", "--dryrun", "2"]).get? "--dryrun").bind
        Value.int? = some 1 ∧
      ((root.parse .absent ["--dry-run", "1", "--dryrun", "2"]).request?
        ⟨"--dryrun", none, .options⟩).bind Value.int? = some 1 :=
    ⟨_, rfl, by decide +kernel, by decide +kernel, by decide +kernel, by decide +kernel⟩
  obtain ⟨resolved, placed, label⟩ := Option.map_eq_some_iff.mp labels
  simp only [Resolved.label, Prod.mk.injEq] at label
  obtain ⟨kind, owned, aliases, number⟩ := label
  refine ⟨root, built, resolved, ⟨placed, command ▸ owned, kind⟩, ?_, ?_, ?_, ?_⟩
  · rw [aliases]
    exact List.mem_cons_self
  · obtain ⟨value, accepted, -⟩ := Option.bind_eq_some_iff.mp number
    exact Option.isSome_iff_exists.mpr ⟨value, accepted⟩
  · intro same
    rw [same, number] at get
    exact absurd get (by decide)
  · intro same
    rw [same, number] at request
    exact absurd request (by decide)

end CommandGrammar
