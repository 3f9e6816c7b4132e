import CommandGrammar.Declaration
import Mathlib.Data.List.Nodup
import Mathlib.Data.List.Pairwise
import Mathlib.Tactic.ByContra

/-! Building numbers the symbols of a grammar by their places in preorder. Numbers tell symbols
apart, so every symbol but the root stands among the children of exactly one symbol. -/
namespace CommandGrammar
namespace Symbol

theorem preorder_eq (symbol : Symbol) :
    symbol.preorder = symbol :: preorderAll symbol.children := by
  cases symbol
  rfl

theorem mem_preorder_self (symbol : Symbol) : symbol ∈ symbol.preorder := by
  rw [preorder_eq]
  exact List.mem_cons_self

/-- Each symbol of a tree is the root or a child of one of its symbols, and only once. -/
theorem preorder_perm_children (root : Symbol) :
    root.preorder.Perm (root :: root.preorder.flatMap children) := by
  refine Symbol.rec
    (motive_1 := fun symbol => symbol.preorder.Perm (symbol :: symbol.preorder.flatMap children))
    (motive_2 := fun symbols =>
      (preorderAll symbols).Perm (symbols ++ (preorderAll symbols).flatMap children))
    ?_ ?_ ?_ root
  · intro id kind aliases name description hidden argument below ih
    simpa only [preorder, List.flatMap_cons] using ih.cons _
  · exact .refl _
  · intro first rest tree siblings
    simp only [preorderAll, List.flatMap_append, List.cons_append]
    calc first.preorder ++ preorderAll rest
      _ |>.Perm (first :: first.preorder.flatMap children ++
            (rest ++ (preorderAll rest).flatMap children)) := tree.append siblings
      _ |>.Perm (first :: (rest ++ (first.preorder.flatMap children ++
            (preorderAll rest).flatMap children))) := by
        simpa only [List.cons_append, List.append_assoc] using
          (List.perm_append_comm_assoc _ _ _).cons first

/-- What building guarantees of a grammar: the root is a command, and the number of a symbol is its
place in preorder. -/
structure Numbered (root : Symbol) : Prop where
  isCommand : root.isCommand = true
  ids : root.preorder.map Symbol.id = List.range root.preorder.length

theorem mem_preorder_of_child {root owner child : Symbol} (found : owner ∈ root.preorder)
    (owned : child ∈ owner.children) : child ∈ root.preorder :=
  (preorder_perm_children root).mem_iff.mpr
    (List.mem_cons_of_mem _ (List.mem_flatMap.mpr ⟨owner, found, owned⟩))

namespace Numbered
variable {root owner other symbol child twin : Symbol}

theorem ids_nodup (numbered : Numbered root) : (root.preorder.map Symbol.id).Nodup := by
  rw [numbered.ids]
  exact List.nodup_range

theorem eq_of_id (numbered : Numbered root) (found : symbol ∈ root.preorder)
    (foundTwin : twin ∈ root.preorder) (same : symbol.id = twin.id) : symbol = twin :=
  List.inj_on_of_nodup_map numbered.ids_nodup found foundTwin same

theorem at_id (numbered : Numbered root) (found : symbol ∈ root.preorder) :
    root.at? symbol.id = some symbol := by
  obtain ⟨i, bound, rfl⟩ := List.getElem_of_mem found
  have place := congrArg (·[i]?) numbered.ids
  simp only [List.getElem?_map, List.getElem?_range bound, List.getElem?_eq_getElem bound,
    Option.map_some, Option.some.injEq] at place
  rw [at?, place, List.getElem?_eq_getElem bound]

theorem child_ids_nodup (numbered : Numbered root) :
    (root :: root.preorder.flatMap children |>.map Symbol.id).Nodup :=
  ((preorder_perm_children root).map Symbol.id).nodup_iff.mp numbered.ids_nodup

theorem child_id_ne_root (numbered : Numbered root) (found : owner ∈ root.preorder)
    (owned : child ∈ owner.children) : child.id ≠ root.id := by
  have fresh := (List.nodup_cons.mp numbered.child_ids_nodup).1
  intro same
  exact fresh (same ▸ List.mem_map_of_mem (List.mem_flatMap.mpr ⟨owner, found, owned⟩))

theorem children_ids_nodup (numbered : Numbered root) (found : owner ∈ root.preorder) :
    (owner.children.map Symbol.id).Nodup := by
  have all := (List.nodup_cons.mp numbered.child_ids_nodup).2
  rw [List.map_flatMap] at all
  exact (List.nodup_flatMap.mp all).1 owner found

theorem owner_unique (numbered : Numbered root) (found : owner ∈ root.preorder)
    (foundOther : other ∈ root.preorder) (owned : child ∈ owner.children)
    (ownedTwin : twin ∈ other.children) (same : child.id = twin.id) : owner = other := by
  by_contra distinct
  have all := (List.nodup_cons.mp numbered.child_ids_nodup).2
  rw [List.map_flatMap] at all
  have apart := (List.nodup_flatMap.mp all).2
  have symmetric : Std.Symm (Function.onFun List.Disjoint
      fun symbol : Symbol => symbol.children.map Symbol.id) :=
    ⟨fun _ _ disjoint => List.disjoint_symm disjoint⟩
  have disjoint := apart.forall found foundOther distinct
  exact disjoint (List.mem_map_of_mem owned) (same ▸ List.mem_map_of_mem ownedTwin)

/-- The parent found by number is the symbol that has the child. -/
theorem parentOf_child (numbered : Numbered root) (found : owner ∈ root.preorder)
    (owned : child ∈ owner.children) : root.parentOf? child.id = some owner := by
  cases search : root.parentOf? child.id with
  | none =>
    have missing := List.find?_eq_none.mp search owner found
    simp only [List.any_eq_true, beq_iff_eq, not_exists, not_and] at missing
    exact absurd rfl (missing child owned)
  | some other =>
    have foundOther := List.mem_of_find?_eq_some search
    have has := List.find?_some search
    simp only [List.any_eq_true, beq_iff_eq] at has
    obtain ⟨twin, ownedTwin, same⟩ := has
    rw [numbered.owner_unique found foundOther owned ownedTwin same.symm]

end Numbered
end Symbol

/-- A sequence of steps succeeds if each of them does. -/
theorem bind_eq_ok_iff {ε α β : Type} {step : Except ε α} {next : α → Except ε β} {result : β} :
    (step >>= next) = .ok result ↔ ∃ value, step = .ok value ∧ next value = .ok result := by
  cases step with
  | error fault => simp [bind, Except.bind]
  | ok value => simp [bind, Except.bind]

theorem map_eq_ok_iff {ε α β : Type} {result : Except ε α} {f : α → β} {value : β} :
    result.map f = .ok value ↔ ∃ item, result = .ok item ∧ f item = value := by
  cases result <;> simp [Except.map]

theorem mapError_eq_ok_iff {ε δ α : Type} {result : Except ε α} {wrap : ε → δ} {value : α} :
    result.mapError wrap = .ok value ↔ result = .ok value := by
  cases result <;> simp [Except.mapError]

namespace Heading
variable {heading : Heading} {number : Nat} {kind : SymbolKind} {symbol : Symbol}

theorem symbol_spec (built : heading.symbol number kind = .ok symbol) :
    symbol.id = number ∧ symbol.kind = kind ∧ symbol.children = [] := by
  obtain ⟨argument, -, built⟩ := bind_eq_ok_iff.mp built
  split at built
  · contradiction
  · obtain ⟨-, -, built⟩ := bind_eq_ok_iff.mp built
    obtain ⟨name, -, built⟩ := bind_eq_ok_iff.mp built
    cases built
    exact ⟨rfl, rfl, rfl⟩

end Heading

namespace Declaration

mutual

theorem ids_buildFrom {number : Nat} {symbol : Symbol} (declaration : Declaration)
    (built : declaration.buildFrom number = .ok symbol) :
    symbol.preorder.map Symbol.id = List.range' number declaration.size := by
  cases declaration with
  | option heading =>
    obtain ⟨id, -, childless⟩ := Heading.symbol_spec built
    rw [Symbol.preorder_eq, childless]
    simp only [Symbol.preorderAll, List.map_cons, List.map_nil, id, size, List.range'_one]
  | command heading subcommandRequired strict children =>
    obtain ⟨head, headBuilt, built⟩ := bind_eq_ok_iff.mp built
    obtain ⟨below, childrenBuilt, built⟩ := bind_eq_ok_iff.mp built
    cases built
    obtain ⟨id, -, -⟩ := Heading.symbol_spec headBuilt
    rw [Symbol.preorder_eq, List.map_cons, ids_buildAll children childrenBuilt, id, size,
      Nat.add_comm 1, List.range'_succ]

theorem ids_buildAll {parent : String} {seen : Siblings} {number : Nat} {symbols : List Symbol}
    (declarations : List Declaration)
    (built : buildAll parent seen number declarations = .ok symbols) :
    (Symbol.preorderAll symbols).map Symbol.id = List.range' number (sizeAll declarations) := by
  cases declarations with
  | nil =>
    cases built
    rfl
  | cons declaration rest =>
    obtain ⟨symbol, symbolBuilt, built⟩ := bind_eq_ok_iff.mp built
    obtain ⟨others, -, built⟩ := bind_eq_ok_iff.mp built
    obtain ⟨siblings, siblingsBuilt, built⟩ := bind_eq_ok_iff.mp built
    cases built
    rw [Symbol.preorderAll, List.map_append, ids_buildFrom declaration symbolBuilt,
      ids_buildAll rest siblingsBuilt, List.range'_append_1, sizeAll]

end

/-- The grammar of a command. -/
theorem numbered_build {heading : Heading} {subcommandRequired : Option Bool} {strict : Bool}
    {children : List Declaration} {root : Symbol}
    (built : (command heading subcommandRequired strict children).build = .ok root) :
    root.Numbered where
  isCommand := by
    obtain ⟨head, headBuilt, built⟩ := bind_eq_ok_iff.mp built
    obtain ⟨below, -, built⟩ := bind_eq_ok_iff.mp built
    cases built
    obtain ⟨-, kind, -⟩ := Heading.symbol_spec headBuilt
    simp only [Symbol.isCommand, kind]
  ids := by
    have ids := ids_buildFrom _ built
    have length := congrArg List.length ids
    rw [List.length_map, List.length_range'] at length
    rw [ids, length, List.range_eq_range']

/-- A tool with an option that may do without a value, one with a default, and a command. -/
def sample : Declaration :=
  .command { aliases := ["tool"] } none true
    [.option
      { aliases := ["-n", "--number"], argument := { type := some .int, arity := some ⟨0, 1⟩ } },
      .option { aliases := ["-d"], argument := { type := some .int, default := some (.int 3) } },
      .command { aliases := ["run"], argument := { arity := some ⟨0, 2⟩ } } none true
        [.option { aliases := ["-v"] }]]

end Declaration

/-- No path names anything. -/
def Files.absent : Files where
  isDirectory _ := .error .notFound
  read _ := .error .notFound

end CommandGrammar
