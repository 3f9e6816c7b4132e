import CommandGrammar.Proofs.Acceptance
import Mathlib.Data.List.Forall2

/-! The grammar that a declaration yields. It has one symbol for each command and option declared,
numbered in preorder, and its links between parents and children agree. Siblings share no name, so
a name means at most one of them. -/
namespace CommandGrammar

section Apart
variable {α : Type} {p : α → Bool} {items : List α} {a b : α}

/-- Of items no two of which pass a test together, at most one passes. -/
theorem countP_le_one_of_apart (apart : items.Pairwise fun a b => ¬ (p a = true ∧ p b = true)) :
    items.countP p ≤ 1 := by
  induction apart with
  | nil => exact Nat.zero_le 1
  | @cons first rest alone _ ih =>
    by_cases passes : p first = true
    · have others : rest.countP p = 0 :=
        List.countP_eq_zero.mpr fun other member also => alone other member ⟨passes, also⟩
      exact Nat.le_of_eq (by rw [List.countP_cons_of_pos passes, others])
    · rwa [List.countP_cons_of_neg passes]

theorem eq_of_apart (apart : items.Pairwise fun a b => ¬ (p a = true ∧ p b = true))
    (first : a ∈ items) (second : b ∈ items) (passes : p a = true) (also : p b = true) :
    a = b := by
  by_contra distinct
  have symmetric : Std.Symm fun a b => ¬ (p a = true ∧ p b = true) :=
    ⟨fun _ _ apart both => apart both.symm⟩
  exact apart.forall first second distinct ⟨passes, also⟩

theorem find_eq_some_iff_of_apart
    (apart : items.Pairwise fun a b => ¬ (p a = true ∧ p b = true)) :
    items.find? p = some a ↔ a ∈ items ∧ p a = true := by
  constructor
  · exact fun found => ⟨List.mem_of_find?_eq_some found, List.find?_some found⟩
  · rintro ⟨member, passes⟩
    obtain ⟨other, found⟩ := Option.isSome_iff_exists.mp
      (List.find?_isSome.mpr ⟨a, member, passes⟩)
    have same := eq_of_apart apart (List.mem_of_find?_eq_some found) member
      (List.find?_some found) passes
    rw [found, same]

end Apart

namespace Symbol
variable {root symbol : Symbol}

/-- The symbols of a subtree stand together. -/
theorem preorder_segment (root : Symbol) : ∀ symbol ∈ root.preorder,
    ∃ before after, root.preorder = before ++ symbol.preorder ++ after := by
  refine Symbol.rec
    (motive_1 := fun root => ∀ symbol ∈ root.preorder,
      ∃ before after, root.preorder = before ++ symbol.preorder ++ after)
    (motive_2 := fun roots => ∀ symbol ∈ preorderAll roots,
      ∃ before after, preorderAll roots = before ++ symbol.preorder ++ after)
    ?_ ?_ ?_ root
  · intro id kind aliases name description hidden argument children below symbol member
    rcases List.mem_cons.mp member with rfl | member
    · exact ⟨[], [], by rw [List.nil_append, List.append_nil]⟩
    · obtain ⟨before, after, split⟩ := below symbol member
      let first : Symbol := ⟨id, kind, aliases, name, description, hidden, argument, children⟩
      refine ⟨first :: before, after, ?_⟩
      rw [preorder, split, List.cons_append, List.cons_append]
  · exact fun _ member => absurd member List.not_mem_nil
  · intro first rest inFirst inRest symbol member
    rw [preorderAll]
    rcases List.mem_append.mp member with member | member
    · obtain ⟨before, after, split⟩ := inFirst symbol member
      exact ⟨before, after ++ preorderAll rest, by rw [split]; simp only [List.append_assoc]⟩
    · obtain ⟨before, after, split⟩ := inRest symbol member
      exact ⟨first.preorder ++ before, after, by rw [split]; simp only [List.append_assoc]⟩

theorem sublist_preorderAll (symbols : List Symbol) : symbols.Sublist (preorderAll symbols) := by
  induction symbols with
  | nil => exact List.Sublist.refl []
  | cons first rest ih =>
    rw [preorderAll, preorder_eq, List.cons_append]
    exact (ih.trans (List.sublist_append_right _ _)).cons_cons first

namespace Numbered

/-- A subtree begins at the number of its first symbol. -/
theorem segment_at_id (numbered : root.Numbered) {before after : List Symbol}
    (split : root.preorder = before ++ symbol.preorder ++ after) : before.length = symbol.id := by
  have here : root.preorder[before.length]? = some symbol := by
    rw [split, preorder_eq, List.append_assoc, List.getElem?_append_right (Nat.le_refl _),
      Nat.sub_self]
    rfl
  have bound := (List.getElem?_eq_some_iff.mp here).1
  have place := congrArg (·[before.length]?) numbered.ids
  simp only [List.getElem?_map, here, Option.map_some, List.getElem?_range bound,
    Option.some.injEq] at place
  exact place.symm

/-- A symbol comes in front of its children, and they keep their order. -/
theorem children_ascending (numbered : root.Numbered) (found : symbol ∈ root.preorder) :
    (symbol :: symbol.children).Pairwise fun earlier later => earlier.id < later.id := by
  obtain ⟨before, after, split⟩ := preorder_segment root symbol found
  have all : (root.preorder.map Symbol.id).Pairwise (· < ·) := by
    rw [numbered.ids]
    exact List.pairwise_lt_range
  rw [List.pairwise_map, split] at all
  refine all.sublist (List.Sublist.trans ?_ ((List.sublist_append_right before _).trans
    (List.sublist_append_left _ after)))
  rw [preorder_eq]
  exact (sublist_preorderAll symbol.children).cons_cons symbol

theorem parentOf_eq_some_iff {owner child : Symbol} (numbered : root.Numbered)
    (found : owner ∈ root.preorder) (foundChild : child ∈ root.preorder) :
    root.parentOf? child.id = some owner ↔ child ∈ owner.children := by
  constructor
  · intro parent
    have has := List.find?_some parent
    simp only [List.any_eq_true, beq_iff_eq] at has
    obtain ⟨twin, owned, same⟩ := has
    rwa [numbered.eq_of_id foundChild (mem_preorder_of_child found owned) same.symm]
  · exact numbered.parentOf_child found

theorem parentOf_root (numbered : root.Numbered) : root.parentOf? root.id = none := by
  apply List.find?_eq_none.mpr
  intro owner found
  simp only [List.any_eq_true, beq_iff_eq, not_exists, not_and]
  exact fun child owned => numbered.child_id_ne_root found owned

theorem owned_or_root (numbered : root.Numbered) (found : symbol ∈ root.preorder) :
    symbol = root ∨ ∃ owner ∈ root.preorder, root.parentOf? symbol.id = some owner := by
  rcases List.mem_cons.mp ((preorder_perm_children root).mem_iff.mp found) with same | owned
  · exact .inl same
  · obtain ⟨owner, foundOwner, owned⟩ := List.mem_flatMap.mp owned
    exact .inr ⟨owner, foundOwner, numbered.parentOf_child foundOwner owned⟩

end Numbered

theorem isCalled_iff {name : String} :
    symbol.isCalled name = true ↔ Alias.bare name ∈ symbol.aliases.map Alias.bare := by
  simp [isCalled]

theorem isCalled_of_answersTo {raw : String} (answers : symbol.answersTo raw = true) :
    symbol.isCalled raw = true :=
  isCalled_iff.mpr (List.mem_map_of_mem (List.contains_iff_mem.mp answers))

end Symbol

namespace Declaration
variable {declaration : Declaration} {root symbol : Symbol}

/-- All that a symbol takes over from the command or option that declares it. -/
structure Describes (declaration : Declaration) (symbol : Symbol) : Prop where
  kind : symbol.kind = declaration.kind
  aliases : symbol.aliases = declaration.heading.aliases
  name : symbol.name = declaration.heading.givenName
  description : symbol.description = declaration.heading.description
  hidden : symbol.hidden = declaration.heading.hidden
  argument : symbol.argument = declaration.heading.argument.settle declaration.isCommand

/-- The symbol is described, and so is each of its children in its turn. -/
structure Shapes (declaration : Declaration) (symbol : Symbol) : Prop where
  itself : declaration.Describes symbol
  children : List.Forall₂ Describes declaration.children symbol.children

theorem describes_draw (declaration : Declaration) (number : Nat) :
    declaration.Describes (declaration.draw number) := by
  rw [draw_eq]
  exact ⟨rfl, rfl, rfl, rfl, rfl,
    congrArg declaration.heading.argument.settle declaration.kind_ne_option⟩

theorem describes_drawAll (declarations : List Declaration) (number : Nat) :
    List.Forall₂ Describes declarations (drawAll number declarations) := by
  induction declarations generalizing number with
  | nil => exact .nil
  | cons declaration rest ih => exact .cons (declaration.describes_draw number) (ih _)

theorem shapes_draw (declaration : Declaration) (number : Nat) :
    declaration.Shapes (declaration.draw number) where
  itself := declaration.describes_draw number
  children := by
    rw [draw_eq]
    exact describes_drawAll _ _

mutual

theorem shapes_preorder (declaration : Declaration) (number : Nat) :
    List.Forall₂ Shapes declaration.preorder (declaration.draw number).preorder := by
  have here := declaration.shapes_draw number
  rw [preorder_eq, Symbol.preorder_eq]
  refine .cons here ?_
  cases declaration with
  | option heading => exact .nil
  | command heading subcommandRequired strict children =>
    exact shapes_preorderAll children (number + 1)

theorem shapes_preorderAll (declarations : List Declaration) (number : Nat) :
    List.Forall₂ Shapes (preorderAll declarations)
      (Symbol.preorderAll (drawAll number declarations)) := by
  cases declarations with
  | nil => exact .nil
  | cons declaration rest =>
    exact List.rel_append (shapes_preorder declaration number)
      (shapes_preorderAll rest (number + declaration.size))

end

/-- Every symbol of a grammar comes from a sound node of its declaration. -/
theorem shaped_of_built (built : declaration.build = .ok root) (found : symbol ∈ root.preorder) :
    ∃ node ∈ declaration.preorder, node.Sound ∧ node.Shapes symbol := by
  obtain ⟨sound, rfl⟩ := build_eq_ok_iff.mp built
  obtain ⟨i, bound, rfl⟩ := List.getElem_of_mem found
  have shapes := List.forall₂_iff_get.mp (declaration.shapes_preorder 0)
  have within : i < declaration.preorder.length := shapes.1 ▸ bound
  have member := List.getElem_mem within
  exact ⟨_, member, sound _ member, shapes.2 i within bound⟩

theorem arity_of_built (built : declaration.build = .ok root) (found : symbol ∈ root.preorder) :
    symbol.arity.min ≤ symbol.arity.max := by
  obtain ⟨node, -, sound, shapes⟩ := shaped_of_built built found
  rw [Symbol.arity, shapes.itself.argument]
  exact sound.heading.arity

theorem leaf_of_built (built : declaration.build = .ok root) (found : symbol ∈ root.preorder)
    (isOption : symbol.isOption = true) : symbol.children = [] := by
  obtain ⟨node, -, -, shapes⟩ := shaped_of_built built found
  have kind := shapes.itself.kind
  cases node with
  | option heading => exact List.forall₂_nil_left_iff.mp shapes.children
  | command => simp [Symbol.isOption, Symbol.isCommand, kind, Declaration.kind] at isOption

/-- No name means two siblings. -/
theorem apart_of_built (built : declaration.build = .ok root) (found : symbol ∈ root.preorder)
    (name : String) : symbol.children.Pairwise fun first second =>
      ¬ (first.isCalled name = true ∧ second.isCalled name = true) := by
  obtain ⟨node, -, sound, shapes⟩ := shaped_of_built built found
  have aliases : node.children.map bareAliases =
      symbol.children.map fun child => child.aliases.map Alias.bare := by
    rw [← List.forall₂_eq_eq_eq, List.forall₂_map_left_iff, List.forall₂_map_right_iff]
    exact shapes.children.imp fun _ _ describes => by rw [bareAliases, describes.aliases]
  have apart := List.pairwise_map.mpr sound.apart
  rw [aliases, List.pairwise_map] at apart
  refine apart.imp ?_
  rintro first second disjoint ⟨called, calledTwin⟩
  exact disjoint (Symbol.isCalled_iff.mp called) (Symbol.isCalled_iff.mp calledTwin)

theorem answering_apart (built : declaration.build = .ok root) (found : symbol ∈ root.preorder)
    (raw : String) {test : Symbol → Bool} : symbol.children.Pairwise fun first second =>
      ¬ ((test first && first.answersTo raw) = true ∧
        (test second && second.answersTo raw) = true) := by
  refine (apart_of_built built found raw).imp ?_
  rintro first second apart ⟨passes, passesTwin⟩
  rw [Bool.and_eq_true] at passes passesTwin
  exact apart ⟨Symbol.isCalled_of_answersTo passes.2, Symbol.isCalled_of_answersTo passesTwin.2⟩

theorem subcommand_eq_some_iff {child : Symbol} (built : declaration.build = .ok root)
    (found : symbol ∈ root.preorder) (raw : String) :
    symbol.subcommand? raw = some child ↔
      child ∈ symbol.children ∧ child.isCommand = true ∧ child.answersTo raw = true := by
  rw [Symbol.subcommand?, find_eq_some_iff_of_apart (answering_apart built found raw),
    Bool.and_eq_true]

theorem option_eq_some_iff {child : Symbol} (built : declaration.build = .ok root)
    (found : symbol ∈ root.preorder) (raw : String) :
    symbol.option? raw = some child ↔
      child ∈ symbol.children ∧ child.isOption = true ∧ child.answersTo raw = true := by
  rw [Symbol.option?, find_eq_some_iff_of_apart (answering_apart built found raw),
    Bool.and_eq_true]

/-- The option meant inside nested commands is that of the innermost command that has one. -/
theorem optionIn_eq_some_iff {commands : List Symbol} {option : Symbol}
    (built : declaration.build = .ok root) (found : ∀ command ∈ commands, command ∈ root.preorder)
    (raw : String) :
    Symbol.optionIn? commands raw = some option ↔
      ∃ inner command outer, commands = inner ++ command :: outer ∧
        (option ∈ command.children ∧ option.isOption = true ∧ option.answersTo raw = true) ∧
        ∀ closer ∈ inner, ∀ child ∈ closer.children,
          ¬ (child.isOption = true ∧ child.answersTo raw = true) := by
  rw [Symbol.optionIn?, List.findSome?_eq_some_iff]
  constructor
  · rintro ⟨inner, command, outer, rfl, meant, passed⟩
    have onPath := found command (List.mem_append_right _ List.mem_cons_self)
    refine ⟨inner, command, outer, rfl, (option_eq_some_iff built onPath raw).mp meant, ?_⟩
    intro closer member child owned fits
    have none := List.find?_eq_none.mp (passed closer member) child owned
    exact none (Bool.and_eq_true _ _ ▸ fits)
  · rintro ⟨inner, command, outer, rfl, meant, passed⟩
    have onPath := found command (List.mem_append_right _ List.mem_cons_self)
    refine ⟨inner, command, outer, rfl, (option_eq_some_iff built onPath raw).mpr meant, ?_⟩
    intro closer member
    refine List.find?_eq_none.mpr fun child owned fits => ?_
    exact passed closer member child owned (Bool.and_eq_true _ _ ▸ fits)

/-- The grammar that a declaration yields. -/
structure Yields (declaration : Declaration) (root : Symbol) : Prop where
  /-- One symbol for each node, in the same order. -/
  symbols : List.Forall₂ Shapes declaration.preorder root.preorder
  numbers : root.id = 0 ∧ ∀ i symbol, root.at? i = some symbol → symbol.id = i
  /-- A subtree takes up the numbers from that of its first symbol on. -/
  segments : ∀ symbol ∈ root.preorder, ∃ before after,
    root.preorder = before ++ symbol.preorder ++ after ∧ before.length = symbol.id
  ascending : ∀ symbol ∈ root.preorder,
    (symbol :: symbol.children).Pairwise fun earlier later => earlier.id < later.id
  rootless : root.parentOf? root.id = none
  owned : ∀ symbol ∈ root.preorder, symbol = root ∨
    ∃ owner ∈ root.preorder, root.parentOf? symbol.id = some owner
  inverse : ∀ owner ∈ root.preorder, ∀ child ∈ root.preorder,
    root.parentOf? child.id = some owner ↔ child ∈ owner.children
  leaves : ∀ symbol ∈ root.preorder, symbol.isOption = true → symbol.children = []
  /-- Whatever its decoration, a name belongs to one of the siblings at most. -/
  unambiguous : ∀ command ∈ root.preorder, ∀ name,
    command.children.countP (·.isCalled name) ≤ 1
  subcommand : ∀ command ∈ root.preorder, ∀ raw child, command.subcommand? raw = some child ↔
    child ∈ command.children ∧ child.isCommand = true ∧ child.answersTo raw = true
  option : ∀ commands, (∀ command ∈ commands, command ∈ root.preorder) → ∀ raw option,
    Symbol.optionIn? commands raw = some option ↔
      ∃ inner command outer, commands = inner ++ command :: outer ∧
        (option ∈ command.children ∧ option.isOption = true ∧ option.answersTo raw = true) ∧
        ∀ closer ∈ inner, ∀ child ∈ closer.children,
          ¬ (child.isOption = true ∧ child.answersTo raw = true)

theorem accepts_exactly_sound (heading : Heading) (subcommandRequired : Option Bool)
    (strict : Bool) (children : List Declaration) :
    ((∃ root, (command heading subcommandRequired strict children).build = .ok root) ↔
      ∀ node ∈ (command heading subcommandRequired strict children).preorder, node.Sound) ∧
    ∀ root, (command heading subcommandRequired strict children).build = .ok root →
      (command heading subcommandRequired strict children).Yields root := by
  constructor
  · constructor
    · rintro ⟨root, built⟩
      exact (build_eq_ok_iff.mp built).1
    · exact fun sound => ⟨_, build_eq_ok_iff.mpr ⟨sound, rfl⟩⟩
  · intro root built
    have numbered := numbered_build built
    constructor
    case symbols =>
      obtain ⟨-, rfl⟩ := build_eq_ok_iff.mp built
      exact shapes_preorder _ 0
    case numbers =>
      have identify : ∀ i symbol, root.at? i = some symbol → symbol.id = i := by
        intro i symbol found
        have same := numbered.at_id (List.mem_of_getElem? found)
        have bound := (List.getElem?_eq_some_iff.mp same).1
        have distinct : root.preorder.Nodup := numbered.ids_nodup.of_map _
        exact (List.getElem?_inj bound distinct).mp (same.trans found.symm)
      refine ⟨identify 0 root ?_, identify⟩
      rw [Symbol.at?, Symbol.preorder_eq]
      rfl
    case segments =>
      intro symbol found
      obtain ⟨before, after, split⟩ := Symbol.preorder_segment root symbol found
      exact ⟨before, after, split, numbered.segment_at_id split⟩
    case ascending => exact fun symbol found => numbered.children_ascending found
    case rootless => exact numbered.parentOf_root
    case owned => exact fun symbol found => numbered.owned_or_root found
    case inverse =>
      exact fun owner found child foundChild => numbered.parentOf_eq_some_iff found foundChild
    case leaves => exact fun symbol found isOption => leaf_of_built built found isOption
    case unambiguous =>
      exact fun command found name => countP_le_one_of_apart (apart_of_built built found name)
    case subcommand => exact fun command found raw child => subcommand_eq_some_iff built found raw
    case option => exact fun commands found raw option => optionIn_eq_some_iff built found raw

theorem accepts_exactly_sound_sample : ∃ root, sample.build = .ok root ∧
    (∀ node ∈ sample.preorder, node.Sound) ∧ sample.Yields root := by
  obtain ⟨root, built⟩ : ∃ root, sample.build = .ok root := ⟨_, rfl⟩
  obtain ⟨sound, yields⟩ := accepts_exactly_sound { aliases := ["tool"] } none true sample.children
  exact ⟨root, built, sound.mp ⟨root, built⟩, yields root built⟩

end Declaration
end CommandGrammar
