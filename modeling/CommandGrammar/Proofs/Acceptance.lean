import CommandGrammar.Proofs.Numbering

/-! Which declarations build, and what they build. A build checks headings and siblings as it goes
and otherwise only copies and numbers, so it is a judgement on the nodes of the declaration and a
construction that never fails. -/
namespace CommandGrammar
open Text

namespace Alias

theorem bareChars_suffix (cs : List Char) : bareChars cs <:+ cs := by
  unfold bareChars
  split
  · exact ⟨['-', '-'], rfl⟩
  · exact ⟨['-'], rfl⟩
  · exact ⟨['/'], rfl⟩
  · exact List.suffix_refl cs

/-- What is left of a blank text without its decoration is blank. -/
theorem allBlank_bare {raw : String} (blank : allBlank raw = true) :
    allBlank (bare raw) = true := by
  rw [allBlank, List.all_eq_true] at blank
  rw [allBlank, bare, String.toList_ofList, List.all_eq_true]
  exact fun c member => blank c ((bareChars_suffix raw.toList).mem member)

end Alias

namespace Heading
variable {heading : Heading} {number : Nat} {kind : SymbolKind} {symbol : Symbol}

/-- The aliases tell the symbol apart from others, and its name and arity make sense. -/
structure Sound (heading : Heading) (forCommand : Bool) : Prop where
  named : heading.aliases ≠ []
  aliases : ∀ raw ∈ heading.aliases, trim raw = raw ∧ allBlank (Alias.bare raw) = false
  apart : (heading.aliases.map Alias.bare).Nodup
  name : ∀ name, heading.name = some name → allBlank name = false ∧ Alias.bare name = name
  arity : (heading.argument.effectiveArity forCommand).min ≤
    (heading.argument.effectiveArity forCommand).max

/-- The name given, or else the one that the aliases give. -/
def givenName (heading : Heading) : String :=
  heading.name.getD (Alias.defaultName heading.aliases)

/-- The symbol of a heading, whether or not the heading is sound. -/
def draw (heading : Heading) (number : Nat) (kind : SymbolKind) : Symbol :=
  ⟨number, kind, heading.aliases, heading.givenName, heading.description, heading.hidden,
    heading.argument.settle (kind ≠ .option), []⟩

theorem settledArgument_eq_ok_iff {forCommand : Bool} {argument : Argument} :
    heading.settledArgument forCommand = .ok argument ↔
      (heading.argument.effectiveArity forCommand).min ≤
          (heading.argument.effectiveArity forCommand).max ∧
        argument = heading.argument.settle forCommand := by
  simp only [settledArgument]
  split
  · rename_i crossed
    simp only [reduceCtorEq, false_iff, not_and]
    exact fun ordered => absurd ordered (Nat.not_le.mpr crossed)
  · rename_i ordered
    rw [Except.ok.injEq, eq_comm]
    exact (and_iff_right (Nat.not_lt.mp ordered)).symm

theorem checkAliases_eq_ok_iff {first : String} {seen aliases : List String} :
    checkAliases first seen aliases = .ok () ↔
      (∀ raw ∈ aliases, trim raw = raw ∧ allBlank (Alias.bare raw) = false) ∧
        (aliases.map Alias.bare).Nodup ∧ ∀ raw ∈ aliases, Alias.bare raw ∉ seen := by
  induction aliases generalizing seen with
  | nil => simp [checkAliases]
  | cons raw rest ih =>
    rw [checkAliases, List.forall_mem_cons, List.forall_mem_cons, List.map_cons, List.nodup_cons]
    split
    · rename_i edges
      simp only [reduceCtorEq, false_iff]
      rintro ⟨⟨⟨trimmed, -⟩, -⟩, -⟩
      exact edges.1 trimmed
    · rename_i edges
      split
      · rename_i blank
        simp [blank]
      · rename_i visible
        -- A blank alias would be blank without decoration, too, so its edges count.
        have trimmed : trim raw = raw := by
          by_contra untrimmed
          refine edges ⟨untrimmed, ?_⟩
          rw [Bool.not_eq_true']
          exact Bool.eq_false_iff.mpr fun blank => visible (Alias.allBlank_bare blank)
        split
        · rename_i repeated
          simp only [reduceCtorEq, false_iff]
          rintro ⟨-, -, new, -⟩
          exact new (List.contains_iff_mem.mp repeated)
        · rename_i new
          rw [List.contains_iff_mem] at new
          rw [ih]
          simp only [List.mem_cons, not_or]
          constructor
          · rintro ⟨fit, distinct, unseen⟩
            refine ⟨⟨⟨trimmed, Bool.eq_false_iff.mpr visible⟩, fit⟩, ⟨?_, distinct⟩, new, ?_⟩
            · rintro twin
              obtain ⟨other, member, same⟩ := List.mem_map.mp twin
              exact (unseen other member).1 same
            · exact fun other member => (unseen other member).2
          · rintro ⟨⟨-, fit⟩, ⟨alone, distinct⟩, -, unseen⟩
            refine ⟨fit, distinct, fun other member => ⟨?_, unseen other member⟩⟩
            exact fun same => alone (same ▸ List.mem_map_of_mem member)

theorem checkName_eq_ok_iff {name : String} :
    heading.checkName = .ok name ↔
      (∀ given, heading.name = some given → allBlank given = false ∧ Alias.bare given = given) ∧
        name = heading.givenName := by
  unfold checkName givenName
  cases heading.name with
  | none =>
    rw [Except.ok.injEq, eq_comm]
    exact (and_iff_right fun _ given => by contradiction).symm
  | some given =>
    simp only [Option.some.injEq, forall_eq', Option.getD_some]
    split
    · rename_i blank
      simp [blank]
    · rename_i visible
      split
      · rename_i decorated
        simp only [reduceCtorEq, false_iff]
        rintro ⟨⟨-, plain⟩, -⟩
        exact decorated plain
      · rename_i plain
        rw [Except.ok.injEq, eq_comm]
        exact (and_iff_right ⟨Bool.eq_false_iff.mpr visible, Classical.not_not.mp plain⟩).symm

/-- A heading gets a symbol exactly if it is sound, and the symbol is drawn from it. -/
theorem symbol_eq_ok_iff :
    heading.symbol number kind = .ok symbol ↔
      heading.Sound (kind ≠ .option) ∧ symbol = heading.draw number kind := by
  rw [Heading.symbol, bind_eq_ok_iff]
  simp only [settledArgument_eq_ok_iff]
  constructor
  · rintro ⟨argument, ⟨ordered, rfl⟩, built⟩
    cases listed : heading.aliases with
    | nil =>
      simp only [listed, reduceCtorEq] at built
    | cons first rest =>
      simp only [listed] at built
      rw [bind_eq_ok_iff] at built
      obtain ⟨⟨⟩, checked, built⟩ := built
      rw [bind_eq_ok_iff] at built
      obtain ⟨name, nameChecked, built⟩ := built
      obtain ⟨fit, distinct, -⟩ := checkAliases_eq_ok_iff.mp checked
      obtain ⟨fitName, rfl⟩ := checkName_eq_ok_iff.mp nameChecked
      cases built
      rw [← listed] at fit distinct
      refine ⟨⟨?_, fit, distinct, fitName, ordered⟩, ?_⟩
      · exact listed ▸ List.cons_ne_nil first rest
      · rw [draw, listed]
  · rintro ⟨sound, rfl⟩
    refine ⟨_, ⟨sound.arity, rfl⟩, ?_⟩
    obtain ⟨first, rest, listed⟩ := List.exists_cons_of_ne_nil sound.named
    have checked : checkAliases first [] heading.aliases = .ok () :=
      checkAliases_eq_ok_iff.mpr ⟨sound.aliases, sound.apart, fun _ _ => List.not_mem_nil⟩
    have nameChecked : heading.checkName = .ok heading.givenName :=
      checkName_eq_ok_iff.mpr ⟨sound.name, rfl⟩
    simp only [listed]
    rw [← listed, checked, nameChecked]
    rfl

end Heading

/-- Siblings may be added as long as no bare alias comes twice. -/
theorem Siblings.add_eq_ok_iff {parent name : String} {aliases : List String}
    {seen after : Siblings} :
    Siblings.add parent name aliases seen = .ok after ↔
      (aliases.map Alias.bare).Nodup ∧
        (∀ bare ∈ aliases.map Alias.bare, bare ∉ seen.map Prod.fst) ∧
        after = (aliases.map fun raw => (Alias.bare raw, name)).reverse ++ seen := by
  induction aliases generalizing seen with
  | nil =>
    simp [Siblings.add, eq_comm]
  | cons raw rest ih =>
    rw [Siblings.add]
    cases known : seen.lookup (Alias.bare raw) with
    | some owner =>
      simp only [reduceCtorEq, false_iff]
      rintro ⟨-, unseen, -⟩
      refine unseen (Alias.bare raw) List.mem_cons_self ?_
      obtain ⟨early, late, rfl, -⟩ := List.lookup_eq_some_iff.mp known
      simp
    | none =>
      have new : Alias.bare raw ∉ seen.map Prod.fst := by
        intro member
        obtain ⟨entry, listed, same⟩ := List.mem_map.mp member
        have differs := List.lookup_eq_none_iff.mp known entry listed
        simp [same] at differs
      rw [ih, List.map_cons (f := Alias.bare), List.nodup_cons, List.forall_mem_cons]
      simp only [List.map_cons, List.mem_cons, not_or, List.reverse_cons, List.append_assoc,
        List.singleton_append]
      constructor
      · rintro ⟨distinct, unseen, rfl⟩
        refine ⟨⟨fun twin => (unseen _ twin).1 rfl, distinct⟩, ⟨new, ?_⟩, rfl⟩
        exact fun bare member => (unseen bare member).2
      · rintro ⟨⟨alone, distinct⟩, ⟨-, unseen⟩, rfl⟩
        refine ⟨distinct, fun bare member => ⟨?_, unseen bare member⟩, rfl⟩
        rintro rfl
        exact alone member

namespace Declaration

def heading : Declaration → Heading
  | option heading => heading
  | command heading .. => heading

def children : Declaration → List Declaration
  | option _ => []
  | command _ _ _ children => children

/-- A command requires a subcommand if it says so, or if it says nothing and has one. -/
def kind : Declaration → SymbolKind
  | option _ => .option
  | command _ subcommandRequired strict children =>
    .command (subcommandRequired.getD (children.any isCommand)) strict

def bareAliases (declaration : Declaration) : List String :=
  declaration.heading.aliases.map Alias.bare

theorem kind_ne_option (declaration : Declaration) :
    decide (declaration.kind ≠ .option) = declaration.isCommand := by
  cases declaration <;> rfl

mutual

/-- The commands and options declared, each in front of its children. -/
def preorder : Declaration → List Declaration
  | option heading => [option heading]
  | command heading subcommandRequired strict children =>
    command heading subcommandRequired strict children :: preorderAll children

def preorderAll : List Declaration → List Declaration
  | [] => []
  | declaration :: rest => declaration.preorder ++ preorderAll rest

end

theorem preorder_eq (declaration : Declaration) :
    declaration.preorder = declaration :: preorderAll declaration.children := by
  cases declaration <;> rfl

/-- A command or option that may stand in a grammar: its heading is sound, and no two of its
children could be meant by one name. -/
structure Sound (declaration : Declaration) : Prop where
  heading : declaration.heading.Sound declaration.isCommand
  apart : declaration.children.Pairwise fun first second =>
    first.bareAliases.Disjoint second.bareAliases

mutual

/-- The symbols of a declaration numbered from the given number on, whether or not it is sound. -/
def draw (number : Nat) : Declaration → Symbol
  | option heading => heading.draw number .option
  | command heading subcommandRequired strict children =>
    { heading.draw number (command heading subcommandRequired strict children).kind with
      children := drawAll (number + 1) children }

def drawAll (number : Nat) : List Declaration → List Symbol
  | [] => []
  | declaration :: rest => declaration.draw number :: drawAll (number + declaration.size) rest

end

theorem draw_eq (declaration : Declaration) (number : Nat) :
    declaration.draw number =
      { declaration.heading.draw number declaration.kind with
        children := drawAll (number + 1) declaration.children } := by
  cases declaration <;> rfl

theorem sound_iff {declaration : Declaration} :
    declaration.Sound ↔ declaration.heading.Sound declaration.isCommand ∧
      declaration.children.Pairwise fun first second =>
        first.bareAliases.Disjoint second.bareAliases :=
  ⟨fun sound => ⟨sound.heading, sound.apart⟩, fun ⟨heading, apart⟩ => ⟨heading, apart⟩⟩

mutual

theorem buildFrom_eq_ok_iff {number : Nat} {symbol : Symbol} (declaration : Declaration) :
    declaration.buildFrom number = .ok symbol ↔
      (∀ node ∈ declaration.preorder, node.Sound) ∧ symbol = declaration.draw number := by
  rw [preorder_eq, List.forall_mem_cons, sound_iff, draw_eq]
  cases declaration with
  | option heading =>
    simp only [buildFrom, Heading.symbol_eq_ok_iff, preorderAll, children, List.Pairwise.nil,
      List.not_mem_nil, false_implies, implies_true, and_true, Declaration.heading, isCommand, kind,
      drawAll]
    rfl
  | command heading subcommandRequired strict below =>
    rw [buildFrom, bind_eq_ok_iff]
    simp only [Heading.symbol_eq_ok_iff, bind_eq_ok_iff, buildAll_eq_ok_iff below, children,
      Declaration.heading, isCommand, kind]
    constructor
    · rintro ⟨head, ⟨sound, rfl⟩, symbols, ⟨soundBelow, apart, -, rfl⟩, built⟩
      cases built
      exact ⟨⟨⟨sound, apart⟩, soundBelow⟩, rfl⟩
    · rintro ⟨⟨⟨sound, apart⟩, soundBelow⟩, rfl⟩
      refine ⟨_, ⟨sound, rfl⟩, _, ⟨soundBelow, apart, ?_, rfl⟩, rfl⟩
      exact fun _ _ _ _ => List.not_mem_nil

theorem buildAll_eq_ok_iff {parent : String} {seen : Siblings} {number : Nat}
    {symbols : List Symbol} (declarations : List Declaration) :
    buildAll parent seen number declarations = .ok symbols ↔
      (∀ node ∈ preorderAll declarations, node.Sound) ∧
        declarations.Pairwise (fun first second =>
          first.bareAliases.Disjoint second.bareAliases) ∧
        (∀ declaration ∈ declarations, ∀ bare ∈ declaration.bareAliases,
          bare ∉ seen.map Prod.fst) ∧
        symbols = drawAll number declarations := by
  cases declarations with
  | nil =>
    simp [buildAll, preorderAll, drawAll, eq_comm]
  | cons declaration rest =>
    rw [buildAll, bind_eq_ok_iff]
    simp only [buildFrom_eq_ok_iff declaration, bind_eq_ok_iff, Siblings.add_eq_ok_iff,
      buildAll_eq_ok_iff rest]
    have aliases : (declaration.draw number).aliases.map Alias.bare = declaration.bareAliases := by
      rw [draw_eq]
      rfl
    rw [preorderAll, List.forall_mem_append, List.pairwise_cons, List.forall_mem_cons, drawAll]
    constructor
    · rintro ⟨first, ⟨sound, rfl⟩, met, ⟨-, unseen, rfl⟩, others, ⟨soundRest, apart, new, rfl⟩,
        built⟩
      cases built
      rw [aliases] at unseen
      have apartFirst : ∀ other ∈ rest, ∀ bare ∈ other.bareAliases,
          bare ∉ declaration.bareAliases ∧ bare ∉ seen.map Prod.fst := by
        intro other member bare named
        have fresh := new other member bare named
        rw [List.map_append, List.map_reverse, List.map_map, List.mem_append, not_or,
          List.mem_reverse] at fresh
        exact ⟨aliases ▸ fresh.1, fresh.2⟩
      refine ⟨⟨sound, soundRest⟩, ⟨?_, apart⟩, ⟨unseen, ?_⟩, rfl⟩
      · exact fun other member bare own named => (apartFirst other member bare named).1 own
      · exact fun other member bare named => (apartFirst other member bare named).2
    · rintro ⟨⟨sound, soundRest⟩, ⟨apartFirst, apart⟩, ⟨unseen, unseenRest⟩, rfl⟩
      have distinct : declaration.bareAliases.Nodup :=
        (sound declaration (preorder_eq declaration ▸ List.mem_cons_self)).heading.apart
      rw [← aliases] at unseen distinct
      refine ⟨_, ⟨sound, rfl⟩, _, ⟨distinct, unseen, rfl⟩, _, ⟨soundRest, apart, ?_, rfl⟩, rfl⟩
      intro other member bare named
      rw [List.map_append, List.map_reverse, List.map_map, List.mem_append, not_or,
        List.mem_reverse]
      refine ⟨fun own => ?_, unseenRest other member bare named⟩
      exact apartFirst other member (aliases ▸ own) named

end

/-- A declaration builds exactly if each of its nodes is sound. -/
theorem build_eq_ok_iff {declaration : Declaration} {root : Symbol} :
    declaration.build = .ok root ↔
      (∀ node ∈ declaration.preorder, node.Sound) ∧ root = declaration.draw 0 :=
  buildFrom_eq_ok_iff declaration

/-- Siblings that differ in their decoration only are refused. -/
example : (command { aliases := ["tool"] } none true
    [.option { aliases := ["-x"] }, .option { aliases := ["--y", "/x"] }]).build =
      .error (.aliasCollision "/x" "x" "y" "tool") := by rfl

end Declaration
end CommandGrammar
