import CommandGrammar.Proofs.Construction
import CommandGrammar.Proofs.Portable

/-! Exporting a grammar to a file and building it again. A grammar that was built from a file is
read back with the same symbols, and with all of their arguments that files keep, so a second export
gives the same file. -/
namespace CommandGrammar

/-- What files say of a command or option: a command has no name but those that its aliases give,
options are declared in front of subcommands, and defaults are given in JSON. -/
structure Declaration.Filed (node : Declaration) : Prop where
  unnamed : node.isCommand = true → node.heading.name = none
  ordered : node.children =
    node.children.filter (fun child => !child.isCommand) ++ node.children.filter isCommand
  default : ∀ value, node.heading.argument.default = some value →
    ∃ json, Value.ofJson node.heading.argument.type json = .ok value

/-- The default of a draft has been read under its type. -/
theorem ArgumentEntry.default_of_draft {entry : Option ArgumentEntry} {draft : ArgumentDraft}
    (drafted : draftOf entry = .ok draft) :
    ∀ value, draft.default = some value → ∃ json, Value.ofJson draft.type json = .ok value := by
  intro value given
  cases entry with
  | none =>
    cases drafted
    contradiction
  | some entry =>
    obtain ⟨type, -, drafted⟩ := bind_eq_ok_iff.mp drafted
    obtain ⟨default, defaulted, drafted⟩ := bind_eq_ok_iff.mp drafted
    cases drafted
    dsimp only at given ⊢
    subst given
    unfold defaultValue at defaulted
    split at defaulted
    · cases defaulted
    · rename_i json _
      have mapped := mapError_eq_ok_iff.mp defaulted
      refine ⟨json, ?_⟩
      cases reads : Value.ofJson type json with
      | error =>
        rw [reads] at mapped
        contradiction
      | ok other =>
        rw [reads] at mapped
        cases mapped
        rfl

namespace OptionEntry

theorem filed {entry : OptionEntry} {declaration : Declaration}
    (declares : entry.declaration = .ok declaration) :
    declaration.isCommand = false ∧ ∀ node ∈ declaration.preorder, node.Filed := by
  obtain ⟨draft, drafted, declares⟩ := bind_eq_ok_iff.mp declares
  cases declares
  refine ⟨rfl, List.forall_mem_singleton.mpr ⟨fun isCommand => by contradiction, rfl, ?_⟩⟩
  exact ArgumentEntry.default_of_draft (mapError_eq_ok_iff.mp drafted)

theorem all_filed {entries : List OptionEntry} {declarations : List Declaration}
    (declare : entries.mapM declaration = .ok declarations) :
    (∀ declaration ∈ declarations, declaration.isCommand = false) ∧
      ∀ node ∈ Declaration.preorderAll declarations, node.Filed := by
  induction entries generalizing declarations with
  | nil =>
    cases declare
    exact ⟨fun _ member => absurd member List.not_mem_nil,
      fun _ member => absurd member List.not_mem_nil⟩
  | cons entry rest ih =>
    rw [List.mapM_cons] at declare
    obtain ⟨first, declares, declare⟩ := bind_eq_ok_iff.mp declare
    obtain ⟨others, declareRest, declare⟩ := bind_eq_ok_iff.mp declare
    cases declare
    obtain ⟨isOption, filedFirst⟩ := filed declares
    obtain ⟨areOptions, filedRest⟩ := ih declareRest
    exact ⟨List.forall_mem_cons.mpr ⟨isOption, areOptions⟩,
      List.forall_mem_append.mpr ⟨filedFirst, filedRest⟩⟩

/-- The file of an option is read as the option rewritten. -/
theorem declaration_ofSymbol {heading : Heading} (number : Nat)
    (stored : ∀ value, heading.argument.default = some value →
      Value.Stored heading.argument.type value) :
    (ofSymbol (heading.draw number .option)).declaration =
      .ok (.option (heading.rewritten false)) := by
  have drafted : ArgumentEntry.draftOf (ofSymbol (heading.draw number .option)).argument = .ok _ :=
    ArgumentEntry.draftOf_ofArgument stored
  exact bind_eq_ok_iff.mpr ⟨_, mapError_eq_ok_iff.mpr drafted, rfl⟩

end OptionEntry

namespace Declaration

theorem preorderAll_append (first second : List Declaration) :
    preorderAll (first ++ second) = preorderAll first ++ preorderAll second := by
  induction first with
  | nil => rfl
  | cons declaration rest ih =>
    rw [List.cons_append, preorderAll, preorderAll, ih, List.append_assoc]

theorem filed_of_parts {heading : Heading} {subcommandRequired : Option Bool} {strict : Bool}
    {options commands : List Declaration} (unnamed : heading.name = none)
    (default : ∀ value, heading.argument.default = some value →
      ∃ json, Value.ofJson heading.argument.type json = .ok value)
    (areOptions : ∀ option ∈ options, option.isCommand = false)
    (areCommands : ∀ command ∈ commands, command.isCommand = true) :
    (command heading subcommandRequired strict (options ++ commands)).Filed where
  unnamed _ := unnamed
  ordered := by
    have noOptions : commands.filter (fun child => !child.isCommand) = [] :=
      List.filter_eq_nil_iff.mpr fun child member => by simp [areCommands child member]
    have noCommands : options.filter isCommand = [] :=
      List.filter_eq_nil_iff.mpr fun child member => by simp [areOptions child member]
    rw [children, List.filter_append, List.filter_append, noOptions, noCommands,
      List.filter_eq_self.mpr fun child member => by simp [areOptions child member],
      List.filter_eq_self.mpr areCommands, List.append_nil, List.nil_append]
  default := default

end Declaration

namespace CommandEntry

mutual

theorem filed {declaration : Declaration} (entry : CommandEntry)
    (declares : entry.declaration = .ok declaration) :
    declaration.isCommand = true ∧ ∀ node ∈ declaration.preorder, node.Filed := by
  cases entry with
  | mk name aliases description hidden subcommandRequired strict argument options commands =>
    obtain ⟨draft, drafted, declares⟩ := bind_eq_ok_iff.mp declares
    obtain ⟨optionNodes, declareOptions, declares⟩ := bind_eq_ok_iff.mp declares
    obtain ⟨commandNodes, declareCommands, declares⟩ := bind_eq_ok_iff.mp declares
    cases declares
    obtain ⟨areOptions, filedOptions⟩ := OptionEntry.all_filed declareOptions
    obtain ⟨areCommands, filedCommands⟩ := all_filed commands declareCommands
    have default := ArgumentEntry.default_of_draft (mapError_eq_ok_iff.mp drafted)
    refine ⟨rfl, ?_⟩
    rw [Declaration.preorder, List.forall_mem_cons, Declaration.preorderAll_append,
      List.forall_mem_append]
    exact ⟨Declaration.filed_of_parts rfl default areOptions areCommands,
      filedOptions, filedCommands⟩

theorem all_filed {declarations : List Declaration} (entries : List CommandEntry)
    (declare : CommandEntry.declarations entries = .ok declarations) :
    (∀ declaration ∈ declarations, declaration.isCommand = true) ∧
      ∀ node ∈ Declaration.preorderAll declarations, node.Filed := by
  cases entries with
  | nil =>
    cases declare
    exact ⟨fun _ member => absurd member List.not_mem_nil,
      fun _ member => absurd member List.not_mem_nil⟩
  | cons entry rest =>
    obtain ⟨first, declares, declare⟩ := bind_eq_ok_iff.mp declare
    obtain ⟨others, declareRest, declare⟩ := bind_eq_ok_iff.mp declare
    cases declare
    obtain ⟨isCommand, filedFirst⟩ := filed entry declares
    obtain ⟨areCommands, filedRest⟩ := all_filed rest declareRest
    exact ⟨List.forall_mem_cons.mpr ⟨isCommand, areCommands⟩,
      List.forall_mem_append.mpr ⟨filedFirst, filedRest⟩⟩

end

end CommandEntry

namespace Declaration

/-- A sound node of a file, the floats of whose default are finite. -/
structure Transferable (node : Declaration) : Prop where
  sound : node.Sound
  filed : node.Filed
  finite : ∀ value, node.heading.argument.default = some value → value.isFinite = true

theorem Transferable.stored {node : Declaration} (transferable : node.Transferable) :
    ∀ value, node.heading.argument.default = some value →
      Value.Stored node.heading.argument.type value := by
  intro value given
  obtain ⟨json, reads⟩ := transferable.filed.default value given
  exact Value.stored_of_reads reads (transferable.finite value given)

theorem isCommand_draw (declaration : Declaration) (number : Nat) :
    (declaration.draw number).isCommand = declaration.isCommand := by
  cases declaration <;> rfl

/-- The file of some options is read as the options rewritten. -/
theorem options_ofSymbols {declarations : List Declaration} (number : Nat)
    (transferable : ∀ node ∈ preorderAll declarations, node.Transferable) :
    (((drawAll number declarations).filter (·.isOption)).map OptionEntry.ofSymbol).mapM
        OptionEntry.declaration =
      .ok ((declarations.filter fun declaration => !declaration.isCommand).map rewritten) := by
  induction declarations generalizing number with
  | nil => rfl
  | cons declaration rest ih =>
    obtain ⟨first, others⟩ := List.forall_mem_append.mp transferable
    have readRest := ih (number + declaration.size) others
    cases declaration with
    | option heading =>
      have stored := (first (.option heading) List.mem_cons_self).stored
      have read := @OptionEntry.declaration_ofSymbol heading number stored
      rw [drawAll, List.filter_cons_of_pos (by rfl), List.filter_cons_of_pos (by rfl),
        List.map_cons, List.mapM_cons, draw, read, readRest]
      rfl
    | command heading subcommandRequired strict children =>
      rw [drawAll, List.filter_cons_of_neg (by simp [Symbol.isOption, isCommand_draw, isCommand]),
        List.filter_cons_of_neg (by simp [isCommand]), readRest]

end Declaration

namespace CommandEntry
open Declaration

mutual

/-- The file of a command is read as the command rewritten. -/
theorem declaration_ofSymbol (declaration : Declaration) (number : Nat)
    (isCommand : declaration.isCommand = true)
    (transferable : ∀ node ∈ declaration.preorder, node.Transferable) :
    (ofSymbol (declaration.draw number)).declaration = .ok declaration.rewritten := by
  cases declaration with
  | option => contradiction
  | command heading subcommandRequired strict children =>
    have here := transferable _ List.mem_cons_self
    have below := fun node member => transferable node (List.mem_cons_of_mem _ member)
    have drafted : ArgumentEntry.draftOf (ArgumentEntry.ofArgument?
        (heading.argument.settle true)) = .ok _ := ArgumentEntry.draftOf_ofArgument here.stored
    have aliases : heading.aliases.headD "" :: heading.aliases.tail = heading.aliases := by
      obtain ⟨first, rest, listed⟩ := List.exists_cons_of_ne_nil here.sound.heading.named
      rw [show heading.aliases = first :: rest from listed]
      rfl
    have name : heading.givenName = Alias.defaultName heading.aliases := by
      rw [Heading.givenName, show heading.name = none from here.filed.unnamed rfl, Option.getD_none]
    have reread : heading.rewritten true =
        { aliases := heading.aliases.headD "" :: heading.aliases.tail
          description := heading.description
          hidden := heading.hidden
          argument := (heading.argument.settle true).redraft } := by
      rw [aliases, Heading.rewritten, if_pos name]
    have ordered : children.map rewritten = _ := congrArg (List.map rewritten) here.filed.ordered
    rw [List.map_append] at ordered
    rw [ofSymbol_eq, CommandEntry.declaration]
    refine bind_eq_ok_iff.mpr ⟨_, mapError_eq_ok_iff.mpr drafted, ?_⟩
    refine bind_eq_ok_iff.mpr ⟨_, options_ofSymbols (number + 1) below, ?_⟩
    refine bind_eq_ok_iff.mpr ⟨_, declarations_ofSymbols children (number + 1) below, ?_⟩
    rw [rewritten, rewrittenAll_eq, reread, ordered]
    rfl

theorem declarations_ofSymbols (declarations : List Declaration) (number : Nat)
    (transferable : ∀ node ∈ preorderAll declarations, node.Transferable) :
    CommandEntry.declarations (ofSymbols (drawAll number declarations)) =
      .ok ((declarations.filter Declaration.isCommand).map rewritten) := by
  cases declarations with
  | nil => rfl
  | cons declaration rest =>
    obtain ⟨first, others⟩ := List.forall_mem_append.mp transferable
    have readRest := declarations_ofSymbols rest (number + declaration.size) others
    rw [drawAll, ofSymbols, isCommand_draw]
    split
    · rename_i isCommand
      rw [CommandEntry.declarations, declaration_ofSymbol declaration number isCommand first,
        readRest, List.filter_cons_of_pos isCommand]
      rfl
    · rename_i isOption
      rw [readRest, List.filter_cons_of_neg isOption]

end

end CommandEntry

namespace Symbol

/-- A symbol and its twin agree in all that files describe, and in the whole of an argument that
files do not leave out. -/
structure Twin (symbol twin : Symbol) : Prop where
  id : twin.id = symbol.id
  kind : twin.kind = symbol.kind
  aliases : twin.aliases = symbol.aliases
  name : twin.name = symbol.name
  description : twin.description = symbol.description
  hidden : twin.hidden = symbol.hidden
  children : twin.children.map Symbol.id = symbol.children.map Symbol.id
  arity : twin.arity = symbol.arity
  argument : symbol.arity.takesValues = true ∨ symbol.argument.type ≠ none →
    twin.argument.name = symbol.argument.name ∧
      twin.argument.description = symbol.argument.description ∧
      twin.argument.type = symbol.argument.type ∧
      twin.argument.default = symbol.argument.default ∧
      twin.argument.allowed = symbol.argument.allowed ∧
      twin.argument.suggestions = symbol.argument.suggestions

/-- Symbols of the same number are twins, and twins have the same parent. -/
structure Transfers (root twin : Symbol) : Prop where
  count : twin.preorder.length = root.preorder.length
  symbols : ∀ i symbol, root.at? i = some symbol →
    ∃ other, twin.at? i = some other ∧ symbol.Twin other
  parents : ∀ i, (twin.parentOf? i).map Symbol.id = (root.parentOf? i).map Symbol.id

theorem twin_portable (symbol : Symbol) : symbol.Twin symbol.portable := by
  rw [portable_eq, portableAll_eq]
  refine ⟨rfl, rfl, rfl, rfl, rfl, rfl, ?_, symbol.argument.arity_portable, ?_⟩
  · rw [List.map_map]
    refine List.map_congr_left fun child _ => ?_
    rw [Function.comp_apply, portable_eq]
  · intro described
    have kept : symbol.argument.isElided = false := by
      refine Bool.eq_false_iff.mpr fun elided => ?_
      obtain ⟨closed, untyped⟩ := Argument.max_of_elided elided
      simp [arity, Arity.takesValues, closed, untyped] at described
    simp only [Argument.portable_of_kept kept, and_self]

theorem transfers_portable (root : Symbol) : root.Transfers root.portable where
  count := by rw [preorder_portable, List.length_map]
  symbols := by
    intro i symbol found
    refine ⟨symbol.portable, ?_, symbol.twin_portable⟩
    rw [at?, preorder_portable, List.getElem?_map, ← at?, found, Option.map_some]
  parents := by
    intro i
    rw [parentOf_portable, Option.map_map]
    congr 1
    funext symbol
    exact symbol.twin_portable.id

end Symbol

namespace Declaration

/-- Every node has its symbol in the grammar that it is part of. -/
theorem symbol_of_node {declaration node : Declaration} (member : node ∈ declaration.preorder)
    (number : Nat) : ∃ symbol ∈ (declaration.draw number).preorder, node.Shapes symbol := by
  obtain ⟨i, bound, rfl⟩ := List.getElem_of_mem member
  have shapes := List.forall₂_iff_get.mp (declaration.shapes_preorder number)
  have within : i < (declaration.draw number).preorder.length := shapes.1 ▸ bound
  exact ⟨_, List.getElem_mem within, shapes.2 i bound within⟩

end Declaration

namespace GrammarFile
variable {file : GrammarFile} {root : Symbol}

/-- A grammar that was built from a file builds again from its own. -/
theorem build_ofSymbol (built : file.build = .ok root)
    (finite : ∀ symbol ∈ root.preorder, ∀ value, symbol.argument.default = some value →
      value.isFinite = true) :
    (ofSymbol root).build = .ok root.portable := by
  obtain ⟨declaration, declares, built⟩ := bind_eq_ok_iff.mp built
  obtain ⟨sound, rfl⟩ := Declaration.build_eq_ok_iff.mp (mapError_eq_ok_iff.mp built)
  obtain ⟨isCommand, filed⟩ := CommandEntry.filed file.command declares
  have transferable : ∀ node ∈ declaration.preorder, node.Transferable := by
    intro node member
    refine ⟨sound node member, filed node member, fun value given => ?_⟩
    obtain ⟨symbol, found, shapes⟩ := Declaration.symbol_of_node member 0
    refine finite symbol found value ?_
    rw [shapes.itself.argument]
    exact given
  have reread := CommandEntry.declaration_ofSymbol declaration 0 isCommand transferable
  refine bind_eq_ok_iff.mpr ⟨_, reread, mapError_eq_ok_iff.mpr ?_⟩
  exact Declaration.build_eq_ok_iff.mpr
    ⟨Declaration.sound_rewritten sound, (declaration.draw_rewritten 0 sound).symm⟩

theorem export_transfers (built : file.build = .ok root)
    (finite : ∀ symbol ∈ root.preorder, ∀ value, symbol.argument.default = some value →
      value.isFinite = true) :
    ∃ twin, (ofSymbol root).build = .ok twin ∧ root.Transfers twin ∧
      ofSymbol twin = ofSymbol root :=
  ⟨root.portable, build_ofSymbol built finite, root.transfers_portable,
    congrArg ofCommand (CommandEntry.ofSymbol_portable root)⟩

/-- An option whose default is read under its type. -/
def sampleOption : OptionEntry where
  aliases := ["-r", "--ratio"]
  name := some "factor"
  argument := some
    { type := some (ValueType.list .float).name, default := some (.number (.int 2)) }

/-- A tool with this option and a command. -/
def sample : GrammarFile := .ofCommand
  { name := "tool"
    options := [sampleOption]
    commands := [
      { name := "copy", aliases := ["cp"]
        argument := some { arity := some ⟨2, none⟩, allowed := ["src", "dst", "src"] } }] }

/-- What the file of the tool says. -/
def sampleDeclaration : Declaration :=
  .command { aliases := ["tool"] } none true
    [.option
      { aliases := ["-r", "--ratio"], name := some "factor"
        argument := { type := some (.list .float), default := some (.list [.float (.ofInt 2)]) } },
      .command
        { aliases := ["copy", "cp"]
          argument := { arity := some ⟨2, Arity.unbounded⟩, allowed := ["src", "dst", "src"] } }
        none true []]

theorem export_transfers_sample : ∃ root, sample.build = .ok root ∧
    (∀ symbol ∈ root.preorder, ∀ value, symbol.argument.default = some value →
      value.isFinite = true) ∧
    ∃ twin, (ofSymbol root).build = .ok twin ∧ root.Transfers twin ∧
      ofSymbol twin = ofSymbol root := by
  have drafted : ArgumentEntry.draftOf sampleOption.argument =
      .ok { type := some (.list .float), default := some (.list [.float (.ofInt 2)]) } :=
    bind_eq_ok_iff.mpr ⟨some (.list .float), ArgumentEntry.declaredType_of_name rfl, rfl⟩
  have declaresOption : sampleOption.declaration = .ok _ :=
    bind_eq_ok_iff.mpr ⟨_, mapError_eq_ok_iff.mpr drafted, rfl⟩
  have declares : sample.command.declaration = .ok sampleDeclaration := by
    rw [sample, ofCommand, CommandEntry.declaration, List.mapM_cons, declaresOption]
    rfl
  have built : sample.build = .ok (sampleDeclaration.draw 0) :=
    bind_eq_ok_iff.mpr ⟨_, declares, rfl⟩
  have finite : ∀ symbol ∈ (sampleDeclaration.draw 0).preorder, ∀ value,
      symbol.argument.default = some value → value.isFinite = true := by
    intro symbol member value given
    rcases List.mem_cons.mp member with rfl | member
    · cases given
    rcases List.mem_cons.mp member with rfl | member
    · cases given
      rfl
    rcases List.mem_cons.mp member with rfl | member
    · cases given
    · cases member
  exact ⟨_, built, finite, export_transfers built finite⟩

end GrammarFile
end CommandGrammar
