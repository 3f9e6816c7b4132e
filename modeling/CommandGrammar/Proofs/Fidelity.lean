import CommandGrammar.Parse.Report
import CommandGrammar.Proofs.Export
import CommandGrammar.Proofs.Lockstep
import CommandGrammar.Proofs.Placement

/-! What a command line means under an exported grammar. Everything is read alike; only checks of
paths are lost, and the default of an argument that takes no values and has no type. -/
namespace CommandGrammar

section Written

/-- What holds of every draft that is read from a file holds throughout the grammar. -/
theorem OptionEntry.drafts (holds : ArgumentDraft → Prop)
    (each : ∀ entry draft, ArgumentEntry.draftOf entry = .ok draft → holds draft)
    {entry : OptionEntry} {declaration : Declaration}
    (declares : entry.declaration = .ok declaration) :
    ∀ node ∈ declaration.preorder, holds node.heading.argument := by
  obtain ⟨draft, drafted, declares⟩ := bind_eq_ok_iff.mp declares
  cases declares
  exact List.forall_mem_singleton.mpr (each _ _ (mapError_eq_ok_iff.mp drafted))

theorem OptionEntry.all_drafts (holds : ArgumentDraft → Prop)
    (each : ∀ entry draft, ArgumentEntry.draftOf entry = .ok draft → holds draft)
    {entries : List OptionEntry} {declarations : List Declaration}
    (declare : entries.mapM OptionEntry.declaration = .ok declarations) :
    ∀ node ∈ Declaration.preorderAll declarations, holds node.heading.argument := by
  induction entries generalizing declarations with
  | nil =>
    cases declare
    exact fun _ member => absurd member List.not_mem_nil
  | cons entry rest ih =>
    rw [List.mapM_cons] at declare
    obtain ⟨first, declares, declare⟩ := bind_eq_ok_iff.mp declare
    obtain ⟨others, declareRest, declare⟩ := bind_eq_ok_iff.mp declare
    cases declare
    exact List.forall_mem_append.mpr ⟨drafts holds each declares, ih declareRest⟩

namespace CommandEntry

mutual

theorem drafts (holds : ArgumentDraft → Prop)
    (each : ∀ entry draft, ArgumentEntry.draftOf entry = .ok draft → holds draft)
    {declaration : Declaration} (entry : CommandEntry)
    (declares : entry.declaration = .ok declaration) :
    ∀ node ∈ declaration.preorder, holds node.heading.argument := by
  cases entry with
  | mk name aliases description hidden subcommandRequired strict argument options commands =>
    obtain ⟨draft, drafted, declares⟩ := bind_eq_ok_iff.mp declares
    obtain ⟨optionNodes, declareOptions, declares⟩ := bind_eq_ok_iff.mp declares
    obtain ⟨commandNodes, declareCommands, declares⟩ := bind_eq_ok_iff.mp declares
    cases declares
    rw [Declaration.preorder, List.forall_mem_cons, Declaration.preorderAll_append,
      List.forall_mem_append]
    exact ⟨each _ _ (mapError_eq_ok_iff.mp drafted),
      OptionEntry.all_drafts holds each declareOptions,
      all_drafts holds each commands declareCommands⟩

theorem all_drafts (holds : ArgumentDraft → Prop)
    (each : ∀ entry draft, ArgumentEntry.draftOf entry = .ok draft → holds draft)
    {declarations : List Declaration} (entries : List CommandEntry)
    (declare : CommandEntry.declarations entries = .ok declarations) :
    ∀ node ∈ Declaration.preorderAll declarations, holds node.heading.argument := by
  cases entries with
  | nil =>
    cases declare
    exact fun _ member => absurd member List.not_mem_nil
  | cons entry rest =>
    obtain ⟨first, declares, declare⟩ := bind_eq_ok_iff.mp declare
    obtain ⟨others, declareRest, declare⟩ := bind_eq_ok_iff.mp declare
    cases declare
    exact List.forall_mem_append.mpr
      ⟨drafts holds each entry declares, all_drafts holds each rest declareRest⟩

end

end CommandEntry

theorem ArgumentEntry.written_of_draft {entry : Option ArgumentEntry} {draft : ArgumentDraft}
    (drafted : draftOf entry = .ok draft) (forCommand : Bool) :
    (draft.settle forCommand).IsWritten := by
  cases entry with
  | none =>
    cases drafted
    exact ⟨rfl, List.forall_mem_nil _⟩
  | some entry =>
    obtain ⟨type, -, drafted⟩ := bind_eq_ok_iff.mp drafted
    obtain ⟨default, -, drafted⟩ := bind_eq_ok_iff.mp drafted
    cases drafted
    refine ⟨rfl, fun validator listed check isCustom => ?_⟩
    have listed : validator ∈ entry.validators := listed
    simp [validators, isCustom] at listed

theorem Argument.isWritten_portable (argument : Argument) : argument.portable.IsWritten := by
  unfold Argument.portable
  split
  · exact ⟨rfl, List.forall_mem_nil _⟩
  · exact ⟨rfl, List.forall_mem_nil _⟩

theorem Symbol.Numbered.portable {root : Symbol} (numbered : root.Numbered) :
    root.portable.Numbered where
  isCommand := (isCommand_portable root).trans numbered.isCommand
  ids := by
    have ids : root.portable.preorder.map Symbol.id = root.preorder.map Symbol.id := by
      rw [preorder_portable, List.map_map]
      exact List.map_congr_left fun symbol _ => symbol.id_portable
    rw [ids, numbered.ids, preorder_portable, List.length_map]

/-- A grammar as files give it. -/
structure Symbol.IsWritten (root : Symbol) : Prop where
  numbered : root.Numbered
  argument : ∀ symbol ∈ root.preorder, symbol.argument.IsWritten
  arity : ∀ symbol ∈ root.preorder, symbol.arity.min ≤ symbol.arity.max

theorem Symbol.IsWritten.portable {root : Symbol} (written : root.IsWritten) :
    root.portable.IsWritten where
  numbered := written.numbered.portable
  argument := by
    rw [preorder_portable, List.forall_mem_map]
    intro symbol _
    rw [argument_portable]
    exact symbol.argument.isWritten_portable
  arity := by
    rw [preorder_portable, List.forall_mem_map]
    intro symbol member
    rw [arity_portable]
    exact written.arity symbol member

theorem GrammarFile.written_of_built {file : GrammarFile} {root : Symbol}
    (built : file.build = .ok root) : root.IsWritten := by
  obtain ⟨declaration, declares, built⟩ := bind_eq_ok_iff.mp built
  have built := mapError_eq_ok_iff.mp built
  have isCommand := (CommandEntry.filed file.command declares).1
  have drafts := CommandEntry.drafts
    (fun draft => ∀ forCommand, (draft.settle forCommand).IsWritten)
    (fun _ _ drafted => ArgumentEntry.written_of_draft drafted) file.command declares
  constructor
  case numbered =>
    cases declaration with
    | option => contradiction
    | command => exact Declaration.numbered_build built
  case argument =>
    intro symbol found
    obtain ⟨node, member, -, shapes⟩ := Declaration.shaped_of_built built found
    rw [shapes.itself.argument]
    exact drafts node member _
  case arity => exact fun symbol found => Declaration.arity_of_built built found

end Written

namespace Argument
variable {argument : Argument}

/-- No value that the argument takes is checked for paths. -/
def Unchecked (argument : Argument) : Prop :=
  argument.arity.takesValues = true → argument.validators = []

/-- The default of an argument that a file leaves out would be left out with it. -/
structure Kept (argument : Argument) : Prop where
  unchecked : argument.Unchecked
  default : argument.isElided = true → argument.default = none

theorem default_portable (kept : argument.isElided = true → argument.default = none) :
    argument.portable.default = argument.default := by
  cases elided : argument.isElided with
  | true => rw [portable_of_elided elided, kept elided]
  | false => rw [portable_of_kept elided]

end Argument

namespace Verdict
variable {files : Files} {occurrence : Occurrence}

/-- Checks of paths see the texts of an occurrence and nothing around it. -/
theorem complaint_of_texts {view other : View} {validators : List Validator}
    (builtin : ∀ validator ∈ validators, ∀ check, validator ≠ .custom check)
    (same : view.texts = other.texts) :
    complaint? files view validators = complaint? files other validators := by
  unfold complaint?
  congr 1
  exact List.filterMap_congr fun validator member =>
    Validator.check_of_texts (builtin validator member) files same

theorem complaint_of_nothing {view : View} {validators : List Validator}
    (builtin : ∀ validator ∈ validators, ∀ check, validator ≠ .custom check)
    (nothing : view.texts = []) : complaint? files view validators = none := by
  have silent : validators.filterMap (Validator.check files view) = [] := by
    refine List.filterMap_eq_nil_iff.mpr fun validator member => ?_
    cases validator with
    | custom check => exact absurd rfl (builtin _ member check)
    | existingFiles | existingDirectories | legalPaths =>
      rw [Validator.check, nothing, List.findSome?_nil]
  rw [complaint?, silent, List.find?_nil]

/-- Without checks of the user's own an occurrence is judged by its symbol and its texts. -/
theorem of_texts (other : Occurrence)
    (builtin : ∀ validator ∈ occurrence.symbol.argument.validators, ∀ check,
      validator ≠ .custom check)
    (symbol : other.symbol = occurrence.symbol) (texts : other.texts = occurrence.texts)
    (implicit : other.implicit = occurrence.implicit) (files : Files) (all among : List Glimpse) :
    of files all occurrence = of files among other := by
  have complaint (value : Value) : complaint? files ⟨other.glimpse, value, among⟩
      occurrence.symbol.argument.validators = complaint? files ⟨occurrence.glimpse, value, all⟩
        occurrence.symbol.argument.validators := complaint_of_texts builtin texts
  simp only [of, ofValues, ofConversion, symbol, texts, implicit, complaint]

theorem of_written (written : occurrence.symbol.argument.IsWritten) (files : Files)
    (all : List Glimpse) : of files all occurrence = of files [] occurrence :=
  of_texts occurrence written.validators rfl rfl rfl files all []

/-- An argument that takes no values is accepted as long as none is given. -/
theorem ofValues_of_closed (closed : occurrence.symbol.argument.arity = .zero)
    (written : occurrence.symbol.argument.IsWritten) : ofValues files [] occurrence =
      if occurrence.texts.isEmpty then
        defaultOr occurrence.symbol.argument (accepted .unit false)
      else refused (.tooMany occurrence.texts.length) := by
  have arity : occurrence.symbol.arity = .zero := closed
  have noFlag : occurrence.symbol.argument.isFlag = false := by
    rw [Argument.isFlag, closed]
    rfl
  unfold ofValues
  simp only [noFlag, arity, Arity.zero, Bool.and_false, Bool.false_eq_true, if_false,
    Nat.not_lt_zero]
  cases texts : occurrence.texts with
  | nil =>
    have complaint (value : Value) : complaint? files ⟨occurrence.glimpse, value, []⟩
        occurrence.symbol.argument.validators = none :=
      complaint_of_nothing written.validators texts
    simp [Symbol.disallowed?, ofConversion, Argument.convert, closed, Arity.zero, complaint]
  | cons text rest => simp

theorem fault_defaultOr (argument : Argument) (value : Value) :
    (defaultOr argument (accepted value false)).fault? = none := by
  unfold defaultOr
  split <;> rfl

/-- An argument without values and without checks is judged alike. -/
theorem of_portable_of_closed (files : Files) (closed : occurrence.symbol.argument.arity = .zero)
    (written : occurrence.symbol.argument.IsWritten) :
    (of files [] occurrence.portable).fault? = (of files [] occurrence).fault? ∧
      (occurrence.symbol.portable.argument.default = occurrence.symbol.argument.default →
        of files [] occurrence.portable = of files [] occurrence) := by
  have closedToo : occurrence.portable.symbol.argument.arity = .zero :=
    occurrence.symbol.arity_portable.trans closed
  have writtenToo : occurrence.portable.symbol.argument.IsWritten := by
    rw [Occurrence.portable, Symbol.argument_portable]
    exact Argument.isWritten_portable _
  have implicit : occurrence.portable.implicit = occurrence.implicit := rfl
  have texts : occurrence.portable.texts = occurrence.texts := rfl
  rw [of, of, implicit, ofValues_of_closed closedToo writtenToo, ofValues_of_closed closed written,
    texts]
  constructor
  · split
    · rfl
    · split
      · rw [fault_defaultOr, fault_defaultOr]
      · rfl
  · intro same
    have same : occurrence.portable.symbol.argument.default =
      occurrence.symbol.argument.default := same
    simp only [defaultOr, same]

/-- An argument with values keeps all that judging them asks for. -/
theorem of_portable_of_open (files : Files)
    (takes : occurrence.symbol.argument.arity.takesValues = true)
    (written : occurrence.symbol.argument.IsWritten)
    (unchecked : occurrence.symbol.argument.validators = []) :
    of files [] occurrence.portable = of files [] occurrence := by
  have kept : occurrence.symbol.argument.isElided = false := by
    rw [Argument.isElided, takes]
    rfl
  have argument : occurrence.portable.symbol.argument =
      { occurrence.symbol.argument with sources := [] } := by
    rw [Occurrence.portable, Symbol.argument_portable, Argument.portable_of_kept kept,
      ← written.converter, ← unchecked]
  have isOption : occurrence.portable.symbol.isOption = occurrence.symbol.isOption :=
    Symbol.isOption_portable _
  have isCommand : occurrence.portable.symbol.isCommand = occurrence.symbol.isCommand :=
    Symbol.isCommand_portable _
  have arity : occurrence.portable.symbol.arity = occurrence.symbol.arity :=
    Symbol.arity_portable _
  have texts : occurrence.portable.texts = occurrence.texts := rfl
  have implicit : occurrence.portable.implicit = occurrence.implicit := rfl
  have silent (view : View) : complaint? files view [] = none := rfl
  simp only [of, ofValues, ofConversion, Symbol.disallowed?, isOption, isCommand, arity, texts,
    implicit, argument, unchecked, silent]
  rfl

theorem of_portable (files : Files) (written : occurrence.symbol.argument.IsWritten)
    (ordered : occurrence.symbol.arity.min ≤ occurrence.symbol.arity.max)
    (unchecked : occurrence.symbol.argument.Unchecked) :
    (of files [] occurrence.portable).fault? = (of files [] occurrence).fault? ∧
      (occurrence.symbol.argument.Kept →
        of files [] occurrence.portable = of files [] occurrence) := by
  by_cases takes : occurrence.symbol.argument.arity.takesValues = true
  · have same := of_portable_of_open files takes written (unchecked takes)
    exact ⟨congrArg fault? same, fun _ => same⟩
  · have closed : occurrence.symbol.argument.arity.max = 0 := by
      simpa [Arity.takesValues] using takes
    obtain ⟨fault, same⟩ := of_portable_of_closed files
      (Arity.eq_zero ordered closed) written
    refine ⟨fault, fun kept => same ?_⟩
    rw [Symbol.argument_portable, Argument.default_portable kept.default]

end Verdict

/-- The verdict on the occurrence of a symbol, if it has one. -/
def Parse.verdictOf? (parse : Parse) (id : Nat) : Option Verdict :=
  (parse.occurrences.find? fun resolved => resolved.symbol.id == id).map (·.verdict)

/-- What is reported of an occurrence that is judged by itself. -/
def Occurrence.complaint? (files : Files) (occurrence : Occurrence) : Option ErrorReport :=
  (Verdict.of files [] occurrence).fault?.map fun fault =>
    ⟨fault.kind, fault.message occurrence.symbol, occurrence.token.text⟩

/-- An option of a command that has been entered. -/
def Routing.Reaches (routing : Routing) (symbol : Symbol) : Prop :=
  symbol.isOption = true ∧ ∃ frame ∈ routing.path.toList, symbol ∈ frame.command.children

namespace Symbol
variable {root symbol : Symbol} {args : List String} {defaults : List Occurrence}

theorem IsWritten.occurrences_parse (written : root.IsWritten) (files : Files)
    (args : List String) : (root.parse files args).occurrences =
      (root.arena args).occurrences.map fun occurrence =>
        { occurrence with verdict := .of files [] occurrence } := by
  refine List.map_congr_left fun occurrence member => ?_
  obtain ⟨i, found⟩ := List.mem_iff_getElem?.mp member
  have placed := Routing.links_getElem?_eq_some.mpr ⟨occurrence, found, rfl⟩
  have inTree := (grown_arena written.numbered args).arena.mem_preorder placed
  exact congrArg (Resolved.mk occurrence) (Verdict.of_written (written.argument _ inTree) files _)

theorem IsWritten.verdictOf_eq (written : root.IsWritten) (files : Files)
    (bare : (root.arena args).occurrences.map Occurrence.bare =
      (root.routed (root.tokenize args)).occurrences.map Occurrence.bare ++ defaults) (id : Nat) :
    (root.parse files args).verdictOf? id =
      (((root.routed (root.tokenize args)).occurrences.map Occurrence.bare ++ defaults).find?
        fun occurrence => occurrence.symbol.id == id).map (Verdict.of files []) := by
  rw [← bare, Parse.verdictOf?, written.occurrences_parse, List.find?_map, List.find?_map,
    Option.map_map, Option.map_map]
  rfl

/-- An option that is not met has its default if its command has been entered. -/
theorem IsWritten.default_verdict (written : root.IsWritten) (files : Files)
    (inTree : symbol ∈ root.preorder)
    (bare : (root.arena args).occurrences.map Occurrence.bare =
      (root.routed (root.tokenize args)).occurrences.map Occurrence.bare ++ defaults)
    (areDefaults : Routing.DefaultsOf (root.routed (root.tokenize args)).path.toList.reverse
      defaults)
    (unmet : ((root.routed (root.tokenize args)).occurrences.map Occurrence.bare).find?
      (fun occurrence => occurrence.symbol.id == symbol.id) = none) (verdict : Verdict) :
    (defaults.find? fun occurrence => occurrence.symbol.id == symbol.id).map
        (Verdict.of files []) = some verdict ↔
      (root.routed (root.tokenize args)).Reaches symbol ∧
        ∃ value, symbol.argument.default = some value ∧ verdict = .accepted value true := by
  have grown := grown_routed written.numbered (List.append_nil (root.tokenize args)).symm
  have shape : ∀ default ∈ defaults, default.symbol.id = symbol.id →
      (root.routed (root.tokenize args)).Reaches symbol ∧
        ∃ value, symbol.argument.default = some value ∧
          Verdict.of files [] default = .accepted value true := by
    intro default member same
    obtain ⟨frame, onPath, option, owned, isOption, given, rfl⟩ := areDefaults.owned default member
    have onPath := List.mem_reverse.mp onPath
    have optionInTree := mem_preorder_of_child (grown.mem_preorder onPath) owned
    cases written.numbered.eq_of_id optionInTree inTree same
    obtain ⟨value, given⟩ := Option.isSome_iff_exists.mp given
    refine ⟨⟨isOption, frame, onPath, owned⟩, value, given, ?_⟩
    rw [Verdict.of, Occurrence.missing, given]
    rfl
  constructor
  · intro judged
    obtain ⟨default, found, rfl⟩ := Option.map_eq_some_iff.mp judged
    have same := List.find?_some found
    exact shape default (List.mem_of_find?_eq_some found) (beq_iff_eq.mp same)
  · rintro ⟨⟨isOption, frame, onPath, owned⟩, value, given, rfl⟩
    have linked := grown.link_completed written.numbered onPath owned isOption
      (Option.isSome_iff_exists.mpr ⟨value, given⟩)
    change _ ∈ (root.arena args).links at linked
    rw [Routing.links_bare, bare, List.map_append, List.mem_append] at linked
    rcases linked with met | added
    · obtain ⟨occurrence, member, link⟩ := List.mem_map.mp met
      have differs := List.find?_eq_none.mp unmet occurrence member
      simp [(Prod.mk.inj link).1] at differs
    · obtain ⟨default, member, link⟩ := List.mem_map.mp added
      have same : default.symbol.id = symbol.id := congrArg Symbol.id (Prod.mk.inj link).1
      cases found : defaults.find? fun occurrence => occurrence.symbol.id == symbol.id with
      | none => exact absurd (beq_iff_eq.mpr same) (List.find?_eq_none.mp found default member)
      | some first =>
      have sameFirst := List.find?_some found
      obtain ⟨-, other, givenToo, judged⟩ := shape first (List.mem_of_find?_eq_some found)
        (beq_iff_eq.mp sameFirst)
      cases given.symm.trans givenToo
      rw [Option.map_some, judged]

theorem IsWritten.routed_portable (written : root.IsWritten) (args : List String) :
    root.portable.routed (root.portable.tokenize args) =
      (root.routed (root.tokenize args)).portable := by
  rw [tokenize_portable]
  exact Symbol.routed_portable written.numbered written.argument (List.append_nil _).symm

theorem IsWritten.bare_portable (written : root.IsWritten) (args : List String) :
    (root.portable.routed (root.portable.tokenize args)).occurrences.map Occurrence.bare =
      ((root.routed (root.tokenize args)).occurrences.map Occurrence.bare).map
        Occurrence.portable := by
  rw [written.routed_portable, Routing.portable, List.map_map, List.map_map]
  rfl

theorem IsWritten.reaches_portable (written : root.IsWritten) (args : List String)
    (inTree : symbol ∈ root.preorder) :
    (root.portable.routed (root.portable.tokenize args)).Reaches symbol.portable ↔
      (root.routed (root.tokenize args)).Reaches symbol := by
  have grown := grown_routed written.numbered (List.append_nil (root.tokenize args)).symm
  have path : (root.portable.routed (root.portable.tokenize args)).path.toList =
      (root.routed (root.tokenize args)).path.toList.map Frame.portable := by
    rw [written.routed_portable]
    rfl
  have owned {frame : Frame} (onPath : frame ∈ (root.routed (root.tokenize args)).path.toList) :
      symbol.portable ∈ frame.portable.command.children ↔ symbol ∈ frame.command.children := by
    have children : frame.portable.command.children =
        frame.command.children.map Symbol.portable := children_portable _
    rw [children, List.mem_map]
    constructor
    · rintro ⟨child, owned, same⟩
      have childInTree := mem_preorder_of_child (grown.mem_preorder onPath) owned
      have ids := congrArg Symbol.id same
      rw [id_portable, id_portable] at ids
      exact written.numbered.eq_of_id childInTree inTree ids ▸ owned
    · exact fun owned => ⟨symbol, owned, rfl⟩
  rw [Routing.Reaches, Routing.Reaches, isOption_portable, path]
  refine and_congr_right fun _ => ⟨?_, ?_⟩
  · rintro ⟨_, onTwin, child⟩
    obtain ⟨frame, onPath, rfl⟩ := List.mem_map.mp onTwin
    exact ⟨frame, onPath, (owned onPath).mp child⟩
  · rintro ⟨frame, onPath, child⟩
    exact ⟨frame.portable, List.mem_map_of_mem onPath, (owned onPath).mpr child⟩

/-- A symbol whose checks and default are not lost has the same value. -/
theorem IsWritten.verdict_portable (written : root.IsWritten) (files : Files) (args : List String)
    (inTree : symbol ∈ root.preorder) (kept : symbol.argument.Kept) :
    (root.portable.parse files args).verdictOf? symbol.id =
      (root.parse files args).verdictOf? symbol.id := by
  have twinInTree : symbol.portable ∈ root.portable.preorder := by
    rw [preorder_portable]
    exact List.mem_map_of_mem inTree
  obtain ⟨defaults, bare, areDefaults⟩ := bare_arena written.numbered args
  obtain ⟨defaultsToo, bareToo, areDefaultsToo⟩ := bare_arena written.portable.numbered args
  rw [written.verdictOf_eq files bare, written.portable.verdictOf_eq files bareToo,
    List.find?_append, List.find?_append]
  have metToo : ((root.portable.routed (root.portable.tokenize args)).occurrences.map
      Occurrence.bare).find? (fun occurrence => occurrence.symbol.id == symbol.id) =
      (((root.routed (root.tokenize args)).occurrences.map Occurrence.bare).find?
        fun occurrence => occurrence.symbol.id == symbol.id).map Occurrence.portable := by
    rw [written.bare_portable, List.find?_map]
    simp only [Function.comp_def, Occurrence.portable, id_portable]
  cases met : ((root.routed (root.tokenize args)).occurrences.map Occurrence.bare).find?
      (fun occurrence => occurrence.symbol.id == symbol.id) with
  | some occurrence =>
    rw [metToo, met, Option.map_some, Option.some_or, Option.some_or, Option.map_some,
      Option.map_some]
    have grown := grown_routed written.numbered (List.append_nil (root.tokenize args)).symm
    obtain ⟨plain, member, rfl⟩ := List.mem_map.mp (List.mem_of_find?_eq_some met)
    obtain ⟨i, found⟩ := List.mem_iff_getElem?.mp member
    have placed := Routing.links_getElem?_eq_some.mpr ⟨plain, found, rfl⟩
    have plainInTree := grown.arena.mem_preorder placed
    have same := List.find?_some met
    cases written.numbered.eq_of_id plainInTree inTree (beq_iff_eq.mp same)
    exact congrArg some ((Verdict.of_portable files (written.argument _ inTree)
      (written.arity _ inTree) kept.unchecked).2 kept)
  | none =>
    rw [metToo, met, Option.map_none, Option.none_or, Option.none_or]
    rw [met, Option.map_none, ← id_portable] at metToo
    have default : symbol.portable.argument.default = symbol.argument.default := by
      rw [argument_portable, Argument.default_portable kept.default]
    ext verdict
    have twin := written.portable.default_verdict files twinInTree bareToo areDefaultsToo metToo
      verdict
    have own := written.default_verdict files inTree bare areDefaults met verdict
    rw [written.reaches_portable args inTree, default, id_portable] at twin
    exact twin.trans own.symm

end Symbol

namespace Parse

theorem reports_refusals (parse : Parse) : parse.refusals.map ErrorReport.ofError =
    parse.occurrences.filterMap fun resolved => resolved.verdict.fault?.map fun fault =>
      ⟨fault.kind, fault.message resolved.symbol, resolved.token.text⟩ := by
  have items : parse.occurrences = parse.occurrences.zipIdx.map Prod.fst :=
    (List.zipIdx_map_fst 0 _).symm
  conv_rhs => rw [items]
  rw [refusals, indexed, List.map_filterMap, List.filterMap_map, List.filterMap_map]
  refine List.filterMap_congr fun item _ => ?_
  simp only [Function.comp_apply, Option.map_map]
  rfl

end Parse

namespace Symbol
variable {root symbol : Symbol} {args : List String}

theorem message_portable (symbol : Symbol) (fault : Fault) :
    fault.message symbol.portable = fault.message symbol := by
  cases fault <;> simp only [Fault.message, Fault.missingMessage, Fault.tooManyMessage,
    isCommand_portable, name_portable, display_portable, arity_portable]

/-- Defaults are not refused, so refusals are those of what was met. -/
theorem IsWritten.reports_refusals (written : root.IsWritten) (files : Files)
    (args : List String) : (root.parse files args).refusals.map ErrorReport.ofError =
      ((root.routed (root.tokenize args)).occurrences.map Occurrence.bare).filterMap
        (Occurrence.complaint? files) := by
  obtain ⟨defaults, bare, areDefaults⟩ := bare_arena written.numbered args
  have silent : defaults.filterMap (Occurrence.complaint? files) = [] := by
    refine List.filterMap_eq_nil_iff.mpr fun default member => ?_
    obtain ⟨frame, -, option, -, -, -, rfl⟩ := areDefaults.owned default member
    rfl
  have whole : (root.arena args).occurrences.filterMap (Occurrence.complaint? files) =
      ((root.arena args).occurrences.map Occurrence.bare).filterMap
        (Occurrence.complaint? files) := by
    rw [List.filterMap_map]
    rfl
  rw [Parse.reports_refusals, written.occurrences_parse, List.filterMap_map]
  refine Eq.trans ?_ (whole.trans ?_)
  · rfl
  · rw [bare, List.filterMap_append, silent, List.append_nil]

theorem IsWritten.refusals_portable (written : root.IsWritten)
    (unchecked : ∀ symbol ∈ root.preorder, symbol.argument.Unchecked) (files : Files)
    (args : List String) : (root.portable.parse files args).refusals.map ErrorReport.ofError =
      (root.parse files args).refusals.map ErrorReport.ofError := by
  rw [written.reports_refusals, written.portable.reports_refusals, written.bare_portable,
    List.filterMap_map]
  refine List.filterMap_congr fun occurrence member => ?_
  have inTree : occurrence.symbol ∈ root.preorder := by
    have grown := grown_routed written.numbered (List.append_nil (root.tokenize args)).symm
    obtain ⟨plain, met, rfl⟩ := List.mem_map.mp member
    obtain ⟨i, found⟩ := List.mem_iff_getElem?.mp met
    exact grown.arena.mem_preorder (Routing.links_getElem?_eq_some.mpr ⟨plain, found, rfl⟩)
  have same := (Verdict.of_portable files (written.argument _ inTree) (written.arity _ inTree)
    (unchecked _ inTree)).1
  have message (fault : Fault) : fault.message occurrence.portable.symbol =
    fault.message occurrence.symbol := message_portable _ fault
  simp only [Function.comp_apply, Occurrence.complaint?, same, message]
  rfl

/-- The token of the innermost command is the one that it was met with. -/
theorem IsWritten.tokenOf_command (written : root.IsWritten) (files : Files)
    (args : List String) :
    ((root.routed (root.tokenize args)).occurrences[
      (root.parse files args).command]?).map Occurrence.token =
        some ((root.parse files args).tokenOf (root.parse files args).command) := by
  have grown := grown_routed written.numbered (List.append_nil (root.tokenize args)).symm
  obtain ⟨defaults, bare, -⟩ := bare_arena written.numbered args
  obtain ⟨-, above, placed⟩ := grown.found List.mem_cons_self
  obtain ⟨occurrence, found, -⟩ := Routing.links_getElem?_eq_some.mp placed
  change (root.routed (root.tokenize args)).occurrences[(root.parse files args).command]? =
    some occurrence at found
  have bound := (List.getElem?_eq_some_iff.mp found).1
  have arena : ((root.arena args).occurrences.map Occurrence.bare)[
      (root.parse files args).command]? = some occurrence.bare := by
    rw [bare, List.getElem?_append_left (by rwa [List.length_map]), List.getElem?_map, found]
    rfl
  rw [List.getElem?_map] at arena
  obtain ⟨same, foundSame, bareSame⟩ := Option.map_eq_some_iff.mp arena
  rw [found, Option.map_some, Parse.tokenOf, written.occurrences_parse, List.getElem?_map,
    foundSame]
  exact congrArg (fun occurrence => some occurrence.token) bareSame.symm

theorem IsWritten.path_portable (written : root.IsWritten) (files : Files) (args : List String) :
    (root.portable.parse files args).path = (root.parse files args).path.map Frame.portable :=
  congrArg Routing.path (written.routed_portable args)

theorem IsWritten.unmatched_portable (written : root.IsWritten) (files : Files)
    (args : List String) :
    (root.portable.parse files args).unmatched = (root.parse files args).unmatched := by
  have same := congrArg Routing.unmatched (written.routed_portable args)
  exact same

theorem IsWritten.innermost_portable (written : root.IsWritten) (files : Files)
    (args : List String) :
    (root.portable.parse files args).innermost = (root.parse files args).innermost.portable := by
  rw [Parse.innermost, written.path_portable]
  rfl

theorem IsWritten.command_portable (written : root.IsWritten) (files : Files)
    (args : List String) :
    (root.portable.parse files args).command = (root.parse files args).command := by
  rw [Parse.command, written.path_portable]
  rfl

theorem IsWritten.tokenOf_portable (written : root.IsWritten) (files : Files)
    (args : List String) :
    (root.portable.parse files args).tokenOf (root.portable.parse files args).command =
      (root.parse files args).tokenOf (root.parse files args).command := by
  have twin := written.portable.tokenOf_command files args
  have own := written.tokenOf_command files args
  rw [written.command_portable, written.routed_portable, Routing.portable, List.getElem?_map,
    Option.map_map] at twin
  rw [written.command_portable]
  exact Option.some.inj (twin.symm.trans own)

theorem IsWritten.errors_portable (written : root.IsWritten)
    (unchecked : ∀ symbol ∈ root.preorder, symbol.argument.Unchecked) (files : Files)
    (args : List String) : (root.portable.parse files args).errors.map ErrorReport.ofError =
      (root.parse files args).errors.map ErrorReport.ofError := by
  have unparsed : (root.portable.parse files args).unparsed = (root.parse files args).unparsed :=
    congrArg Token.malformed (root.tokenize_portable args)
  have strict : (root.portable.parse files args).innermost.isStrict =
      (root.parse files args).innermost.isStrict := by
    rw [written.innermost_portable, portable_eq]
    rfl
  have required : (root.portable.parse files args).innermost.subcommandRequired =
      (root.parse files args).innermost.subcommandRequired := by
    rw [written.innermost_portable, portable_eq]
    rfl
  have commands : (root.portable.parse files args).innermost.children.any isCommand =
      (root.parse files args).innermost.children.any isCommand := by
    rw [written.innermost_portable, children_portable, List.any_map]
    exact congrArg _ (funext isCommand_portable)
  have leftovers : (root.portable.parse files args).leftovers =
      (root.parse files args).leftovers := by
    rw [Parse.leftovers, strict, written.unmatched_portable, Parse.leftovers]
  have missing : (root.portable.parse files args).missingSubcommand =
      (root.parse files args).missingSubcommand := by
    rw [Parse.missingSubcommand, required, commands, written.tokenOf_portable,
      written.command_portable, Parse.missingSubcommand]
  simp only [Parse.errors, List.map_append, unparsed, written.refusals_portable unchecked,
    leftovers, missing]

end Symbol

/-- What a command line means under a grammar, it means under its twin. -/
structure Faithful (root twin : Symbol) (files : Files) (args : List String) : Prop where
  tokens : (twin.parse files args).tokens = (root.parse files args).tokens
  unmatched : (twin.parse files args).unmatched = (root.parse files args).unmatched
  innermost : (twin.parse files args).innermost.name = (root.parse files args).innermost.name
  values : ∀ symbol ∈ root.preorder, symbol.argument.Kept →
    (twin.parse files args).verdictOf? symbol.id = (root.parse files args).verdictOf? symbol.id
  /-- Errors are the same once no values are checked for paths. -/
  errors : (∀ symbol ∈ root.preorder, symbol.argument.Unchecked) →
    (twin.parse files args).errors.map ErrorReport.ofError =
      (root.parse files args).errors.map ErrorReport.ofError

namespace GrammarFile

theorem export_faithful {file : GrammarFile} {root : Symbol} (built : file.build = .ok root)
    (finite : ∀ symbol ∈ root.preorder, ∀ value, symbol.argument.default = some value →
      value.isFinite = true) :
    ∃ twin, (ofSymbol root).build = .ok twin ∧ ∀ files args, Faithful root twin files args := by
  have written := written_of_built built
  refine ⟨root.portable, build_ofSymbol built finite, fun files args => ?_⟩
  constructor
  case tokens => exact root.tokenize_portable args
  case unmatched => exact written.unmatched_portable files args
  case innermost => rw [written.innermost_portable, Symbol.name_portable]
  case values => exact fun symbol inTree kept => written.verdict_portable files args inTree kept
  case errors => exact fun unchecked => written.errors_portable unchecked files args

/-- A tool that wants an existing file, with a mode that is a default only. -/
def lossy : GrammarFile := .ofCommand
  { name := "tool"
    argument := some { arity := some ⟨1, some 1⟩, existingFiles := true }
    options := [{ aliases := ["--mode"], argument := some { default := some (.string "fast") } }] }

theorem export_faithful_sample : ∃ root, lossy.build = .ok root ∧
    (∀ symbol ∈ root.preorder, ∀ value, symbol.argument.default = some value →
      value.isFinite = true) ∧
    ∃ twin, (ofSymbol root).build = .ok twin ∧ ∀ files args, Faithful root twin files args := by
  obtain ⟨root, built, defaults⟩ : ∃ root, lossy.build = .ok root ∧
      (root.preorder.all fun symbol =>
        (symbol.argument.default.map Value.isFinite).getD true) = true := ⟨_, rfl, rfl⟩
  have finite : ∀ symbol ∈ root.preorder, ∀ value, symbol.argument.default = some value →
      value.isFinite = true := by
    intro symbol member value given
    have finite := List.all_eq_true.mp defaults symbol member
    rw [given] at finite
    exact finite
  exact ⟨root, built, finite, export_faithful built finite⟩

/-- The file is no longer asked for, and the mode is gone. -/
theorem export_loses : ∃ root twin, lossy.build = .ok root ∧ (ofSymbol root).build = .ok twin ∧
    ((root.parse .absent ["x"]).errors.map ParseError.message =
      ["File does not exist: x"] ∧ (twin.parse .absent ["x"]).errors.map ParseError.message = []) ∧
    (((root.parse .absent ["x"]).verdictOf? 1).bind Verdict.value?).isSome = true ∧
    (twin.parse .absent ["x"]).verdictOf? 1 = none := by
  refine ⟨_, _, rfl, rfl, ⟨by decide +kernel, by decide +kernel⟩, by decide +kernel, ?_⟩
  rfl

end GrammarFile
end CommandGrammar
