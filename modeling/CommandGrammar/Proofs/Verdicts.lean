import CommandGrammar.Proofs.Conversion
import CommandGrammar.Proofs.Errors

/-! What a verdict speaks of the values that were given. A value that is not the default has been
earned: there were as many values as the arity asks for, each was allowed, together they convert to
it, and no validator has objected to it. The one exception is a flag, which is true by being there.
Values are missing if there are too few of them and nothing takes their place. -/
namespace CommandGrammar

/-- An option that is given without a value, and that means true by being given. -/
structure Occurrence.BareFlag (occurrence : Occurrence) : Prop where
  isOption : occurrence.symbol.isOption = true
  single : occurrence.symbol.arity.max = 1
  boolean : occurrence.symbol.argument.type = some .bool
  valueless : occurrence.texts = []

/-- A command that is given without a value, and that has a default. -/
structure Occurrence.BareDefault (occurrence : Occurrence) : Prop where
  isCommand : occurrence.symbol.isCommand = true
  given : occurrence.symbol.argument.default.isSome = true
  valueless : occurrence.texts = []

theorem Occurrence.bareFlag_iff {occurrence : Occurrence} :
    (occurrence.symbol.isOption && occurrence.texts.isEmpty &&
      occurrence.symbol.argument.isFlag) = true ↔ occurrence.BareFlag := by
  simp only [Argument.isFlag, Bool.and_eq_true, beq_iff_eq, List.isEmpty_iff]
  constructor
  · rintro ⟨⟨isOption, valueless⟩, single, boolean⟩
    exact ⟨isOption, single, boolean, valueless⟩
  · rintro ⟨isOption, single, boolean, valueless⟩
    exact ⟨⟨isOption, valueless⟩, single, boolean⟩

theorem Symbol.disallowed_eq_none_iff {symbol : Symbol} {texts : List String} :
    symbol.disallowed? texts = none ↔
      (symbol.argument.allowed ≠ [] → ∀ text ∈ texts, text ∈ symbol.argument.allowed) := by
  simp only [disallowed?, Option.map_eq_none_iff, List.find?_eq_none, Argument.allows,
    Bool.not_eq_true', Bool.not_eq_false, Bool.or_eq_true, List.isEmpty_iff, List.contains_iff_mem]
  constructor
  · exact fun allowed restricted text given => (allowed text given).resolve_left restricted
  · exact fun allowed text given => or_iff_not_imp_left.mpr fun restricted =>
      allowed restricted text given

namespace Verdict
variable {files : Files} {all : List Glimpse} {occurrence : Occurrence} {value : Value}
  {byDefault : Bool}

theorem complaint_eq_none_iff {view : View} {validators : List Validator} :
    complaint? files view validators = none ↔ ∀ validator ∈ validators, ∀ message,
      validator.check files view = some message → Text.allBlank message = true := by
  simp only [complaint?, List.find?_eq_none, List.mem_filterMap, Bool.not_eq_true',
    Bool.not_eq_false]
  constructor
  · exact fun silent validator member message speaks => silent message ⟨validator, member, speaks⟩
  · rintro silent message ⟨validator, member, speaks⟩
    exact silent validator member message speaks

/-- The values have passed every check, and the value is what they are converted to. -/
structure Earned (files : Files) (all : List Glimpse) (occurrence : Occurrence) (value : Value) :
    Prop where
  enough : occurrence.symbol.arity.min ≤ occurrence.texts.length
  few : occurrence.texts.length ≤ occurrence.symbol.arity.max
  allowed : occurrence.symbol.argument.allowed ≠ [] →
    ∀ text ∈ occurrence.texts, text ∈ occurrence.symbol.argument.allowed
  converted : occurrence.symbol.argument.convert occurrence.texts = .ok value
  valid : ∀ validator ∈ occurrence.symbol.argument.validators, ∀ message,
    validator.check files ⟨occurrence.glimpse, value, all⟩ = some message →
      Text.allBlank message = true

theorem defaultOr_eq_accepted_iff {argument : Argument} {otherwise : Verdict} :
    defaultOr argument otherwise = accepted value false ↔
      argument.default = none ∧ otherwise = accepted value false := by
  unfold defaultOr
  split <;> simp_all

theorem ofConversion_eq_accepted_iff :
    ofConversion files all occurrence = accepted value false ↔
      occurrence.symbol.argument.convert occurrence.texts = .ok value ∧
        complaint? files ⟨occurrence.glimpse, value, all⟩
          occurrence.symbol.argument.validators = none := by
  simp only [ofConversion]
  cases occurrence.symbol.argument.convert occurrence.texts with
  | error message => simp
  | ok other =>
    dsimp only
    constructor
    · intro accepts
      split at accepts
      · contradiction
      · rename_i silent
        cases accepts
        exact ⟨rfl, silent⟩
    · rintro ⟨same, silent⟩
      cases same
      rw [silent]

/-- Without the default and without presence alone to go by, a value has to be earned. -/
theorem ofValues_eq_accepted_iff (noFlag : ¬ occurrence.BareFlag) :
    ofValues files all occurrence = accepted value false ↔
      Earned files all occurrence value ∧
        (occurrence.texts = [] → occurrence.symbol.argument.default = none) := by
  rw [ofValues, if_neg (mt Occurrence.bareFlag_iff.mp noFlag)]
  constructor
  · intro accepts
    split at accepts
    · split at accepts
      · cases (defaultOr_eq_accepted_iff.mp accepts).2
      · contradiction
    rename_i enough
    split at accepts
    · contradiction
    rename_i few
    split at accepts
    · contradiction
    rename_i allowed
    have earns (converts : ofConversion files all occurrence = accepted value false) :
        Earned files all occurrence value := by
      obtain ⟨converted, silent⟩ := ofConversion_eq_accepted_iff.mp converts
      exact ⟨Nat.le_of_not_lt enough, Nat.le_of_not_lt few,
        Symbol.disallowed_eq_none_iff.mp allowed, converted, complaint_eq_none_iff.mp silent⟩
    dsimp only at accepts
    split at accepts
    · obtain ⟨none, converts⟩ := defaultOr_eq_accepted_iff.mp accepts
      exact ⟨earns converts, fun _ => none⟩
    · rename_i holds
      exact ⟨earns accepts, fun valueless => absurd (List.isEmpty_iff.mpr valueless) holds⟩
  · rintro ⟨earned, noDefault⟩
    have converts : ofConversion files all occurrence = accepted value false :=
      ofConversion_eq_accepted_iff.mpr ⟨earned.converted, complaint_eq_none_iff.mpr earned.valid⟩
    rw [if_neg (Nat.not_lt_of_le earned.enough), if_neg (Nat.not_lt_of_le earned.few),
      Symbol.disallowed_eq_none_iff.mpr earned.allowed]
    dsimp only
    split
    · rename_i valueless
      exact defaultOr_eq_accepted_iff.mpr ⟨noDefault (List.isEmpty_iff.mp valueless), converts⟩
    · exact converts

theorem of_bareFlag (explicit : occurrence.implicit = false) (flag : occurrence.BareFlag) :
    of files all occurrence = accepted (.bool true) false := by
  rw [of, if_neg (Bool.eq_false_iff.mp explicit), ofValues,
    if_pos (Occurrence.bareFlag_iff.mpr flag)]

/-- What an option or a command that was given has as its own value. -/
theorem of_eq_accepted_iff (explicit : occurrence.implicit = false) :
    of files all occurrence = accepted value false ↔
      occurrence.BareFlag ∧ value = .bool true ∨
        ¬ occurrence.BareFlag ∧ Earned files all occurrence value ∧
          (occurrence.texts = [] → occurrence.symbol.argument.default = none) := by
  by_cases flag : occurrence.BareFlag
  · rw [of_bareFlag explicit flag]
    constructor
    · intro same
      cases same
      exact .inl ⟨flag, rfl⟩
    · rintro (⟨-, rfl⟩ | ⟨noFlag, -⟩)
      · rfl
      · contradiction
  · rw [of, if_neg (Bool.eq_false_iff.mp explicit), ofValues_eq_accepted_iff flag]
    simp [flag]

theorem defaultOr_missing_iff {argument : Argument} :
    defaultOr argument (refused .missing) = refused .missing ↔
      argument.default.isSome = false := by
  unfold defaultOr
  cases argument.default <;> simp

theorem missing_ofValues_iff (noFlag : ¬ occurrence.BareFlag) :
    ofValues files all occurrence = refused .missing ↔
      occurrence.texts.length < occurrence.symbol.arity.min ∧ ¬ occurrence.BareDefault := by
  constructor
  · intro refuses
    have few : occurrence.texts.length < occurrence.symbol.arity.min := by
      cases refusal_ofValues refuses with
      | missing few => exact few
    refine ⟨few, fun ⟨isCommand, given, valueless⟩ => ?_⟩
    rw [ofValues, if_neg (mt Occurrence.bareFlag_iff.mp noFlag)] at refuses
    rw [valueless] at few
    simp only [valueless, few, if_true, isCommand, List.isEmpty_nil, Bool.and_self,
      defaultOr_missing_iff, given] at refuses
    contradiction
  · rintro ⟨few, noDefault⟩
    rw [ofValues, if_neg (mt Occurrence.bareFlag_iff.mp noFlag)]
    simp only [few, if_true]
    split
    · rename_i bare
      rw [Bool.and_eq_true, List.isEmpty_iff] at bare
      refine defaultOr_missing_iff.mpr (Bool.eq_false_iff.mpr fun given => noDefault ?_)
      exact ⟨bare.2, given, bare.1⟩
    · rfl

/-- Values are missing where there are too few and nothing takes their place. -/
theorem of_eq_missing_iff (explicit : occurrence.implicit = false) :
    of files all occurrence = refused .missing ↔
      occurrence.texts.length < occurrence.symbol.arity.min ∧
        ¬ occurrence.BareFlag ∧ ¬ occurrence.BareDefault := by
  by_cases flag : occurrence.BareFlag
  · simp [of_bareFlag explicit flag, flag]
  · rw [of, if_neg (Bool.eq_false_iff.mp explicit), missing_ofValues_iff flag]
    simp [flag]

end Verdict

/-- What the verdicts of a parse say of the values that were given. -/
structure Honest (files : Files) (parse : Parse) : Prop where
  accepted : ∀ resolved ∈ parse.occurrences, resolved.implicit = false → ∀ value,
    (resolved.verdict = .accepted value false ↔
      resolved.BareFlag ∧ value = .bool true ∨
        ¬ resolved.BareFlag ∧
          Verdict.Earned files (parse.occurrences.map (·.glimpse)) resolved.toOccurrence value ∧
          (resolved.texts = [] → resolved.symbol.argument.default = none))
  typed : ∀ resolved ∈ parse.occurrences, resolved.implicit = false → ∀ value,
    resolved.verdict = .accepted value false → ¬ resolved.BareFlag →
    resolved.symbol.argument.converter = none →
    resolved.symbol.argument.Means resolved.texts value
  missing : ∀ resolved ∈ parse.occurrences, resolved.implicit = false →
    (resolved.verdict = .refused .missing ↔
      resolved.texts.length < resolved.symbol.arity.min ∧
        ¬ resolved.BareFlag ∧ ¬ resolved.BareDefault)

theorem honest_parse (root : Symbol) (files : Files) (args : List String) :
    Honest files (root.parse files args) := by
  have judged := Symbol.judged_parse root files args
  constructor
  case accepted =>
    intro resolved member explicit value
    rw [judged resolved member]
    exact Verdict.of_eq_accepted_iff explicit
  case typed =>
    intro resolved member explicit value accepted noFlag ordinary
    rw [judged resolved member, Verdict.of_eq_accepted_iff explicit] at accepted
    rcases accepted with ⟨flag, -⟩ | ⟨-, earned, -⟩
    · contradiction
    · exact (Argument.convert_eq_ok_iff ordinary earned.few).mp earned.converted
  case missing =>
    intro resolved member explicit
    rw [judged resolved member]
    exact Verdict.of_eq_missing_iff explicit

/-- A tool that takes a pair of numbers, and has one if it is given none. -/
def Declaration.paired : Declaration :=
  .command
    { aliases := ["tool"],
      argument := { type := some .int, arity := some ⟨2, 2⟩,
                    default := some (.list [.int 7, .int 8]) } } none true []

/-- A default takes the place of no value at all, but not of one value out of two. -/
theorem default_spares_no_half : ∃ root, Declaration.paired.build = .ok root ∧
    ∃ resolved ∈ (root.parse .absent ["1"]).occurrences, resolved.implicit = false ∧
      ¬ (resolved.verdict = .refused .missing ↔
        resolved.texts.length < resolved.symbol.arity.min ∧ ¬ resolved.BareFlag ∧
          ¬ (resolved.symbol.isCommand = true ∧
            resolved.symbol.argument.default.isSome = true)) := by
  obtain ⟨root, built, found⟩ : ∃ root, Declaration.paired.build = .ok root ∧
      ((root.parse .absent ["1"]).occurrences.any fun resolved =>
        resolved.implicit = false ∧ resolved.symbol.isCommand = true ∧
          resolved.symbol.argument.default.isSome = true ∧
          resolved.verdict.fault? = some .missing) = true :=
    ⟨_, rfl, by decide +kernel⟩
  obtain ⟨resolved, member, fits⟩ := List.any_eq_true.mp found
  obtain ⟨explicit, isCommand, given, missing⟩ := of_decide_eq_true fits
  refine ⟨root, built, resolved, member, explicit, fun claimed => ?_⟩
  exact (claimed.mp (Verdict.fault_eq_some_iff.mp missing)).2.2 ⟨isCommand, given⟩

end CommandGrammar
