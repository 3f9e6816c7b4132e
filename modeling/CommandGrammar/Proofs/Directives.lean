import CommandGrammar.Proofs.Keyed
import CommandGrammar.Proofs.Placement
import CommandGrammar.Proofs.Spelling

/-! Brackets in front of a command line are out of band. They make directives or errors, and what
stands behind them is read as if it stood alone, only further to the right. -/
namespace CommandGrammar

namespace Directive

/-- A directive is written in brackets: its name, and its value behind a colon. -/
def IsWritten (directive : Directive) (raw : String) : Prop :=
  IsNamed directive.name.toList ∧ raw.toList = '[' :: (directive.body ++ [']'])

/-- Whether an argument is a directive. -/
def IsWellFormed (raw : String) : Prop := ∃ directive : Directive, directive.IsWritten raw

theorem isWellFormed_iff {raw : String} : IsWellFormed raw ↔ (parse? raw).isSome = true := by
  simp only [IsWellFormed, IsWritten, ← parse_eq_some_iff, Option.isSome_iff_exists]

instance (raw : String) : Decidable (IsWellFormed raw) := decidable_of_iff _ isWellFormed_iff.symm

/-- What is read of some arguments are the directives that are written there. -/
theorem written_filterMap (front : List String) :
    List.Forall₂ (fun raw directive => directive.IsWritten raw)
      (front.filter fun raw => IsWellFormed raw) (front.filterMap parse?) := by
  induction front with
  | nil => exact .nil
  | cons raw rest ih =>
    cases read : parse? raw with
    | none =>
      rw [List.filter_cons_of_neg (by simp [isWellFormed_iff, read]),
        List.filterMap_cons_none read]
      exact ih
    | some directive =>
      rw [List.filter_cons_of_pos (by simp [isWellFormed_iff, read]),
        List.filterMap_cons_some read]
      exact .cons (parse_eq_some_iff.mp read) ih

end Directive

namespace Token

/-- The directives among brackets. -/
theorem directives_each (position : Nat) (front : List String) :
    ((each bracketKind position front).filter (·.kind == .directive)).filterMap
      (fun token => Directive.parse? token.text) = front.filterMap Directive.parse? := by
  induction front generalizing position with
  | nil => rfl
  | cons raw rest ih =>
    rw [each, List.filterMap_cons, ← ih (position + 1)]
    cases read : Directive.parse? raw <;> simp [bracketKind, Piece.ofBracket, read]

/-- The brackets that are no directives. -/
theorem malformed_each (position : Nat) (front : List String) :
    malformed (each bracketKind position front) =
      ((front.zipIdx position).filter fun (raw, _) => ¬ Directive.IsWellFormed raw).map
        fun (raw, place) => ⟨raw, .unparsed, some place⟩ := by
  induction front generalizing position with
  | nil => rfl
  | cons raw rest ih =>
    simp only [malformed] at ih ⊢
    rw [each, List.zipIdx_cons, List.filter_cons, List.filter_cons, ih (position + 1)]
    cases read : Directive.parse? raw <;>
      simp [bracketKind, Piece.ofBracket, Directive.isWellFormed_iff, read]

end Token

namespace Classifier

theorem tokens_moved (reader : Classifier) (position shift : Nat) (args : List String) :
    reader.tokens (position + shift) args =
      (reader.tokens position args).map (Token.moved (· + shift)) := by
  induction args generalizing reader position with
  | nil => rfl
  | cons raw rest ih =>
    rw [tokens_cons, tokens_cons, List.map_append, List.map_map, Nat.add_right_comm, ih]
    rfl

end Classifier

namespace Symbol
variable {root : Symbol} {front args : List String}

theorem tokenize_behind (root : Symbol) (args : List String)
    (opens : ∀ raw ∈ front, Classifier.opensBracket raw = true) :
    root.tokenize (front ++ args) = Token.each Token.bracketKind 0 front ++
      (root.tokenize args).map (Token.moved (· + front.length)) := by
  rw [tokenize, Classifier.tokens_append, Classifier.tokens_brackets rfl opens,
    Classifier.run_brackets rfl opens, Classifier.tokens_moved]
  rfl

theorem routed_behind (root : Symbol) (args : List String)
    (opens : ∀ raw ∈ front, Classifier.opensBracket raw = true) :
    root.routed (root.tokenize (front ++ args)) =
      (root.routed (root.tokenize args)).moved (· + front.length) := by
  have aside : ∀ token ∈ Token.each Token.bracketKind 0 front,
      token.kind = .directive ∨ token.kind = .unparsed := by
    intro token member
    rw [Token.kind_each member, Token.bracketKind_eq_unparsed]
    exact Classical.em _
  rw [tokenize_behind root args opens, routed, Routing.run_append, Routing.run_aside aside]
  exact Routing.run_moved _ (Routing.start root) (root.tokenize args)

/-- A command line without brackets has tokens of the other kinds only. -/
theorem tokenize_plain (root : Symbol)
    (plain : ∀ raw ∈ args.head?, Classifier.opensBracket raw = false) :
    ∀ token ∈ root.tokenize args, token.kind ≠ .directive ∧ token.kind ≠ .unparsed := by
  obtain ⟨behind, split, outside⟩ := root.tokenize_outside args
  have none : CommandLine.brackets args = [] := by
    cases args with
    | nil => rfl
    | cons raw rest => exact List.takeWhile_cons_of_neg (by simp [plain raw rfl])
  rw [split, none]
  exact outside

/-- Directives come from the brackets in front. -/
theorem tokenize_directives (root : Symbol)
    (opens : ∀ raw ∈ front, Classifier.opensBracket raw = true)
    (plain : ∀ raw ∈ args.head?, Classifier.opensBracket raw = false) :
    (root.tokenize (front ++ args)).filter (·.kind == .directive) =
      (Token.each Token.bracketKind 0 front).filter (·.kind == .directive) := by
  rw [tokenize_behind root args opens, List.filter_append, List.append_right_eq_self,
    List.filter_eq_nil_iff]
  intro other moved
  obtain ⟨token, member, rfl⟩ := List.mem_map.mp moved
  simpa using (root.tokenize_plain plain token member).1

end Symbol

/-- A parse of arguments behind brackets, compared with the parse of the arguments alone. -/
structure Parse.Behind (front : List String) (whole alone : Parse) : Prop where
  tokens : whole.tokens =
    Token.each Token.bracketKind 0 front ++ alone.tokens.map (Token.moved (· + front.length))
  occurrences : whole.occurrences = alone.occurrences.map (Resolved.moved (· + front.length))
  path : whole.path = alone.path
  unmatched : whole.unmatched = alone.unmatched.map (Token.moved (· + front.length))
  /-- The brackets that are no directives come first. -/
  errors : whole.errors =
    ((front.zipIdx.filter fun (raw, _) => ¬ Directive.IsWellFormed raw).map fun (raw, place) =>
      .malformedDirective ⟨raw, .unparsed, some place⟩) ++
    alone.errors.map (ParseError.moved (· + front.length))
  /-- Directives are listed in the order of their names, with their values. -/
  directives : ∃ written,
    List.Forall₂ (fun raw directive => directive.IsWritten raw)
      (front.filter fun raw => Directive.IsWellFormed raw) written ∧
    whole.directives = (written.map Directive.name).eraseDups.map fun name =>
      (name, (written.filter (·.name == name)).filterMap Directive.value)
  noDirectives : alone.directives = []

namespace Symbol
variable {root : Symbol} {front args : List String} {files : Files}

theorem parse_behind (numbered : root.Numbered) (ignores : root.IgnoresPositions) (files : Files)
    (args : List String) (opens : ∀ raw ∈ front, Classifier.opensBracket raw = true) :
    root.parse files (front ++ args) =
      { (root.parse files args).moved (· + front.length) with
        args := front ++ args
        tokens := root.tokenize (front ++ args) } := by
  have resolved := resolve_moved numbered ignores (· + front.length) files args
  have routing : (Routing.start root).run (root.tokenize (front ++ args)) =
      (root.routed (root.tokenize args)).moved (· + front.length) := routed_behind root args opens
  simp only [parse, routing, resolved]
  rfl

theorem directives_behind (files : Files)
    (opens : ∀ raw ∈ front, Classifier.opensBracket raw = true)
    (plain : ∀ raw ∈ args.head?, Classifier.opensBracket raw = false) :
    (root.parse files (front ++ args)).directives =
      ((front.filterMap Directive.parse?).map Directive.name).eraseDups.map fun name =>
        (name, ((front.filterMap Directive.parse?).filter (·.name == name)).filterMap
          Directive.value) := by
  -- A directive without value adds nothing to the list under its name.
  have gathered := Keyed.foldl_alter Directive.name (fun directive => directive.value.toList)
    (front.filterMap Directive.parse?)
  simp only [← List.filterMap_eq_flatMap_toList] at gathered
  rw [← gathered, Parse.directives]
  simp only [parse, tokenize_directives root opens plain, Token.directives_each]
  rfl

theorem errors_behind (numbered : root.Numbered) (ignores : root.IgnoresPositions)
    (files : Files) (opens : ∀ raw ∈ front, Classifier.opensBracket raw = true)
    (plain : ∀ raw ∈ args.head?, Classifier.opensBracket raw = false) :
    (root.parse files (front ++ args)).errors =
      ((front.zipIdx.filter fun (raw, _) => ¬ Directive.IsWellFormed raw).map fun (raw, place) =>
        .malformedDirective ⟨raw, .unparsed, some place⟩) ++
      (root.parse files args).errors.map (ParseError.moved (· + front.length)) := by
  have alone : (root.parse files args).unparsed = [] := by
    apply List.filter_eq_nil_iff.mpr
    intro token member
    simpa using (root.tokenize_plain plain token member).2
  have whole : (root.parse files (front ++ args)).unparsed =
      Token.malformed (Token.each Token.bracketKind 0 front) := by
    have moved := (Token.malformed_moved (· + front.length) (root.tokenize args)).trans
      (congrArg _ alone)
    change Token.malformed (root.tokenize (front ++ args)) = _
    rw [tokenize_behind root args opens, Token.malformed_append, moved, List.map_nil,
      List.append_nil]
  have behind := parse_behind numbered ignores files args opens
  rw [Parse.errors_moved behind, Parse.errors, whole, alone, Token.malformed_each, List.map_map]
  rfl

end Symbol

theorem behind_parse {heading : Heading} {subcommandRequired : Option Bool} {strict : Bool}
    {children : List Declaration} {root : Symbol}
    (built : (Declaration.command heading subcommandRequired strict children).build = .ok root)
    (ignores : root.IgnoresPositions) (files : Files) {front args : List String}
    (opens : ∀ raw ∈ front, Classifier.opensBracket raw = true)
    (plain : ∀ raw ∈ args.head?, Classifier.opensBracket raw = false) :
    Parse.Behind front (root.parse files (front ++ args)) (root.parse files args) := by
  have numbered := Declaration.numbered_build built
  have behind := Symbol.parse_behind numbered ignores files args opens
  constructor
  case tokens => exact Symbol.tokenize_behind root args opens
  case occurrences => rw [behind]; rfl
  case path => rw [behind]; rfl
  case unmatched => rw [behind]; rfl
  case errors => exact Symbol.errors_behind numbered ignores files opens plain
  case directives =>
    exact ⟨_, Directive.written_filterMap front, Symbol.directives_behind files opens plain⟩
  case noDirectives =>
    have nothing : (root.parse files ([] ++ args)).directives = _ :=
      Symbol.directives_behind files (List.forall_mem_nil _) plain
    exact nothing

/-- A check that a value is not the given one. -/
def Validator.barring (text : String) : Validator :=
  .custom fun view => if text ∈ view.texts then some s!"'{text}' is taken" else none

theorem Validator.barring_of_texts (text : String) (files : Files) {view other : View}
    (same : view.texts = other.texts) :
    (barring text).check files view = (barring text).check files other := by
  simp only [barring, check, same]

theorem Validator.barring_ignoresPositions (text : String) :
    (Validator.barring text).IgnoresPositions :=
  ignoresPositions_of_texts fun files _ _ same => barring_of_texts text files same

/-- A command with a check of each sort. -/
def Declaration.guarded : Declaration :=
  .command
    { aliases := ["tool"]
      argument := { type := some .string, validators := [.legalPaths, .barring "x"] } }
    none true []

/-- Directives with values and without, and a bracket that is none. -/
def CommandLine.fiveBrackets : List String := ["[a:1]", "[b", "[c]", "[a]", "[a:2:3]"]

theorem behind_parse_sample : ∃ root, Declaration.guarded.build = .ok root ∧
    root.IgnoresPositions ∧
    Parse.Behind CommandLine.fiveBrackets
      (root.parse .absent (CommandLine.fiveBrackets ++ ["tool", "x"]))
      (root.parse .absent ["tool", "x"]) ∧
    (root.parse .absent (CommandLine.fiveBrackets ++ ["tool", "x"])).directives =
      [("a", ["1", "2:3"]), ("c", [])] ∧
    (root.parse .absent (CommandLine.fiveBrackets ++ ["tool", "x"])).errors.map
        (fun error => (error.message, error.token.position)) =
      [("Invalid directive syntax '[b'", some 1), ("'x' is taken", some 5)] := by
  obtain ⟨root, built, validators, directives, errors⟩ : ∃ root,
      Declaration.guarded.build = .ok root ∧
      root.preorder.flatMap (·.argument.validators) = [.legalPaths, .barring "x"] ∧
      (root.parse .absent (CommandLine.fiveBrackets ++ ["tool", "x"])).directives =
        [("a", ["1", "2:3"]), ("c", [])] ∧
      (root.parse .absent (CommandLine.fiveBrackets ++ ["tool", "x"])).errors.map
          (fun error => (error.message, error.token.position)) =
        [("Invalid directive syntax '[b'", some 1), ("'x' is taken", some 5)] :=
    ⟨_, rfl, rfl, by decide +kernel, by decide +kernel⟩
  have ignores : root.IgnoresPositions := by
    intro symbol member validator guards
    have listed : validator ∈ root.preorder.flatMap (·.argument.validators) :=
      List.mem_flatMap.mpr ⟨symbol, member, guards⟩
    rw [validators, List.mem_pair] at listed
    rcases listed with rfl | rfl
    · exact Validator.ignoresPositions_of_builtin (fun _ same => nomatch same)
    · exact Validator.barring_ignoresPositions "x"
  exact ⟨root, built, ignores, behind_parse built ignores _ (by decide) (by decide), directives,
    errors⟩

end CommandGrammar
