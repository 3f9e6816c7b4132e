import CommandGrammar.Proofs.Mirror

/-! The errors of a parse follow from what became of the values of its occurrences, from the
arguments and values left over, and from the innermost command. An occurrence is blamed for its
values once, unless they were accepted. The list is the one that is noted error by error while the
arguments are read. -/
namespace CommandGrammar

theorem Verdict.fault_eq_some_iff {verdict : Verdict} {fault : Fault} :
    verdict.fault? = some fault ↔ verdict = .refused fault := by
  cases verdict <;> simp [fault?]

namespace Occurrence

/-- The first value that is not allowed. -/
def disallowed? (occurrence : Occurrence) : Option String :=
  occurrence.texts.find? fun text => !occurrence.symbol.argument.allows text

/-- What the validators say first about the values, once they are converted. -/
def objection? (files : Files) (all : List Glimpse) (occurrence : Occurrence) : Option String :=
  match occurrence.symbol.argument.convert occurrence.texts with
  | .ok value => Verdict.complaint? files ⟨occurrence.glimpse, value, all⟩
      occurrence.symbol.argument.validators
  | .error _ => none

end Occurrence

namespace Verdict
variable {files : Files} {all : List Glimpse} {occurrence : Occurrence} {fault : Fault}

/-- Why values may be refused. -/
inductive Refusal (files : Files) (all : List Glimpse) (occurrence : Occurrence) :
    Fault → Prop where
  | missing : occurrence.texts.length < occurrence.symbol.arity.min →
      Refusal files all occurrence .missing
  | tooMany : occurrence.symbol.arity.max < occurrence.texts.length →
      Refusal files all occurrence (.tooMany occurrence.texts.length)
  | disallowed : occurrence.disallowed? = some text →
      Refusal files all occurrence (.disallowed text)
  | unconvertible : occurrence.disallowed? = none →
      occurrence.symbol.argument.convert occurrence.texts = .error message →
      Refusal files all occurrence (.unconvertible message)
  | invalid : occurrence.disallowed? = none → occurrence.objection? files all = some message →
      Refusal files all occurrence (.invalid message)

theorem refusal_ofConversion (allowed : occurrence.disallowed? = none)
    (refuses : ofConversion files all occurrence = refused fault) :
    Refusal files all occurrence fault := by
  simp only [ofConversion] at refuses
  split at refuses
  · rename_i message failed
    cases refuses
    exact .unconvertible allowed failed
  · rename_i value converted
    split at refuses
    · rename_i message complains
      cases refuses
      refine .invalid allowed ?_
      rw [Occurrence.objection?, converted]
      exact complains
    · contradiction

theorem refusal_defaultOr {argument : Argument} {otherwise : Verdict}
    (refuses : defaultOr argument otherwise = refused fault) :
    argument.default = none ∧ otherwise = refused fault := by
  unfold defaultOr at refuses
  split at refuses
  · contradiction
  · rename_i none
    exact ⟨none, refuses⟩

theorem refusal_ofValues (refuses : ofValues files all occurrence = refused fault) :
    Refusal files all occurrence fault := by
  simp only [ofValues] at refuses
  split at refuses
  · contradiction
  · split at refuses
    · rename_i few
      split at refuses
      · cases (refusal_defaultOr refuses).2
        exact .missing few
      · cases refuses
        exact .missing few
    · split at refuses
      · rename_i many
        cases refuses
        exact .tooMany many
      · split at refuses
        · rename_i found
          obtain ⟨text, first, rfl⟩ := Option.map_eq_some_iff.mp found
          cases refuses
          exact .disallowed first
        · rename_i allowed
          have allowed := Option.map_eq_none_iff.mp allowed
          split at refuses
          · exact refusal_ofConversion allowed (refusal_defaultOr refuses).2
          · exact refusal_ofConversion allowed refuses

theorem refusal_of (refuses : of files all occurrence = refused fault) :
    Refusal files all occurrence fault := by
  unfold of at refuses
  split at refuses
  · contradiction
  · exact refusal_ofValues refuses

end Verdict

namespace Resolved
variable {files : Files} {all : List Glimpse} {i : Nat} {resolved : Resolved}

/-- What an occurrence is blamed for, told from the outcome of its values. -/
def complaint? (files : Files) (all : List Glimpse) (i : Nat) (resolved : Resolved) :
    Option Complaint :=
  let symbol := resolved.symbol
  match resolved.verdict.outcome with
  | .success _ => none
  | .missing => some ⟨.missing, Fault.missingMessage symbol, some i, resolved.token, false⟩
  | .tooMany => some
      ⟨.tooMany, Fault.tooManyMessage symbol resolved.tokens.length, some i, resolved.token, false⟩
  | .unconvertible message => some
      ⟨.unconvertible, message, some i, resolved.token, symbol.isOption && symbol.arity.min == 0⟩
  | .unparsed =>
    match resolved.disallowed? with
    | some text => some
        ⟨.disallowed text symbol.argument.allowed, Fault.missingMessage symbol, some i,
          resolved.token, false⟩
    | none => (resolved.objection? files all).map fun message =>
        ⟨.invalid, message, some i, resolved.token, false⟩

/-- The error of a refused occurrence is the one that its outcome calls for. -/
theorem complaint_of_verdict
    (verdict : resolved.verdict = .of files all resolved.toOccurrence) :
    resolved.complaint? files all i =
      resolved.verdict.fault?.map fun fault => (ParseError.refused i resolved fault).complaint := by
  cases given : resolved.verdict with
  | accepted value byDefault => simp only [complaint?, given]; rfl
  | refused fault =>
    have refusal := Verdict.refusal_of (verdict.symm.trans given)
    cases refusal with
    | missing => simp only [complaint?, given]; rfl
    | tooMany =>
      simp only [complaint?, given, Occurrence.texts, List.length_map]
      rfl
    | disallowed first =>
      simp only [complaint?, given, Verdict.outcome, Outcome.ofFault, first]
      rfl
    | unconvertible => simp only [complaint?, given]; rfl
    | invalid allowed objects =>
      simp only [complaint?, given, Verdict.outcome, Outcome.ofFault, allowed, objects]
      rfl

theorem complaint_isSome (verdict : resolved.verdict = .of files all resolved.toOccurrence) :
    (resolved.complaint? files all i).isSome = !resolved.verdict.outcome.isSuccess := by
  rw [complaint_of_verdict verdict, Option.isSome_map]
  cases resolved.verdict with
  | accepted => rfl
  | refused fault => cases fault <;> rfl

theorem complaint_blames (verdict : resolved.verdict = .of files all resolved.toOccurrence)
    {complaint : Complaint} (complains : resolved.complaint? files all i = some complaint) :
    complaint.occurrence? = some i ∧ complaint.cause.isRefusal = true := by
  rw [complaint_of_verdict verdict, Option.map_eq_some_iff] at complains
  obtain ⟨fault, -, rfl⟩ := complains
  exact ⟨rfl, Cause.isRefusal_ofFault resolved.symbol fault⟩

end Resolved

namespace Parse
variable {files : Files} {parse : Parse}

/-- The verdicts are those on the occurrences among all that were met. -/
def Judged (files : Files) (parse : Parse) : Prop :=
  ∀ resolved ∈ parse.occurrences,
    resolved.verdict = .of files (parse.occurrences.map (·.glimpse)) resolved.toOccurrence

theorem mem_indexed {i : Nat} {resolved : Resolved} :
    (i, resolved) ∈ parse.indexed ↔ parse.occurrences[i]? = some resolved := by
  simp only [indexed, List.mem_map, Prod.exists, Prod.mk.injEq]
  constructor
  · rintro ⟨other, j, listed, rfl, rfl⟩
    exact List.mk_mem_zipIdx_iff_getElem?.mp listed
  · intro found
    exact ⟨resolved, i, List.mk_mem_zipIdx_iff_getElem?.mpr found, rfl, rfl⟩

theorem filter_zipIdx (occurrences : List Resolved) (start i : Nat) :
    (occurrences.zipIdx start).filter (fun entry => entry.2 == i) =
      if start ≤ i then (occurrences[i - start]?.map fun resolved => (resolved, i)).toList
      else [] := by
  induction occurrences generalizing start with
  | nil => split <;> rfl
  | cons first rest ih =>
    rw [List.zipIdx_cons]
    rcases Nat.lt_trichotomy start i with before | rfl | after
    · have offset : i - start = i - (start + 1) + 1 := by omega
      rw [List.filter_cons_of_neg (by simp; omega), ih, if_pos (Nat.succ_le_of_lt before),
        if_pos (Nat.le_of_lt before),
        offset, List.getElem?_cons_succ]
    · rw [List.filter_cons_of_pos (by simp), ih, if_neg (by omega), if_pos (Nat.le_refl _),
        Nat.sub_self, List.getElem?_cons_zero]
      rfl
    · rw [List.filter_cons_of_neg (by simp; omega), ih, if_neg (by omega), if_neg (by omega)]

theorem indexed_at (parse : Parse) (i : Nat) :
    parse.indexed.filter (fun entry => entry.1 == i) =
      (parse.occurrences[i]?.map fun resolved => (i, resolved)).toList := by
  rw [indexed, List.filter_map]
  simp only [Function.comp_def]
  rw [filter_zipIdx, if_pos (Nat.zero_le i), Nat.sub_zero]
  cases parse.occurrences[i]? <;> rfl

/-- What the occurrences are blamed for, in their order. -/
def blames (files : Files) (parse : Parse) : List Complaint :=
  parse.indexed.filterMap fun entry =>
    entry.2.complaint? files (parse.occurrences.map (·.glimpse)) entry.1

theorem complaints_refusals (judged : parse.Judged files) :
    parse.refusals.map ParseError.complaint = parse.blames files := by
  rw [refusals, blames, List.map_filterMap]
  apply List.filterMap_congr
  rintro ⟨i, resolved⟩ listed
  rw [Resolved.complaint_of_verdict
    (judged resolved (List.mem_of_getElem? (mem_indexed.mp listed))), Option.map_map]
  rfl

/-- Of what the occurrences are blamed for, the part of one of them. -/
theorem blames_of (judged : parse.Judged files) (i : Nat) :
    (parse.blames files).filter (fun complaint => complaint.occurrence? == some i) =
      (parse.occurrences[i]?.bind
        (·.complaint? files (parse.occurrences.map (·.glimpse)) i)).toList := by
  have chosen : ∀ entry ∈ parse.indexed,
      (entry.2.complaint? files (parse.occurrences.map (·.glimpse)) entry.1).filter
        (fun complaint => complaint.occurrence? == some i) =
      if entry.1 == i then
        entry.2.complaint? files (parse.occurrences.map (·.glimpse)) entry.1
      else none := by
    rintro ⟨j, resolved⟩ listed
    have verdict := judged resolved (List.mem_of_getElem? (mem_indexed.mp listed))
    cases complains : resolved.complaint? files (parse.occurrences.map (·.glimpse)) j with
    | none => split <;> rfl
    | some complaint =>
      have blamed := (Resolved.complaint_blames verdict complains).1
      simp [Option.filter_some, blamed]
  rw [blames, List.filter_filterMap, List.filterMap_congr chosen, ← List.filterMap_filter,
    indexed_at]
  cases parse.occurrences[i]? with
  | none => rfl
  | some resolved =>
    cases complains : resolved.complaint? files (parse.occurrences.map (·.glimpse)) i <;>
      simp [complains]

/-- The errors as they are told, one part after the other. -/
theorem complaints_errors (judged : parse.Judged files) {innermost : Resolved}
    (found : parse.occurrences[parse.command]? = some innermost) :
    parse.errors.map ParseError.complaint =
      (parse.tokens.filter (·.kind == .unparsed)).map (fun token =>
        ⟨.malformed, token.malformedMessage, none, token, false⟩) ++
      parse.blames files ++
      (if parse.innermost.isStrict then
        parse.unmatched.map fun token =>
          ⟨.unrecognized, s!"Unrecognized command or argument '{token.text}'", none, token, false⟩
      else []) ++
      if parse.innermost.subcommandRequired && parse.innermost.children.any Symbol.isCommand then
        [⟨.subcommandMissing, "Required command was not provided.", some parse.command,
          innermost.token, false⟩]
      else [] := by
  have blamed : parse.tokenOf parse.command = innermost.token := by rw [tokenOf, found]
  rw [errors, List.map_append, List.map_append, List.map_append, complaints_refusals judged,
    leftovers, missingSubcommand, blamed, List.map_map]
  congr 1
  · congr 1
    split
    · exact List.map_map
    · rfl
  · split <;> rfl

/-- The complaint blames an occurrence for its values. -/
def refuses (i : Nat) (complaint : Complaint) : Bool :=
  complaint.cause.isRefusal && complaint.occurrence? == some i

theorem filter_refuses {part : List Complaint} (i : Nat)
    (idle : ∀ complaint ∈ part, complaint.cause.isRefusal = false) :
    part.filter (refuses i) = [] := by
  apply List.filter_eq_nil_iff.mpr
  intro complaint member
  simp [refuses, idle complaint member]

theorem filter_refuses_blames (judged : parse.Judged files) {i : Nat} {resolved : Resolved}
    (foundAt : parse.occurrences[i]? = some resolved) :
    (parse.blames files).filter (refuses i) =
      (resolved.complaint? files (parse.occurrences.map (·.glimpse)) i).toList := by
  have verdict := judged resolved (List.mem_of_getElem? foundAt)
  unfold refuses
  rw [← List.filter_filter, blames_of judged, foundAt, Option.bind_some]
  apply List.filter_eq_self.mpr
  intro complaint member
  exact (Resolved.complaint_blames verdict (Option.mem_toList.mp member)).2

/-- Only the part of the occurrences blames any values. -/
theorem blamed_once (judged : parse.Judged files) {innermost : Resolved}
    (found : parse.occurrences[parse.command]? = some innermost) {i : Nat} {resolved : Resolved}
    (foundAt : parse.occurrences[i]? = some resolved) :
    ((parse.errors.map ParseError.complaint).filter (refuses i)).length =
      if resolved.verdict.outcome.isSuccess then 0 else 1 := by
  have verdict := judged resolved (List.mem_of_getElem? foundAt)
  rw [complaints_errors judged found, List.filter_append, List.filter_append,
    List.filter_append, filter_refuses_blames judged foundAt, filter_refuses, filter_refuses,
    filter_refuses, List.nil_append, List.append_nil, List.append_nil, Option.length_toList,
    Resolved.complaint_isSome verdict]
  · cases resolved.verdict.outcome.isSuccess <;> rfl
  · intro complaint member
    split at member
    · cases List.mem_singleton.mp member
      rfl
    · cases member
  · intro complaint member
    split at member
    · obtain ⟨token, -, rfl⟩ := List.mem_map.mp member
      rfl
    · cases member
  · intro complaint member
    obtain ⟨token, -, rfl⟩ := List.mem_map.mp member
    rfl

/-- The values of an occurrence are refused in the errors exactly if its verdict refuses them. -/
theorem refused_mem_errors {i : Nat} {resolved : Resolved} {fault : Fault} :
    .refused i resolved fault ∈ parse.errors ↔
      parse.occurrences[i]? = some resolved ∧ resolved.verdict = .refused fault := by
  have refusal : .refused i resolved fault ∈ parse.errors ↔
      .refused i resolved fault ∈ parse.refusals := by
    simp only [errors, leftovers, missingSubcommand, List.mem_append, List.mem_map, reduceCtorEq,
      and_false, exists_false, false_or]
    constructor
    · rintro ((member | member) | member)
      · exact member
      · split at member <;> simp at member
      · split at member <;> simp at member
    · exact fun member => .inl (.inl member)
  rw [refusal, refusals, List.mem_filterMap]
  constructor
  · rintro ⟨⟨j, other⟩, listed, refused⟩
    obtain ⟨reason, given, same⟩ := Option.map_eq_some_iff.mp refused
    cases same
    exact ⟨mem_indexed.mp listed, Verdict.fault_eq_some_iff.mp given⟩
  · rintro ⟨found, verdict⟩
    refine ⟨(i, resolved), mem_indexed.mpr found, ?_⟩
    exact Option.map_eq_some_iff.mpr ⟨fault, Verdict.fault_eq_some_iff.mpr verdict, rfl⟩

theorem refusals_eq_nil_iff :
    parse.refusals = [] ↔
      ∀ resolved ∈ parse.occurrences, resolved.verdict.outcome.isSuccess = true := by
  have success : ∀ verdict : Verdict,
      verdict.fault? = none ↔ verdict.outcome.isSuccess = true := by
    rintro (_ | fault)
    · exact ⟨fun _ => rfl, fun _ => rfl⟩
    · cases fault <;> simp [Verdict.fault?, Verdict.outcome, Outcome.ofFault, Outcome.isSuccess]
  simp only [refusals, List.filterMap_eq_nil_iff, Option.map_eq_none_iff, success]
  constructor
  · intro all resolved member
    obtain ⟨i, found⟩ := List.mem_iff_getElem?.mp member
    exact all (i, resolved) (mem_indexed.mpr found)
  · rintro all ⟨i, resolved⟩ listed
    exact all resolved (List.mem_of_getElem? (mem_indexed.mp listed))

end Parse

theorem Symbol.judged_parse (root : Symbol) (files : Files) (args : List String) :
    (root.parse files args).Judged files := by
  have glimpses : (root.parse files args).occurrences.map (·.glimpse) =
      (root.arena args).occurrences.map Occurrence.glimpse := by
    rw [← occurrences_parse root files, List.map_map]
    rfl
  intro resolved member
  rw [glimpses]
  obtain ⟨occurrence, -, rfl⟩ := List.mem_map.mp member
  rfl

namespace ParseError

/-- What is noted of one item after the other stands in their order behind what was there. -/
theorem foldl_note {α : Type} {note : List ParseError → α → List ParseError}
    {note? : α → Option ParseError}
    (each : ∀ errors item, note errors item = errors ++ (note? item).toList)
    (errors : List ParseError) (items : List α) :
    items.foldl note errors = errors ++ items.filterMap note? := by
  induction items generalizing errors with
  | nil => exact (List.append_nil errors).symm
  | cons item rest ih =>
    rw [List.foldl_cons, each, ih, List.append_assoc, List.filterMap_cons]
    cases note? item <;> rfl

theorem foldl_noteToken (tokens : List Token) :
    tokens.foldl noteToken [] = (Token.malformed tokens).map malformedDirective := by
  have each : ∀ errors token, noteToken errors token = errors ++
      (if token.kind == .unparsed then some (malformedDirective token) else none).toList := by
    intro errors token
    unfold noteToken
    split
    · rfl
    · exact (List.append_nil errors).symm
  rw [foldl_note each, List.nil_append, Token.malformed, ← List.filterMap_eq_map,
    List.filterMap_filter]
  rfl

theorem foldl_noteVerdict (errors : List ParseError) (parse : Parse) :
    parse.occurrences.zipIdx.foldl noteVerdict errors = errors ++ parse.refusals := by
  have each : ∀ errors entry, noteVerdict errors entry = errors ++
      (entry.1.verdict.fault?.map (refused entry.2 entry.1)).toList := by
    intro errors entry
    unfold noteVerdict
    cases entry.1.verdict with
    | accepted => exact (List.append_nil errors).symm
    | refused => rfl
  rw [foldl_note each, Parse.refusals, Parse.indexed, List.filterMap_map]
  rfl

theorem foldl_noteLeftover (tokens : List Token) :
    tokens.foldl noteLeftover [] = tokens.map unrecognized := by
  have each : ∀ errors token, noteLeftover errors token =
      errors ++ (some (unrecognized token)).toList := fun _ _ => rfl
  rw [foldl_note each, List.nil_append]
  exact congrFun List.filterMap_eq_map tokens

end ParseError

namespace Symbol

/-- The routing notes at its end what the innermost command does not put up with. -/
theorem finish_routed (root : Symbol) (files : Files) (args : List String) :
    ((Routing.start root).run (root.tokenize args)).finish =
      (root.parse files args).leftovers ++ (root.parse files args).missingSubcommand := by
  have blamed (i : Nat) : (root.parse files args).tokenOf i = (root.arena args).tokenOf i := by
    rw [Parse.tokenOf, Routing.tokenOf, ← occurrences_parse root files, List.getElem?_map]
    cases (root.parse files args).occurrences[i]? <;> rfl
  rw [Parse.leftovers, Parse.missingSubcommand, blamed, ← ParseError.foldl_noteLeftover]
  change (if (root.parse files args).innermost.subcommandRequired &&
    (root.parse files args).innermost.children.any Symbol.isCommand then _ ++ _ else _) = _
  split
  · rfl
  · exact (List.append_nil _).symm

/-- The errors of a parse are those that have been noted while the arguments were read. -/
theorem notedErrors_eq (root : Symbol) (files : Files) (args : List String) :
    root.notedErrors files args = (root.parse files args).errors := by
  rw [notedErrors, ParseError.foldl_noteToken, Parse.errors, List.append_assoc,
    ← finish_routed root files args]
  exact congrArg (· ++ _) (ParseError.foldl_noteVerdict _ (root.parse files args))

end Symbol

/-- The errors of a parse. -/
structure Complains (files : Files) (parse : Parse) : Prop where
  judged : parse.Judged files
  errors : ∃ innermost, parse.occurrences[parse.command]? = some innermost ∧
    innermost.symbol = parse.innermost ∧
    parse.errors.map ParseError.complaint =
      (parse.tokens.filter (·.kind == .unparsed)).map (fun token =>
        ⟨.malformed, token.malformedMessage, none, token, false⟩) ++
      parse.blames files ++
      (if parse.innermost.isStrict then
        parse.unmatched.map fun token =>
          ⟨.unrecognized, s!"Unrecognized command or argument '{token.text}'", none, token, false⟩
      else []) ++
      if parse.innermost.subcommandRequired && parse.innermost.children.any Symbol.isCommand then
        [⟨.subcommandMissing, "Required command was not provided.", some parse.command,
          innermost.token, false⟩]
      else []
  /-- An occurrence is blamed for its values once, unless they were accepted. -/
  once : ∀ {i resolved}, parse.occurrences[i]? = some resolved →
    ((parse.errors.map ParseError.complaint).filter (Parse.refuses i)).length =
      if resolved.verdict.outcome.isSuccess then 0 else 1
  free : parse.errors = [] ↔
    (∀ resolved ∈ parse.occurrences, resolved.verdict.outcome.isSuccess = true) ∧
      parse.unparsed = [] ∧ (parse.innermost.isStrict = true → parse.unmatched = []) ∧
      ¬ (parse.innermost.subcommandRequired = true ∧
        ∃ child ∈ parse.innermost.children, child.isCommand = true)

theorem complains_parse {heading : Heading} {subcommandRequired : Option Bool} {strict : Bool}
    {children : List Declaration} {root : Symbol}
    (built : (Declaration.command heading subcommandRequired strict children).build = .ok root)
    (files : Files) (args : List String) : Complains files (root.parse files args) := by
  have numbered := Declaration.numbered_build built
  have judged := Symbol.judged_parse root files args
  obtain ⟨-, above, placed⟩ := (Symbol.grown_arena numbered args).found List.mem_cons_self
  obtain ⟨innermost, found, linked⟩ := Symbol.link_parse_inv files placed
  rw [← Symbol.path_parse root files] at found linked
  have symbols : innermost.symbol = (root.parse files args).innermost := (Prod.mk.inj linked).1
  generalize root.parse files args = parse at judged found symbols
  constructor
  case judged => exact judged
  case errors =>
    exact ⟨innermost, found, symbols, Parse.complaints_errors judged found⟩
  case once =>
    intro i resolved foundAt
    exact Parse.blamed_once judged found foundAt
  case free =>
    rw [Parse.errors]
    simp only [List.append_eq_nil_iff, List.map_eq_nil_iff, Parse.refusals_eq_nil_iff,
      Parse.leftovers, Parse.missingSubcommand, Bool.and_eq_true, List.any_eq_true,
      ite_eq_right_iff, List.cons_ne_nil, imp_false, and_assoc, and_left_comm]

theorem complains_parse_sample : ∃ root, Declaration.sample.build = .ok root ∧
    Complains .absent (root.parse .absent ["-d", "x", "run"]) := by
  obtain ⟨root, built⟩ : ∃ root, Declaration.sample.build = .ok root := ⟨_, rfl⟩
  exact ⟨root, built, complains_parse built _ _⟩

end CommandGrammar
