import CommandGrammar.Proofs.Continuation

/-! What stands behind `--` can only be values of the innermost command. They fill it up to its
arity, and those for which it has no room are left over. Nothing else in a parse takes notice. -/
namespace CommandGrammar

theorem modify_append_left {α : Type} {front : List α} {i : Nat} (bound : i < front.length)
    (back : List α) (change : α → α) :
    (front ++ back).modify i change = front.modify i change ++ back := by
  induction front generalizing i with
  | nil => exact absurd bound (Nat.not_lt_zero _)
  | cons first rest ih =>
    cases i with
    | zero => rfl
    | succ i =>
      rw [List.cons_append, List.modify_succ_cons, List.modify_succ_cons,
        ih (Nat.lt_of_succ_lt_succ bound), List.cons_append]

/-- Changes at two places, or at one if they commute there, may be made in either order. -/
theorem modify_comm {α : Type} {change other : α → α}
    (commutes : ∀ a, other (change a) = change (other a)) (entries : List α) (i j : Nat) :
    (entries.modify i change).modify j other = (entries.modify j other).modify i change := by
  by_cases same : i = j
  · subst same
    rw [List.modify_modify_eq, List.modify_modify_eq]
    exact congrArg (entries.modify i) (funext commutes)
  · exact List.modify_modify_ne _ _ _ same

namespace Occurrence

/-- The occurrence with further values. -/
def taking (occurrence : Occurrence) (values : List Token) : Occurrence :=
  { occurrence with tokens := occurrence.tokens ++ values }

theorem modify_taking_nil (occurrences : List Occurrence) (i : Nat) :
    occurrences.modify i (·.taking []) = occurrences := by
  have same : (fun occurrence : Occurrence => occurrence.taking []) = id := by
    funext occurrence
    simp only [taking, List.append_nil, id]
  rw [same, List.modify_id]

theorem modify_taking_taking (occurrences : List Occurrence) (i : Nat) (values more : List Token) :
    (occurrences.modify i (·.taking values)).modify i (·.taking more) =
      occurrences.modify i (·.taking (values ++ more)) := by
  rw [List.modify_modify_eq]
  congr 1
  funext occurrence
  simp only [taking, Function.comp_apply, List.append_assoc]

end Occurrence

namespace Routing
variable {routing : Routing} {taken left : List Token} {frame : Frame}

/-- Behind `--`, when the innermost command has taken further values and others are left over. -/
def closed (routing : Routing) (taken left : List Token) : Routing where
  occurrences := routing.occurrences.modify routing.path.innermost.occurrence (·.taking taken)
  path := routing.path
  window := none
  started := true
  unmatched := routing.unmatched ++ left

/-- How many more values the innermost command may take. -/
def room (routing : Routing) : Nat :=
  routing.path.innermost.command.arity.max -
    (routing.tokensOf routing.path.innermost.occurrence).length

theorem closed_nil (routing : Routing) :
    routing.closed [] [] = { routing with window := none, started := true } := by
  simp only [closed, Occurrence.modify_taking_nil, List.append_nil]

theorem tokensOf_closed (present : routing.path.innermost.occurrence < routing.occurrences.length)
    (taken left : List Token) :
    (routing.closed taken left).tokensOf routing.path.innermost.occurrence =
      routing.tokensOf routing.path.innermost.occurrence ++ taken := by
  simp only [tokensOf, closed, List.getElem?_modify, List.getElem?_eq_getElem present, if_true]
  rfl

theorem hasRoom_closed
    (present : routing.path.innermost.occurrence < routing.occurrences.length)
    (taken left : List Token) :
    (routing.closed taken left).HasRoom ↔
      (routing.tokensOf routing.path.innermost.occurrence ++ taken).length <
        routing.path.innermost.command.arity.max := by
  rw [← tokensOf_closed present taken left]
  rfl

theorem room_closed (present : routing.path.innermost.occurrence < routing.occurrences.length)
    (taken left : List Token) :
    (routing.closed taken left).room = routing.path.innermost.command.arity.max -
      (routing.tokensOf routing.path.innermost.occurrence ++ taken).length := by
  rw [← tokensOf_closed present taken left]
  rfl

theorem step_closed {value : Token} (kind : value.kind = .argument) (taken left : List Token) :
    (routing.closed taken left).step value =
      { (routing.closed taken left).toCommand value with started := true } := by
  rw [Routing.step, kind]
  rfl

theorem step_closed_roomy {value : Token} (kind : value.kind = .argument)
    (room : (routing.closed taken left).HasRoom) :
    (routing.closed taken left).step value = routing.closed (taken ++ [value]) left := by
  have given := Occurrence.modify_taking_taking routing.occurrences
    routing.path.innermost.occurrence taken [value]
  rw [step_closed kind, toCommand_roomy _ _ room]
  exact congrArg (fun occurrences => Routing.mk occurrences routing.path none true
    (routing.unmatched ++ left)) given

theorem step_closed_full {value : Token} (kind : value.kind = .argument)
    (full : ¬ (routing.closed taken left).HasRoom) :
    (routing.closed taken left).step value = routing.closed taken (left ++ [value]) := by
  rw [step_closed kind, toCommand_full _ _ full]
  exact congrArg (Routing.mk _ routing.path none true) (List.append_assoc _ _ _)

/-- Values that the innermost command has room for go there, and the others nowhere. -/
theorem run_closed (present : routing.path.innermost.occurrence < routing.occurrences.length)
    {values : List Token} (areValues : ∀ value ∈ values, value.kind = .argument)
    {room : Nat} (capacity : (routing.closed taken left).room = room) :
    (routing.closed taken left).run values =
      routing.closed (taken ++ values.take room) (left ++ values.drop room) := by
  -- Each value that is taken shrinks the room by one; without room the rest is left over.
  induction values generalizing taken left room with
  | nil => simp only [run, List.foldl_nil, List.take_nil, List.drop_nil, List.append_nil]
  | cons value rest ih =>
    obtain ⟨kind, later⟩ := List.forall_mem_cons.mp areValues
    have roomy := hasRoom_closed present taken left
    rw [room_closed present] at capacity
    rw [run_cons]
    cases room with
    | zero =>
      rw [step_closed_full kind (by rw [roomy]; omega),
        ih later ((room_closed present _ _).trans capacity)]
      simp only [List.take_zero, List.drop_zero, List.append_assoc, List.singleton_append]
    | succ room =>
      have shrunk : (routing.closed (taken ++ [value]) left).room = room := by
        rw [room_closed present, ← List.append_assoc, List.length_append, List.length_singleton]
        omega
      rw [step_closed_roomy kind (roomy.mpr (by omega)), ih later shrunk]
      simp only [List.take_succ_cons, List.drop_succ_cons, List.append_assoc,
        List.singleton_append]

theorem childrenOf_closed (routing : Routing) (taken left : List Token) (i : Nat) :
    (routing.closed taken left).childrenOf i = routing.childrenOf i := by
  rw [childrenOf_eq, childrenOf_eq, closed, Occurrence.map_modify]
  exact fun _ => rfl

theorem occurrenceOf_closed (routing : Routing) (taken left : List Token) (frame : Frame)
    (option : Symbol) :
    (routing.closed taken left).occurrenceOf? frame option =
      routing.occurrenceOf? frame option := by
  refine occurrenceOf_congr ?_ (childrenOf_closed routing taken left) frame option
  rw [closed, Occurrence.map_modify]
  exact fun _ => rfl

theorem length_push (routing : Routing) (occurrence : Occurrence) :
    (routing.push occurrence).occurrences.length = routing.occurrences.length + 1 := by
  have count := congrArg List.length (links_push routing occurrence)
  rwa [links_length, List.length_append, links_length] at count

/-- Values change neither what is added nor where. -/
theorem push_closed (present : routing.path.innermost.occurrence < routing.occurrences.length)
    (taken left : List Token) (occurrence : Occurrence) :
    (routing.closed taken left).push occurrence = (routing.push occurrence).closed taken left := by
  obtain ⟨kind, symbol, token, parent, children, tokens, implicit⟩ := occurrence
  cases parent with
  | none =>
    simp only [push, closed]
    rw [modify_append_left present]
  | some p =>
    simp only [push, closed, List.length_modify]
    rw [modify_append_left (by rwa [List.length_modify])]
    congr 2
    apply modify_comm
    exact fun _ => rfl

theorem completed_closed
    (present : routing.path.innermost.occurrence < routing.occurrences.length)
    (taken left : List Token) :
    (routing.closed taken left).completed = routing.completed.closed taken left := by
  have unnoticed : Unnoticed (closed · taken left) fun routing =>
      routing.path.innermost.occurrence < routing.occurrences.length := by
    constructor
    case path => exact fun _ => rfl
    case found => exact fun routing => occurrenceOf_closed routing taken left
    case push =>
      intro routing option parent present
      exact push_closed present taken left (.missing option parent)
    case onward =>
      intro routing option parent present
      rw [length_push]
      exact Nat.lt_succ_of_lt present
  exact unnoticed.completed present

end Routing

theorem Classifier.expectsWord_dashes {reader : Classifier} (phase : reader.phase ≠ .values) :
    reader.ExpectsWord "--" := by
  cases current : reader.phase with
  | directives => exact .inr ⟨current, by decide⟩
  | words => exact .inl current
  | values => exact absurd current phase

namespace Token

/-- The tokens of the arguments behind a `--` at the given position: each is one value. -/
def behind (dashes : Nat) (rest : List String) : List Token :=
  each (fun _ => .argument) (dashes + 1) rest

theorem length_each (kind : String → TokenKind) (position : Nat) (args : List String) :
    (each kind position args).length = args.length := by
  induction args generalizing position with
  | nil => rfl
  | cons raw rest ih => rw [each, List.length_cons, List.length_cons, ih]

end Token

namespace Symbol
variable {root : Symbol} {files : Files} {pre : List String}

theorem tokenize_dashes (root : Symbol) (plain : "--" ∉ pre) (rest : List String) :
    root.tokenize (pre ++ ["--"] ++ rest) = root.tokenize pre ++
      ⟨"--", .endOfOptions, some pre.length⟩ :: Token.behind pre.length rest := by
  have phase : ((Classifier.start root).run pre).phase ≠ .values := by
    rw [Ne, Classifier.phase_run_eq_values_iff, not_or]
    exact ⟨by simp [Classifier.start], plain⟩
  rw [List.append_assoc, tokenize_append, List.singleton_append, Classifier.tokens_cons,
    Classifier.step_dashes (Classifier.expectsWord_dashes phase), Classifier.tokens_values rfl,
    Nat.zero_add]
  rfl

theorem routed_dashes (numbered : root.Numbered) (plain : "--" ∉ pre) (rest : List String) :
    let routing := root.routed (root.tokenize pre)
    let values := Token.behind pre.length rest
    root.routed (root.tokenize (pre ++ ["--"] ++ rest)) =
      routing.closed (values.take routing.room) (values.drop routing.room) := by
  intro routing values
  have present : routing.path.innermost.occurrence < routing.occurrences.length :=
    (grown_routed numbered (List.append_nil (root.tokenize pre)).symm).innermost_lt
  have dashes : routing.step ⟨"--", .endOfOptions, some pre.length⟩ = routing.closed [] [] :=
    routing.closed_nil.symm
  have capacity : (routing.closed [] []).room = routing.room := by
    rw [Routing.room_closed present, List.append_nil]
    rfl
  rw [tokenize_dashes root plain, routed_append, Routing.run_cons, dashes,
    Routing.run_closed present (fun _ => Token.kind_each) capacity]
  rfl

theorem arena_dashes (numbered : root.Numbered) (plain : "--" ∉ pre) (rest : List String) :
    let room := (root.routed (root.tokenize pre)).room
    let values := Token.behind pre.length rest
    root.arena (pre ++ ["--"] ++ rest) =
      (root.arena pre).closed (values.take room) (values.drop room) := by
  intro room values
  have grown := grown_routed numbered (List.append_nil (root.tokenize pre)).symm
  rw [arena, routed_dashes numbered plain, Routing.completed_closed grown.innermost_lt, arena]

theorem results_dashes (numbered : root.Numbered) (files : Files) (plain : "--" ∉ pre)
    (rest : List String) :
    (root.parse files (pre ++ ["--"] ++ rest)).occurrences.map Resolved.toOccurrence =
      ((root.parse files pre).occurrences.map Resolved.toOccurrence).modify
        (root.parse files pre).command
        (·.taking ((Token.behind pre.length rest).take
          (root.routed (root.tokenize pre)).room)) := by
  rw [occurrences_parse, arena_dashes numbered plain, occurrences_parse, Parse.command, path_parse]
  rfl

theorem length_dashes (numbered : root.Numbered) (files : Files) (plain : "--" ∉ pre)
    (rest : List String) :
    (root.parse files (pre ++ ["--"] ++ rest)).occurrences.length =
      (root.parse files pre).occurrences.length := by
  have count := congrArg List.length (results_dashes numbered files plain rest)
  rwa [List.length_map, List.length_modify, List.length_map] at count

/-- Behind `--` only the result of the innermost command changes. -/
theorem result_dashes (numbered : root.Numbered) (plain : "--" ∉ pre) (rest : List String)
    {i : Nat} {early late : Resolved}
    (found : (root.parse files pre).occurrences[i]? = some early)
    (foundLate : (root.parse files (pre ++ ["--"] ++ rest)).occurrences[i]? = some late) :
    late.toOccurrence = if (root.parse files pre).command = i
      then early.taking ((Token.behind pre.length rest).take
        (root.routed (root.tokenize pre)).room)
      else early.toOccurrence := by
  have here := congrArg (·[i]?) (results_dashes numbered files plain rest)
  simp only [List.getElem?_map, List.getElem?_modify, found, foundLate, Option.map_some,
    Option.map_eq_map, Option.some.injEq] at here
  exact here

theorem room_parse {innermost : Resolved}
    (found : (root.parse files pre).occurrences[(root.parse files pre).command]? =
      some innermost) :
    (root.routed (root.tokenize pre)).room =
      (root.parse files pre).innermost.arity.max - innermost.tokens.length := by
  rw [tokensOf_parse found]
  rfl

end Symbol

/-- The parse of a command line that goes on with `--` and further arguments. -/
structure Parse.Closes (rest : List String) (alone whole : Parse) : Prop where
  tokens : whole.tokens = alone.tokens ++
    ⟨"--", .endOfOptions, some alone.args.length⟩ :: Token.behind alone.args.length rest
  /-- No command is entered. -/
  path : whole.path = alone.path
  count : whole.occurrences.length = alone.occurrences.length
  /-- The results are the same, and so are their values but for those of the innermost command. -/
  same : ∀ {i : Nat} {early late : Resolved}, alone.occurrences[i]? = some early →
    whole.occurrences[i]? = some late →
    late.toOccurrence = { early.toOccurrence with tokens := late.tokens } ∧
      (i ≠ alone.command → late.tokens = early.tokens)
  options : ∀ {i : Nat} {early late : Resolved}, alone.occurrences[i]? = some early →
    whole.occurrences[i]? = some late → early.symbol.isOption = true →
    late.tokens = early.tokens
  /-- The innermost command takes as many values as it has room for; the others are left over. -/
  command : ∃ (early late : Resolved) (taken : Nat),
    alone.occurrences[alone.command]? = some early ∧ early.symbol = alone.innermost ∧
    whole.occurrences[alone.command]? = some late ∧
    taken = min rest.length (alone.innermost.arity.max - early.tokens.length) ∧
    late.tokens = early.tokens ++ (Token.behind alone.args.length rest).take taken ∧
    whole.unmatched = alone.unmatched ++ (Token.behind alone.args.length rest).drop taken

theorem closes_parse {heading : Heading} {subcommandRequired : Option Bool} {strict : Bool}
    {children : List Declaration} {root : Symbol}
    (built : (Declaration.command heading subcommandRequired strict children).build = .ok root)
    (files : Files) {pre : List String} (plain : "--" ∉ pre) (rest : List String) :
    Parse.Closes rest (root.parse files pre) (root.parse files (pre ++ ["--"] ++ rest)) := by
  have numbered := Declaration.numbered_build built
  have count := Symbol.length_dashes numbered files plain rest
  obtain ⟨innermost, found, symbols, isCommand⟩ := Symbol.innermost_parse numbered files pre
  constructor
  case tokens => exact Symbol.tokenize_dashes root plain rest
  case path =>
    rw [Symbol.path_parse, Symbol.arena_dashes numbered plain, Symbol.path_parse]
    rfl
  case count => exact count
  case same =>
    intro i early late found foundLate
    rw [Symbol.result_dashes numbered plain rest found foundLate]
    constructor
    · split <;> rfl
    · exact fun other => by rw [if_neg other.symm]
  case options =>
    intro i early late foundOption foundLate isOption
    -- The innermost command is no option, so the option stands elsewhere.
    have other : (root.parse files pre).command ≠ i := by
      rintro rfl
      cases foundOption.symm.trans found
      rw [Symbol.not_command isOption] at isCommand
      contradiction
    rw [Symbol.result_dashes numbered plain rest foundOption foundLate, if_neg other]
  case command =>
    have bound := (List.getElem?_eq_some_iff.mp found).1
    rw [← count] at bound
    have foundLate := List.getElem?_eq_getElem bound
    have values : (Token.behind pre.length rest).length = rest.length := Token.length_each _ _ _
    have result := Symbol.result_dashes numbered plain rest found foundLate
    have unmatched := congrArg Routing.unmatched (Symbol.routed_dashes numbered plain rest)
    simp only [Routing.closed] at unmatched
    rw [if_pos rfl, List.take_eq_take_min, values, Symbol.room_parse found, Nat.min_comm] at result
    rw [List.drop_eq_drop_min, values, Symbol.room_parse found, Nat.min_comm] at unmatched
    exact ⟨innermost, _, _, found, symbols, foundLate, rfl, congrArg Occurrence.tokens result,
      unmatched⟩

theorem closes_parse_sample : ∃ root, Declaration.sample.build = .ok root ∧
    "--" ∉ ["run", "a", "-n"] ∧
    Parse.Closes ["-v", "--", "b"] (root.parse .absent ["run", "a", "-n"])
      (root.parse .absent (["run", "a", "-n"] ++ ["--"] ++ ["-v", "--", "b"])) := by
  obtain ⟨root, built⟩ : ∃ root, Declaration.sample.build = .ok root := ⟨_, rfl⟩
  have plain : "--" ∉ ["run", "a", "-n"] := by decide
  exact ⟨root, built, plain, closes_parse built _ plain _⟩

end CommandGrammar
