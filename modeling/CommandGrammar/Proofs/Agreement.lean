import CommandGrammar.Completion
import CommandGrammar.Proofs.Mirror

/-! The reader of arguments, the routing of tokens and completion see every token in the same
scope. A command or option token is therefore met as what it was read as and never as a value. -/
namespace CommandGrammar

namespace Symbol
variable {root : Symbol} {args : List String} {before after : List Token}

theorem readerAt_succ {place : Nat} {raw : String} (found : args[place]? = some raw) :
    root.readerAt args (place + 1) = ((root.readerAt args place).step raw).1 := by
  rw [readerAt, List.take_add_one, found, Option.toList_some, Classifier.run_append]
  rfl

/-- Completion has entered the commands that routing has. -/
theorem context_routed (split : root.tokenize args = before ++ after) :
    (before.foldl Context.step (.start root)).commands =
      (root.routed before).path.map Frame.command := by
  refine routed_induction (motive := fun tokens routing =>
    (tokens.foldl Context.step (.start root)).commands = routing.path.map Frame.command)
    rfl ?_ split
  intro before token after _ move same
  rw [List.foldl_append, List.foldl_cons, List.foldl_nil]
  generalize before.foldl Context.step (.start root) = context at same ⊢
  generalize root.routed (before ++ [token]) = next at move ⊢
  have innermost : context.commands.innermost = (root.routed before).path.innermost.command := by
    rw [same]
    rfl
  cases move with
  | skip kind => rcases kind with kind | kind <;> simpa only [Context.step, kind] using same
  | close kind | «open» kind | reopen kind | fill kind | take kind | leave kind =>
    simp only [Context.step, kind]
    exact same
  | @enter child kind entered =>
    rw [← innermost] at entered
    have entering : context.step token = ⟨context.commands.enter child, none⟩ := by
      simp only [Context.step, kind, entered]
    rw [entering, Nesting.map_enter, ← same]
  | name kind unknown =>
    rw [← innermost] at unknown
    simpa only [Context.step, kind, unknown] using same

end Symbol

namespace Routing
variable {root : Symbol} {routing after : Routing} {token : Token}

/-- Tokens that introduce something leave all values where they are. -/
theorem stores_nothing (move : Move routing token after)
    (kind : token.kind = .command ∨ token.kind = .option) :
    after.unmatched = routing.unmatched ∧ ∀ i, after.tokensOf i = routing.tokensOf i := by
  have notArgument : token.kind ≠ .argument := by
    rcases kind with kind | kind <;> simp [kind]
  cases move with
  | skip | close | reopen => exact ⟨rfl, fun _ => rfl⟩
  | enter => exact ⟨rfl, tokensOf_push routing (.met .command _ token (some _)) rfl⟩
  | «open» => exact ⟨rfl, tokensOf_push routing (.met .option _ token (some _)) rfl⟩
  | name =>
    refine ⟨rfl, fun i => ?_⟩
    rw [tokensOf_eq, tokensOf_eq]
    congr 2
    apply Occurrence.map_modify
    exact fun _ => rfl
  | fill isArgument | take isArgument | leave isArgument => exact absurd isArgument notArgument

end Routing

/-- A command token enters the command that the reader enters. -/
structure Enters (reader next : Classifier) (routing after : Routing) (token : Token)
    (child : Symbol) : Prop where
  read : reader.commands.innermost.subcommand? token.text = some child
  scope : next.commands = reader.commands.enter child
  path : after.path = routing.path.enter ⟨routing.occurrences.length, child⟩
  occurrence : after.occurrences[routing.occurrences.length]? =
    some (.met .command child token (some routing.path.innermost.occurrence))

/-- A command token in front of everything else introduces the root. -/
structure Introduces (root : Symbol) (reader next : Classifier) (routing after : Routing)
    (token : Token) : Prop where
  fresh : reader.phase = .directives ∧ routing.started = false
  start : routing.path = .single ⟨0, root⟩
  read : root.subcommand? token.text = none ∧ root.answersTo token.text = true
  scope : next.commands = reader.commands
  path : after.path = routing.path
  occurrence : ∃ occurrence, after.occurrences[0]? = some occurrence ∧ occurrence.symbol = root ∧
    occurrence.token = token

/-- An option token opens the window of the option that the reader means, under the only command of
the path that declares it. -/
structure Opens (root : Symbol) (reader : Classifier) (routing after : Routing) (token : Token)
    (option : Symbol) (frame : Frame) (i : Nat) : Prop where
  read : Symbol.optionIn? reader.commands.toList token.text = some option
  onPath : frame ∈ routing.path.toList
  owner : ∀ other ∈ routing.path.toList,
    root.parentOf? option.id = some other.command ↔ other = frame
  path : after.path = routing.path
  window : ∃ limit, after.window = some ⟨i, option, limit⟩
  occurrence : ∃ occurrence, after.occurrences[i]? = some occurrence ∧
    occurrence.symbol = option ∧ occurrence.parent = some frame.occurrence
  opened : i = routing.occurrences.length ∧
      after.occurrences =
        (routing.push (.met .option option token (some frame.occurrence))).occurrences ∨
    i < routing.occurrences.length ∧ after.occurrences = routing.occurrences

theorem Classifier.Reading.of_command {reader next : Classifier}
    (reading : reader.Reading raw next [(raw, .command)]) :
    (∃ child, reader.commands.innermost.subcommand? raw = some child ∧
      next.commands = reader.commands.enter child) ∨
    (reader.phase = .directives ∧ reader.commands.innermost.subcommand? raw = none ∧
      reader.commands.innermost.answersTo raw = true ∧ next.commands = reader.commands) := by
  generalize single : [(raw, TokenKind.command)] = pieces at reading
  cases reading with
  | directive =>
    unfold Piece.ofBracket at single
    split at single <;> simp at single
  | endOfOptions | value => simp at single
  | command expects dashes entered => exact .inl ⟨_, entered, rfl⟩
  | root phase expects dashes unknown named => exact .inr ⟨phase, unknown, named, rfl⟩
  | word =>
    have stays := Piece.ofWord_stays reader.commands.toList raw (raw, .command)
      (single ▸ List.mem_singleton_self _)
    simp [Piece.Stays] at stays

namespace Symbol
variable {root : Symbol} {args : List String} {routing after : Routing} {token : Token}

theorem Met.enters_or_introduces {place : Nat} (met : Met root args routing token place raw)
    (grown : routing.Grown root) (move : routing.Move token after) (kind : token.kind = .command) :
    (∃ child, Enters (root.readerAt args place) (root.readerAt args (place + 1)) routing after
      token child) ∨
    Introduces root (root.readerAt args place) (root.readerAt args (place + 1)) routing after
      token := by
  obtain ⟨follows, single⟩ := met.alone kind
  have text : token.text = raw := by
    have piece := met.piece
    rw [single, List.mem_singleton] at piece
    exact (Prod.mk.inj piece).1
  have reading := Classifier.step_reading (root.readerAt args place) raw
  rw [single, ← readerAt_succ met.argument, ← text] at reading
  have read := reading.of_command
  rw [← follows.innermost] at read
  cases move with
  | skip kind' => rcases kind' with kind' | kind' <;> simp [kind] at kind'
  | close kind' | «open» kind' | reopen kind' | fill kind' | take kind' | leave kind' =>
    rw [kind] at kind'
    contradiction
  | @enter child _ entered =>
    rcases read with ⟨other, seen, scope⟩ | ⟨-, unknown, -⟩
    · cases entered.symm.trans seen
      have placed := routing.push_last
        (.met .command child token (some routing.path.innermost.occurrence))
      refine .inl ⟨child, ?_, scope, rfl, placed⟩
      rw [← follows.innermost]
      exact entered
    · rw [entered] at unknown
      contradiction
  | name _ unknown fresh named =>
    rcases read with ⟨other, seen, -⟩ | ⟨phase, -, -, scope⟩
    · rw [unknown] at seen
      contradiction
    · have start := follows.fresh fresh
      rw [start] at unknown named
      refine .inr ⟨⟨phase, fresh⟩, start, ⟨unknown, named⟩, scope, rfl, ?_⟩
      obtain ⟨occurrence, found, linked⟩ := Routing.links_getElem?_eq_some.mp grown.arena.first
      refine ⟨{ occurrence with token }, ?_, (Prod.mk.inj linked).1, rfl⟩
      simp only [start, Nesting.single]
      rw [List.getElem?_modify, found]
      rfl

/-- The option that routing means is the one that the reader means, and one command of the path
declares it. -/
theorem Met.meant {place : Nat} {frame : Frame} {option : Symbol}
    (met : Met root args routing token place raw) (grown : routing.Grown root)
    (numbered : root.Numbered) (meant : routing.optionMeant? token.text = some (frame, option)) :
    Symbol.optionIn? (root.readerAt args place).commands.toList token.text = some option ∧
      ∀ other ∈ routing.path.toList,
        root.parentOf? option.id = some other.command ↔ other = frame := by
  obtain ⟨onPath, owned, -⟩ := Routing.optionMeant_eq_some meant
  have read := routing.optionMeant_symbol token.text
  rw [met.scope, meant, Option.map_some] at read
  refine ⟨read.symm, fun other onPathOther => ?_⟩
  rw [numbered.parentOf_child (grown.mem_preorder onPath) owned, Option.some.injEq]
  constructor
  · exact fun same => grown.frame_unique numbered onPath onPathOther same.symm
  · rintro rfl
    rfl

theorem Met.opens {place : Nat} (met : Met root args routing token place raw)
    (grown : routing.Grown root) (numbered : root.Numbered) (move : routing.Move token after)
    (kind : token.kind = .option) :
    ∃ option frame i, Opens root (root.readerAt args place) routing after token option frame i := by
  cases move with
  | skip kind' => rcases kind' with kind' | kind' <;> simp [kind] at kind'
  | close kind' | enter kind' | name kind' | fill kind' | take kind' | leave kind' =>
    rw [kind] at kind'
    contradiction
  | @«open» frame option _ meant absent =>
    obtain ⟨onPath, -, -⟩ := Routing.optionMeant_eq_some meant
    obtain ⟨seen, owner⟩ := met.meant grown numbered meant
    have placed := routing.push_last (.met .option option token (some frame.occurrence))
    exact ⟨option, frame, routing.occurrences.length, seen, onPath, owner, rfl, ⟨_, rfl⟩,
      ⟨_, placed, rfl, rfl⟩, .inl ⟨rfl, rfl⟩⟩
  | @reopen i frame option _ meant present =>
    obtain ⟨onPath, owned, -⟩ := Routing.optionMeant_eq_some meant
    obtain ⟨seen, owner⟩ := met.meant grown numbered meant
    obtain ⟨occurrence, found, named⟩ := grown.occurrence_named numbered onPath owned present
    exact ⟨option, frame, i, seen, onPath, owner, rfl, ⟨_, rfl⟩, ⟨occurrence, found, named⟩,
      .inr ⟨(List.getElem?_eq_some_iff.mp found).1, rfl⟩⟩

end Symbol

/-- The reader, routing and completion have entered the same commands in front of a token, and the
token introduces what it was read as. -/
structure Agreement (root : Symbol) (args : List String) (before : List Token) (token : Token)
    (place : Nat) (raw : String) : Prop where
  argument : token.position = some place ∧ args[place]? = some raw ∧
    (token.text, token.kind) ∈ ((root.readerAt args place).step raw).2
  routing : (root.routed before).path.map Frame.command = (root.readerAt args place).commands
  frames : ∀ frame ∈ (root.routed before).path.toList, ∃ occurrence,
    (root.routed before).occurrences[frame.occurrence]? = some occurrence ∧
      occurrence.symbol = frame.command
  completion : (before.foldl Context.step (.start root)).commands =
    (root.readerAt args place).commands
  command : token.kind = .command →
    (∃ child, Enters (root.readerAt args place) (root.readerAt args (place + 1))
      (root.routed before) (root.routed (before ++ [token])) token child) ∨
    Introduces root (root.readerAt args place) (root.readerAt args (place + 1))
      (root.routed before) (root.routed (before ++ [token])) token
  option : token.kind = .option → ∃ option frame i,
    Opens root (root.readerAt args place) (root.routed before) (root.routed (before ++ [token]))
      token option frame i
  keeps : token.kind = .command ∨ token.kind = .option →
    (root.routed (before ++ [token])).unmatched = (root.routed before).unmatched ∧
      ∀ i, (root.routed (before ++ [token])).tokensOf i = (root.routed before).tokensOf i

theorem readers_agree {heading : Heading} {subcommandRequired : Option Bool} {strict : Bool}
    {children : List Declaration} {root : Symbol}
    (built : (Declaration.command heading subcommandRequired strict children).build = .ok root)
    (files : Files) (args : List String) :
    (∀ before token after, root.tokenize args = before ++ token :: after →
      ∃ place raw, Agreement root args before token place raw) ∧
    ∃ resolved, (root.parse files args).occurrences[(root.parse files args).command]? =
        some resolved ∧
      resolved.symbol = (Context.ofWords root args).commands.innermost := by
  have numbered := Declaration.numbered_build built
  constructor
  · intro before token after split
    obtain ⟨place, raw, met⟩ := Symbol.met split
    have grown := Symbol.grown_routed numbered split
    have move := Routing.move_step met.understood
    rw [← Symbol.routed_concat] at move
    refine ⟨place, raw, ?_⟩
    constructor
    case argument => exact ⟨met.position, met.argument, met.piece⟩
    case routing => exact met.scope
    case frames =>
      intro frame onPath
      obtain ⟨-, _, placed⟩ := grown.found onPath
      obtain ⟨occurrence, found, linked⟩ := Routing.links_getElem?_eq_some.mp placed
      exact ⟨occurrence, found, (Prod.mk.inj linked).1⟩
    case completion => rw [Symbol.context_routed split, met.scope]
    case command => exact met.enters_or_introduces grown move
    case option => exact met.opens grown numbered move
    case keeps => exact Routing.stores_nothing move
  · have grown := Symbol.grown_arena numbered args
    have entered := Symbol.context_routed (List.append_nil (root.tokenize args)).symm
    obtain ⟨-, _, placed⟩ := grown.found List.mem_cons_self
    obtain ⟨resolved, found, linked⟩ := Symbol.link_parse_inv files placed
    rw [← Symbol.path_parse root files] at found linked
    refine ⟨resolved, found, ?_⟩
    rw [Context.ofWords, entered]
    exact (Prod.mk.inj linked).1

theorem readers_agree_sample : ∃ root, Declaration.sample.build = .ok root ∧
    (∀ before token after, root.tokenize ["tool", "-n", "run", "-nv=1"] = before ++ token :: after →
      ∃ place raw, Agreement root ["tool", "-n", "run", "-nv=1"] before token place raw) ∧
    ∃ resolved, (root.parse .absent ["tool", "-n", "run", "-nv=1"]).occurrences[
        (root.parse .absent ["tool", "-n", "run", "-nv=1"]).command]? = some resolved ∧
      resolved.symbol =
        (Context.ofWords root ["tool", "-n", "run", "-nv=1"]).commands.innermost := by
  obtain ⟨root, built⟩ : ∃ root, Declaration.sample.build = .ok root := ⟨_, rfl⟩
  exact ⟨root, built, readers_agree built _ _⟩

end CommandGrammar
