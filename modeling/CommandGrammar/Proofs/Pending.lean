import CommandGrammar.Proofs.Agreement
import CommandGrammar.Proofs.Continuation
import CommandGrammar.Proofs.Spelling

/-! Completion follows the option named last without an arena: it counts the values behind the name.
Routing knows better. An option named again may hold values already, and one that needs no value
gives back what it cannot convert; then the count is not what the option holds. -/
namespace CommandGrammar

/-- Completion and routing are after the same option, and completion has counted what it holds. -/
def Context.Agrees (context : Context) (routing : Routing) : Prop :=
  ∀ option taken, context.pending = some ⟨option, taken⟩ ↔
    ∃ window, routing.openWindow = some window ∧ window.option = option ∧
      (routing.tokensOf window.occurrence).length = taken

theorem Context.foldl_aside {tokens : List Token}
    (aside : ∀ token ∈ tokens, token.kind = .directive ∨ token.kind = .unparsed)
    (context : Context) : tokens.foldl Context.step context = context := by
  induction tokens with
  | nil => rfl
  | cons token rest ih =>
    obtain ⟨here, later⟩ := List.forall_mem_cons.mp aside
    have still : context.step token = context := by
      rcases here with kind | kind <;> rw [step, kind]
    rw [List.foldl_cons, still, ih later]

theorem Context.agrees_of_idle {context : Context} {routing : Routing}
    (idle : context.pending = none) (shut : routing.openWindow = none) :
    context.Agrees routing := by
  intro option taken
  simp [idle, shut]

/-- How completion and routing have followed an option since it was named: what it held then, and
the values that have been offered to it. -/
structure Tracks (option : Symbol) (i : Nat) (held offered : List Token) (context : Context)
    (routing : Routing) : Prop where
  placed : option.isOption = true ∧ ∃ parent, routing.links[i]? = some (option, parent)
  /-- Completion counts what is offered. -/
  counted : context.pending =
    if offered.length < option.arity.max then some ⟨option, offered.length⟩ else none
  /-- The option keeps some of what it is offered. -/
  kept : ∃ kept, kept.Sublist offered ∧ routing.tokensOf i = held ++ kept
  /-- Its window is open as long as there is room for a value. -/
  opened : routing.openWindow =
    if (routing.tokensOf i).length < Routing.reopenedLimit option held.length then
      some ⟨i, option, Routing.reopenedLimit option held.length⟩
    else none

namespace Routing
variable {root option : Symbol} {routing after : Routing} {token : Token} {frame : Frame}

theorem reopenedLimit_zero (option : Symbol) : reopenedLimit option 0 = option.arity.max := by
  unfold reopenedLimit
  split <;> omega

/-- Naming an option opens a window with room beyond what the option holds. -/
theorem Move.names (move : Move routing token after) (kind : token.kind = .option)
    (meant : routing.optionMeant? token.text = some (frame, option)) :
    ∃ i, after.window = some ⟨i, option, reopenedLimit option (routing.tokensOf i).length⟩ ∧
      (∀ j, after.tokensOf j = routing.tokensOf j) := by
  cases move with
  | skip kind' => rcases kind' with kind' | kind' <;> simp [kind] at kind'
  | close kind' | enter kind' | name kind' | fill kind' | take kind' | leave kind' =>
    rw [kind] at kind'
    contradiction
  | @«open» frame _ _ meant' =>
    cases meant.symm.trans meant'
    have beyond : routing.tokensOf routing.occurrences.length = [] := by
      rw [tokensOf, List.getElem?_eq_none (Nat.le_refl _)]
    refine ⟨routing.occurrences.length, ?_,
      tokensOf_push routing (.met .option option token (some frame.occurrence)) rfl⟩
    rw [beyond, List.length_nil, reopenedLimit_zero]
  | reopen _ meant' =>
    cases meant.symm.trans meant'
    exact ⟨_, rfl, fun _ => rfl⟩

theorem tokensOf_give_other {i j : Nat} (apart : i ≠ j) (token : Token) :
    (routing.give i token).tokensOf j = routing.tokensOf j := by
  simp only [tokensOf, give, List.getElem?_modify, apart]
  cases routing.occurrences[j]? <;> rfl

/-- What becomes of a value and of the window that is open for it. -/
inductive Offered (routing : Routing) (token : Token) (after : Routing) : Prop where
  | passed : after.window = routing.openWindow →
      (∀ j, routing.path.innermost.occurrence ≠ j → after.tokensOf j = routing.tokensOf j) →
      Offered routing token after
  | kept {window : Window} : routing.openWindow = some window →
      after.tokensOf window.occurrence = routing.tokensOf window.occurrence ++ [token] →
      (after.window = if (routing.tokensOf window.occurrence).length + 1 < window.limit then
        some window else none) →
      Offered routing token after

theorem Move.offered (move : Move routing token after) (windowed : routing.Windowed)
    (kind : token.kind = .argument) : Offered routing token after := by
  cases move with
  | skip kind' => rcases kind' with kind' | kind' <;> simp [kind] at kind'
  | close kind' | enter kind' | name kind' | «open» kind' | reopen kind' =>
    rw [kind] at kind'
    contradiction
  | fill _ opened accepted =>
    have grew := (Move.fill kind opened accepted).fills windowed kind opened accepted
    exact .kept opened grew rfl
  | take => exact .passed rfl fun _ apart => tokensOf_give_other apart token
  | leave => exact .passed rfl fun _ _ => rfl

/-- A window is as open as it is said to be if it is closed when there is no room. -/
theorem openWindow_eq_window (window : Window)
    (current : routing.window =
      if (routing.tokensOf window.occurrence).length < window.limit then some window else none) :
    routing.openWindow = routing.window := by
  rw [openWindow, current]
  split
  · rename_i room
    rw [Option.filter_some, if_pos (decide_eq_true room)]
  · rfl

end Routing

namespace Tracks
variable {root option : Symbol} {routing after : Routing} {context : Context} {token : Token}
  {held offered : List Token} {i : Nat}

theorem named {frame : Frame} (move : Routing.Move routing token after) (windowed : after.Windowed)
    (scope : context.commands = routing.path.map Frame.command) (kind : token.kind = .option)
    (meant : routing.optionMeant? token.text = some (frame, option)) :
    ∃ i, Tracks option i (routing.tokensOf i) [] (context.step token) after := by
  obtain ⟨i, window, same⟩ := move.names kind meant
  refine ⟨i, ?_⟩
  constructor
  case placed => exact windowed _ window
  case counted =>
    have read := routing.optionMeant_symbol token.text
    rw [meant, Option.map_some, ← scope] at read
    simp only [Context.step, kind, ← read, Option.filter_some, Arity.takesValues,
      List.length_nil, decide_eq_true_eq]
    split <;> rfl
  case kept => exact ⟨[], List.Sublist.refl _, by rw [same, List.append_nil]⟩
  case opened =>
    rw [Routing.openWindow, window, Option.filter_some, same]
    simp only [decide_eq_true_eq]

theorem counts (kind : token.kind = .argument)
    (counted : context.pending =
      if offered.length < option.arity.max then some ⟨option, offered.length⟩ else none) :
    (context.step token).pending =
      if (offered ++ [token]).length < option.arity.max then
        some ⟨option, (offered ++ [token]).length⟩
      else none := by
  simp only [Context.step, kind, counted, List.length_append, List.length_singleton]
  by_cases room : offered.length < option.arity.max
  · rw [if_pos room, Option.bind_some]
    by_cases more : offered.length + 1 < option.arity.max
    · rw [if_pos more, if_neg (Nat.not_le.mpr more)]
    · rw [if_neg more, if_pos (Nat.not_lt.mp more)]
  · rw [if_neg room, if_neg (by omega)]
    rfl

/-- A value offered is counted, and is kept or passed on. -/
theorem offer (tracks : Tracks option i held offered context routing)
    (grown : routing.Grown root) (windowed : routing.Windowed)
    (move : Routing.Move routing token after) (kind : token.kind = .argument) :
    Tracks option i held (offered ++ [token]) (context.step token) after := by
  obtain ⟨isOption, parent, placed⟩ := tracks.placed
  obtain ⟨kept, among, holds⟩ := tracks.kept
  -- A value that is passed on goes to a command, so the option holds what it held.
  have apart : routing.path.innermost.occurrence ≠ i := by
    rintro rfl
    obtain ⟨isCommand, _, placedCommand⟩ := grown.found List.mem_cons_self
    cases placed.symm.trans placedCommand
    rw [Symbol.not_command isOption] at isCommand
    contradiction
  have stays := move.link_kept placed
  cases move.offered windowed kind with
  | passed window others =>
    have same := others i apart
    constructor
    case placed => exact ⟨isOption, parent, stays⟩
    case counted => exact counts kind tracks.counted
    case kept => exact ⟨kept, among.trans (List.sublist_append_left _ _), same.trans holds⟩
    case opened =>
      rw [tracks.opened, ← same] at window
      exact (Routing.openWindow_eq_window ⟨i, option, _⟩ window).trans window
  | @kept current opened grew window =>
    rw [tracks.opened, Option.ite_none_right_eq_some] at opened
    obtain ⟨-, same⟩ := opened
    cases same
    have count : (after.tokensOf i).length = (routing.tokensOf i).length + 1 := by
      rw [grew, List.length_append, List.length_singleton]
    constructor
    case placed => exact ⟨isOption, parent, stays⟩
    case counted => exact counts kind tracks.counted
    case kept =>
      refine ⟨kept ++ [token], among.append (List.Sublist.refl _), ?_⟩
      rw [grew, holds, List.append_assoc]
    case opened =>
      rw [← count] at window
      exact (Routing.openWindow_eq_window ⟨i, option, _⟩ window).trans window

/-- An option that held nothing and has given nothing back is followed alike. -/
theorem agrees (tracks : Tracks option i [] offered context routing)
    (keeps : routing.tokensOf i = offered.take option.arity.max) : context.Agrees routing := by
  have count : (routing.tokensOf i).length = min option.arity.max offered.length := by
    rw [keeps, List.length_take]
  have opened := tracks.opened
  rw [List.length_nil, Routing.reopenedLimit_zero] at opened
  intro wanted taken
  rw [tracks.counted, opened]
  by_cases room : offered.length < option.arity.max
  · have all : (routing.tokensOf i).length = offered.length := by omega
    rw [if_pos room, if_pos (by omega)]
    constructor
    · intro same
      cases same
      exact ⟨_, rfl, rfl, all⟩
    · rintro ⟨window, same, rfl, rfl⟩
      cases same
      rw [all]
  · rw [if_neg room, if_neg (by omega)]
    simp

/-- An option that held nothing has room as long as completion follows it. -/
theorem opened_of_pending (tracks : Tracks option i [] offered context routing)
    (pending : context.pending.isSome = true) : routing.openWindow.isSome = true := by
  obtain ⟨kept, among, holds⟩ := tracks.kept
  have fewer := among.length_le
  rw [tracks.counted, Option.isSome_ite] at pending
  rw [tracks.opened, Option.isSome_ite, holds, List.nil_append, List.length_nil,
    Routing.reopenedLimit_zero]
  omega

end Tracks

namespace Symbol
variable {root : Symbol} {args : List String} {before values after : List Token} {naming : Token}

/-- From an option on, as long as values follow, completion and routing are after it. -/
theorem tracks_routed (numbered : root.Numbered)
    (split : root.tokenize args = before ++ [naming] ++ values ++ after)
    (kind : naming.kind = .option) (onlyValues : ∀ value ∈ values, value.kind = .argument) :
    ∃ option i, root.optionNamed? args naming = some option ∧
      Tracks option i ((root.routed before).tokensOf i) values
        ((before ++ [naming] ++ values).foldl Context.step (.start root))
        (root.routed (before ++ [naming] ++ values)) := by
  have splitNaming : root.tokenize args = before ++ naming :: (values ++ after) := by
    simpa using split
  obtain ⟨_, _, metNaming⟩ := met splitNaming
  have understood := metNaming.understood
  simp only [Routing.Understands, kind, Option.isSome_iff_exists] at understood
  obtain ⟨⟨frame, option⟩, meant⟩ := understood
  have moveNaming := Routing.move_step metNaming.understood
  rw [← routed_concat] at moveNaming
  have splitValues : root.tokenize args = before ++ [naming] ++ (values ++ after) := by
    rw [split, List.append_assoc]
  obtain ⟨i, tracks⟩ := Tracks.named moveNaming (windowed_routed numbered splitValues)
    (context_routed splitNaming) kind meant
  refine ⟨option, i, ?_, ?_⟩
  · rw [Routing.ListsOptions.named metNaming, meant, Option.map_some]
  · -- By induction on the values behind the name.
    refine routed_onward (motive := fun between routing =>
      (∀ value ∈ between, value.kind = .argument) →
        Tracks option i ((root.routed before).tokensOf i) between
          ((before ++ [naming] ++ between).foldl Context.step (.start root)) routing)
      ?_ ?_ split onlyValues
    · intro _
      rw [List.append_nil, List.foldl_append, List.foldl_cons, List.foldl_nil]
      exact tracks
    · intro between value rest split move tracked onlyValues
      obtain ⟨earlier, last⟩ := List.forall_mem_append.mp onlyValues
      have splitValue : root.tokenize args =
          (before ++ [naming] ++ between) ++ value :: rest := split
      rw [← List.append_assoc, List.foldl_append, List.foldl_cons, List.foldl_nil]
      exact (tracked earlier).offer (grown_routed numbered splitValue)
        (windowed_routed numbered splitValue) move
        (last value (List.mem_singleton_self value))

/-- As long as nothing else is met, completion and routing stay at the start. -/
theorem start_of_fresh (fresh : (root.routed before).started = false) :
    root.routed before = .start root ∧
      before.foldl Context.step (.start root) = .start root := by
  have aside : ∀ token ∈ before, token.kind = .directive ∨ token.kind = .unparsed := by
    intro token member
    by_contra outside
    obtain ⟨isDirective, isUnparsed⟩ := not_or.mp outside
    obtain ⟨earlier, later, rfl⟩ := List.append_of_mem member
    rw [List.append_cons, routed_append, routed_concat,
      Routing.started_run (Routing.started_step isDirective isUnparsed)] at fresh
    contradiction
  exact ⟨Routing.run_aside aside _, Context.foldl_aside aside _⟩

/-- Directives, and what is taken for one, come in front of everything else. -/
theorem fresh_of_aside {token : Token} (split : root.tokenize args = before ++ token :: after)
    (aside : token.kind = .directive ∨ token.kind = .unparsed) :
    (root.routed before).started = false := by
  obtain ⟨behind, stream, outside⟩ := root.tokenize_outside args
  rcases List.append_eq_append_iff.mp (split.symm.trans stream) with
    ⟨brackets, front, -⟩ | ⟨words, -, here⟩
  · have skipped : ∀ earlier ∈ before, earlier.kind = .directive ∨ earlier.kind = .unparsed := by
      intro earlier member
      have bracket := Token.kind_each (front ▸ List.mem_append_left brackets member)
      rw [bracket, Token.bracketKind_eq_unparsed]
      exact Classical.em _
    rw [routed, Routing.run_aside skipped]
    rfl
  · have member : token ∈ behind := here ▸ List.mem_append_right words List.mem_cons_self
    rcases aside with kind | kind
    · exact absurd kind (outside token member).1
    · exact absurd kind (outside token member).2

/-- Unless an option and nothing but values come last, no option is open for a value. -/
theorem idle_routed (numbered : root.Numbered) (split : root.tokenize args = before ++ after) :
    (∃ earlier naming values, before = earlier ++ [naming] ++ values ∧ naming.kind = .option ∧
      ∀ value ∈ values, value.kind = .argument) ∨
    (before.foldl Context.step (.start root)).pending = none ∧
      (root.routed before).openWindow = none := by
  refine routed_induction (motive := fun tokens routing =>
    (∃ earlier naming values, tokens = earlier ++ [naming] ++ values ∧ naming.kind = .option ∧
      ∀ value ∈ values, value.kind = .argument) ∨
    (tokens.foldl Context.step (.start root)).pending = none ∧ routing.openWindow = none)
    (.inr ⟨rfl, rfl⟩) ?_ split
  intro before token after split move motive
  rw [List.foldl_append, List.foldl_cons, List.foldl_nil]
  have scope := context_routed split
  have start : (root.routed before).started = false → root.routed before = .start root ∧
      before.foldl Context.step (.start root) = .start root := start_of_fresh
  have windowed := windowed_routed numbered split
  generalize before.foldl Context.step (.start root) = context at *
  generalize root.routed (before ++ [token]) = next at move ⊢
  have offered := move.offered windowed
  -- Directives and a name of the root are met at the start only, where no option has been named.
  cases move with
  | skip aside =>
    obtain ⟨routing, rfl⟩ := start (fresh_of_aside split aside)
    rw [routing]
    rcases aside with kind | kind <;> exact .inr ⟨by simp only [Context.step, kind]; rfl, rfl⟩
  | close kind => exact .inr ⟨by simp only [Context.step, kind], rfl⟩
  | @enter child kind entered =>
    have known : context.commands.innermost.subcommand? token.text = some child := by
      rw [scope]
      exact entered
    exact .inr ⟨by simp only [Context.step, kind, known], rfl⟩
  | name kind unknown fresh =>
    obtain ⟨routing, rfl⟩ := start fresh
    rw [routing] at unknown ⊢
    have same : (Context.start root).commands.innermost.subcommand? token.text = none := unknown
    exact .inr ⟨by simp only [Context.step, kind, same]; rfl, rfl⟩
  | «open» kind | reopen kind =>
    exact .inl ⟨before, token, [], (List.append_nil _).symm, kind, List.forall_mem_nil _⟩
  | fill kind | take kind | leave kind =>
    rcases motive with ⟨earlier, naming, values, rfl, names, onlyValues⟩ | ⟨pending, shut⟩
    · refine .inl ⟨earlier, naming, values ++ [token], by simp, names, ?_⟩
      exact List.forall_mem_append.mpr ⟨onlyValues, List.forall_mem_singleton.mpr kind⟩
    · refine .inr ⟨by simp only [Context.step, kind, pending, Option.bind_none], ?_⟩
      cases offered kind with
      | passed window => rw [Routing.openWindow, window, shut]; rfl
      | kept opened =>
        rw [shut] at opened
        contradiction

end Symbol

/-- How far completion and routing are after the same option. -/
structure Pursued (root : Symbol) (args : List String) : Prop where
  /-- Neither is after an option unless one is named last, with nothing but values behind it. -/
  idle : (∀ before naming values, root.tokenize args = before ++ [naming] ++ values →
      naming.kind = .option → ¬ ∀ value ∈ values, value.kind = .argument) →
    (Context.ofWords root args).pending = none ∧
      (root.routed (root.tokenize args)).openWindow = none
  tracked : ∀ {before naming values}, root.tokenize args = before ++ [naming] ++ values →
    naming.kind = .option → (∀ value ∈ values, value.kind = .argument) →
    ∃ option i, root.optionNamed? args naming = some option ∧
      Tracks option i ((root.routed before).tokensOf i) values (Context.ofWords root args)
        (root.routed (root.tokenize args)) ∧
      ((root.routed before).tokensOf i = [] →
        ((Context.ofWords root args).pending.isSome = true →
          (root.routed (root.tokenize args)).openWindow.isSome = true) ∧
        ((root.routed (root.tokenize args)).tokensOf i = values.take option.arity.max →
          (Context.ofWords root args).Agrees (root.routed (root.tokenize args))))
  /-- They differ only over an option that held values when it was named, or gave some back. -/
  reason : ¬ (Context.ofWords root args).Agrees (root.routed (root.tokenize args)) →
    ∃ before naming values option i, root.tokenize args = before ++ [naming] ++ values ∧
      naming.kind = .option ∧ root.optionNamed? args naming = some option ∧
      Tracks option i ((root.routed before).tokensOf i) values (Context.ofWords root args)
        (root.routed (root.tokenize args)) ∧
      ((root.routed before).tokensOf i ≠ [] ∨
        (root.routed (root.tokenize args)).tokensOf i ≠ values.take option.arity.max)

theorem pursued_parse {heading : Heading} {subcommandRequired : Option Bool} {strict : Bool}
    {children : List Declaration} {root : Symbol}
    (built : (Declaration.command heading subcommandRequired strict children).build = .ok root)
    (args : List String) : Pursued root args := by
  have numbered := Declaration.numbered_build built
  have whole : root.tokenize args = root.tokenize args ++ [] := (List.append_nil _).symm
  have tracks {before naming values} (split : root.tokenize args = before ++ [naming] ++ values)
      (kind : naming.kind = .option) (onlyValues : ∀ value ∈ values, value.kind = .argument) :
      ∃ option i, root.optionNamed? args naming = some option ∧
        Tracks option i ((root.routed before).tokensOf i) values (Context.ofWords root args)
          (root.routed (root.tokenize args)) := by
    have found := Symbol.tracks_routed numbered (whole.trans (congrArg (· ++ []) split)) kind
      onlyValues
    rwa [← split] at found
  constructor
  case idle =>
    intro noOption
    refine (Symbol.idle_routed numbered whole).resolve_left ?_
    rintro ⟨before, naming, values, split, kind, onlyValues⟩
    exact noOption before naming values split kind onlyValues
  case tracked =>
    intro before naming values split kind onlyValues
    obtain ⟨option, i, named, tracked⟩ := tracks split kind onlyValues
    refine ⟨option, i, named, tracked, fun empty => ?_⟩
    rw [empty] at tracked
    exact ⟨tracked.opened_of_pending, tracked.agrees⟩
  case reason =>
    intro differ
    rcases Symbol.idle_routed numbered whole with
      ⟨before, naming, values, split, kind, onlyValues⟩ | ⟨pending, shut⟩
    · obtain ⟨option, i, named, tracked⟩ := tracks split kind onlyValues
      refine ⟨before, naming, values, option, i, split, kind, named, tracked, ?_⟩
      by_contra alike
      obtain ⟨empty, keeps⟩ := not_or.mp alike
      rw [not_not] at empty keeps
      rw [empty] at tracked
      exact differ (tracked.agrees keeps)
    · exact absurd (Context.agrees_of_idle pending shut) differ

theorem pursued_parse_sample : ∃ root, Declaration.sample.build = .ok root ∧
    Pursued root ["run", "-n", "1", "-v", "-n", "2"] := by
  obtain ⟨root, built⟩ : ∃ root, Declaration.sample.build = .ok root := ⟨_, rfl⟩
  exact ⟨root, built, pursued_parse built _⟩

/-- A tool that takes any values, a flag that may be told false, and an option with one value. -/
def Declaration.flagged : Declaration :=
  .command
    { aliases := ["tool"], argument := { type := some .string, arity := some .zeroOrMore } }
    none true
    [.option { aliases := ["--flag"], argument := { type := some .bool } },
      .option { aliases := ["-n"], argument := { type := some .int } }]

/-- The flag gives `file` back and is still open, but completion has counted it. Completion counts
anew when `-n` is named again, although it holds a value. -/
theorem flagged_disagrees : ∃ root, Declaration.flagged.build = .ok root ∧
    ¬ (Context.ofWords root ["--flag", "file"]).Agrees
      (root.routed (root.tokenize ["--flag", "file"])) ∧
    ¬ (Context.ofWords root ["-n", "1", "-n"]).Agrees
      (root.routed (root.tokenize ["-n", "1", "-n"])) := by
  obtain ⟨root, built, counted, opened, pending, held⟩ : ∃ root,
      Declaration.flagged.build = .ok root ∧
      (Context.ofWords root ["--flag", "file"]).pending.map Pending.taken = none ∧
      (root.routed (root.tokenize ["--flag", "file"])).openWindow.isSome = true ∧
      (Context.ofWords root ["-n", "1", "-n"]).pending.map Pending.taken = some 0 ∧
      (root.routed (root.tokenize ["-n", "1", "-n"])).openWindow.map (fun window =>
        ((root.routed (root.tokenize ["-n", "1", "-n"])).tokensOf window.occurrence).length) =
          some 1 :=
    ⟨_, rfl, by decide +kernel, by decide +kernel, by decide +kernel, by decide +kernel⟩
  refine ⟨root, built, fun agrees => ?_, fun agrees => ?_⟩
  · obtain ⟨window, opened⟩ := Option.isSome_iff_exists.mp opened
    have pending := (agrees window.option _).mpr ⟨window, opened, rfl, rfl⟩
    rw [pending] at counted
    contradiction
  · obtain ⟨⟨option, taken⟩, pending, rfl⟩ := Option.map_eq_some_iff.mp pending
    obtain ⟨window, opened, -, count⟩ := (agrees option _).mp pending
    rw [opened, Option.map_some, count] at held
    contradiction

end CommandGrammar
