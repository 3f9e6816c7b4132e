import CommandGrammar.Proofs.Closing
import CommandGrammar.Proofs.Pending

/-! Routing told by symbols. A ledger has one entry for each symbol that has been met and no
indices, so it does not show in which order options were named. Every token changes it in a way that
only the ledger decides: command lines that share a ledger at some point share it from there on. -/
namespace CommandGrammar

/-- What is known of a symbol that has been met. -/
structure Ledger.Entry where
  symbol : Symbol
  /-- The text of the token that introduced it. -/
  name : String
  values : List String
  implicit : Bool

namespace Ledger.Entry

def met (symbol : Symbol) (name : String) : Entry := ⟨symbol, name, [], false⟩

def take (entry : Entry) (texts : List String) : Entry :=
  { entry with values := entry.values ++ texts }

end Ledger.Entry

@[ext] structure Ledger where
  /-- The entry of the symbol with the given number. -/
  entry : Nat → Option Ledger.Entry
  commands : Nesting Symbol
  /-- The option that takes the next value, and how many it may hold. -/
  window : Option (Symbol × Nat)
  unmatched : List String

namespace Ledger

def held (ledger : Ledger) (symbol : Symbol) : List String :=
  ((ledger.entry symbol.id).map Entry.values).getD []

def amend (ledger : Ledger) (symbol : Symbol) (change : Option Entry → Option Entry) : Ledger :=
  { ledger with
    entry := Function.update ledger.entry symbol.id (change (ledger.entry symbol.id)) }

/-- Makes an entry unless the symbol has one. -/
def add (ledger : Ledger) (entry : Entry) : Ledger :=
  ledger.amend entry.symbol fun known => known.or (some entry)

def give (ledger : Ledger) (symbol : Symbol) (text : String) : Ledger :=
  ledger.amend symbol (Option.map fun entry => entry.take [text])

/-- The window of an option that holds so many values. -/
def opening (option : Symbol) (held limit : Nat) : Option (Symbol × Nat) :=
  if held < limit then some (option, limit) else none

def toCommand (ledger : Ledger) (text : String) : Ledger :=
  let command := ledger.commands.innermost
  if (ledger.held command).length < command.arity.max then ledger.give command text
  else { ledger with unmatched := ledger.unmatched ++ [text] }

def value (ledger : Ledger) (text : String) : Ledger :=
  match ledger.window with
  | none => ledger.toCommand text
  | some (option, limit) =>
    if option.declines (ledger.held option ++ [text]) then ledger.toCommand text
    else
      { ledger.give option text with
        window := opening option ((ledger.held option).length + 1) limit }

def enter (ledger : Ledger) (child : Symbol) (text : String) : Ledger :=
  { ledger.add (.met child text) with
    commands := ledger.commands.enter child
    window := none }

def name (ledger : Ledger) (option : Symbol) (text : String) : Ledger :=
  let held := (ledger.held option).length
  { ledger.add (.met option text) with
    window := opening option held (Routing.reopenedLimit option held) }

/-- What a token changes, unless it names the root. -/
def step (ledger : Ledger) (token : Token) : Ledger :=
  match token.kind with
  | .directive | .unparsed => ledger
  | .endOfOptions => { ledger with window := none }
  | .command =>
    match ledger.commands.innermost.subcommand? token.text with
    | some child => ledger.enter child token.text
    | none => ledger
  | .option =>
    match Symbol.optionIn? ledger.commands.toList token.text with
    | some option => ledger.name option token.text
    | none => ledger
  | .argument => ledger.value token.text

def run (ledger : Ledger) (tokens : List Token) : Ledger := tokens.foldl step ledger

/-- The options of a command that have a default and no entry. -/
def missingDefaults (ledger : Ledger) (command : Symbol) : List Symbol :=
  command.children.filter fun child =>
    child.isOption && child.argument.default.isSome && (ledger.entry child.id).isNone

def addDefaults (ledger : Ledger) (command : Symbol) : Ledger :=
  (ledger.missingDefaults command).foldl (fun ledger option =>
    ledger.add ⟨option, option.display, [], true⟩) ledger

def completed (ledger : Ledger) : Ledger :=
  ledger.commands.toList.reverse.foldl addDefaults ledger

theorem run_append (ledger : Ledger) (tokens more : List Token) :
    ledger.run (tokens ++ more) = (ledger.run tokens).run more :=
  List.foldl_append

/-- Changes of two entries may be made in either order. -/
theorem amend_comm {first second : Symbol} (apart : first.id ≠ second.id) (ledger : Ledger)
    (change other : Option Entry → Option Entry) :
    (ledger.amend first change).amend second other =
      (ledger.amend second other).amend first change := by
  apply Ledger.ext
  case entry =>
    simp only [amend, Function.update_of_ne apart, Function.update_of_ne apart.symm]
    exact Function.update_comm apart _ _ _
  all_goals rfl

theorem add_of_known {ledger : Ledger} (entry : Entry)
    (known : (ledger.entry entry.symbol.id).isSome = true) : ledger.add entry = ledger := by
  apply Ledger.ext
  case entry =>
    rw [add, amend, Option.or_of_isSome known, Function.update_eq_self]
  all_goals rfl

end Ledger

def Occurrence.entry (occurrence : Occurrence) : Ledger.Entry where
  symbol := occurrence.symbol
  name := occurrence.token.text
  values := occurrence.texts
  implicit := occurrence.implicit

namespace Routing
variable {root symbol : Symbol} {routing after : Routing} {token : Token} {i : Nat}

def ledger (routing : Routing) : Ledger where
  entry id := (routing.occurrences.map Occurrence.entry).find? (·.symbol.id == id)
  commands := routing.path.map Frame.command
  window := routing.openWindow.map fun window => (window.option, window.limit)
  unmatched := routing.unmatched.map Token.text

theorem entry_eq_none_iff {id : Nat} :
    routing.ledger.entry id = none ↔ ∀ link ∈ routing.links, link.1.id ≠ id := by
  simp [ledger, links, Occurrence.entry, Occurrence.link]

/-- An occurrence is the entry of its symbol: no other occurrence has that symbol. -/
theorem entry_found (arena : Arena root routing.links) (numbered : root.Numbered)
    {occurrence : Occurrence} (found : routing.occurrences[i]? = some occurrence) :
    routing.ledger.entry occurrence.symbol.id = some occurrence.entry := by
  have placed := links_getElem?_eq_some.mpr ⟨occurrence, found, rfl⟩
  cases entry : routing.ledger.entry occurrence.symbol.id with
  | none => exact absurd rfl (entry_eq_none_iff.mp entry _ (List.mem_of_getElem? placed))
  | some other =>
    obtain ⟨twin, member, rfl⟩ := List.mem_map.mp (List.mem_of_find?_eq_some entry)
    obtain ⟨j, foundTwin⟩ := List.mem_iff_getElem?.mp member
    have fits := List.find?_some entry
    have same : twin.symbol.id = occurrence.symbol.id := beq_iff_eq.mp fits
    have here := arena.index_unique numbered
      (links_getElem?_eq_some.mpr ⟨twin, foundTwin, rfl⟩) placed same
    subst here
    cases found.symm.trans foundTwin
    rfl

theorem held_found (arena : Arena root routing.links) (numbered : root.Numbered)
    {parent : Option Nat} (placed : routing.links[i]? = some (symbol, parent)) :
    routing.ledger.held symbol = (routing.tokensOf i).map Token.text := by
  obtain ⟨occurrence, found, linked⟩ := links_getElem?_eq_some.mp placed
  cases linked
  rw [Ledger.held, entry_found arena numbered found, tokensOf, found]
  rfl

theorem entry_push (routing : Routing) (occurrence : Occurrence) :
    (routing.push occurrence).ledger.entry = (routing.ledger.add occurrence.entry).entry := by
  funext id
  simp only [ledger, Ledger.add, Ledger.amend, Function.update_apply]
  rw [map_push (fun _ _ => rfl), List.find?_append, List.find?_singleton]
  by_cases here : id = occurrence.entry.symbol.id
  · rw [if_pos here, if_pos (beq_iff_eq.mpr here.symm), here]
  · rw [if_neg here, if_neg (fun same => here (beq_iff_eq.mp same).symm), Option.or_none]

theorem map_entry_give (arena : Arena root routing.links) (numbered : root.Numbered)
    {parent : Option Nat} (placed : routing.links[i]? = some (symbol, parent)) (token : Token) :
    (routing.give i token).occurrences.map Occurrence.entry =
      (routing.occurrences.map Occurrence.entry).map fun entry =>
        if entry.symbol.id = symbol.id then entry.take [token.text] else entry := by
  apply List.ext_getElem?
  intro j
  simp only [give, List.getElem?_map, List.getElem?_modify]
  cases found : routing.occurrences[j]? with
  | none => rfl
  | some occurrence =>
    have placedHere := links_getElem?_eq_some.mpr ⟨occurrence, found, rfl⟩
    by_cases here : i = j
    · subst here
      have same : occurrence.symbol = symbol :=
        congrArg Prod.fst (Option.some.inj (placedHere.symm.trans placed))
      simp [Occurrence.entry, Occurrence.texts, Ledger.Entry.take, same]
    · have other : occurrence.symbol.id ≠ symbol.id := fun same =>
        here (arena.index_unique numbered placed placedHere same.symm)
      simp [Occurrence.entry, here, other]

theorem entry_give (arena : Arena root routing.links) (numbered : root.Numbered)
    {parent : Option Nat} (placed : routing.links[i]? = some (symbol, parent)) (token : Token) :
    (routing.give i token).ledger.entry = (routing.ledger.give symbol token.text).entry := by
  have kept : ∀ entry : Ledger.Entry,
      (if entry.symbol.id = symbol.id then entry.take [token.text] else entry).symbol =
        entry.symbol := fun entry => by split <;> rfl
  funext id
  simp only [ledger, Ledger.give, Ledger.amend, Function.update_apply]
  rw [map_entry_give arena numbered placed, List.find?_map]
  simp only [Function.comp_def, kept]
  cases found : (routing.occurrences.map Occurrence.entry).find? (·.symbol.id == id) with
  | none =>
    split
    · rename_i here
      rw [← here, found]
      rfl
    · rfl
  | some entry =>
    have named := List.find?_some found
    rw [beq_iff_eq] at named
    subst named
    split
    · rename_i here
      rw [Option.map_some, if_pos here, ← here, found]
      rfl
    · rename_i other
      rw [Option.map_some, if_neg other]

/-- A window is told by its option, its limit, and how many values the option holds. -/
theorem window_ledger {window : Window} (current : after.window = some window) {held : Nat}
    (holds : (after.tokensOf window.occurrence).length = held) :
    after.ledger.window = Ledger.opening window.option held window.limit := by
  simp only [ledger, openWindow, current, Option.filter_some, holds, Ledger.opening,
    decide_eq_true_eq]
  split <;> rfl

theorem Move.ledger_name {option : Symbol} {frame : Frame} (move : Move routing token after)
    (grown : Grown root routing) (numbered : root.Numbered) (kind : token.kind = .option)
    (meant : routing.optionMeant? token.text = some (frame, option)) :
    after.ledger = routing.ledger.name option token.text := by
  cases move with
  | skip kind' => rcases kind' with kind' | kind' <;> simp [kind] at kind'
  | close kind' | enter kind' | name kind' | fill kind' | take kind' | leave kind' =>
    rw [kind] at kind'
    contradiction
  | «open» _ meant' absent =>
    cases meant.symm.trans meant'
    have unknown := entry_eq_none_iff.mpr (grown.unmet numbered meant absent)
    have holds : routing.ledger.held option = [] := by
      rw [Ledger.held, unknown]
      rfl
    have beyond : routing.tokensOf routing.occurrences.length = [] := by
      rw [tokensOf, List.getElem?_eq_none (Nat.le_refl _)]
    have valueless := (tokensOf_push routing
      (.met .option option token (some frame.occurrence)) rfl _).trans beyond
    have grew := entry_push routing (.met .option option token (some frame.occurrence))
    refine Ledger.ext grew rfl ?_ rfl
    rw [window_ledger rfl (congrArg List.length valueless), Ledger.name, holds]
    simp only [List.length_nil, reopenedLimit_zero]
  | reopen _ meant' present =>
    cases meant.symm.trans meant'
    have placed := grown.link_of_meant numbered meant present
    have holds := held_found grown.arena numbered placed
    obtain ⟨occurrence, found, linked⟩ := links_getElem?_eq_some.mp placed
    have known := entry_found grown.arena numbered found
    rw [(Prod.mk.inj linked).1] at known
    have stays := Ledger.add_of_known (.met option token.text) (Option.isSome_of_eq_some known)
    rw [Ledger.name, stays]
    refine Ledger.ext rfl rfl ?_ rfl
    rw [window_ledger rfl rfl, holds, List.length_map]
    rfl

/-- The window that is open is the one that the ledger knows. -/
theorem ledger_opened {window : Window} (opened : routing.openWindow = some window) :
    routing.ledger.window = some (window.option, window.limit) := by
  rw [ledger, opened]
  rfl

/-- A value that the open option declines goes to the innermost command. -/
theorem Passes.ledger_value (passes : routing.Passes token) (grown : Grown root routing)
    (numbered : root.Numbered) (windowed : routing.Windowed) :
    routing.ledger.value token.text = routing.ledger.toCommand token.text := by
  cases opened : routing.openWindow with
  | none =>
    have shut : routing.ledger.window = none := by
      rw [ledger, opened]
      rfl
    rw [Ledger.value, shut]
  | some window =>
    obtain ⟨-, parent, placed⟩ := windowed window (openWindow_eq_some.mp opened).1
    have holds := held_found grown.arena numbered placed
    have declines := passes window opened
    rw [List.map_append, List.map_singleton, ← holds] at declines
    simp only [Ledger.value, ledger_opened opened, declines, if_true]

/-- A window that is open stays open while its option is given nothing. -/
theorem window_kept (current : after.window = routing.openWindow)
    (same : ∀ window, routing.openWindow = some window →
      after.tokensOf window.occurrence = routing.tokensOf window.occurrence) :
    after.ledger.window = routing.ledger.window := by
  have kept : after.openWindow = routing.openWindow := by
    cases opened : routing.openWindow with
    | none =>
      rw [openWindow, current, opened]
      rfl
    | some window =>
      rw [opened] at current
      apply openWindow_eq_some.mpr
      rw [same window opened]
      exact ⟨current, (openWindow_eq_some.mp opened).2⟩
  rw [ledger, ledger, kept]

/-- The open window is that of an option, and so not of the innermost command. -/
theorem Windowed.apart {window : Window} (windowed : routing.Windowed)
    (grown : Grown root routing) (opened : routing.openWindow = some window) :
    routing.path.innermost.occurrence ≠ window.occurrence := by
  intro same
  obtain ⟨isOption, _, placed⟩ := windowed window (openWindow_eq_some.mp opened).1
  obtain ⟨isCommand, _, placedCommand⟩ := grown.found List.mem_cons_self
  rw [← same] at placed
  have symbols := (Prod.mk.inj (Option.some.inj (placed.symm.trans placedCommand))).1
  rw [← symbols, Symbol.not_command isOption] at isCommand
  contradiction

/-- An option that is given a value keeps its window until that is full. -/
theorem window_filled {window : Window} {held : Nat}
    (current : after.window = if held < window.limit then some window else none)
    (holds : (after.tokensOf window.occurrence).length = held) :
    after.ledger.window = Ledger.opening window.option held window.limit := by
  by_cases more : held < window.limit
  · exact window_ledger (current.trans (if_pos more)) holds
  · rw [Ledger.opening, if_neg more, ledger, openWindow, current, if_neg more]
    rfl

theorem hasRoom_ledger (grown : Grown root routing) (numbered : root.Numbered) :
    (routing.ledger.held routing.ledger.commands.innermost).length <
      routing.ledger.commands.innermost.arity.max ↔ routing.HasRoom := by
  obtain ⟨-, above, placed⟩ := grown.found List.mem_cons_self
  have holds := held_found grown.arena numbered placed
  have count := (congrArg List.length holds).trans (List.length_map _)
  exact Eq.to_iff (congrArg (· < routing.path.innermost.command.arity.max) count)

theorem Move.ledger_value (move : Move routing token after) (grown : Grown root routing)
    (numbered : root.Numbered) (windowed : routing.Windowed) (kind : token.kind = .argument) :
    after.ledger = routing.ledger.value token.text := by
  cases move with
  | skip kind' => rcases kind' with kind' | kind' <;> simp [kind] at kind'
  | close kind' | enter kind' | name kind' | «open» kind' | reopen kind' =>
    rw [kind] at kind'
    contradiction
  | @fill window _ opened accepted =>
    obtain ⟨-, parent, placed⟩ := windowed window (openWindow_eq_some.mp opened).1
    have holds := held_found grown.arena numbered placed
    rw [List.map_append, List.map_singleton, ← holds] at accepted
    simp only [Ledger.value, ledger_opened opened, accepted, Bool.false_eq_true, if_false]
    refine Ledger.ext (entry_give grown.arena numbered placed token) rfl ?_ rfl
    have present := windowed.lt (openWindow_eq_some.mp opened).1
    have count : ((routing.give window.occurrence token).tokensOf window.occurrence).length =
        (routing.tokensOf window.occurrence).length + 1 := by
      rw [tokensOf_give present, if_pos rfl, List.length_append]
      rfl
    rw [holds, List.length_map]
    exact window_filled rfl count
  | take _ passes room =>
    obtain ⟨-, above, placed⟩ := grown.found List.mem_cons_self
    rw [passes.ledger_value grown numbered windowed, Ledger.toCommand,
      if_pos ((hasRoom_ledger grown numbered).mpr room)]
    refine Ledger.ext ?_ rfl ?_ rfl
    · exact entry_give grown.arena numbered placed token
    · apply window_kept rfl
      intro window opened
      exact tokensOf_give_other (windowed.apart grown opened) token
  | leave _ passes full =>
    rw [passes.ledger_value grown numbered windowed, Ledger.toCommand,
      if_neg (full ∘ (hasRoom_ledger grown numbered).mp)]
    refine Ledger.ext rfl rfl ?_ ?_
    · exact window_kept rfl fun _ _ => rfl
    · exact List.map_append

/-- What a token changes in the ledger is decided by the ledger alone. -/
theorem Move.ledger (move : Move routing token after) (grown : Grown root routing)
    (numbered : root.Numbered) (windowed : routing.Windowed)
    (begun : token.kind = .command → routing.started = true) :
    after.ledger = routing.ledger.step token := by
  have moved := move
  cases move with
  | skip kind => rcases kind with kind | kind <;> simp only [Ledger.step, kind]
  | close kind =>
    simp only [Ledger.step, kind]
    rfl
  | @enter child kind entered =>
    have known : routing.ledger.commands.innermost.subcommand? token.text = some child := entered
    simp only [Ledger.step, kind, known]
    have grew := entry_push routing
      (.met .command child token (some routing.path.innermost.occurrence))
    exact Ledger.ext grew rfl rfl rfl
  | name kind _ fresh =>
    rw [begun kind] at fresh
    contradiction
  | @«open» frame option kind meant absent | @reopen _ frame option kind meant present =>
    have read := routing.optionMeant_symbol token.text
    rw [meant, Option.map_some] at read
    have known : Symbol.optionIn? routing.ledger.commands.toList token.text = some option :=
      read.symm
    simp only [Ledger.step, kind, known]
    exact moved.ledger_name grown numbered kind meant
  | fill kind | take kind | leave kind =>
    simp only [Ledger.step, kind]
    exact moved.ledger_value grown numbered windowed kind

theorem ledger_push_missing (routing : Routing) (option : Symbol) (parent : Nat) :
    (routing.push (.missing option parent)).ledger =
      routing.ledger.add ⟨option, option.display, [], true⟩ := by
  refine Ledger.ext (entry_push routing (.missing option parent)) rfl ?_ rfl
  simp only [ledger, openWindow, tokensOf_push routing (.missing option parent) rfl]
  rfl

theorem ledger_addDefaults {frame : Frame} (grown : Grown root routing) (numbered : root.Numbered)
    (onPath : frame ∈ routing.path.toList) :
    (routing.addDefaults frame).ledger = routing.ledger.addDefaults frame.command := by
  have missing : routing.missingDefaults frame = routing.ledger.missingDefaults frame.command := by
    apply List.filter_congr
    intro child owned
    congr 1
    cases present : routing.occurrenceOf? frame child with
    | none =>
      have unmet := grown.unmet_child numbered onPath owned present
      rw [entry_eq_none_iff.mpr unmet]
      rfl
    | some i =>
      obtain ⟨occurrence, found, symbol, -⟩ :=
        grown.occurrence_named numbered onPath owned present
      rw [← symbol, entry_found grown.arena numbered found]
      rfl
  rw [addDefaults, missing, Ledger.addDefaults]
  generalize routing.ledger.missingDefaults frame.command = options
  clear missing onPath grown
  induction options generalizing routing with
  | nil => rfl
  | cons option rest ih =>
    rw [List.foldl_cons, List.foldl_cons, ih, ledger_push_missing]

theorem ledger_completed (grown : Grown root routing) (numbered : root.Numbered) :
    routing.completed.ledger = routing.ledger.completed := by
  have onPath : ∀ frame ∈ routing.path.toList.reverse, frame ∈ routing.path.toList :=
    fun _ member => List.mem_reverse.mp member
  have commands : routing.ledger.commands.toList.reverse =
      routing.path.toList.reverse.map Frame.command := by
    rw [ledger, Nesting.toList_map, List.map_reverse]
  rw [completed, Ledger.completed, commands]
  generalize routing.path.toList.reverse = frames at onPath
  clear commands
  induction frames generalizing routing with
  | nil => rfl
  | cons frame rest ih =>
    have here := onPath frame List.mem_cons_self
    rw [List.foldl_cons, ih (grown.addDefaults numbered here),
      ledger_addDefaults grown numbered here]
    · rfl
    · intro other later
      rw [(completes_addDefaults routing frame).path]
      exact onPath other (List.mem_cons_of_mem _ later)

end Routing

namespace Symbol
variable {root : Symbol} {args : List String} {before between after : List Token} {token : Token}

/-- Behind a token that names an option the ledger alone decides. -/
theorem ledger_routed (numbered : root.Numbered)
    (split : root.tokenize args = before ++ token :: after) (kind : token.kind = .option) :
    (root.routed (root.tokenize args)).ledger =
      (root.routed before).ledger.run (token :: after) := by
  have whole : root.tokenize args = before ++ token :: after ++ [] :=
    split.trans (List.append_nil _).symm
  have onward := routed_onward (motive := fun between routing =>
    (between ≠ [] → routing.started = true) ∧
      routing.ledger = (root.routed before).ledger.run between) ⟨nofun, rfl⟩ ?_ whole
  · rw [split]
    exact onward.2
  · rintro between next rest splitNext move ⟨started, same⟩
    -- The first of these tokens names an option, and then routing has started.
    have first : between = [] → next = token := by
      rintro rfl
      rw [split, List.append_nil, List.append_cancel_left_eq] at splitNext
      exact (List.cons.inj splitNext).1.symm
    have begun : next.kind = .command → (root.routed (before ++ between)).started = true := by
      intro command
      refine started fun none => ?_
      rw [first none, kind] at command
      contradiction
    refine ⟨fun _ => ?_, ?_⟩
    · rw [routed_concat]
      by_cases none : between = []
      · rw [first none]
        exact Routing.started_step (by simp [kind]) (by simp [kind])
      · exact Routing.started_run (started none) [next]
    · rw [move.ledger (grown_routed numbered splitNext) numbered
        (windowed_routed numbered splitNext) begun, same, Ledger.run_append]
      rfl

theorem ledger_arena (numbered : root.Numbered) (args : List String) :
    (root.arena args).ledger = (root.routed (root.tokenize args)).ledger.completed :=
  Routing.ledger_completed (grown_routed numbered (List.append_nil _).symm) numbered

end Symbol
end CommandGrammar
