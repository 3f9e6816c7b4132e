import CommandGrammar.Routing

/-! Everything that routing one token can do, provided the token is understood where it is met.
Invariants of a run go through these moves and do not open the routing functions again. -/
namespace CommandGrammar

/-- Where an occurrence stands: its symbol and the index of the occurrence above it. -/
def Occurrence.link (occurrence : Occurrence) : Symbol × Option Nat :=
  (occurrence.symbol, occurrence.parent)

theorem Symbol.not_command {symbol : Symbol} (isOption : symbol.isOption = true) :
    symbol.isCommand = false := by
  simpa only [Symbol.isOption, Bool.not_eq_true'] using isOption

theorem Symbol.subcommand_eq_some {command child : Symbol}
    (entered : command.subcommand? raw = some child) :
    child ∈ command.children ∧ child.isCommand = true := by
  have fits := List.find?_some entered
  simp only [Bool.and_eq_true] at fits
  exact ⟨List.mem_of_find?_eq_some entered, fits.1⟩

/-- A change at one place keeps every view that it keeps of an occurrence. -/
theorem Occurrence.map_modify {α : Type} {view : Occurrence → α} {change : Occurrence → Occurrence}
    (keeps : ∀ occurrence, view (change occurrence) = view occurrence)
    (occurrences : List Occurrence) (i : Nat) :
    (occurrences.modify i change).map view = occurrences.map view := by
  induction occurrences generalizing i with
  | nil => cases i <;> rfl
  | cons first rest ih =>
    cases i with
    | zero => simp only [List.modify_zero_cons, List.map_cons, keeps]
    | succ i => simp only [List.modify_succ_cons, List.map_cons, ih]

/-- A change at one place commutes with what is done to every occurrence if it does at that
place. -/
theorem Occurrence.modify_map {everywhere change : Occurrence → Occurrence}
    (changed : Occurrence → Occurrence)
    (commutes : ∀ occurrence, everywhere (change occurrence) = changed (everywhere occurrence))
    (occurrences : List Occurrence) (i : Nat) :
    (occurrences.modify i change).map everywhere =
      (occurrences.map everywhere).modify i changed := by
  apply List.ext_getElem?
  intro j
  simp only [List.getElem?_map, List.getElem?_modify]
  cases occurrences[j]? with
  | none => rfl
  | some occurrence =>
    by_cases here : i = j
    · simpa [here] using commutes occurrence
    · simp [here]

theorem Occurrence.forall_modify {holds : Occurrence → Prop} {change : Occurrence → Occurrence}
    {occurrences : List Occurrence} {i : Nat} (all : ∀ occurrence ∈ occurrences, holds occurrence)
    (kept : ∀ occurrence, occurrences[i]? = some occurrence → holds occurrence →
      holds (change occurrence)) :
    ∀ occurrence ∈ occurrences.modify i change, holds occurrence := by
  intro occurrence member
  obtain ⟨j, found⟩ := List.mem_iff_getElem?.mp member
  rw [List.getElem?_modify, Option.map_eq_map, Option.map_eq_some_iff] at found
  obtain ⟨before, found, rfl⟩ := found
  have held := all before (List.mem_of_getElem? found)
  split
  · rename_i same
    exact kept before (same ▸ found) held
  · exact held

namespace Routing
variable {routing : Routing} {token : Token}

def links (routing : Routing) : List (Symbol × Option Nat) :=
  routing.occurrences.map Occurrence.link

theorem links_length (routing : Routing) : routing.links.length = routing.occurrences.length :=
  List.length_map _

theorem links_getElem?_eq_some {i : Nat} {link : Symbol × Option Nat} :
    routing.links[i]? = some link ↔
      ∃ occurrence, routing.occurrences[i]? = some occurrence ∧ occurrence.link = link := by
  rw [links, List.getElem?_map, Option.map_eq_some_iff]

theorem optionMeant_eq_some {frame : Frame} {option : Symbol}
    (meant : routing.optionMeant? raw = some (frame, option)) :
    frame ∈ routing.path.toList ∧ option ∈ frame.command.children ∧ option.isOption = true := by
  obtain ⟨found, member, named⟩ := List.exists_of_findSome?_eq_some meant
  obtain ⟨option, search, same⟩ := Option.map_eq_some_iff.mp named
  cases same
  have fits := List.find?_some search
  simp only [Bool.and_eq_true] at fits
  exact ⟨member, List.mem_of_find?_eq_some search, fits.1⟩

theorem optionMeant_symbol (routing : Routing) (raw : String) :
    (routing.optionMeant? raw).map Prod.snd =
      Symbol.optionIn? (routing.path.map Frame.command).toList raw := by
  simp only [optionMeant?, Symbol.optionIn?, Nesting.toList_map, List.map_findSome?,
    List.findSome?_map]
  congr 1
  funext frame
  simp [Function.comp_def]

/-- The token does what its kind says, and is not taken for a value instead. -/
def Understands (routing : Routing) (token : Token) : Prop :=
  match token.kind with
  | .command =>
    (routing.path.innermost.command.subcommand? token.text).isSome ∨
      (routing.started = false ∧ routing.path.innermost.command.answersTo token.text = true)
  | .option => (routing.optionMeant? token.text).isSome
  | .argument | .directive | .endOfOptions | .unparsed => True

/-- The window while it has room; a full one is as good as closed. -/
def openWindow (routing : Routing) : Option Window :=
  routing.window.filter fun window =>
    (routing.tokensOf window.occurrence).length < window.limit

/-- No window takes the value: none is open, or its option gives the value back. -/
def Passes (routing : Routing) (token : Token) : Prop :=
  ∀ window, routing.openWindow = some window →
    window.option.declines ((routing.tokensOf window.occurrence ++ [token]).map Token.text) = true

def HasRoom (routing : Routing) : Prop :=
  (routing.tokensOf routing.path.innermost.occurrence).length <
    routing.path.innermost.command.arity.max

inductive Move (routing : Routing) (token : Token) : Routing → Prop where
  | skip : token.kind = .directive ∨ token.kind = .unparsed → Move routing token routing
  | close : token.kind = .endOfOptions →
      Move routing token { routing with window := none, started := true }
  | enter {child : Symbol} : token.kind = .command →
      routing.path.innermost.command.subcommand? token.text = some child →
      Move routing token
        { routing.push (.met .command child token (some routing.path.innermost.occurrence)) with
          path := routing.path.enter ⟨routing.occurrences.length, child⟩
          window := none
          started := true }
  | name : token.kind = .command →
      routing.path.innermost.command.subcommand? token.text = none →
      routing.started = false → routing.path.innermost.command.answersTo token.text = true →
      Move routing token
        { routing with
          occurrences := routing.occurrences.modify routing.path.innermost.occurrence
            fun occurrence => { occurrence with token }
          started := true }
  | «open» {frame : Frame} {option : Symbol} : token.kind = .option →
      routing.optionMeant? token.text = some (frame, option) →
      routing.occurrenceOf? frame option = none →
      Move routing token
        { routing.push (.met .option option token (some frame.occurrence)) with
          window := some ⟨routing.occurrences.length, option, option.arity.max⟩
          started := true }
  | reopen {frame : Frame} {option : Symbol} : token.kind = .option →
      routing.optionMeant? token.text = some (frame, option) →
      routing.occurrenceOf? frame option = some i →
      Move routing token
        { routing with
          window := some ⟨i, option, reopenedLimit option (routing.tokensOf i).length⟩
          started := true }
  | fill {window : Window} : token.kind = .argument → routing.openWindow = some window →
      window.option.declines
        ((routing.tokensOf window.occurrence ++ [token]).map Token.text) = false →
      Move routing token
        { routing.give window.occurrence token with
          window := if (routing.tokensOf window.occurrence).length + 1 < window.limit
            then some window else none
          started := true }
  | take : token.kind = .argument → routing.Passes token → routing.HasRoom →
      Move routing token
        { routing.give routing.path.innermost.occurrence token with
          window := routing.openWindow
          started := true }
  | leave : token.kind = .argument → routing.Passes token → ¬ routing.HasRoom →
      Move routing token
        { routing with
          unmatched := routing.unmatched ++ [token]
          window := routing.openWindow
          started := true }

theorem openWindow_eq_some {window : Window} :
    routing.openWindow = some window ↔ routing.window = some window ∧
      (routing.tokensOf window.occurrence).length < window.limit := by
  rw [openWindow, Option.filter_eq_some_iff, decide_eq_true_eq]

theorem value_filled {window : Window} (opened : routing.openWindow = some window)
    (accepted : window.option.declines
      ((routing.tokensOf window.occurrence ++ [token]).map Token.text) = false) :
    routing.value token =
      { routing.give window.occurrence token with
        window := if (routing.tokensOf window.occurrence).length + 1 < window.limit
          then some window else none } := by
  obtain ⟨current, room⟩ := openWindow_eq_some.mp opened
  simp only [value, current]
  rw [if_neg (Nat.not_le.mpr room), if_neg (Bool.eq_false_iff.mp accepted)]

theorem toCommand_roomy (routing : Routing) (token : Token) (room : routing.HasRoom) :
    routing.toCommand token = routing.give routing.path.innermost.occurrence token :=
  if_pos room

theorem toCommand_full (routing : Routing) (token : Token) (full : ¬ routing.HasRoom) :
    routing.toCommand token = { routing with unmatched := routing.unmatched ++ [token] } :=
  if_neg full

theorem value_passed (passes : routing.Passes token) :
    routing.value token = { routing with window := routing.openWindow }.toCommand token := by
  cases current : routing.window with
  | none =>
    have shut : routing.openWindow = routing.window := by rw [openWindow, current]; rfl
    rw [shut]
    simp only [value, current]
    rw [← current]
  | some window =>
    by_cases room : (routing.tokensOf window.occurrence).length < window.limit
    · have opened := openWindow_eq_some.mpr ⟨current, room⟩
      simp only [value, current]
      rw [if_neg (Nat.not_le.mpr room), if_pos (passes window opened), opened, ← current]
    · have shut : routing.openWindow = none := by
        rw [openWindow, current, Option.filter_some, if_neg (by simpa using room)]
      simp only [value, current]
      rw [if_pos (Nat.not_lt.mp room), shut]

theorem move_value (kind : token.kind = .argument) :
    Move routing token { routing.value token with started := true } := by
  by_cases passes : routing.Passes token
  · rw [value_passed passes]
    by_cases room : routing.HasRoom
    · rw [toCommand_roomy { routing with window := routing.openWindow } token room]
      exact .take kind passes room
    · rw [toCommand_full { routing with window := routing.openWindow } token room]
      exact .leave kind passes room
  · simp only [Passes, Classical.not_forall, Bool.not_eq_true] at passes
    obtain ⟨window, opened, accepted⟩ := passes
    rw [value_filled opened accepted]
    exact .fill kind opened accepted

theorem move_step (understood : routing.Understands token) :
    Move routing token (routing.step token) := by
  unfold Understands at understood
  cases kind : token.kind with
  | directive =>
    simp only [step, kind]
    exact .skip (.inl kind)
  | unparsed =>
    simp only [step, kind]
    exact .skip (.inr kind)
  | endOfOptions =>
    simp only [step, kind]
    exact .close kind
  | argument =>
    simp only [step, kind]
    exact move_value kind
  | command =>
    simp only [kind] at understood
    simp only [step, kind, command]
    cases entered : routing.path.innermost.command.subcommand? token.text with
    | some child => exact .enter kind entered
    | none =>
      obtain ⟨fresh, named⟩ := understood.resolve_left (by simp [entered])
      rw [if_pos (by simp [fresh, named])]
      exact .name kind entered fresh named
  | option =>
    simp only [kind, Option.isSome_iff_exists] at understood
    obtain ⟨⟨frame, option⟩, meant⟩ := understood
    simp only [step, kind, Routing.option, meant]
    cases seen : routing.occurrenceOf? frame option with
    | none => exact .open kind meant seen
    | some i => exact .reopen kind meant seen

/-- What a move does to the arena: it may add a command or an option. -/
inductive Growth (routing : Routing) (token : Token) (after : Routing) : Prop where
  | still : after.links = routing.links → after.childrenOf = routing.childrenOf →
      after.path = routing.path → Growth routing token after
  | entered {child : Symbol} : token.kind = .command →
      routing.path.innermost.command.subcommand? token.text = some child →
      after.occurrences = (routing.push
        (.met .command child token (some routing.path.innermost.occurrence))).occurrences →
      after.path = routing.path.enter ⟨routing.occurrences.length, child⟩ →
      Growth routing token after
  | opened {frame : Frame} {option : Symbol} : token.kind = .option →
      routing.optionMeant? token.text = some (frame, option) →
      routing.occurrenceOf? frame option = none →
      after.occurrences =
        (routing.push (.met .option option token (some frame.occurrence))).occurrences →
      after.path = routing.path → Growth routing token after

theorem childrenOf_eq (routing : Routing) (i : Nat) :
    routing.childrenOf i = ((routing.occurrences.map Occurrence.children)[i]?).getD [] := by
  rw [childrenOf, List.getElem?_map]
  cases routing.occurrences[i]? <;> rfl

/-- The occurrence of an option is found by symbols and by what is noted under commands. -/
theorem occurrenceOf_congr {routing other : Routing}
    (symbols : other.occurrences.map Occurrence.symbol =
      routing.occurrences.map Occurrence.symbol)
    (children : ∀ i, other.childrenOf i = routing.childrenOf i) (frame : Frame) (option : Symbol) :
    other.occurrenceOf? frame option = routing.occurrenceOf? frame option := by
  simp only [occurrenceOf?, children]
  congr 1
  funext i
  have same := congrArg (fun symbols : List Symbol =>
    symbols[i]?.any fun symbol => symbol.id == option.id) symbols
  simpa only [List.getElem?_map, Option.any_map] using same

/-- A change at one place that is neither of symbol nor of parent or children. -/
theorem still_of_modify (change : Occurrence → Occurrence) {i : Nat}
    (link : ∀ occurrence, (change occurrence).link = occurrence.link)
    (children : ∀ occurrence, (change occurrence).children = occurrence.children)
    (changed : after.occurrences = routing.occurrences.modify i change)
    (path : after.path = routing.path) : Growth routing token after := by
  refine .still ?_ ?_ path
  · rw [links, changed]
    exact Occurrence.map_modify link _ _
  · funext j
    rw [childrenOf_eq, childrenOf_eq, changed, Occurrence.map_modify children]

/-- Adding an occurrence keeps every view of the others that does not show what is under them. -/
theorem map_push {α : Type} {view : Occurrence → α}
    (keeps : ∀ occurrence children, view { occurrence with children } = view occurrence)
    (routing : Routing) (occurrence : Occurrence) :
    (routing.push occurrence).occurrences.map view =
      routing.occurrences.map view ++ [view occurrence] := by
  simp only [push, List.map_append, List.map_cons, List.map_nil]
  congr 1
  split
  · apply Occurrence.map_modify
    exact fun owner => keeps owner _
  · rfl

theorem tokensOf_eq (routing : Routing) (i : Nat) :
    routing.tokensOf i = ((routing.occurrences.map Occurrence.tokens)[i]?).getD [] := by
  rw [tokensOf, List.getElem?_map]
  cases routing.occurrences[i]? <;> rfl

theorem tokensOf_push (routing : Routing) (occurrence : Occurrence)
    (valueless : occurrence.tokens = []) (i : Nat) :
    (routing.push occurrence).tokensOf i = routing.tokensOf i := by
  rw [tokensOf_eq, tokensOf_eq, map_push (fun _ _ => rfl), valueless]
  rcases Nat.lt_or_ge i routing.occurrences.length with old | new
  · rw [List.getElem?_append_left (by rwa [List.length_map])]
  · have beyond : (routing.occurrences.map Occurrence.tokens)[i]? = none :=
      List.getElem?_eq_none (by rwa [List.length_map])
    rw [beyond, List.getElem?_append_right (by rwa [List.length_map])]
    cases i - (routing.occurrences.map Occurrence.tokens).length <;> rfl

/-- What an occurrence shows apart from those under it holds of all, the new one included. -/
theorem forall_push {holds : Occurrence → Prop} {occurrence : Occurrence}
    (keeps : ∀ occurrence children, holds occurrence → holds { occurrence with children })
    (all : ∀ other ∈ routing.occurrences, holds other) (new : holds occurrence) :
    ∀ other ∈ (routing.push occurrence).occurrences, holds other := by
  intro other member
  rcases List.mem_append.mp member with old | last
  · split at old
    · refine Occurrence.forall_modify all ?_ other old
      exact fun owner _ held => keeps owner _ held
    · exact all other old
  · cases List.mem_singleton.mp last
    exact new

theorem links_push (routing : Routing) (occurrence : Occurrence) :
    (routing.push occurrence).links = routing.links ++ [occurrence.link] :=
  map_push (fun _ _ => rfl) routing occurrence

theorem push_last (routing : Routing) (occurrence : Occurrence) :
    (routing.push occurrence).occurrences[routing.occurrences.length]? = some occurrence := by
  simp only [push]
  split
  · rw [List.getElem?_append_right (Nat.le_of_eq (List.length_modify _ _ _)), List.length_modify,
      Nat.sub_self]
    rfl
  · exact List.getElem?_concat_length

theorem childrenOf_push (routing : Routing) {occurrence : Occurrence} {parent : Nat}
    (under : occurrence.parent = some parent) (childless : occurrence.children = [])
    (present : parent < routing.occurrences.length) (i : Nat) :
    (routing.push occurrence).childrenOf i =
      routing.childrenOf i ++ if parent = i then [routing.occurrences.length] else [] := by
  simp only [childrenOf, push, under]
  rcases Nat.lt_trichotomy i routing.occurrences.length with old | rfl | beyond
  · rw [List.getElem?_append_left (by rwa [List.length_modify]), List.getElem?_modify,
      List.getElem?_eq_getElem old]
    by_cases same : parent = i <;> simp [same]
  · rw [List.getElem?_append_right (Nat.le_of_eq (List.length_modify _ _ _)),
      List.length_modify, Nat.sub_self, List.getElem?_eq_none (Nat.le_refl _),
      if_neg (Nat.ne_of_lt present)]
    exact childless
  · rw [List.getElem?_eq_none (by rw [List.length_append, List.length_modify]; exact beyond),
      List.getElem?_eq_none (Nat.le_of_lt beyond), if_neg (by omega)]
    rfl

theorem Move.growth (move : Move routing token after) : Growth routing token after := by
  cases move with
  | skip | close | reopen | leave => exact .still rfl rfl rfl
  | fill | take =>
    exact still_of_modify (fun occurrence =>
      { occurrence with tokens := occurrence.tokens ++ [token] })
      (fun _ => rfl) (fun _ => rfl) rfl rfl
  | name =>
    exact still_of_modify (fun occurrence => { occurrence with token })
      (fun _ => rfl) (fun _ => rfl) rfl rfl
  | enter kind entered => exact .entered kind entered rfl rfl
  | «open» kind meant fresh => exact .opened kind meant fresh rfl rfl

end Routing
end CommandGrammar
