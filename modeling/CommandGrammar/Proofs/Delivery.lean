import CommandGrammar.Proofs.Overflow
import CommandGrammar.Proofs.Pending
import CommandGrammar.Proofs.Verdicts

/-! Where a value goes follows from the tokens in front of it and from where the values among those
went. It goes to the option named last if that has room and does not give it back, or else to the
innermost command if that has room, and is left over otherwise. -/
namespace CommandGrammar

namespace Parse

/-- The values that a symbol has taken, if it has an occurrence. -/
def valuesOf (parse : Parse) (symbol : Symbol) : List Token :=
  match parse.occurrences.find? (·.symbol.id == symbol.id) with
  | some resolved => resolved.tokens
  | none => []

/-- Those of the values that were met among the given tokens. -/
def heldAmong (parse : Parse) (tokens : List Token) (symbol : Symbol) : List Token :=
  (parse.valuesOf symbol).filter (· ∈ tokens)

/-- How many values an option may hold once it is named behind the given tokens. -/
def limitBehind (root : Symbol) (parse : Parse) (earlier : List Token) (option : Symbol) : Nat :=
  if root.namings parse.args earlier option = 0 then option.arity.max
  else if option.arity.max = 0 then 0
  else max option.arity.max ((parse.heldAmong earlier option).length + 1)

end Parse

namespace Symbol

/-- The last token that names an option names this one, behind the `earlier` tokens, and neither a
command nor `--` has come since. -/
def NamedLast (root : Symbol) (args : List String) (before earlier : List Token)
    (option : Symbol) : Prop :=
  ∃ naming values, before = earlier ++ naming :: values ∧ naming.kind = .option ∧
    root.optionNamed? args naming = some option ∧
    ∀ value ∈ values, value.kind ≠ .option ∧ value.kind ≠ .command ∧ value.kind ≠ .endOfOptions

/-- The command that is innermost where a token has been read. -/
def commandAt? (root : Symbol) (args : List String) (token : Token) : Option Symbol :=
  token.position.map fun place => (root.readerAt args place).commands.innermost

/-- An option gives back a value if all that is wrong is that the values cannot be converted, and
none are needed. -/
structure GivesBack (option : Symbol) (texts : List String) : Prop where
  optional : option.arity.min = 0
  few : texts.length ≤ option.arity.max
  allowed : option.argument.allowed ≠ [] → ∀ text ∈ texts, text ∈ option.argument.allowed
  unconvertible : ∃ message, option.argument.convert texts = .error message

theorem declines_iff {option : Symbol} (isOption : option.isOption = true) (texts : List String) :
    option.declines texts = true ↔ option.GivesBack texts := by
  have retryable (message : String) :
      (Fault.unconvertible message).isRetryable option = true ↔ option.arity.min = 0 := by
    simp [Fault.isRetryable, isOption]
  constructor
  · intro declined
    unfold declines objection? at declined
    split at declined
    · rename_i fault objects
      split at objects
      · cases objects
        contradiction
      · rename_i few
        split at objects
        · rename_i disallowed
          obtain ⟨text, -, rfl⟩ := Option.map_eq_some_iff.mp disallowed
          cases objects
          contradiction
        · rename_i allowed
          split at objects
          · contradiction
          · rename_i message failed
            cases objects
            exact ⟨(retryable message).mp declined, Nat.le_of_not_lt few,
              disallowed_eq_none_iff.mp allowed, message, failed⟩
    · contradiction
  · rintro ⟨optional, few, allowed, message, failed⟩
    rw [declines, objection?, if_neg (Nat.not_lt_of_le few), disallowed_eq_none_iff.mpr allowed,
      failed]
    exact (retryable message).mpr optional

end Symbol

namespace Routing
variable {root : Symbol} {routing after : Routing} {token : Token}

/-- What becomes of a value: the option with the open window has it, or the innermost command, or
nothing. -/
inductive Delivery (routing : Routing) (token : Token) (after : Routing) : Prop where
  | option {window : Window} : routing.openWindow = some window →
      window.option.declines
        ((routing.tokensOf window.occurrence ++ [token]).map Token.text) = false →
      (∀ j, after.tokensOf j =
        routing.tokensOf j ++ if window.occurrence = j then [token] else []) →
      after.unmatched = routing.unmatched → Delivery routing token after
  | command : routing.Passes token → routing.HasRoom →
      (∀ j, after.tokensOf j =
        routing.tokensOf j ++ if routing.path.innermost.occurrence = j then [token] else []) →
      after.unmatched = routing.unmatched → Delivery routing token after
  | nowhere : routing.Passes token → ¬ routing.HasRoom →
      (∀ j, after.tokensOf j = routing.tokensOf j) →
      after.unmatched = routing.unmatched ++ [token] → Delivery routing token after

theorem Move.delivery (move : Move routing token after) (grown : Grown root routing)
    (windowed : routing.Windowed) (kind : token.kind = .argument) :
    Delivery routing token after := by
  cases move with
  | skip kind' => rcases kind' with kind' | kind' <;> simp [kind] at kind'
  | close kind' | enter kind' | name kind' | «open» kind' | reopen kind' =>
    rw [kind] at kind'
    contradiction
  | @fill window _ opened accepted =>
    have present := windowed.lt (openWindow_eq_some.mp opened).1
    exact .option opened accepted (tokensOf_give present token) rfl
  | take _ passes room =>
    exact .command passes room (tokensOf_give grown.innermost_lt token) rfl
  | leave _ passes full => exact .nowhere passes full (fun _ => rfl) rfl

theorem Ordered.met {before : List Token} {i : Nat} (ordered : routing.Ordered before)
    (held : token ∈ routing.tokensOf i) : token ∈ before := by
  cases found : routing.occurrences[i]? with
  | none => simp [tokensOf, found] at held
  | some occurrence =>
    rw [tokensOf, found] at held
    exact (ordered.taken occurrence (List.mem_of_getElem? found)).subset held

end Routing

namespace Symbol
variable {root option : Symbol} {files : Files} {args : List String}
  {before between after earlier : List Token} {value : Token} {i : Nat}

/-- No token that is not the name of an option comes twice. -/
theorem notMem_before {token : Token} (split : root.tokenize args = before ++ token :: after)
    (notOption : token.kind ≠ .option) : token ∉ before := by
  intro earlier
  have distinct : (Token.only token.kind (root.tokenize args)).Nodup :=
    Token.only_nodup notOption
  rw [split, Token.only, List.filter_append, List.filter_cons_of_pos (by simp),
    List.nodup_append] at distinct
  have listed : token ∈ before.filter (·.kind == token.kind) :=
    List.mem_filter.mpr ⟨earlier, beq_iff_eq.mpr rfl⟩
  exact distinct.2.2 token listed token List.mem_cons_self rfl

/-- Where only values are added as they are met, those met earlier are what was there earlier. -/
theorem filter_among (view : Routing → List Token)
    (held : ∀ token ∈ view (root.routed before), token ∈ before)
    (grows : ∀ {earlier token later}, root.tokenize args = earlier ++ token :: later →
      view (root.routed (earlier ++ [token])) = view (root.routed earlier) ∨
      token.kind = .argument ∧
        view (root.routed (earlier ++ [token])) = view (root.routed earlier) ++ [token])
    (split : root.tokenize args = before ++ between ++ after) :
    (view (root.routed (before ++ between))).filter (· ∈ before) = view (root.routed before) := by
  refine routed_onward (motive := fun _ routing =>
    (view routing).filter (· ∈ before) = view (root.routed before)) ?_ ?_ split
  · exact List.filter_eq_self.mpr fun token member => decide_eq_true (held token member)
  · intro between token rest split _ same
    rcases grows split with kept | ⟨kind, added⟩
    · rw [kept, same]
    · have absent := notMem_before split (by simp [kind])
      rw [List.mem_append, not_or] at absent
      rw [added, List.filter_append, same, List.filter_cons_of_neg (by simp [absent.1]),
        List.filter_nil, List.append_nil]

theorem tokensOf_among (numbered : root.Numbered)
    (split : root.tokenize args = before ++ between ++ after) (i : Nat) :
    ((root.routed (before ++ between)).tokensOf i).filter (· ∈ before) =
      (root.routed before).tokensOf i := by
  apply filter_among (·.tokensOf i) ?_ ?_ split
  · have accounts := accounts_routed numbered (split.trans (List.append_assoc _ _ _))
    exact fun token => accounts.ordered.met
  · intro earlier token later split
    obtain ⟨_, _, met⟩ := met split
    have move := Routing.move_step met.understood
    rw [← routed_concat] at move
    cases move.storage (grown_routed numbered split) (windowed_routed numbered split) with
    | kept same => exact .inl (same i)
    | filled kind _ _ added | taken kind _ added =>
      rw [added]
      split
      · exact .inr ⟨kind, rfl⟩
      · exact .inl (List.append_nil _)

theorem unmatched_among (numbered : root.Numbered)
    (split : root.tokenize args = before ++ between ++ after) :
    (root.routed (before ++ between)).unmatched.filter (· ∈ before) =
      (root.routed before).unmatched := by
  apply filter_among Routing.unmatched ?_ ?_ split
  · have accounts := accounts_routed numbered (split.trans (List.append_assoc _ _ _))
    exact fun token left => accounts.ordered.unmatched.subset left
  · intro earlier token later split
    obtain ⟨_, _, met⟩ := met split
    have move := Routing.move_step met.understood
    rw [routed_concat]
    generalize (root.routed earlier).step token = next at move ⊢
    cases move with
    | skip | close | enter | name | «open» | reopen | fill | take => exact .inl rfl
    | leave kind => exact .inr ⟨kind, rfl⟩

theorem valuesOf_parse (numbered : root.Numbered) {resolved : Resolved}
    (found : (root.parse files args).occurrences[i]? = some resolved) :
    (root.parse files args).valuesOf resolved.symbol = resolved.tokens := by
  rw [Parse.valuesOf]
  split
  · rename_i other first
    obtain ⟨j, foundOther⟩ := List.mem_iff_getElem?.mp (List.mem_of_find?_eq_some first)
    have same : other.symbol.id = resolved.symbol.id := by simpa using List.find?_some first
    have arena := (grown_arena numbered args).arena
    cases arena.index_unique numbered (link_parse foundOther) (link_parse found) same
    cases found.symm.trans foundOther
    rfl
  · rename_i absent
    have differs := List.find?_eq_none.mp absent resolved (List.mem_of_getElem? found)
    simp at differs

variable {symbol : Symbol} {parent : Option Nat}

/-- What a symbol has taken of the tokens met so far is what its occurrence holds there. -/
theorem heldAmong_parse (numbered : root.Numbered) (files : Files)
    (split : root.tokenize args = before ++ between ++ after)
    (placed : (root.routed (before ++ between)).links[i]? = some (symbol, parent)) :
    (root.parse files args).heldAmong before symbol = (root.routed before).tokensOf i := by
  have whole : root.tokenize args = before ++ (between ++ after) ++ [] := by
    rw [split, List.append_nil, List.append_assoc]
  have final := (routed_extends numbered (split.trans (List.append_nil _).symm) i).1 _ placed
  rw [← split] at final
  obtain ⟨occurrence, met, linked⟩ := Routing.links_getElem?_eq_some.mp final
  obtain ⟨resolved, found, same⟩ := resolved_of_met files met
  have symbols : resolved.symbol = symbol :=
    (congrArg Occurrence.symbol same).trans (Prod.mk.inj linked).1
  have among := tokensOf_among numbered whole i
  rw [List.append_nil] at whole
  rw [← whole] at among
  rw [Parse.heldAmong, ← symbols, valuesOf_parse numbered found, tokensOf_parse found, among]

theorem heldAmong_routed (numbered : root.Numbered) (files : Files)
    (split : root.tokenize args = before ++ after)
    (placed : (root.routed before).links[i]? = some (symbol, parent)) :
    (root.parse files args).heldAmong before symbol = (root.routed before).tokensOf i := by
  rw [← List.append_nil before] at split placed
  exact heldAmong_parse numbered files split placed

/-- A value that has been met is taken by a symbol if its occurrence holds it by then. -/
theorem mem_valuesOf_iff (numbered : root.Numbered) (files : Files)
    (split : root.tokenize args = before ++ after) (met : value ∈ before)
    (inTree : symbol ∈ root.preorder) :
    value ∈ (root.parse files args).valuesOf symbol ↔ ∃ i parent,
      (root.routed before).links[i]? = some (symbol, parent) ∧
        value ∈ (root.routed before).tokensOf i := by
  have whole : root.tokenize args = before ++ after ++ [] := by rw [split, List.append_nil]
  constructor
  · intro taken
    rw [Parse.valuesOf] at taken
    split at taken
    · rename_i resolved first
      obtain ⟨i, found⟩ := List.mem_iff_getElem?.mp (List.mem_of_find?_eq_some first)
      have same : resolved.symbol.id = symbol.id := by simpa using List.find?_some first
      have arena := (grown_arena numbered args).arena
      obtain rfl := numbered.eq_of_id (arena.mem_preorder (link_parse found)) inTree same
      have placed := (placed_or_valueless numbered found).resolve_right fun valueless => by
        simp [valueless.2] at taken
      have held : value ∈ (root.routed before).tokensOf i := by
        rw [← tokensOf_among numbered whole i, ← split, ← tokensOf_parse found]
        exact List.mem_filter.mpr ⟨taken, decide_eq_true met⟩
      cases linked : (root.routed before).links[i]? with
      | none => simp [Routing.tokensOf_beyond linked] at held
      | some link =>
        have extended := (routed_extends numbered whole i).1 link linked
        rw [← split, placed.2] at extended
        exact ⟨i, resolved.parent, linked.trans extended.symm, held⟩
    · contradiction
  · rintro ⟨i, parent, placed, held⟩
    rw [← heldAmong_routed numbered files split placed] at held
    exact (List.mem_filter.mp held).1

theorem heldAmong_of_window (numbered : root.Numbered) (files : Files)
    (split : root.tokenize args = before ++ after) {window : Window}
    (opened : (root.routed before).openWindow = some window) :
    (root.parse files args).heldAmong before window.option =
      (root.routed before).tokensOf window.occurrence := by
  obtain ⟨-, _, placed⟩ := windowed_routed numbered split window
    (Routing.openWindow_eq_some.mp opened).1
  exact heldAmong_routed numbered files split placed

/-- Until something else is named there are only values behind the name of an option. -/
theorem values_of_named {naming : Token} {values : List Token}
    (split : root.tokenize args = earlier ++ naming :: values ++ after)
    (kind : naming.kind = .option)
    (others : ∀ value ∈ values,
      value.kind ≠ .option ∧ value.kind ≠ .command ∧ value.kind ≠ .endOfOptions) :
    ∀ value ∈ values, value.kind = .argument := by
  intro value member
  obtain ⟨notOption, notCommand, notDashes⟩ := others value member
  obtain ⟨first, last, rfl⟩ := List.append_of_mem member
  have started : (root.routed (earlier ++ [naming] ++ first)).started = true := by
    rw [routed_append, routed_concat]
    exact Routing.started_run
      (Routing.started_step (by simp [kind]) (by simp [kind])) first
  have splitValue : root.tokenize args =
      earlier ++ [naming] ++ first ++ value :: (last ++ after) := by simpa using split
  by_contra notArgument
  have aside : value.kind = .directive ∨ value.kind = .unparsed := by
    cases kind' : value.kind <;> simp_all
  rw [fresh_of_aside splitValue aside] at started
  contradiction

/-- How many values an option may hold, told by what it has taken, is the limit of its window. -/
theorem limitBehind_parse (numbered : root.Numbered) (files : Files)
    (split : root.tokenize args = earlier ++ between ++ after) (isOption : option.isOption = true)
    (placed : (root.routed (earlier ++ between)).links[i]? = some (option, parent)) :
    (root.parse files args).limitBehind root earlier option =
      Routing.reopenedLimit option ((root.routed earlier).tokensOf i).length := by
  rw [Parse.limitBehind, heldAmong_parse numbered files split placed]
  split
  · rename_i unnamed
    have splitEarlier := split.trans (List.append_assoc _ _ _)
    have absent : (root.routed earlier).links[i]? = none := by
      by_contra present
      obtain ⟨link, linked⟩ := Option.ne_none_iff_exists'.mp present
      cases ((routed_extends numbered split i).1 link linked).symm.trans placed
      have named := (accounts_routed numbered splitEarlier).namings_pos linked isOption
      exact absurd unnamed (Nat.pos_iff_ne_zero.mp named)
    rw [Routing.tokensOf_beyond absent, List.length_nil, Routing.reopenedLimit_zero]
  · rfl

/-- The option named last has a window as long as it has room. -/
theorem openWindow_named (numbered : root.Numbered) (files : Files)
    (split : root.tokenize args = before ++ after)
    (named : root.NamedLast args before earlier option) : ∃ i,
      (root.routed before).openWindow =
        if ((root.parse files args).heldAmong before option).length <
            (root.parse files args).limitBehind root earlier option then
          some ⟨i, option, (root.parse files args).limitBehind root earlier option⟩
        else none := by
  obtain ⟨naming, values, rfl, kind, names, others⟩ := named
  have onlyValues := values_of_named split kind others
  have splitNaming : root.tokenize args = earlier ++ [naming] ++ values ++ after := by
    simpa using split
  obtain ⟨option, i, namesToo, tracks⟩ := tracks_routed numbered splitNaming kind onlyValues
  cases names.symm.trans namesToo
  obtain ⟨isOption, parent, placed⟩ := tracks.placed
  rw [List.append_assoc, List.singleton_append] at placed
  have held := heldAmong_routed numbered files split placed
  have opened := tracks.opened
  rw [← limitBehind_parse numbered files split isOption placed, List.append_assoc,
    List.singleton_append, ← held] at opened
  exact ⟨i, opened⟩

/-- An option is open for a value if it has been named last and has room. -/
theorem openWindow_iff (numbered : root.Numbered) (files : Files)
    (split : root.tokenize args = before ++ after) (option : Symbol) :
    (∃ window, (root.routed before).openWindow = some window ∧ window.option = option) ↔
      ∃ earlier, root.NamedLast args before earlier option ∧
        ((root.parse files args).heldAmong before option).length <
          (root.parse files args).limitBehind root earlier option := by
  constructor
  · rintro ⟨window, opened, rfl⟩
    rcases idle_routed numbered split with
      ⟨earlier, naming, values, rfl, kind, onlyValues⟩ | ⟨-, shut⟩
    · obtain ⟨option, i, names, -⟩ := tracks_routed numbered split kind onlyValues
      have named : root.NamedLast args (earlier ++ [naming] ++ values) earlier option :=
        ⟨naming, values, by simp, kind, names, fun value member => by
          simp [onlyValues value member]⟩
      obtain ⟨j, limited⟩ := openWindow_named numbered files split named
      rw [limited, Option.ite_none_right_eq_some] at opened
      obtain ⟨room, same⟩ := opened
      cases same
      exact ⟨earlier, named, room⟩
    · rw [shut] at opened
      contradiction
  · rintro ⟨earlier, named, room⟩
    obtain ⟨i, opened⟩ := openWindow_named numbered files split named
    rw [if_pos room] at opened
    exact ⟨_, opened, rfl⟩

end Symbol

/-- An option gets a value: it has been named last, it has room, and it does not give the value
back. -/
structure Parse.Gets (root : Symbol) (parse : Parse) (before : List Token) (value : Token)
    (option : Symbol) : Prop where
  room : ∃ earlier, root.NamedLast parse.args before earlier option ∧
    (parse.heldAmong before option).length < parse.limitBehind root earlier option
  keeps : ¬ option.GivesBack ((parse.heldAmong before option ++ [value]).map Token.text)

namespace Symbol
variable {root symbol : Symbol} {args : List String} {before after : List Token} {value : Token}

theorem gets_iff (numbered : root.Numbered) (files : Files)
    (split : root.tokenize args = before ++ after) (value : Token) (option : Symbol) :
    (root.parse files args).Gets root before value option ↔
      ∃ window, (root.routed before).openWindow = some window ∧ window.option = option ∧
        window.option.declines
          (((root.routed before).tokensOf window.occurrence ++ [value]).map Token.text) = false := by
  have declines {window : Window} (opened : (root.routed before).openWindow = some window) :
      window.option.declines
          (((root.routed before).tokensOf window.occurrence ++ [value]).map Token.text) = false ↔
        ¬ window.option.GivesBack
          (((root.parse files args).heldAmong before window.option ++ [value]).map
            Token.text) := by
    obtain ⟨isOption, -⟩ := windowed_routed numbered split window
      (Routing.openWindow_eq_some.mp opened).1
    rw [heldAmong_of_window numbered files split opened, ← declines_iff isOption,
      Bool.not_eq_true]
  constructor
  · rintro ⟨room, keeps⟩
    obtain ⟨window, opened, rfl⟩ := (openWindow_iff numbered files split option).mpr room
    exact ⟨window, opened, rfl, (declines opened).mpr keeps⟩
  · rintro ⟨window, opened, rfl, accepted⟩
    exact ⟨(openWindow_iff numbered files split _).mp ⟨window, opened, rfl⟩,
      (declines opened).mp accepted⟩

theorem passes_iff (numbered : root.Numbered) (files : Files)
    (split : root.tokenize args = before ++ after) (value : Token) :
    (root.routed before).Passes value ↔
      ∀ option, ¬ (root.parse files args).Gets root before value option := by
  constructor
  · intro passes option gets
    obtain ⟨window, opened, -, accepted⟩ := (gets_iff numbered files split value option).mp gets
    rw [passes window opened] at accepted
    contradiction
  · intro none window opened
    by_contra accepted
    rw [Bool.not_eq_true] at accepted
    exact none window.option ((gets_iff numbered files split value _).mpr
      ⟨window, opened, rfl, accepted⟩)

theorem commandAt_routed (split : root.tokenize args = before ++ value :: after) :
    root.commandAt? args value = some (root.routed before).path.innermost.command := by
  obtain ⟨place, raw, met⟩ := met split
  rw [commandAt?, met.position, Option.map_some, ← met.scope]
  rfl

theorem hasRoom_iff (numbered : root.Numbered) (files : Files)
    (split : root.tokenize args = before ++ after) :
    (root.routed before).HasRoom ↔
      ((root.parse files args).heldAmong before (root.routed before).path.innermost.command).length <
        (root.routed before).path.innermost.command.arity.max := by
  obtain ⟨-, _, placed⟩ := (grown_routed numbered split).found List.mem_cons_self
  rw [heldAmong_routed numbered files split placed]
  rfl

/-- A value that has been added at one place is taken by the symbol there and by no other. -/
theorem mem_valuesOf_added (numbered : root.Numbered) (files : Files)
    (split : root.tokenize args = before ++ value :: after) (kind : value.kind = .argument)
    (inTree : symbol ∈ root.preorder) {place : Nat} {owner : Symbol} {parent : Option Nat}
    (placed : (root.routed before).links[place]? = some (owner, parent))
    (added : ∀ j, (root.routed (before ++ [value])).tokensOf j =
      (root.routed before).tokensOf j ++ if place = j then [value] else []) :
    value ∈ (root.parse files args).valuesOf symbol ↔ symbol = owner := by
  have splitAfter : root.tokenize args = before ++ [value] ++ after := by simpa using split
  have stays := (routed_extends numbered splitAfter place).1 _ placed
  have unmet : value ∉ before := notMem_before split (by simp [kind])
  rw [mem_valuesOf_iff numbered files splitAfter (by simp) inTree]
  constructor
  · rintro ⟨i, above, linked, held⟩
    rw [added, List.mem_append] at held
    rcases held with earlier | here
    · exact absurd ((accounts_routed numbered split).ordered.met earlier) unmet
    · by_cases same : place = i
      · subst same
        cases linked.symm.trans stays
        rfl
      · simp [same] at here
  · rintro rfl
    exact ⟨place, parent, stays, by simp [added]⟩

/-- A value that has been added nowhere is taken by no symbol. -/
theorem notMem_valuesOf (numbered : root.Numbered) (files : Files)
    (split : root.tokenize args = before ++ value :: after) (kind : value.kind = .argument)
    (inTree : symbol ∈ root.preorder)
    (same : ∀ j, (root.routed (before ++ [value])).tokensOf j =
      (root.routed before).tokensOf j) :
    value ∉ (root.parse files args).valuesOf symbol := by
  have splitAfter : root.tokenize args = before ++ [value] ++ after := by simpa using split
  rw [mem_valuesOf_iff numbered files splitAfter (by simp) inTree]
  rintro ⟨i, -, -, held⟩
  rw [same] at held
  exact notMem_before split (by simp [kind]) ((accounts_routed numbered split).ordered.met held)

/-- A value is left over in the end if it is left over when it is met. -/
theorem mem_unmatched_iff (numbered : root.Numbered) (files : Files)
    (split : root.tokenize args = before ++ value :: after) :
    value ∈ (root.parse files args).unmatched ↔
      value ∈ (root.routed (before ++ [value])).unmatched := by
  have splitAfter : root.tokenize args = before ++ [value] ++ after ++ [] := by
    simpa using split
  have among := unmatched_among numbered splitAfter
  rw [← splitAfter.trans (List.append_nil _)] at among
  rw [← among, List.mem_filter]
  simp only [List.mem_append, List.mem_singleton, or_true, decide_true, and_true]
  rfl

end Symbol

/-- Where a value goes, and that it goes nowhere else. -/
inductive Parse.Goes (root : Symbol) (parse : Parse) (before : List Token) (value : Token)
    (innermost : Symbol) : Prop where
  | option {option : Symbol} : option.isOption = true →
      (∀ other, parse.Gets root before value other ↔ other = option) →
      (∀ symbol ∈ root.preorder, value ∈ parse.valuesOf symbol ↔ symbol = option) →
      value ∉ parse.unmatched → Goes root parse before value innermost
  | command : (∀ option, ¬ parse.Gets root before value option) →
      (parse.heldAmong before innermost).length < innermost.arity.max →
      (∀ symbol ∈ root.preorder, value ∈ parse.valuesOf symbol ↔ symbol = innermost) →
      value ∉ parse.unmatched → Goes root parse before value innermost
  | nowhere : (∀ option, ¬ parse.Gets root before value option) →
      innermost.arity.max ≤ (parse.heldAmong before innermost).length →
      (∀ symbol ∈ root.preorder, value ∉ parse.valuesOf symbol) →
      value ∈ parse.unmatched → Goes root parse before value innermost

theorem Symbol.goes_parse {root : Symbol} (numbered : root.Numbered) (files : Files)
    {args : List String} {before after : List Token} {value : Token}
    (split : root.tokenize args = before ++ value :: after) (kind : value.kind = .argument) :
    (root.parse files args).Goes root before value
      (root.routed before).path.innermost.command := by
  have grown := grown_routed numbered split
  have windowed := windowed_routed numbered split
  have unmet : value ∉ before := notMem_before split (by simp [kind])
  have unleft : value ∉ (root.routed before).unmatched := fun left =>
    unmet ((accounts_routed numbered split).ordered.unmatched.subset left)
  have left := mem_unmatched_iff numbered files split
  obtain ⟨_, _, met⟩ := met split
  have move := Routing.move_step met.understood
  rw [← routed_concat] at move
  cases move.delivery grown windowed kind with
  | @option window opened accepted added unmatched =>
    obtain ⟨isOption, _, placed⟩ := windowed window (Routing.openWindow_eq_some.mp opened).1
    refine .option isOption ?_ ?_ ?_
    · intro other
      rw [gets_iff numbered files split]
      constructor
      · rintro ⟨current, openedToo, rfl, -⟩
        cases opened.symm.trans openedToo
        rfl
      · rintro rfl
        exact ⟨window, opened, rfl, accepted⟩
    · exact fun symbol inTree =>
        mem_valuesOf_added numbered files split kind inTree placed added
    · rwa [left, unmatched]
  | command passes room added unmatched =>
    obtain ⟨-, _, placed⟩ := grown.found List.mem_cons_self
    refine .command ((passes_iff numbered files split value).mp passes)
      ((hasRoom_iff numbered files split).mp room) ?_ ?_
    · exact fun symbol inTree =>
        mem_valuesOf_added numbered files split kind inTree placed added
    · rwa [left, unmatched]
  | nowhere passes full same unmatched =>
    refine .nowhere ((passes_iff numbered files split value).mp passes)
      (Nat.le_of_not_lt (mt (hasRoom_iff numbered files split).mpr full)) ?_ ?_
    · exact fun symbol inTree => notMem_valuesOf numbered files split kind inTree same
    · rw [left, unmatched]
      exact List.mem_append_right _ (List.mem_singleton_self _)

/-- Where a value goes is settled by what came before it. -/
structure Delivered (root : Symbol) (parse : Parse) (before : List Token) (value : Token) :
    Prop where
  option : ∀ option ∈ root.preorder, option.isOption = true →
    (value ∈ parse.valuesOf option ↔ parse.Gets root before value option)
  command : ∀ command ∈ root.preorder, command.isCommand = true →
    (value ∈ parse.valuesOf command ↔
      (∀ option, ¬ parse.Gets root before value option) ∧
        root.commandAt? parse.args value = some command ∧
        (parse.heldAmong before command).length < command.arity.max)
  unmatched : value ∈ parse.unmatched ↔
    (∀ option, ¬ parse.Gets root before value option) ∧
      ∃ command, root.commandAt? parse.args value = some command ∧
        command.arity.max ≤ (parse.heldAmong before command).length
  /-- What a symbol has taken of the tokens before is what routing finds in its occurrence. -/
  held : ∀ {i symbol parent}, (root.routed before).links[i]? = some (symbol, parent) →
    (root.routed before).tokensOf i = parse.heldAmong before symbol
  innermost : root.commandAt? parse.args value =
    some (root.routed before).path.innermost.command

theorem delivered_parse {heading : Heading} {subcommandRequired : Option Bool} {strict : Bool}
    {children : List Declaration} {root : Symbol}
    (built : (Declaration.command heading subcommandRequired strict children).build = .ok root)
    (files : Files) (args : List String) {before after : List Token} {value : Token}
    (split : (root.parse files args).tokens = before ++ value :: after)
    (kind : value.kind = .argument) : Delivered root (root.parse files args) before value := by
  have numbered := Declaration.numbered_build built
  have stream : root.tokenize args = before ++ value :: after := split
  have innermost : root.commandAt? (root.parse files args).args value =
      some (root.routed before).path.innermost.command := Symbol.commandAt_routed stream
  have isCommand := ((Symbol.grown_routed numbered stream).found List.mem_cons_self).1
  have goes := Symbol.goes_parse numbered files stream kind
  constructor
  case held => exact fun placed => (Symbol.heldAmong_routed numbered files stream placed).symm
  case innermost => exact innermost
  case option =>
    intro option inTree isOption
    cases goes with
    | option _ gets taken => rw [taken option inTree, gets]
    | command none _ taken =>
      refine iff_of_false ?_ (none option)
      rw [taken option inTree]
      rintro rfl
      rw [Symbol.not_command isOption] at isCommand
      contradiction
    | nowhere none _ untaken => exact iff_of_false (untaken option inTree) (none option)
  case command =>
    intro command inTree isCommand'
    simp only [innermost, Option.some.injEq]
    cases goes with
    | @option option isOption gets taken =>
      refine iff_of_false ?_ fun passed => passed.1 option ((gets option).mpr rfl)
      rw [taken command inTree]
      rintro rfl
      rw [Symbol.not_command isOption] at isCommand'
      contradiction
    | command none room taken =>
      rw [taken command inTree]
      constructor
      · rintro rfl
        exact ⟨none, rfl, room⟩
      · exact fun passed => passed.2.1.symm
    | nowhere none full untaken =>
      refine iff_of_false (untaken command inTree) ?_
      rintro ⟨-, rfl, room⟩
      exact Nat.not_lt_of_le full room
  case unmatched =>
    simp only [innermost, Option.some.injEq, exists_eq_left']
    cases goes with
    | @option option _ gets _ matched =>
      exact iff_of_false matched fun passed => passed.1 option ((gets option).mpr rfl)
    | command _ room _ matched =>
      exact iff_of_false matched fun passed => Nat.not_lt_of_le passed.2 room
    | nowhere none full _ left => exact iff_of_true left ⟨none, full⟩

theorem delivered_parse_sample : ∃ root, Declaration.sample.build = .ok root ∧
    Delivered root (root.parse .absent ["-n", "1", "-n", "2", "run", "-n", "x"])
      [⟨"-n", .option, some 0⟩, ⟨"1", .argument, some 1⟩, ⟨"-n", .option, some 2⟩,
        ⟨"2", .argument, some 3⟩, ⟨"run", .command, some 4⟩, ⟨"-n", .option, some 5⟩]
      ⟨"x", .argument, some 6⟩ := by
  obtain ⟨root, built, split⟩ : ∃ root, Declaration.sample.build = .ok root ∧
      root.tokenize ["-n", "1", "-n", "2", "run", "-n", "x"] =
        [⟨"-n", .option, some 0⟩, ⟨"1", .argument, some 1⟩, ⟨"-n", .option, some 2⟩,
          ⟨"2", .argument, some 3⟩, ⟨"run", .command, some 4⟩, ⟨"-n", .option, some 5⟩] ++
        ⟨"x", .argument, some 6⟩ :: [] := ⟨_, rfl, by decide +kernel⟩
  exact ⟨root, built, delivered_parse built _ _ split rfl⟩

end CommandGrammar
