import CommandGrammar.Proofs.Mirror

/-! Where the tokens of a stream end up. Values are stored once, in the order of the stream; command
tokens and the first token of every option introduce an occurrence each. -/
namespace CommandGrammar

namespace Token
variable {token : Token} {kind : TokenKind}

/-- The tokens of one kind. -/
def only (kind : TokenKind) (tokens : List Token) : List Token := tokens.filter (·.kind == kind)

theorem only_concat_same (tokens : List Token) (same : token.kind = kind) :
    only kind (tokens ++ [token]) = only kind tokens ++ [token] := by
  simp [only, List.filter_append, same]

theorem only_concat_other (tokens : List Token) (other : token.kind ≠ kind) :
    only kind (tokens ++ [token]) = only kind tokens := by
  simp [only, List.filter_append, other]

/-- Directives and values, at most one of each to an argument, stand apart. -/
theorem only_nodup {root : Symbol} {args : List String} (notOption : kind ≠ .option) :
    (only kind (root.tokenize args)).Nodup := by
  have others := Classifier.others_ascending (.start root) 0 args
  have sublist : (only kind (root.tokenize args)).Sublist
      ((root.tokenize args).filter fun token => token.kind ≠ .option) := by
    apply List.monotone_filter_right
    intro token same
    have kind := beq_iff_eq.mp same
    simpa only [kind, decide_eq_true_eq] using notOption
  exact (others.sublist sublist).imp fun before same => by simp [same] at before

end Token

namespace Occurrence

/-- A value added to one of the occurrences is added to all values. -/
theorem flatMap_tokens_modify {occurrences : List Occurrence} {i : Nat}
    (bound : i < occurrences.length) (token : Token) :
    ((occurrences.modify i fun occurrence =>
      { occurrence with tokens := occurrence.tokens ++ [token] }).flatMap tokens).Perm
    (occurrences.flatMap tokens ++ [token]) := by
  induction occurrences generalizing i with
  | nil => exact absurd bound (Nat.not_lt_zero _)
  | cons first rest ih =>
    cases i with
    | zero =>
      simp only [List.modify_zero_cons, List.flatMap_cons, List.append_assoc]
      exact List.perm_append_comm.append_left _
    | succ i =>
      simp only [List.modify_succ_cons, List.flatMap_cons, List.append_assoc]
      exact (ih (Nat.lt_of_succ_lt_succ bound)).append_left _

end Occurrence

namespace Routing
variable {root : Symbol} {routing after : Routing} {token : Token} {before : List Token}

/-- The values that occurrences have taken, and those that nothing took. -/
def stored (routing : Routing) : List Token :=
  routing.occurrences.flatMap Occurrence.tokens ++ routing.unmatched

theorem stored_of_tokens (same : after.occurrences.map Occurrence.tokens =
      routing.occurrences.map Occurrence.tokens)
    (unmatched : after.unmatched = routing.unmatched) : after.stored = routing.stored := by
  rw [stored, stored, List.flatMap_def, same, ← List.flatMap_def, unmatched]

theorem stored_give {i : Nat} (bound : i < routing.occurrences.length) (token : Token) :
    (routing.give i token).stored.Perm (routing.stored ++ [token]) := by
  calc (routing.give i token).stored
    _ |>.Perm (routing.occurrences.flatMap Occurrence.tokens ++ [token] ++ routing.unmatched) :=
      (Occurrence.flatMap_tokens_modify bound token).append_right _
    _ |>.Perm (routing.stored ++ [token]) := by
      rw [stored, List.append_assoc, List.append_assoc]
      exact List.perm_append_comm.append_left _

theorem stored_push (routing : Routing) (occurrence : Occurrence)
    (valueless : occurrence.tokens = []) : (routing.push occurrence).stored = routing.stored := by
  have tokens : (routing.push occurrence).occurrences.map Occurrence.tokens =
      routing.occurrences.map Occurrence.tokens ++ [occurrence.tokens] :=
    map_push (fun _ _ => rfl) routing occurrence
  rw [stored, List.flatMap_def, tokens, valueless, List.flatten_append, ← List.flatMap_def, stored]
  simp [push]

/-- Nothing but the values met is stored, and each of them once. A window opens on an occurrence. -/
structure Conserves (before : List Token) (routing : Routing) : Prop where
  stored : routing.stored.Perm (Token.only .argument before)
  window : ∀ window, routing.window = some window →
    window.occurrence < routing.occurrences.length

namespace Conserves

theorem openWindow (conserves : Conserves before routing) {window : Window}
    (opened : routing.openWindow = some window) :
    window.occurrence < routing.occurrences.length :=
  conserves.window window (openWindow_eq_some.mp opened).1

theorem value (conserves : Conserves before routing) (kind : token.kind = .argument)
    (taken : after.stored.Perm (routing.stored ++ [token]))
    (window : ∀ window, after.window = some window →
      window.occurrence < after.occurrences.length) :
    Conserves (before ++ [token]) after where
  stored := by
    rw [Token.only_concat_same before kind]
    exact taken.trans (conserves.stored.append_right _)
  window := window

theorem other (conserves : Conserves before routing) (kind : token.kind ≠ .argument)
    (same : after.stored = routing.stored)
    (window : ∀ window, after.window = some window →
      window.occurrence < after.occurrences.length) :
    Conserves (before ++ [token]) after where
  stored := by
    rw [Token.only_concat_other before kind, same]
    exact conserves.stored
  window := window

theorem move (conserves : Conserves before routing) (grown : Grown root routing)
    (move : Move routing token after) : Conserves (before ++ [token]) after := by
  cases move with
  | skip kind =>
    refine conserves.other ?_ rfl conserves.window
    rcases kind with kind | kind <;> simp [kind]
  | close kind => exact conserves.other (by simp [kind]) rfl (by simp)
  | enter kind =>
    exact conserves.other (by simp [kind])
      (stored_push routing (.met .command _ token (some _)) rfl) (by simp)
  | name kind =>
    refine conserves.other (by simp [kind]) (stored_of_tokens ?_ rfl) ?_
    · apply Occurrence.map_modify
      exact fun _ => rfl
    · simpa only [List.length_modify] using conserves.window
  | @«open» frame option kind =>
    refine conserves.other (by simp [kind])
      (stored_push routing (.met .option _ token (some _)) rfl) ?_
    rintro window ⟨rfl⟩
    have last := push_last routing (.met .option option token (some frame.occurrence))
    exact (List.getElem?_eq_some_iff.mp last).1
  | reopen kind meant present =>
    refine conserves.other (by simp [kind]) rfl ?_
    rintro window ⟨rfl⟩
    obtain ⟨symbol, placed, -⟩ := grown.occurrenceOf_eq_some present
    rw [← links_length]
    exact (List.getElem?_eq_some_iff.mp placed).1
  | @fill window kind opened accepted =>
    have bound := conserves.openWindow opened
    refine conserves.value kind (stored_give bound token) ?_
    simp only [give, List.length_modify]
    intro other same
    split at same
    · cases same
      exact bound
    · contradiction
  | take kind =>
    refine conserves.value kind (stored_give grown.innermost_lt token) ?_
    simp only [give, List.length_modify]
    exact fun window opened => conserves.openWindow opened
  | leave kind =>
    refine conserves.value kind ?_ fun window opened => conserves.openWindow opened
    simp only [Routing.stored, List.append_assoc]
    exact .refl _

end Conserves

/-- Values are stored in the order in which they were met. -/
structure Ordered (before : List Token) (routing : Routing) : Prop where
  taken : ∀ occurrence ∈ routing.occurrences, occurrence.tokens.Sublist before
  unmatched : routing.unmatched.Sublist before

namespace Ordered

theorem longer (ordered : Ordered before routing) (token : Token) :
    Ordered (before ++ [token]) routing where
  taken := fun occurrence member =>
    (ordered.taken occurrence member).trans (List.sublist_append_left _ _)
  unmatched := ordered.unmatched.trans (List.sublist_append_left _ _)

theorem give (ordered : Ordered before routing) (i : Nat) (token : Token) :
    Ordered (before ++ [token]) (routing.give i token) where
  taken := by
    refine Occurrence.forall_modify (ordered.longer token).taken ?_
    intro occurrence found _
    exact (ordered.taken occurrence (List.mem_of_getElem? found)).append_right [token]
  unmatched := (ordered.longer token).unmatched

theorem push (ordered : Ordered before routing) (occurrence : Occurrence)
    (valueless : occurrence.tokens = []) : Ordered before (routing.push occurrence) where
  taken := by
    refine forall_push (fun _ _ held => held) ordered.taken ?_
    rw [valueless]
    exact List.nil_sublist _
  unmatched := ordered.unmatched

theorem move (ordered : Ordered before routing) (move : Move routing token after) :
    Ordered (before ++ [token]) after := by
  cases move with
  | skip | close | reopen => exact ⟨(ordered.longer token).taken, (ordered.longer token).unmatched⟩
  | @enter child =>
    have pushed := ordered.push (.met .command child token (some routing.path.innermost.occurrence))
      rfl
    exact ⟨(pushed.longer token).taken, (pushed.longer token).unmatched⟩
  | @«open» frame option =>
    have pushed := ordered.push (.met .option option token (some frame.occurrence)) rfl
    exact ⟨(pushed.longer token).taken, (pushed.longer token).unmatched⟩
  | name =>
    refine ⟨?_, (ordered.longer token).unmatched⟩
    exact Occurrence.forall_modify (ordered.longer token).taken fun _ _ held => held
  | fill | take =>
    exact ⟨(ordered.give _ token).taken, (ordered.longer token).unmatched⟩
  | leave => exact ⟨(ordered.longer token).taken, ordered.unmatched.append_right [token]⟩

end Ordered

/-- What was met, each with the token that introduced it. -/
def introductions (routing : Routing) : List (Symbol × Token) :=
  routing.occurrences.map fun occurrence => (occurrence.symbol, occurrence.token)

theorem introductions_push (routing : Routing) (occurrence : Occurrence) :
    (routing.push occurrence).introductions =
      routing.introductions ++ [(occurrence.symbol, occurrence.token)] :=
  map_push (fun _ _ => rfl) routing occurrence

/-- What a move does to what has been introduced. -/
inductive Introduction (routing : Routing) (token : Token) (after : Routing) : Prop where
  | idle : token.kind ≠ .command → token.kind ≠ .option →
      after.introductions = routing.introductions → Introduction routing token after
  | root : token.kind = .command → routing.started = false →
      after.occurrences = routing.occurrences.modify routing.path.innermost.occurrence
        (fun occurrence => { occurrence with token }) →
      Introduction routing token after
  | entered {child : Symbol} : token.kind = .command → child.isCommand = true →
      after.introductions = routing.introductions ++ [(child, token)] →
      Introduction routing token after
  | first {frame : Frame} {option : Symbol} : token.kind = .option →
      routing.optionMeant? token.text = some (frame, option) →
      routing.occurrenceOf? frame option = none →
      after.introductions = routing.introductions ++ [(option, token)] →
      Introduction routing token after
  | again {frame : Frame} {option : Symbol} {i : Nat} : token.kind = .option →
      routing.optionMeant? token.text = some (frame, option) →
      routing.occurrenceOf? frame option = some i →
      after.introductions = routing.introductions → Introduction routing token after

theorem Move.introduction (move : Move routing token after) :
    Introduction routing token after := by
  cases move with
  | skip kind =>
    refine .idle ?_ ?_ rfl <;> rcases kind with kind | kind <;> simp [kind]
  | close kind | leave kind => exact .idle (by simp [kind]) (by simp [kind]) rfl
  | fill kind | take kind =>
    refine .idle (by simp [kind]) (by simp [kind]) ?_
    apply Occurrence.map_modify
    exact fun _ => rfl
  | name kind _ fresh => exact .root kind fresh rfl
  | @enter child kind entered =>
    exact .entered kind (Symbol.subcommand_eq_some entered).2
      (introductions_push routing (.met .command child token (some _)))
  | @«open» frame option kind meant absent =>
    exact .first kind meant absent
      (introductions_push routing (.met .option option token (some frame.occurrence)))
  | reopen kind meant present => exact .again kind meant present rfl

/-- Until something but a directive has been met, nothing has changed. -/
theorem Move.eq_of_fresh (move : Move routing token after) (fresh : after.started = false) :
    after = routing := by
  cases move with
  | skip => rfl
  | close | enter | name | «open» | reopen | fill | take | leave => contradiction

/-- The commands met, apart from a root that no token has introduced, and as long as nothing has
been met the state at the start. -/
structure ListsCommands (root : Symbol) (before : List Token) (routing : Routing) : Prop where
  introduced : ((routing.introductions.filter fun entry => entry.1.isCommand).map Prod.snd).filter
    (fun token => token.position.isSome) = Token.only .command before
  fresh : routing.started = false → routing = .start root

theorem ListsCommands.move (lists : ListsCommands root before routing)
    (move : Move routing token after) (isCommand : root.isCommand = true)
    (positioned : token.position.isSome = true) : ListsCommands root (before ++ [token]) after := by
  constructor
  case fresh =>
    intro fresh
    cases move.eq_of_fresh fresh
    exact lists.fresh fresh
  case introduced =>
    cases move.introduction with
    | idle notCommand _ same =>
      rw [same, lists.introduced, Token.only_concat_other before notCommand]
    | again kind _ _ same =>
      rw [same, lists.introduced, Token.only_concat_other before (by simp [kind])]
    | first kind meant _ added =>
      have noCommand := Symbol.not_command (optionMeant_eq_some meant).2.2
      rw [Token.only_concat_other before (by simp [kind]), ← lists.introduced, added]
      simp [noCommand]
    | entered kind isCommand added =>
      rw [Token.only_concat_same before kind, ← lists.introduced, added]
      simp [isCommand, positioned]
    | root kind fresh named =>
      rw [Token.only_concat_same before kind, ← lists.introduced, introductions, introductions,
        named, lists.fresh fresh]
      simp [Routing.start, Nesting.single, Occurrence.met, isCommand, positioned, Token.implicit]

/-- What has no occurrence under the command that declares it has none at all. -/
theorem Grown.unmet_child {frame : Frame} {child : Symbol} (grown : Grown root routing)
    (numbered : root.Numbered) (onPath : frame ∈ routing.path.toList)
    (owned : child ∈ frame.command.children)
    (absent : routing.occurrenceOf? frame child = none) :
    ∀ link ∈ routing.links, link.1.id ≠ child.id := by
  obtain ⟨isCommand, above, placed⟩ := grown.found onPath
  have more := grown.arena.concat placed isCommand owned (grown.occurrenceOf_eq_none absent)
  have ids := more.ids_nodup numbered
  rw [List.map_append, List.nodup_append] at ids
  intro link member
  exact ids.2.2 _ (List.mem_map_of_mem member) _ (List.mem_singleton_self _)

theorem Grown.unmet {frame : Frame} {option : Symbol} (grown : Grown root routing)
    (numbered : root.Numbered) (meant : routing.optionMeant? raw = some (frame, option))
    (absent : routing.occurrenceOf? frame option = none) :
    ∀ link ∈ routing.links, link.1.id ≠ option.id := by
  obtain ⟨onPath, owned, -⟩ := optionMeant_eq_some meant
  exact grown.unmet_child numbered onPath owned absent

end Routing

/-- The options that tokens name, each with the first token that names it. -/
def firstUses (named : Token → Option Symbol) (tokens : List Token) : List (Symbol × Token) :=
  tokens.foldl (fun uses token =>
    match named token with
    | some option => if uses.any (·.1.id == option.id) then uses else uses ++ [(option, token)]
    | none => uses) []

section FirstUses
variable {named : Token → Option Symbol} {option : Symbol} {token : Token} {tokens : List Token}

theorem firstUses_repeated (names : named token = some option)
    (used : (firstUses named tokens).any (·.1.id == option.id) = true) :
    firstUses named (tokens ++ [token]) = firstUses named tokens := by
  rw [firstUses, List.foldl_append, ← firstUses, List.foldl_cons, List.foldl_nil, names]
  exact if_pos used

theorem firstUses_new (names : named token = some option)
    (unused : (firstUses named tokens).any (·.1.id == option.id) = false) :
    firstUses named (tokens ++ [token]) = firstUses named tokens ++ [(option, token)] := by
  rw [firstUses, List.foldl_append, ← firstUses, List.foldl_cons, List.foldl_nil, names]
  exact if_neg (Bool.eq_false_iff.mp unused)

theorem firstUses_unnamed (names : named token = none) :
    firstUses named (tokens ++ [token]) = firstUses named tokens := by
  rw [firstUses, List.foldl_append, ← firstUses, List.foldl_cons, List.foldl_nil, names]

/-- The token names the option, and none of the tokens before it does. -/
def NamesFirst (named : Token → Option Symbol) (before : List Token) (token : Token)
    (option : Symbol) : Prop :=
  named token = some option ∧
    ∀ earlier ∈ before, ∀ other, named earlier = some other → other.id ≠ option.id

theorem firstUses_used (number : Nat) :
    (firstUses named tokens).any (·.1.id == number) = true ↔
      ∃ token ∈ tokens, ∃ option, named token = some option ∧ option.id = number := by
  induction tokens using List.reverseRecOn with
  | nil => simp [firstUses]
  | append_singleton tokens last ih =>
    have split : (∃ token ∈ tokens ++ [last], ∃ option,
        named token = some option ∧ option.id = number) ↔
        (firstUses named tokens).any (·.1.id == number) = true ∨
          ∃ option, named last = some option ∧ option.id = number := by
      rw [ih]
      simp only [List.mem_append, List.mem_singleton, or_and_right, exists_or, exists_eq_left]
    rw [split]
    cases names : named last with
    | none => simp [firstUses_unnamed names]
    | some option =>
      cases used : (firstUses named tokens).any (·.1.id == option.id) with
      | true =>
        rw [firstUses_repeated names used]
        refine ⟨.inl, fun either => either.elim id ?_⟩
        rintro ⟨other, same, rfl⟩
        cases same
        exact used
      | false => simp [firstUses_new names used, List.any_append]

theorem firstUses_grows {entry : Symbol × Token} (member : entry ∈ firstUses named tokens)
    (more : List Token) : entry ∈ firstUses named (tokens ++ more) := by
  induction more using List.reverseRecOn with
  | nil => rwa [List.append_nil]
  | append_singleton more last ih =>
    rw [← List.append_assoc]
    cases names : named last with
    | none => rwa [firstUses_unnamed names]
    | some option =>
      cases used : (firstUses named (tokens ++ more)).any (·.1.id == option.id) with
      | true => rwa [firstUses_repeated names used]
      | false =>
        rw [firstUses_new names used]
        exact List.mem_append_left _ ih

theorem mem_firstUses :
    (option, token) ∈ firstUses named tokens ↔
      ∃ before after, tokens = before ++ token :: after ∧ NamesFirst named before token option := by
  constructor
  · induction tokens using List.reverseRecOn with
    | nil => simp [firstUses]
    | append_singleton tokens last ih =>
      intro member
      have earlier : (option, token) ∈ firstUses named tokens → ∃ before after,
          tokens ++ [last] = before ++ token :: after ∧ NamesFirst named before token option := by
        intro member
        obtain ⟨before, after, rfl, first⟩ := ih member
        exact ⟨before, after ++ [last], by simp, first⟩
      cases names : named last with
      | none => exact earlier (firstUses_unnamed names ▸ member)
      | some other =>
        cases used : (firstUses named tokens).any (·.1.id == other.id) with
        | true => exact earlier (firstUses_repeated names used ▸ member)
        | false =>
          rw [firstUses_new names used, List.mem_append, List.mem_singleton] at member
          rcases member with old | new
          · exact earlier old
          · cases new
            refine ⟨tokens, [], rfl, names, fun token met option named same => ?_⟩
            have twice := (firstUses_used _).mpr ⟨token, met, option, named, same⟩
            rw [used] at twice
            contradiction
  · rintro ⟨before, after, rfl, names, unnamed⟩
    have unused : (firstUses named before).any (·.1.id == option.id) = false := by
      refine Bool.eq_false_iff.mpr fun used => ?_
      obtain ⟨earlier, met, other, named, same⟩ := (firstUses_used _).mp used
      exact unnamed earlier met other named same
    rw [List.append_cons]
    apply firstUses_grows
    rw [firstUses_new names unused]
    exact List.mem_append_right _ (List.mem_singleton_self _)

end FirstUses

namespace Symbol

/-- The option that a token names where it has been read. -/
def optionNamed? (root : Symbol) (args : List String) (token : Token) : Option Symbol :=
  token.position.bind fun place =>
    optionIn? (root.readerAt args place).commands.toList token.text

end Symbol

namespace Routing
variable {root : Symbol} {routing after : Routing} {token : Token} {before : List Token}

/-- The options met are those named, each introduced by the first token that names it. -/
def ListsOptions (root : Symbol) (args : List String) (before : List Token) (routing : Routing) :
    Prop :=
  routing.introductions.filter (fun entry => entry.1.isOption) =
    firstUses (root.optionNamed? args) (Token.only .option before)

namespace ListsOptions

theorem named {place : Nat} (met : Symbol.Met root args routing token place raw) :
    root.optionNamed? args token = (routing.optionMeant? token.text).map Prod.snd := by
  rw [Symbol.optionNamed?, met.position, Option.bind_some, ← met.scope, optionMeant_symbol]

theorem any_firstUses (lists : ListsOptions root args before routing) (number : Nat) :
    (firstUses (root.optionNamed? args) (Token.only .option before)).any (·.1.id == number) = true ↔
      ∃ occurrence ∈ routing.occurrences, occurrence.symbol.isOption = true ∧
        occurrence.symbol.id = number := by
  rw [← lists, List.any_filter, List.any_eq_true]
  simp [introductions]

theorem move {place : Nat} (lists : ListsOptions root args before routing)
    (commands : ListsCommands root before routing) (numbered : root.Numbered)
    (grown : Grown root routing) (met : Symbol.Met root args routing token place raw)
    (move : Move routing token after) : ListsOptions root args (before ++ [token]) after := by
  have names := named met
  rw [ListsOptions]
  cases move.introduction with
  | idle _ notOption same => rw [same, lists, Token.only_concat_other before notOption]
  | root kind fresh named =>
    have isOption : root.isOption = false := by simp [Symbol.isOption, numbered.isCommand]
    rw [Token.only_concat_other before (by simp [kind]), ← lists, introductions, introductions,
      named, commands.fresh fresh]
    simp [Routing.start, Nesting.single, Occurrence.met, isOption]
  | entered kind isCommand added =>
    rw [Token.only_concat_other before (by simp [kind]), ← lists, added]
    simp [Symbol.isOption, isCommand]
  | first kind meant absent added =>
    rw [meant, Option.map_some] at names
    rw [Token.only_concat_same before kind, firstUses_new names, ← lists, added]
    · simp [(optionMeant_eq_some meant).2.2]
    · refine Bool.eq_false_iff.mpr fun used => ?_
      obtain ⟨occurrence, found, -, same⟩ := (lists.any_firstUses _).mp used
      exact grown.unmet numbered meant absent _ (List.mem_map_of_mem found) same
  | again kind meant present same =>
    rw [meant, Option.map_some] at names
    rw [Token.only_concat_same before kind, firstUses_repeated names, ← lists, same]
    obtain ⟨onPath, owned, isOption⟩ := optionMeant_eq_some meant
    obtain ⟨occurrence, found, rfl, -⟩ := grown.occurrence_named numbered onPath owned present
    exact (lists.any_firstUses _).mpr ⟨occurrence, List.mem_of_getElem? found, isOption, rfl⟩

end ListsOptions
end Routing

/-- Where the tokens met so far have gone. -/
structure Routing.Accounts (root : Symbol) (args : List String) (before : List Token)
    (routing : Routing) : Prop where
  conserves : routing.Conserves before
  ordered : routing.Ordered before
  commands : routing.ListsCommands root before
  options : routing.ListsOptions root args before

theorem Routing.Accounts.start {root : Symbol} (numbered : root.Numbered) (args : List String) :
    Routing.Accounts root args [] (.start root) where
  conserves := ⟨.refl _, fun _ opened => by contradiction⟩
  ordered := by
    refine ⟨fun occurrence member => ?_, List.Sublist.refl _⟩
    cases List.mem_singleton.mp member
    exact List.Sublist.refl _
  commands := by
    refine ⟨?_, fun _ => rfl⟩
    simp [introductions, Routing.start, Occurrence.met, numbered.isCommand, Token.implicit,
      Token.only]
  options := by
    simp [ListsOptions, introductions, Routing.start, Occurrence.met, Symbol.isOption,
      numbered.isCommand, Token.only, firstUses]

namespace Symbol
variable {root : Symbol} {files : Files} {args : List String}

theorem accounts_routed (numbered : root.Numbered) (split : root.tokenize args = before ++ after) :
    Routing.Accounts root args before (root.routed before) := by
  refine routed_induction (motive := Routing.Accounts root args) (.start numbered args) ?_ split
  intro before token after split move accounts
  obtain ⟨place, raw, met⟩ := met split
  have grown := grown_routed numbered split
  have positioned : token.position.isSome = true := by rw [met.position, Option.isSome_some]
  constructor
  case conserves => exact accounts.conserves.move grown move
  case ordered => exact accounts.ordered.move move
  case commands => exact accounts.commands.move move numbered.isCommand positioned
  case options => exact accounts.options.move accounts.commands numbered grown met move

end Symbol

namespace Parse

/-- What was met, each with the token that introduced it. -/
def introductions (parse : Parse) : List (Symbol × Token) :=
  (parse.occurrences.filter fun resolved => !resolved.implicit).map fun resolved =>
    (resolved.symbol, resolved.token)

end Parse

namespace Symbol
variable {root : Symbol}

theorem introductions_parse (numbered : root.Numbered) (files : Files) (args : List String) :
    (root.parse files args).introductions = (root.routed (root.tokenize args)).introductions := by
  obtain ⟨defaults, bare, isDefault⟩ := bare_parse root files args
  have introduced := introduced_routed numbered (List.append_nil (root.tokenize args)).symm
  have viewed : (root.parse files args).introductions =
      (((root.parse files args).occurrences.map (·.bare)).filter fun occurrence =>
        !occurrence.implicit).map fun occurrence => (occurrence.symbol, occurrence.token) := by
    rw [List.filter_map, List.map_map]
    rfl
  rw [viewed, bare, List.filter_append, List.filter_eq_self.mpr, List.filter_eq_nil_iff.mpr,
    List.append_nil, List.map_map]
  · rfl
  · intro occurrence added
    simp [(isDefault occurrence added).implicit]
  · intro occurrence met
    obtain ⟨origin, found, rfl⟩ := List.mem_map.mp met
    simp [Occurrence.bare, (introduced origin found).1]

theorem values_parse (root : Symbol) (files : Files) (args : List String) :
    (root.parse files args).occurrences.flatMap (·.tokens) =
      (root.routed (root.tokenize args)).occurrences.flatMap Occurrence.tokens := by
  obtain ⟨defaults, bare, isDefault⟩ := bare_parse root files args
  have none : defaults.flatMap Occurrence.tokens = [] :=
    List.flatMap_eq_nil_iff.mpr fun occurrence added => (isDefault occurrence added).valueless
  calc (root.parse files args).occurrences.flatMap (·.tokens)
    _ = ((root.parse files args).occurrences.map (·.bare)).flatMap Occurrence.tokens := by
      rw [List.flatMap_map]
      rfl
    _ = (root.routed (root.tokenize args)).occurrences.flatMap Occurrence.tokens := by
      rw [bare, List.flatMap_append, none, List.append_nil, List.flatMap_map]
      rfl

theorem ordered_parse (files : Files)
    (ordered : (root.routed (root.tokenize args)).Ordered (root.tokenize args)) :
    ∀ resolved ∈ (root.parse files args).occurrences,
      resolved.tokens.Sublist (root.tokenize args) := by
  intro resolved member
  rcases met_or_default member with ⟨occurrence, found, same⟩ | isDefault
  · rw [show resolved.tokens = occurrence.tokens from (congrArg Occurrence.tokens same).symm]
    exact ordered.taken occurrence found
  · rw [show resolved.tokens = [] from isDefault.valueless]
    exact List.nil_sublist _

end Symbol

/-- Every token of the stream is accounted for in the parse. -/
structure Accounted (root : Symbol) (parse : Parse) : Prop where
  /-- Values are stored with one occurrence or are left over, and nothing else is. -/
  stored : (parse.occurrences.flatMap (·.tokens) ++ parse.unmatched).Perm
    (Token.only .argument parse.tokens)
  apart : (Token.only .argument parse.tokens).Nodup
  ordered : ∀ resolved ∈ parse.occurrences, resolved.tokens.Sublist parse.tokens
  unmatchedOrdered : parse.unmatched.Sublist parse.tokens
  /-- A root that is not named was introduced by no token of the stream. -/
  commands : ((parse.introductions.filter fun entry => entry.1.isCommand).map Prod.snd).filter
    (fun token => token.position.isSome) = Token.only .command parse.tokens
  commandsApart : (Token.only .command parse.tokens).Nodup
  named : ∀ token ∈ Token.only .option parse.tokens,
    ∃ option, root.optionNamed? parse.args token = some option
  options : parse.introductions.filter (fun entry => entry.1.isOption) =
    firstUses (root.optionNamed? parse.args) (Token.only .option parse.tokens)
  /-- Only a token that names an option again introduces nothing. -/
  firsts : ∀ option token,
    (option, token) ∈ parse.introductions.filter (fun entry => entry.1.isOption) ↔
      ∃ before after, Token.only .option parse.tokens = before ++ token :: after ∧
        NamesFirst (root.optionNamed? parse.args) before token option
  unparsed : parse.unparsed = Token.only .unparsed parse.tokens

theorem accounted_parse {heading : Heading} {subcommandRequired : Option Bool} {strict : Bool}
    {children : List Declaration} {root : Symbol}
    (built : (Declaration.command heading subcommandRequired strict children).build = .ok root)
    (files : Files) (args : List String) : Accounted root (root.parse files args) := by
  have numbered := Declaration.numbered_build built
  have accounts := Symbol.accounts_routed numbered (List.append_nil (root.tokenize args)).symm
  constructor
  case stored =>
    rw [Symbol.values_parse]
    exact accounts.conserves.stored
  case apart => exact Token.only_nodup (by simp)
  case ordered => exact Symbol.ordered_parse files accounts.ordered
  case unmatchedOrdered => exact accounts.ordered.unmatched
  case commands =>
    rw [Symbol.introductions_parse numbered]
    exact accounts.commands.introduced
  case commandsApart => exact Token.only_nodup (by simp)
  case named =>
    intro token member
    obtain ⟨listed, kind⟩ := List.mem_filter.mp member
    obtain ⟨before, after, split⟩ := List.append_of_mem listed
    obtain ⟨place, raw, met⟩ := Symbol.met split
    have understood := met.understood
    rw [Routing.Understands, beq_iff_eq.mp kind] at understood
    obtain ⟨⟨frame, option⟩, meant⟩ := Option.isSome_iff_exists.mp understood
    exact ⟨option, (Routing.ListsOptions.named met).trans (congrArg (Option.map Prod.snd) meant)⟩
  case options =>
    rw [Symbol.introductions_parse numbered]
    exact accounts.options
  case firsts =>
    intro option token
    rw [Symbol.introductions_parse numbered, accounts.options, mem_firstUses]
    rfl
  case unparsed => rfl

theorem accounted_parse_sample : ∃ root, Declaration.sample.build = .ok root ∧
    Accounted root (root.parse .absent ["-n", "x", "run", "-v", "-v", "y"]) := by
  obtain ⟨root, built⟩ : ∃ root, Declaration.sample.build = .ok root := ⟨_, rfl⟩
  exact ⟨root, built, accounted_parse built _ _⟩

end CommandGrammar
