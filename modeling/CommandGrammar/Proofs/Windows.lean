import CommandGrammar.Proofs.Mirror

/-! The window of an option and the values that occurrences hold. A window stands on the occurrence
of its option. A value is added to one occurrence at a time, so what an occurrence holds behind some
tokens is the beginning of what it holds in the end. -/
namespace CommandGrammar
namespace Routing
variable {root : Symbol} {routing after : Routing} {token : Token} {i : Nat}
  {link : Symbol × Option Nat}

theorem tokensOf_beyond (beyond : routing.links[i]? = none) : routing.tokensOf i = [] := by
  rw [List.getElem?_eq_none_iff, links_length] at beyond
  rw [tokensOf, List.getElem?_eq_none beyond]

theorem tokensOf_give (present : i < routing.occurrences.length) (token : Token) (j : Nat) :
    (routing.give i token).tokensOf j = routing.tokensOf j ++ if i = j then [token] else [] := by
  simp only [tokensOf, give, List.getElem?_modify]
  by_cases same : i = j
  · subst same
    simp [List.getElem?_eq_getElem present]
  · cases routing.occurrences[j]? <;> simp [same]

theorem Growth.links_prefix (growth : Growth routing token after) :
    routing.links <+: after.links := by
  cases growth with
  | still links => exact links ▸ List.prefix_refl _
  | entered _ _ grew | opened _ _ _ grew =>
    have pushed : after.links = (routing.push _).links := congrArg (List.map Occurrence.link) grew
    rw [pushed, links_push]
    exact List.prefix_append _ _

/-- What has been met stays where it is. -/
theorem Move.link_kept (move : Move routing token after) (placed : routing.links[i]? = some link) :
    after.links[i]? = some link := by
  obtain ⟨more, same⟩ := move.growth.links_prefix
  rw [← same, List.getElem?_append_left (List.getElem?_eq_some_iff.mp placed).1, placed]

/-- An option meant again has its occurrence under the command that declares it. -/
theorem Grown.link_of_meant {frame : Frame} {option : Symbol} (grown : Grown root routing)
    (numbered : root.Numbered) (meant : routing.optionMeant? raw = some (frame, option))
    (present : routing.occurrenceOf? frame option = some i) :
    routing.links[i]? = some (option, some frame.occurrence) := by
  obtain ⟨onPath, owned, -⟩ := optionMeant_eq_some meant
  obtain ⟨occurrence, found, named, parent⟩ := grown.occurrence_named numbered onPath owned present
  exact links_getElem?_eq_some.mpr ⟨occurrence, found, Prod.ext named parent⟩

/-- Where the window behind a move comes from: it was open before, or the token names its option,
for the first time or again. -/
inductive Opening (routing : Routing) (token : Token) (after : Routing) (window : Window) :
    Prop where
  | stays : routing.window = some window → Opening routing token after window
  | first {frame : Frame} : token.kind = .option →
      routing.optionMeant? token.text = some (frame, window.option) →
      after.links = routing.links ++ [(window.option, some frame.occurrence)] →
      window.occurrence = routing.links.length → window.limit = window.option.arity.max →
      Opening routing token after window
  | again {frame : Frame} : token.kind = .option →
      routing.optionMeant? token.text = some (frame, window.option) →
      routing.occurrenceOf? frame window.option = some window.occurrence →
      window.limit =
        reopenedLimit window.option (routing.tokensOf window.occurrence).length →
      Opening routing token after window

theorem Move.opening (move : Move routing token after) {window : Window}
    (current : after.window = some window) : Opening routing token after window := by
  cases move with
  | skip | name => exact .stays current
  | close | enter => contradiction
  | @«open» frame option kind meant absent =>
    cases current
    have links := links_push routing (.met .option option token (some frame.occurrence))
    exact .first kind meant links routing.links_length.symm rfl
  | reopen kind meant present =>
    cases current
    exact .again kind meant present rfl
  | fill kind opened accepted =>
    simp only at current
    split at current
    · cases current
      exact .stays (openWindow_eq_some.mp opened).1
    · contradiction
  | take | leave => exact .stays (openWindow_eq_some.mp current).1

/-- The window stands on the occurrence of its option. -/
def Windowed (routing : Routing) : Prop :=
  ∀ window, routing.window = some window → window.option.isOption = true ∧
    ∃ parent, routing.links[window.occurrence]? = some (window.option, parent)

theorem Windowed.lt (windowed : routing.Windowed) {window : Window}
    (current : routing.window = some window) :
    window.occurrence < routing.occurrences.length := by
  obtain ⟨-, parent, placed⟩ := windowed window current
  rw [← links_length]
  exact (List.getElem?_eq_some_iff.mp placed).1

theorem Windowed.move (windowed : routing.Windowed) (numbered : root.Numbered)
    (grown : Grown root routing) (move : Move routing token after) : after.Windowed := by
  intro window current
  cases move.opening current with
  | stays same =>
    obtain ⟨isOption, parent, placed⟩ := windowed window same
    exact ⟨isOption, parent, move.link_kept placed⟩
  | @first frame kind meant links occurrence =>
    refine ⟨(optionMeant_eq_some meant).2.2, some frame.occurrence, ?_⟩
    rw [links, occurrence]
    exact List.getElem?_concat_length
  | @again frame kind meant present =>
    have placed := grown.link_of_meant numbered meant present
    exact ⟨(optionMeant_eq_some meant).2.2, some frame.occurrence, move.link_kept placed⟩

/-- What a move does with values: it leaves them all, or adds the token to those of an option with
an open window, or to those of the innermost command. -/
inductive Storage (routing : Routing) (token : Token) (after : Routing) : Prop where
  | kept : (∀ j, after.tokensOf j = routing.tokensOf j) → Storage routing token after
  | filled {window : Window} : token.kind = .argument → routing.openWindow = some window →
      window.option.declines
        ((routing.tokensOf window.occurrence ++ [token]).map Token.text) = false →
      (∀ j, after.tokensOf j =
        routing.tokensOf j ++ if window.occurrence = j then [token] else []) →
      Storage routing token after
  | taken : token.kind = .argument → routing.HasRoom →
      (∀ j, after.tokensOf j =
        routing.tokensOf j ++ if routing.path.innermost.occurrence = j then [token] else []) →
      Storage routing token after

theorem Move.storage (move : Move routing token after) (grown : Grown root routing)
    (windowed : routing.Windowed) : Storage routing token after := by
  cases move with
  | skip | close | reopen | leave => exact .kept fun _ => rfl
  | @enter child =>
    exact .kept (tokensOf_push routing
      (.met .command child token (some routing.path.innermost.occurrence)) rfl)
  | @«open» frame option =>
    exact .kept (tokensOf_push routing (.met .option option token (some frame.occurrence)) rfl)
  | name =>
    refine .kept fun j => ?_
    rw [tokensOf_eq, tokensOf_eq]
    congr 2
    apply Occurrence.map_modify
    exact fun _ => rfl
  | @fill window kind opened accepted =>
    have present := windowed.lt (openWindow_eq_some.mp opened).1
    exact .filled kind opened accepted (tokensOf_give present token)
  | take kind _ room => exact .taken kind room (tokensOf_give grown.innermost_lt token)

/-- An argument that the open option does not decline is stored with it. -/
theorem Move.fills {window : Window} (move : Move routing token after)
    (windowed : routing.Windowed) (kind : token.kind = .argument)
    (opened : routing.openWindow = some window)
    (accepted : window.option.declines
      ((routing.tokensOf window.occurrence ++ [token]).map Token.text) = false) :
    after.tokensOf window.occurrence = routing.tokensOf window.occurrence ++ [token] := by
  cases move with
  | skip kind' => rcases kind' with kind' | kind' <;> simp [kind] at kind'
  | close kind' | enter kind' | name kind' | «open» kind' | reopen kind' =>
    rw [kind] at kind'
    contradiction
  | take _ passes | leave _ passes =>
    rw [passes window opened] at accepted
    contradiction
  | @fill other _ opened' _ =>
    cases opened.symm.trans opened'
    have present := windowed.lt (openWindow_eq_some.mp opened).1
    exact (tokensOf_give present token window.occurrence).trans (by rw [if_pos rfl])

theorem Storage.prefix_tokensOf (storage : Storage routing token after) (i : Nat) :
    routing.tokensOf i <+: after.tokensOf i := by
  cases storage with
  | kept same => exact same i ▸ List.prefix_refl _
  | filled _ _ _ added | taken _ _ added => exact added i ▸ List.prefix_append _ _

/-- A new occurrence holds nothing. -/
theorem Move.old_or_empty (move : Move routing token after)
    (placed : after.links[i]? = some link) :
    routing.links[i]? = some link ∨ after.tokensOf i = [] := by
  cases old : routing.links[i]? with
  | some other => exact .inl ((move.link_kept old).symm.trans placed)
  | none =>
    have empty := tokensOf_beyond old
    cases move.growth with
    | still links =>
      rw [links, old] at placed
      contradiction
    | entered _ _ grew | opened _ _ _ grew =>
      refine .inr ?_
      rw [tokensOf_eq, grew, ← tokensOf_eq, tokensOf_push routing (.met ..) rfl, empty]

end Routing

namespace Symbol
variable {root : Symbol} {files : Files} {args : List String} {before between after : List Token}
  {i : Nat}

theorem windowed_routed (numbered : root.Numbered) (split : root.tokenize args = before ++ after) :
    (root.routed before).Windowed := by
  refine routed_induction (motive := fun _ routing => routing.Windowed) ?_ ?_ split
  · exact fun window opened => by contradiction
  · intro before token after split move windowed
    exact windowed.move numbered (grown_routed numbered split) move

/-- Further tokens keep what has been met, and only add to what it holds. -/
theorem routed_extends (numbered : root.Numbered)
    (split : root.tokenize args = before ++ between ++ after) (i : Nat) :
    (∀ link, (root.routed before).links[i]? = some link →
      (root.routed (before ++ between)).links[i]? = some link) ∧
    (root.routed before).tokensOf i <+: (root.routed (before ++ between)).tokensOf i := by
  refine routed_onward (motive := fun _ routing =>
    (∀ link, (root.routed before).links[i]? = some link → routing.links[i]? = some link) ∧
    (root.routed before).tokensOf i <+: routing.tokensOf i) ?_ ?_ split
  · exact ⟨fun _ placed => placed, List.prefix_refl _⟩
  · rintro between token rest split move ⟨kept, held⟩
    refine ⟨fun link placed => move.link_kept (kept link placed), held.trans ?_⟩
    exact (move.storage (grown_routed numbered split)
      (windowed_routed numbered split)).prefix_tokensOf i

/-- What is met on the way is an occurrence of the parse. -/
theorem resolved_of_met (files : Files) {occurrence : Occurrence}
    (found : (root.routed (root.tokenize args)).occurrences[i]? = some occurrence) :
    ∃ resolved, (root.parse files args).occurrences[i]? = some resolved ∧
      resolved.bare = occurrence.bare := by
  obtain ⟨defaults, bare, -⟩ := bare_parse root files args
  have listed := congrArg (·[i]?) bare
  have bound := (List.getElem?_eq_some_iff.mp found).1
  simp only [List.getElem?_map] at listed
  rw [List.getElem?_append_left (by rwa [List.length_map]), List.getElem?_map, found] at listed
  exact Option.map_eq_some_iff.mp listed

theorem met_or_default_at {resolved : Resolved}
    (found : (root.parse files args).occurrences[i]? = some resolved) :
    (∃ occurrence, (root.routed (root.tokenize args)).occurrences[i]? = some occurrence ∧
      occurrence.bare = resolved.bare) ∨
    (root.routed (root.tokenize args)).links[i]? = none ∧ resolved.bare.IsDefault := by
  cases earlier : (root.routed (root.tokenize args)).occurrences[i]? with
  | some occurrence =>
    obtain ⟨other, foundOther, same⟩ := resolved_of_met files earlier
    cases foundOther.symm.trans found
    exact .inl ⟨occurrence, rfl, same.symm⟩
  | none =>
    obtain ⟨defaults, bare, isDefault⟩ := bare_parse root files args
    have beyond := List.getElem?_eq_none_iff.mp earlier
    have listed := congrArg (·[i]?) bare
    simp only [List.getElem?_map, found, Option.map_some] at listed
    rw [List.getElem?_append_right (by rwa [List.length_map])] at listed
    refine .inr ⟨?_, isDefault _ (List.mem_of_getElem? listed.symm)⟩
    rwa [List.getElem?_eq_none_iff, Routing.links_length]

theorem tokensOf_parse {resolved : Resolved}
    (found : (root.parse files args).occurrences[i]? = some resolved) :
    resolved.tokens = (root.routed (root.tokenize args)).tokensOf i := by
  rcases met_or_default_at found with ⟨occurrence, met, same⟩ | ⟨beyond, isDefault⟩
  · rw [Routing.tokensOf, met]
    exact (congrArg Occurrence.tokens same).symm
  · rw [Routing.tokensOf_beyond beyond]
    exact isDefault.valueless

/-- An occurrence of a parse has been met, or is a default without values. -/
theorem placed_or_valueless (numbered : root.Numbered) {resolved : Resolved}
    (found : (root.parse files args).occurrences[i]? = some resolved) :
    resolved.implicit = false ∧ (root.routed (root.tokenize args)).links[i]? =
        some (resolved.symbol, resolved.parent) ∨
      resolved.implicit = true ∧ resolved.tokens = [] := by
  rcases met_or_default_at found with ⟨occurrence, met, same⟩ | ⟨-, isDefault⟩
  · have introduced := introduced_routed numbered (List.append_nil (root.tokenize args)).symm
    have explicit := (introduced occurrence (List.mem_of_getElem? met)).1
    have linked : occurrence.bare.link = resolved.bare.link := congrArg Occurrence.link same
    exact .inl ⟨(congrArg Occurrence.implicit same).symm.trans explicit,
      Routing.links_getElem?_eq_some.mpr ⟨occurrence, met, linked⟩⟩
  · exact .inr ⟨isDefault.implicit, isDefault.valueless⟩

end Symbol
end CommandGrammar
