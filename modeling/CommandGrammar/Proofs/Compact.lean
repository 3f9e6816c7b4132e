import CommandGrammar.Parse.Diagram
import CommandGrammar.Proofs.Directives
import CommandGrammar.Proofs.Errors

/-! An argument that holds several tokens, as an assignment or a cluster does, means what the texts
of these tokens mean as arguments of their own. The tokens stand closer together, and nothing that
is read from them changes by that. -/
namespace CommandGrammar

namespace Piece

/-- The pieces as arguments of their own, the first of them at the given position. -/
def spread (position : Nat) : List Piece → List Token
  | [] => []
  | piece :: rest => piece.locate position :: spread (position + 1) rest

theorem locate_injective (position : Nat) : Function.Injective (locate position) := by
  rintro ⟨text, kind⟩ ⟨other, otherKind⟩ same
  simp only [locate, Token.mk.injEq, and_true] at same
  exact Prod.ext same.1 same.2

end Piece

/-- Where a token goes as the arguments from one place on are joined into one argument. -/
def joined (place count position : Nat) : Nat :=
  if position < place then position
  else if position < place + count then place
  else position + 1 - count

namespace Token
variable {move : Nat → Nat}

/-- Tokens whose places are kept are kept. -/
theorem map_moved_eq_self {tokens : List Token}
    (kept : ∀ token ∈ tokens, ∃ place, token.position = some place ∧ move place = place) :
    tokens.map (moved move) = tokens := by
  refine (List.map_congr_left fun token member => ?_).trans (List.map_id _)
  obtain ⟨place, positioned, same⟩ := kept token member
  obtain ⟨text, kind, position⟩ := token
  cases positioned
  simp only [moved, Option.map_some, same, id]

theorem moved_comp_moved (first second : Nat → Nat) :
    moved second ∘ moved first = moved (second ∘ first) := by
  funext token
  simp only [moved, Function.comp_apply, Option.map_map]

end Token

section Joined
variable {place count position : Nat}

theorem joined_before (before : position < place) : joined place count position = position :=
  if_pos before

theorem joined_within (after : place ≤ position) (before : position < place + count) :
    joined place count position = place := by
  rw [joined, if_neg (Nat.not_lt_of_le after), if_pos before]

theorem joined_behind (place : Nat) (behind : place < position) (count : Nat) :
    joined place (count + 1) (position + count) = position := by
  rw [joined, if_neg (by omega), if_neg (by omega)]
  omega

/-- The arguments that are joined become pieces of one. -/
theorem Piece.spread_joined {pieces : List Piece} (after : place ≤ position)
    (before : position + pieces.length ≤ place + count) :
    (spread position pieces).map (Token.moved (joined place count)) =
      pieces.map (locate place) := by
  induction pieces generalizing position with
  | nil => rfl
  | cons piece rest ih =>
    rw [List.length_cons] at before
    have here : (piece.locate position).moved (joined place count) = piece.locate place := by
      have within : joined place count position = place := joined_within after (by omega)
      simp only [Token.moved, locate, Option.map_some, within]
    rw [spread, List.map_cons, here, ih (by omega) (by omega), List.map_cons]

end Joined

/-- A piece that is all of an argument has its text. -/
theorem Piece.Spells.text_of_single {piece : Piece} (spells : Spells raw pieces)
    (alone : pieces = [piece]) : piece.1 = raw := by
  have count := congrArg List.length alone
  cases spells with
  | whole kind =>
    cases alone
    rfl
  | assignment => cases count
  | flags _ many =>
    rw [List.length_map, List.length_singleton] at count
    omega
  | flagsAndValue _ named =>
    have some := List.length_pos_iff.mpr named
    rw [List.length_append, List.length_map, List.length_singleton, List.length_singleton] at count
    omega

namespace Classifier
variable {reader next : Classifier} {raw : String} {pieces : List Piece}

/-- An argument that holds several tokens enters nothing and ends nothing. -/
theorem Reading.of_several (reading : Reading reader raw next pieces)
    (several : 2 ≤ pieces.length) :
    reader.phase ≠ .values ∧ next = ⟨.words, reader.commands⟩ ∧
      ∀ piece ∈ pieces, piece.2 = .option ∨ piece.2 = .argument := by
  cases reading with
  | directive | endOfOptions | command | root | value => exact absurd several (by simp)
  | word expects =>
    refine ⟨?_, rfl, fun piece member => ?_⟩
    · rcases expects with phase | ⟨phase, -⟩ <;> simp [phase]
    · exact (Piece.ofWord_stays reader.commands.toList raw piece member).imp And.left id

/-- Nor does one that holds an option, or a value in front of `--`. -/
theorem Reading.of_stays {piece : Piece} (reading : Reading reader raw next pieces)
    (phase : reader.phase ≠ .values) (member : piece ∈ pieces)
    (kind : piece.2 = .option ∨ piece.2 = .argument) : next = ⟨.words, reader.commands⟩ := by
  cases reading with
  | directive =>
    cases List.mem_singleton.mp member
    unfold Piece.ofBracket at kind
    split at kind <;> simp at kind
  | endOfOptions | command | root =>
    cases List.mem_singleton.mp member
    simp at kind
  | word => rfl
  | value current => exact absurd current phase

/-- Options and values read one by one lead where one argument that holds them does. -/
theorem run_spread (phase : reader.phase ≠ .values)
    (kinds : ∀ piece ∈ pieces, piece.2 = .option ∨ piece.2 = .argument)
    (separate : ∀ j (bound : j < pieces.length),
      ((reader.run ((pieces.map Prod.fst).take j)).step (pieces[j].1)).2 = [pieces[j]])
    (position : Nat) :
    reader.tokens position (pieces.map Prod.fst) = Piece.spread position pieces ∧
      (pieces ≠ [] → reader.run (pieces.map Prod.fst) = ⟨.words, reader.commands⟩) := by
  -- Past the first argument the reader expects words, which is not behind `--` either.
  induction pieces generalizing reader position with
  | nil => exact ⟨rfl, fun some => absurd rfl some⟩
  | cons piece rest ih =>
    obtain ⟨here, later⟩ := List.forall_mem_cons.mp kinds
    have first : (reader.step piece.1).2 = [piece] := separate 0 (Nat.zero_lt_succ _)
    have reading := reader.step_reading piece.1
    rw [first] at reading
    have next := reading.of_stays phase List.mem_cons_self here
    have onward := fun j bound => separate (j + 1) (Nat.succ_lt_succ bound)
    simp only [List.map_cons, List.take_succ_cons, run_cons, next,
      List.getElem_cons_succ] at onward
    obtain ⟨tokens, ends⟩ := ih (by simp) later onward (position + 1)
    rw [List.map_cons, tokens_cons, run_cons, first, next, tokens]
    refine ⟨rfl, fun _ => ?_⟩
    cases rest with
    | nil => rfl
    | cons second rest => exact ends (List.cons_ne_nil _ _)

theorem tokens_joined_before (reader : Classifier) (args : List String) (count : Nat) :
    (reader.tokens 0 args).map (Token.moved (joined args.length count)) =
      reader.tokens 0 args := by
  apply Token.map_moved_eq_self
  intro token member
  obtain ⟨place, positioned, -, before⟩ := position_of_mem member
  exact ⟨place, positioned, joined_before (by omega)⟩

theorem tokens_joined_behind (reader : Classifier) (place count : Nat) (args : List String) :
    (reader.tokens (place + (count + 1)) args).map (Token.moved (joined place (count + 1))) =
      reader.tokens (place + 1) args := by
  have shifted : place + (count + 1) = place + 1 + count := by omega
  rw [shifted, tokens_moved, List.map_map, Token.moved_comp_moved]
  apply Token.map_moved_eq_self
  intro token member
  obtain ⟨position, positioned, after, -⟩ := position_of_mem member
  exact ⟨position, positioned, joined_behind place (Nat.lt_of_succ_le after) count⟩

end Classifier

namespace Symbol

/-- The tokens of the argument at a place. -/
def tokensAt (root : Symbol) (args : List String) (place : Nat) : List Token :=
  (root.tokenize args).filter (·.position == some place)

/-- The tokens of an argument tell how it is read behind the arguments in front of it. -/
theorem tokensAt_eq_iff (root : Symbol) (pre post : List String) {middle : List String} {j : Nat}
    (found : middle[j]? = some raw) {pieces : List Piece} :
    root.tokensAt (pre ++ middle ++ post) (pre.length + j) =
        pieces.map (Piece.locate (pre.length + j)) ↔
      ((((Classifier.start root).run pre).run (middle.take j)).step raw).2 = pieces := by
  have bound := (List.getElem?_eq_some_iff.mp found).1
  have foundWhole : (pre ++ middle ++ post)[pre.length + j]? = some raw := by
    rw [List.append_assoc, List.getElem?_append_right (Nat.le_add_right _ _),
      Nat.add_sub_cancel_left, List.getElem?_append_left bound, found]
  have front : (pre ++ middle ++ post).take (pre.length + j) = pre ++ middle.take j := by
    rw [List.append_assoc, List.take_length_add_append,
      List.take_append_of_le_length (Nat.le_of_lt bound)]
  have here := Classifier.tokens_at (.start root) 0 foundWhole
  rw [Nat.zero_add, front, Classifier.run_append] at here
  rw [tokensAt, tokenize, here]
  exact (List.map_injective_iff.mpr (Piece.locate_injective _)).eq_iff

/-- One token of an argument that holds no other. -/
theorem tokensAt_of_kind (root : Symbol) (pre post : List String) {middle : List String} {j : Nat}
    {kind : TokenKind} (found : middle[j]? = some raw)
    (single : (root.tokensAt (pre ++ middle ++ post) (pre.length + j)).map Token.kind = [kind]) :
    root.tokensAt (pre ++ middle ++ post) (pre.length + j) =
      [Piece.locate (pre.length + j) (raw, kind)] := by
  have here := (root.tokensAt_eq_iff pre post found).mpr rfl
  have reading := (((Classifier.start root).run pre).run (middle.take j)).step_reading raw
  rw [here, List.map_map] at single
  obtain ⟨piece, alone, rfl⟩ := List.map_eq_singleton_iff.mp single
  obtain rfl := reading.spells.text_of_single alone
  rw [here, alone]
  rfl

/-- Joining arguments that are read one by one as the pieces of one argument moves the tokens
together. -/
theorem tokenize_joined (root : Symbol) {pre post : List String} {raw : String}
    {held : List Token} (compact : root.tokensAt (pre ++ [raw] ++ post) pre.length = held)
    (several : 2 ≤ held.length)
    (separate : ∀ j (bound : j < held.length),
      (root.tokensAt (pre ++ held.map Token.text ++ post) (pre.length + j)).map Token.kind =
        [held[j].kind]) :
    root.tokenize (pre ++ [raw] ++ post) =
      (root.tokenize (pre ++ held.map Token.text ++ post)).map
        (Token.moved (joined pre.length held.length)) := by
  obtain ⟨pieces, here⟩ : ∃ pieces, (((Classifier.start root).run pre).step raw).2 = pieces :=
    ⟨_, rfl⟩
  obtain rfl : pieces.map (Piece.locate pre.length) = held :=
    ((root.tokensAt_eq_iff pre post (j := 0) rfl).mpr here).symm.trans compact
  have texts : (pieces.map (Piece.locate pre.length)).map Token.text = pieces.map Prod.fst :=
    List.map_map
  rw [texts] at separate ⊢
  rw [List.length_map] at several ⊢
  have apart : ∀ j (bound : j < pieces.length), ((((Classifier.start root).run pre).run
      ((pieces.map Prod.fst).take j)).step (pieces[j].1)).2 = [pieces[j]] := by
    intro j bound
    have found : (pieces.map Prod.fst)[j]? = some pieces[j].1 := by
      rw [List.getElem?_map, List.getElem?_eq_getElem bound, Option.map_some]
    have single := separate j (by rwa [List.length_map])
    rw [List.getElem_map] at single
    exact (root.tokensAt_eq_iff pre post found).mp (root.tokensAt_of_kind pre post found single)
  obtain ⟨count, length⟩ : ∃ count, pieces.length = count + 1 := ⟨pieces.length - 1, by omega⟩
  obtain ⟨phase, next, kinds⟩ :=
    (here ▸ ((Classifier.start root).run pre).step_reading raw).of_several several
  -- Both ways the arguments behind are read for words, with no command entered in between.
  obtain ⟨spread, ends⟩ := Classifier.run_spread phase kinds apart pre.length
  have some : pieces ≠ [] := by
    rintro rfl
    contradiction
  have joint : root.tokenize (pre ++ [raw] ++ post) = (Classifier.start root).tokens 0 pre ++
      (pieces.map (Piece.locate pre.length) ++ Classifier.tokens
        ⟨.words, ((Classifier.start root).run pre).commands⟩ (pre.length + 1) post) := by
    rw [tokenize, List.append_assoc, Classifier.tokens_append, Nat.zero_add, List.singleton_append,
      Classifier.tokens_cons, here, next]
  have parted : root.tokenize (pre ++ pieces.map Prod.fst ++ post) =
      (Classifier.start root).tokens 0 pre ++ (Piece.spread pre.length pieces ++ Classifier.tokens
        ⟨.words, ((Classifier.start root).run pre).commands⟩ (pre.length + (count + 1)) post) := by
    rw [tokenize, List.append_assoc, Classifier.tokens_append, Nat.zero_add,
      Classifier.tokens_append, spread, ends some, List.length_map, length]
  rw [joint, parted, List.map_append, List.map_append, Classifier.tokens_joined_before,
    Piece.spread_joined (Nat.le_refl _) (Nat.le_refl _), length, Classifier.tokens_joined_behind]

theorem parse_joined {root : Symbol} (numbered : root.Numbered) (ignores : root.IgnoresPositions)
    (files : Files) {move : Nat → Nat} {whole args : List String}
    (joined : root.tokenize whole = (root.tokenize args).map (Token.moved move)) :
    root.parse files whole = { (root.parse files args).moved move with args := whole } := by
  have resolved := resolve_moved numbered ignores move files args
  have routing : (Routing.start root).run (root.tokenize whole) =
      (root.routed (root.tokenize args)).moved move := by
    rw [joined]
    exact Routing.run_moved move (.start root) (root.tokenize args)
  simp only [parse, routing, resolved]
  rw [joined]
  rfl

end Symbol

namespace ParseError

theorem complaint_moved (move : Nat → Nat) (error : ParseError) :
    (error.moved move).complaint =
      { error.complaint with token := error.token.moved move } := by
  cases error <;> rfl

end ParseError

theorem Resolved.sketchValues_moved (move : Nat → Nat) (resolved : Resolved) :
    (resolved.moved move).sketchValues = resolved.sketchValues := by
  have texts : (resolved.moved move).texts = resolved.texts :=
    Token.texts_moved move resolved.tokens
  rw [sketchValues, sketchValues, texts]
  rfl

namespace Parse
variable {parse whole : Parse} {move : Nat → Nat}

theorem occurrences_joined (same : whole = { parse.moved move with args := whole.args }) :
    whole.occurrences = parse.occurrences.map (Resolved.moved move) := by
  rw [same]
  rfl

theorem errors_joined (same : whole = { parse.moved move with args := whole.args }) :
    whole.errors = parse.errors.map (ParseError.moved move) := by
  have unparsed : whole.unparsed = parse.unparsed.map (Token.moved move) := by
    rw [same]
    exact Token.malformed_moved move parse.tokens
  have moved : whole = { parse.moved move with args := whole.args, tokens := whole.tokens } := by
    rw [same]
  rw [errors_moved moved, unparsed, errors]
  simp only [List.map_append, List.map_map, List.append_assoc]
  rfl

theorem errorsOf_joined (same : whole = { parse.moved move with args := whole.args }) (i : Nat) :
    whole.errorsOf i = (parse.errorsOf i).map (ParseError.moved move) := by
  rw [errorsOf, errors_joined same, List.filter_map, errorsOf]
  congr 2
  funext error
  cases error <;> rfl

theorem children_joined (same : whole = { parse.moved move with args := whole.args }) (i : Nat) :
    whole.children i = (parse.children i).map fun (j, resolved) => (j, resolved.moved move) := by
  have below : whole.below i = parse.below i := by
    rw [Parse.below, Parse.below, occurrences_joined same, List.getElem?_map]
    cases parse.occurrences[i]? <;> rfl
  rw [children, children, below, List.map_filterMap]
  apply List.filterMap_congr
  intro j _
  rw [occurrences_joined same, List.getElem?_map, Option.map_map, Option.map_map]
  rfl

theorem sketch_joined (same : whole = { parse.moved move with args := whole.args }) (depth : Nat)
    (i : Nat) (resolved : Resolved) :
    whole.sketch depth (i, resolved.moved move) = parse.sketch depth (i, resolved) := by
  induction depth generalizing i resolved with
  | zero => rfl
  | succ depth ih =>
    have text : (resolved.moved move).token.text = resolved.token.text := rfl
    have implicit : (resolved.moved move).implicit = resolved.implicit := rfl
    simp only [sketch, errorsOf_joined same, List.isEmpty_map, children_joined same, List.map_map,
      Function.comp_def, ih, Resolved.sketchValues_moved, text, implicit]

/-- A diagram does not show where tokens stand. -/
theorem diagram_joined (same : whole = { parse.moved move with args := whole.args }) :
    whole.diagram = parse.diagram := by
  have indexed : whole.indexed =
      parse.indexed.map fun (i, resolved) => (i, resolved.moved move) := by
    rw [same]
    exact indexed_moved move parse
  have unmatched : whole.unmatched = parse.unmatched.map (Token.moved move) := by
    rw [same]
    rfl
  simp only [diagram, indexed, unmatched, occurrences_joined same, List.length_map, List.map_take,
    List.map_map, Function.comp_def, sketch_joined same, List.isEmpty_map, Token.moved_text]

theorem directives_joined (same : whole = { parse.moved move with args := whole.args }) :
    whole.directives = parse.directives := by
  have tokens : whole.tokens = parse.tokens.map (Token.moved move) := by
    rw [same]
    rfl
  simp only [directives, tokens, List.filter_map, List.filterMap_map, Function.comp_def,
    Token.moved_kind, Token.moved_text]

end Parse

/-- Two parses that differ in where the tokens stand and in nothing else. -/
structure Parse.Alike (move : Nat → Nat) (compact separate : Parse) : Prop where
  tokens : compact.tokens = separate.tokens.map (Token.moved move)
  /-- Symbols, parents, children, values and verdicts are the same. -/
  occurrences : compact.occurrences = separate.occurrences.map (Resolved.moved move)
  path : compact.path = separate.path
  unmatched : compact.unmatched = separate.unmatched.map (Token.moved move)
  directives : compact.directives = separate.directives
  errors : compact.errors.map ParseError.complaint = separate.errors.map fun error =>
    { error.complaint with token := error.token.moved move }
  diagram : compact.diagram = separate.diagram

/-- The tokens of one argument, given as arguments of their own that are read as one token of the
same kind each. -/
theorem alike_parse {heading : Heading} {subcommandRequired : Option Bool} {strict : Bool}
    {children : List Declaration} {root : Symbol}
    (built : (Declaration.command heading subcommandRequired strict children).build = .ok root)
    (ignores : root.IgnoresPositions) (files : Files) {pre post : List String} {raw : String}
    {held : List Token} (compact : root.tokensAt (pre ++ [raw] ++ post) pre.length = held)
    (several : 2 ≤ held.length)
    (separate : ∀ j (bound : j < held.length),
      (root.tokensAt (pre ++ held.map Token.text ++ post) (pre.length + j)).map Token.kind =
        [held[j].kind]) :
    Parse.Alike (joined pre.length held.length) (root.parse files (pre ++ [raw] ++ post))
      (root.parse files (pre ++ held.map Token.text ++ post)) := by
  have numbered := Declaration.numbered_build built
  have tokens := root.tokenize_joined compact several separate
  have same := Symbol.parse_joined numbered ignores files tokens
  constructor
  case tokens => exact tokens
  case occurrences => exact Parse.occurrences_joined same
  case path => rw [same]; rfl
  case unmatched => rw [same]; rfl
  case directives => exact Parse.directives_joined same
  case errors =>
    rw [Parse.errors_joined same, List.map_map]
    exact List.map_congr_left fun error _ => error.complaint_moved _
  case diagram => exact Parse.diagram_joined same

theorem alike_parse_sample : ∃ root, Declaration.sample.build = .ok root ∧
    root.IgnoresPositions ∧
    Parse.Alike (joined 1 2) (root.parse .absent (["run"] ++ ["-n=1"] ++ ["x"]))
      (root.parse .absent (["run"] ++ ["-n", "1"] ++ ["x"])) := by
  obtain ⟨root, built, validators, compact, separate⟩ :
      ∃ root, Declaration.sample.build = .ok root ∧
        root.preorder.flatMap (·.argument.validators) = [] ∧
        root.tokensAt (["run"] ++ ["-n=1"] ++ ["x"]) 1 =
          [⟨"-n", .option, some 1⟩, ⟨"1", .argument, some 1⟩] ∧
        ∀ j (bound : j < 2),
          (root.tokensAt (["run"] ++ ["-n", "1"] ++ ["x"]) (1 + j)).map Token.kind =
            [([⟨"-n", .option, some 1⟩, ⟨"1", .argument, some 1⟩] : List Token)[j].kind] :=
    ⟨_, rfl, rfl, by decide +kernel, by decide +kernel⟩
  have ignores : root.IgnoresPositions := by
    intro symbol member validator guards
    have listed : validator ∈ root.preorder.flatMap (·.argument.validators) :=
      List.mem_flatMap.mpr ⟨symbol, member, guards⟩
    rw [validators] at listed
    contradiction
  exact ⟨root, built, ignores, alike_parse built ignores _ compact (by decide) separate⟩

end CommandGrammar
