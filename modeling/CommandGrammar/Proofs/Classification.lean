import CommandGrammar.Token.Classifier

/-! What one argument becomes, and which argument a token of the stream comes from. An argument
holds any number of options and at most one token of another kind, so positions tell all tokens but
options apart. -/
namespace CommandGrammar

namespace Piece
variable {commands : List Symbol}

/-- The token of a piece of the argument at a position. -/
def locate (position : Nat) (piece : Piece) : Token := ⟨piece.1, piece.2, some position⟩

/-- Options that are in scope, and perhaps a value behind them. -/
structure OptionsAndValue (commands : List Symbol) (pieces : List Piece) : Prop where
  nonempty : pieces ≠ []
  shape : ∃ (names : List String) (value : Option String),
    pieces = names.map (·, .option) ++ value.toList.map (·, .argument) ∧
      ∀ name ∈ names, (Symbol.optionIn? commands name).isSome = true

namespace OptionsAndValue

theorem value (commands : List Symbol) (text : String) :
    OptionsAndValue commands [(text, .argument)] :=
  ⟨List.cons_ne_nil _ _, [], some text, rfl, List.forall_mem_nil _⟩

theorem option (known : (Symbol.optionIn? commands name).isSome = true) :
    OptionsAndValue commands [(name, .option)] :=
  ⟨List.cons_ne_nil _ _, [name], none, rfl, List.forall_mem_singleton.mpr known⟩

theorem cons (known : (Symbol.optionIn? commands name).isSome = true)
    (behind : OptionsAndValue commands pieces) :
    OptionsAndValue commands ((name, .option) :: pieces) := by
  obtain ⟨-, names, value, rfl, inScope⟩ := behind
  exact ⟨List.cons_ne_nil _ _, name :: names, value, rfl,
    List.forall_mem_cons.mpr ⟨known, inScope⟩⟩

end OptionsAndValue

theorem shortOptions_shape {c : Char} {rest : List Char}
    (read : shortOptions? commands (c :: rest) = some pieces) :
    OptionsAndValue commands pieces := by
  induction rest generalizing c pieces with
  | nil =>
    simp only [shortOptions?, Option.bind_eq_bind, Option.bind_eq_some_iff] at read
    obtain ⟨option, found, read⟩ := read
    rw [if_neg (fun needs => needs.2 rfl)] at read
    cases read
    exact .option (by rw [found]; rfl)
  | cons d rest ih =>
    rw [shortOptions?] at read
    obtain ⟨option, found, read⟩ := Option.bind_eq_some_iff.mp read
    have known : (Symbol.optionIn? commands (.ofList ['-', c])).isSome = true := by
      rw [found]
      rfl
    split at read
    · cases read
      exact .cons known (.value commands _)
    · obtain ⟨others, readRest, read⟩ := Option.bind_eq_some_iff.mp read
      cases read
      exact .cons known (ih readRest)

theorem cluster_shape (read : cluster? commands raw = some pieces) :
    OptionsAndValue commands pieces := by
  unfold cluster? at read
  split at read
  · split at read
    · contradiction
    · exact shortOptions_shape read
  · contradiction

theorem assignment_shape (read : assignment? commands raw = some pieces) :
    OptionsAndValue commands pieces := by
  simp only [assignment?] at read
  split at read
  · contradiction
  · split at read
    · rename_i known
      cases read
      exact .cons known.2 (.value commands _)
    · contradiction

/-- An argument that names no command. -/
theorem ofWord_shape (commands : List Symbol) (raw : String) :
    OptionsAndValue commands (ofWord commands raw) := by
  unfold ofWord
  split
  · rename_i known
    exact .option known
  · split
    · rename_i read
      exact assignment_shape read
    · cases read : cluster? commands raw.toList with
      | none => exact .value commands raw
      | some pieces => exact cluster_shape read

end Piece

namespace Classifier
variable {reader : Classifier} {raw : String} {position : Nat} {args : List String}

/-- The argument is neither a directive nor behind `--`. -/
def ExpectsWord (reader : Classifier) (raw : String) : Prop :=
  reader.phase = .words ∨ reader.phase = .directives ∧ raw.toList.head? ≠ some '['

/-- What an argument is read as, and what the reader expects behind it. -/
inductive Reading (reader : Classifier) (raw : String) : Classifier → List Piece → Prop where
  | directive : reader.phase = .directives → raw.toList.head? = some '[' →
      Reading reader raw reader [Piece.ofBracket raw]
  | endOfOptions : reader.ExpectsWord raw → raw = "--" →
      Reading reader raw ⟨.values, reader.commands⟩ [(raw, .endOfOptions)]
  | command : reader.ExpectsWord raw → raw ≠ "--" →
      reader.commands.innermost.subcommand? raw = some child →
      Reading reader raw ⟨.words, reader.commands.enter child⟩ [(raw, .command)]
  | root : reader.phase = .directives → reader.ExpectsWord raw → raw ≠ "--" →
      reader.commands.innermost.subcommand? raw = none →
      reader.commands.innermost.answersTo raw = true →
      Reading reader raw ⟨.words, reader.commands⟩ [(raw, .command)]
  | word : reader.ExpectsWord raw → raw ≠ "--" →
      reader.commands.innermost.subcommand? raw = none →
      (reader.phase = .directives → reader.commands.innermost.answersTo raw = false) →
      Reading reader raw ⟨.words, reader.commands⟩ (Piece.ofWord reader.commands.toList raw)
  | value : reader.phase = .values → Reading reader raw reader [(raw, .argument)]

theorem word_reading (first : Bool) (start : first = true ↔ reader.phase = .directives)
    (expects : reader.ExpectsWord raw) :
    Reading reader raw (reader.word first raw).1 (reader.word first raw).2 := by
  unfold word
  split
  · rename_i dashes
    exact .endOfOptions expects dashes
  · rename_i dashes
    split
    · rename_i child entered
      exact .command expects dashes entered
    · rename_i unknown
      split
      · rename_i named
        simp only [Bool.and_eq_true] at named
        exact .root (start.mp named.1) expects dashes unknown named.2
      · rename_i unnamed
        refine .word expects dashes unknown fun phase => ?_
        simpa only [start.mpr phase, Bool.true_and, Bool.not_eq_true] using unnamed

theorem step_reading (reader : Classifier) (raw : String) :
    Reading reader raw (reader.step raw).1 (reader.step raw).2 := by
  unfold step
  split
  · rename_i phase
    split
    · rename_i bracket
      exact .directive phase bracket
    · rename_i plain
      exact word_reading true (by simp [phase]) (.inr ⟨phase, plain⟩)
  · rename_i phase
    exact word_reading false (by simp [phase]) (.inl phase)
  · rename_i phase
    exact .value phase

theorem tokens_cons (reader : Classifier) (position : Nat) (raw : String) (rest : List String) :
    reader.tokens position (raw :: rest) =
      (reader.step raw).2.map (Piece.locate position) ++
        (reader.step raw).1.tokens (position + 1) rest := rfl

theorem run_cons (reader : Classifier) (raw : String) (rest : List String) :
    reader.run (raw :: rest) = (reader.step raw).1.run rest := rfl

theorem run_append (reader : Classifier) (args more : List String) :
    reader.run (args ++ more) = (reader.run args).run more :=
  List.foldl_append

private theorem split_append {front back before after : List Token} {token : Token}
    (split : front ++ back = before ++ token :: after) :
    (∃ middle, before = front ++ middle ∧ back = middle ++ token :: after) ∨
      ∃ last, front = before ++ token :: last := by
  rcases List.append_eq_append_iff.mp split with ⟨middle, before, later⟩ | ⟨middle, rfl, later⟩
  · exact .inl ⟨middle, before, later⟩
  · cases middle with
    | nil => exact .inl ⟨[], by simp, later.symm⟩
    | cons head last =>
      obtain ⟨rfl, -⟩ := List.cons.inj later
      exact .inr ⟨last, rfl⟩

/-- Every token is a piece of one argument, read where the arguments before it have led. -/
theorem tokens_split {before after : List Token} {token : Token}
    (split : reader.tokens position args = before ++ token :: after) :
    ∃ words raw rest first piece last,
      args = words ++ raw :: rest ∧
      ((reader.run words).step raw).2 = first ++ piece :: last ∧
      token = Piece.locate (position + words.length) piece ∧
      before = reader.tokens position words ++
        first.map (Piece.locate (position + words.length)) := by
  induction args generalizing reader position before with
  | nil => simp [tokens] at split
  | cons raw rest ih =>
    rw [tokens_cons] at split
    rcases split_append split with ⟨middle, rfl, later⟩ | ⟨last, here⟩
    · obtain ⟨words, found, others, first, piece, last, rfl, pieces, located, rfl⟩ := ih later
      have count : position + 1 + words.length = position + (raw :: words).length := by
        rw [List.length_cons]
        omega
      rw [count] at located
      refine ⟨raw :: words, found, others, first, piece, last, rfl, pieces, located, ?_⟩
      rw [tokens_cons, List.append_assoc, count]
    · obtain ⟨first, others, pieces, rfl, tailEq⟩ := List.map_eq_append_iff.mp here
      obtain ⟨piece, last, rfl, located, -⟩ := List.map_eq_cons_iff.mp tailEq
      exact ⟨[], raw, rest, first, piece, last, rfl, pieces, located.symm, rfl⟩

/-- Positions count the arguments. -/
theorem position_of_mem (found : token ∈ reader.tokens position args) :
    ∃ place, token.position = some place ∧ position ≤ place ∧ place < position + args.length := by
  obtain ⟨before, after, split⟩ := List.append_of_mem found
  obtain ⟨words, raw, rest, first, piece, last, rfl, -, rfl, -⟩ := tokens_split split
  refine ⟨position + words.length, rfl, Nat.le_add_right _ _, ?_⟩
  rw [List.length_append, List.length_cons]
  omega

/-- An argument holds at most one token that is no option. -/
theorem Reading.others_le_one (reading : Reading reader raw next pieces) :
    (pieces.filter fun piece => piece.2 ≠ .option).length ≤ 1 := by
  cases reading with
  | directive | endOfOptions | command | root | value => exact List.length_filter_le _ _
  | word =>
    obtain ⟨-, names, value, pieces, -⟩ := Piece.ofWord_shape reader.commands.toList raw
    rw [pieces, List.filter_append, List.filter_eq_nil_iff.mpr (by simp), List.nil_append]
    cases value with
    | none => exact Nat.zero_le _
    | some text => exact List.length_filter_le _ _

theorem others_ascending (reader : Classifier) (position : Nat) (args : List String) :
    ((reader.tokens position args).filter fun token => token.kind ≠ .option).Pairwise
      fun first second => first.position.getD 0 < second.position.getD 0 := by
  induction args generalizing reader position with
  | nil => exact .nil
  | cons raw rest ih =>
    rw [tokens_cons, List.filter_append, List.pairwise_append]
    refine ⟨?_, ih _ _, ?_⟩
    · have few := (step_reading reader raw).others_le_one
      rw [List.filter_map, List.pairwise_map]
      match pieces : (reader.step raw).2.filter _, few with
      | [], _ => exact .nil
      | [piece], _ => exact List.pairwise_singleton _ _
    · intro first here second later
      obtain ⟨piece, -, rfl⟩ := List.mem_map.mp (List.mem_filter.mp here).1
      obtain ⟨place, at_place, after, -⟩ := position_of_mem (List.mem_filter.mp later).1
      simp only [Piece.locate, at_place, Option.getD_some]
      omega

end Classifier
end CommandGrammar
