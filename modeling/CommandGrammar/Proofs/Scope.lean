import CommandGrammar.Completion
import CommandGrammar.Parse
import CommandGrammar.Proofs.Classification
import CommandGrammar.Proofs.Moves
import CommandGrammar.Proofs.Numbering
import Mathlib.Data.List.Induction

/-! The reader of arguments, the routing of tokens and the completion walk each keep the commands
entered. They agree in front of every token of a stream, so routing understands every token as the
reader meant it. -/
namespace CommandGrammar

namespace Piece

/-- A piece that enters no command: an option in scope or a value. -/
def Stays (commands : List Symbol) (piece : Piece) : Prop :=
  piece.2 = .option ∧ (Symbol.optionIn? commands piece.1).isSome = true ∨ piece.2 = .argument

theorem ofWord_stays (commands : List Symbol) (raw : String) :
    ∀ piece ∈ ofWord commands raw, Stays commands piece := by
  obtain ⟨-, names, value, pieces, inScope⟩ := ofWord_shape commands raw
  intro piece member
  rw [pieces, List.mem_append, List.mem_map, List.mem_map] at member
  rcases member with ⟨name, named, rfl⟩ | ⟨text, -, rfl⟩
  · exact .inl ⟨rfl, inScope name named⟩
  · exact .inr rfl

end Piece

namespace Routing
variable {routing : Routing} {token : Token}

theorem run_cons (routing : Routing) (token : Token) (rest : List Token) :
    routing.run (token :: rest) = (routing.step token).run rest := rfl

theorem run_concat (routing : Routing) (tokens : List Token) (token : Token) :
    routing.run (tokens ++ [token]) = (routing.run tokens).step token := by
  rw [run_append]
  rfl

/-- Tokens that name nothing and carry no value are passed over. -/
theorem run_aside {tokens : List Token}
    (aside : ∀ token ∈ tokens, token.kind = .directive ∨ token.kind = .unparsed)
    (routing : Routing) : routing.run tokens = routing := by
  induction tokens with
  | nil => rfl
  | cons token rest ih =>
    obtain ⟨here, later⟩ := List.forall_mem_cons.mp aside
    have still : routing.step token = routing := by
      rcases here with kind | kind <;> rw [step, kind]
    rw [run_cons, still, ih later]

theorem started_step (outside : token.kind ≠ .directive) (wellFormed : token.kind ≠ .unparsed) :
    (routing.step token).started = true := by
  unfold step
  split
  · contradiction
  · contradiction
  all_goals rfl

theorem started_run (started : routing.started = true) (tokens : List Token) :
    (routing.run tokens).started = true := by
  induction tokens generalizing routing with
  | nil => exact started
  | cons token rest ih =>
    apply ih
    unfold step
    split
    · exact started
    · exact started
    all_goals rfl

theorem understands_option (scope : routing.path.map Frame.command = commands)
    (kind : token.kind = .option)
    (known : (Symbol.optionIn? commands.toList token.text).isSome = true) :
    routing.Understands token := by
  subst commands
  rw [← optionMeant_symbol, Option.isSome_map] at known
  simpa only [Understands, kind] using known

theorem understands_stays (position : Nat) {piece : Piece}
    (scope : routing.path.map Frame.command = commands)
    (stays : piece.Stays commands.toList) : routing.Understands (piece.locate position) := by
  rcases stays with ⟨kind, known⟩ | kind
  · exact understands_option scope kind known
  · simp only [Understands, Piece.locate, kind]

theorem path_step (understood : routing.Understands token) (kind : token.kind ≠ .command) :
    (routing.step token).path = routing.path := by
  cases (move_step understood).growth with
  | still _ _ path | opened _ _ _ _ path => exact path
  | entered command => exact absurd command kind

/-- Pieces that enter no command leave the path alone. -/
theorem path_run_stays (position : Nat) {pieces : List Piece}
    (scope : routing.path.map Frame.command = commands)
    (stays : ∀ piece ∈ pieces, piece.Stays commands.toList) :
    (routing.run (pieces.map (Piece.locate position))).path = routing.path := by
  induction pieces generalizing routing with
  | nil => rfl
  | cons piece rest ih =>
    have first := stays piece List.mem_cons_self
    have kind : (piece.locate position).kind ≠ .command := by
      rcases first with ⟨kind, -⟩ | kind <;> simp [Piece.locate, kind]
    have same := path_step (understands_stays position scope first) kind
    rw [List.map_cons, run_cons, ih (same ▸ scope) fun piece later =>
      stays piece (List.mem_cons_of_mem _ later), same]

end Routing

/-- The reader of arguments and the routing of their tokens have come equally far. -/
structure Follows (root : Symbol) (reader : Classifier) (routing : Routing) : Prop where
  scope : routing.path.map Frame.command = reader.commands
  phase : reader.phase = .directives ↔ routing.started = false
  fresh : routing.started = false → routing.path = .single ⟨0, root⟩

namespace Follows
variable {root : Symbol} {reader next : Classifier} {routing : Routing}

theorem initial (root : Symbol) : Follows root (.start root) (.start root) where
  scope := rfl
  phase := ⟨fun _ => rfl, fun _ => rfl⟩
  fresh := fun _ => rfl

theorem innermost (follows : Follows root reader routing) :
    routing.path.innermost.command = reader.commands.innermost :=
  congrArg Nesting.innermost follows.scope

theorem later (scope : routing.path.map Frame.command = reader.commands)
    (phase : reader.phase ≠ .directives) (started : routing.started = true) :
    Follows root reader routing where
  scope := scope
  phase := by simp [phase, started]
  fresh := by simp [started]

/-- Every piece of an argument finds the routing in the scope in which the argument was read. -/
theorem understands (position : Nat) {first last : List Piece} {piece : Piece}
    (follows : Follows root reader routing) (reading : reader.Reading raw next pieces)
    (split : pieces = first ++ piece :: last) :
    (routing.run (first.map (Piece.locate position))).path = routing.path ∧
      (routing.run (first.map (Piece.locate position))).Understands (piece.locate position) ∧
      (piece.2 = .command → first = [] ∧ pieces = [(raw, .command)]) := by
  -- Only an argument that names no command holds more than one piece.
  have single : ∀ {only : Piece}, routing.Understands (only.locate position) → only.1 = raw →
      [only] = first ++ piece :: last →
      (routing.run (first.map (Piece.locate position))).path = routing.path ∧
        (routing.run (first.map (Piece.locate position))).Understands (piece.locate position) ∧
        (piece.2 = .command → first = [] ∧ [only] = [(raw, .command)]) := by
    rintro ⟨text, kind⟩ understood rfl alone
    cases first with
    | nil =>
      obtain ⟨rfl, -⟩ := List.cons.inj alone
      refine ⟨rfl, understood, ?_⟩
      rintro rfl
      exact ⟨rfl, rfl⟩
    | cons head tail => simp at alone
  cases reading with
  | directive =>
    refine single ?_ rfl split
    unfold Piece.ofBracket
    split <;> trivial
  | endOfOptions | value => exact single trivial rfl split
  | command expects dashes entered =>
    refine single (.inl ?_) rfl split
    rw [follows.innermost]
    exact Option.isSome_of_eq_some entered
  | root phase expects dashes unknown named =>
    refine single (.inr ⟨follows.phase.mp phase, ?_⟩) rfl split
    rw [follows.innermost]
    exact named
  | word =>
    have stays := Piece.ofWord_stays reader.commands.toList raw
    rw [split] at stays
    have before := Routing.path_run_stays position follows.scope fun piece earlier =>
      stays piece (List.mem_append_left _ earlier)
    have here := stays piece (List.mem_append_right _ List.mem_cons_self)
    have understood := Routing.understands_stays position (before ▸ follows.scope) here
    refine ⟨before, understood, fun kind => ?_⟩
    rcases here with ⟨option, -⟩ | value
    · rw [kind] at option
      contradiction
    · rw [kind] at value
      contradiction

theorem step (position : Nat) (follows : Follows root reader routing)
    (reading : reader.Reading raw next pieces) :
    Follows root next (routing.run (pieces.map (Piece.locate position))) := by
  cases reading with
  | directive phase bracket =>
    have idle : routing.step ((Piece.ofBracket raw).locate position) = routing := by
      unfold Piece.ofBracket
      split <;> rfl
    rw [List.map_singleton, Routing.run_cons, idle]
    exact follows
  | endOfOptions => exact later follows.scope (by simp) rfl
  | command expects dashes entered =>
    rw [← follows.innermost] at entered
    refine later ?_ (by simp) rfl
    simp only [List.map_singleton, Routing.run, List.foldl_cons, List.foldl_nil, Routing.step,
      Piece.locate, Routing.command, entered, Nesting.map_enter, follows.scope]
  | root phase expects dashes unknown named =>
    rw [← follows.innermost] at unknown named
    refine later ?_ (by simp) rfl
    simp only [List.map_singleton, Routing.run, List.foldl_cons, List.foldl_nil, Routing.step,
      Piece.locate, Routing.command, unknown]
    rw [if_pos (by simp [follows.phase.mp phase, named])]
    exact follows.scope
  | value phase =>
    have kept := Routing.path_run_stays position follows.scope
      (List.forall_mem_singleton.mpr (.inr rfl : Piece.Stays _ (raw, .argument)))
    exact later (kept ▸ follows.scope) (by simp [phase]) rfl
  | word =>
    have kept := Routing.path_run_stays position follows.scope
      (Piece.ofWord_stays reader.commands.toList raw)
    refine later (kept ▸ follows.scope) (by simp) ?_
    have stays := Piece.ofWord_stays reader.commands.toList raw
    obtain ⟨piece, rest, pieces⟩ := List.exists_cons_of_ne_nil
      (Piece.ofWord_shape reader.commands.toList raw).nonempty
    rw [pieces] at stays ⊢
    have here := stays piece List.mem_cons_self
    rw [List.map_cons, Routing.run_cons]
    apply Routing.started_run
    rcases here with ⟨kind, -⟩ | kind <;>
      exact Routing.started_step (by simp [Piece.locate, kind]) (by simp [Piece.locate, kind])

theorem run (follows : Follows root reader routing) (position : Nat) (words : List String) :
    Follows root (reader.run words) (routing.run (reader.tokens position words)) := by
  induction words generalizing reader routing position with
  | nil => exact follows
  | cons raw rest ih =>
    rw [Classifier.run_cons, Classifier.tokens_cons, Routing.run_append]
    exact ih (follows.step position (reader.step_reading raw)) (position + 1)

end Follows

namespace Symbol
variable {root : Symbol} {args : List String} {before between after : List Token} {token : Token}

/-- The reader of an argument list in front of the argument at a place. -/
def readerAt (root : Symbol) (args : List String) (place : Nat) : Classifier :=
  (Classifier.start root).run (args.take place)

/-- The routing of a grammar behind some tokens. -/
def routed (root : Symbol) (tokens : List Token) : Routing :=
  (Routing.start root).run tokens

/-- Routing meets a token in the scope in which the reader has read its argument. -/
structure Met (root : Symbol) (args : List String) (routing : Routing) (token : Token)
    (place : Nat) (raw : String) : Prop where
  position : token.position = some place
  argument : args[place]? = some raw
  piece : (token.text, token.kind) ∈ ((root.readerAt args place).step raw).2
  scope : routing.path.map Frame.command = (root.readerAt args place).commands
  understood : routing.Understands token
  alone : token.kind = .command → Follows root (root.readerAt args place) routing ∧
    ((root.readerAt args place).step raw).2 = [(raw, .command)]

theorem met (split : root.tokenize args = before ++ token :: after) :
    ∃ place raw, Met root args (root.routed before) token place raw := by
  obtain ⟨words, raw, rest, first, piece, last, rfl, pieces, rfl, rfl⟩ :=
    Classifier.tokens_split split
  have reader : root.readerAt (words ++ raw :: rest) words.length =
      (Classifier.start root).run words := by
    rw [readerAt, List.take_left]
  have follows := (Follows.initial root).run 0 words
  obtain ⟨path, understood, alone⟩ := follows.understands (0 + words.length)
    (Classifier.step_reading _ raw) pieces
  rw [routed, Routing.run_append]
  refine ⟨words.length, raw, ?_⟩
  rw [Nat.zero_add] at path understood ⊢
  constructor
  case position => rfl
  case argument => simp
  case piece =>
    rw [reader, pieces]
    exact List.mem_append_right _ List.mem_cons_self
  case scope => rw [reader, path, follows.scope]
  case understood => exact understood
  case alone =>
    intro kind
    obtain ⟨rfl, only⟩ := alone kind
    exact ⟨reader ▸ follows, reader ▸ only⟩

theorem routed_concat (root : Symbol) (tokens : List Token) (token : Token) :
    root.routed (tokens ++ [token]) = (root.routed tokens).step token :=
  Routing.run_concat _ _ _

theorem routed_append (root : Symbol) (before between : List Token) :
    root.routed (before ++ between) = (root.routed before).run between :=
  Routing.run_append _ _ _

/-- What holds behind some tokens and is kept by every later move holds from there on. -/
theorem routed_onward {motive : List Token → Routing → Prop}
    (start : motive [] (root.routed before))
    (move : ∀ between token rest, root.tokenize args = before ++ between ++ token :: rest →
      Routing.Move (root.routed (before ++ between)) token
        (root.routed (before ++ between ++ [token])) →
      motive between (root.routed (before ++ between)) →
      motive (between ++ [token]) (root.routed (before ++ between ++ [token])))
    (split : root.tokenize args = before ++ between ++ after) :
    motive between (root.routed (before ++ between)) := by
  induction between using List.reverseRecOn generalizing after with
  | nil =>
    rw [List.append_nil]
    exact start
  | append_singleton between token ih =>
    rw [← List.append_assoc, List.append_assoc _ [token], List.singleton_append] at split
    obtain ⟨_, _, met⟩ := met split
    rw [← List.append_assoc]
    refine move between token after split ?_ (ih split)
    rw [routed_concat]
    exact Routing.move_step met.understood

/-- What holds at the start and is kept by every move holds behind every prefix of a stream. -/
theorem routed_induction {motive : List Token → Routing → Prop}
    (start : motive [] (.start root))
    (move : ∀ before token after, root.tokenize args = before ++ token :: after →
      Routing.Move (root.routed before) token (root.routed (before ++ [token])) →
      motive before (root.routed before) →
      motive (before ++ [token]) (root.routed (before ++ [token])))
    (split : root.tokenize args = before ++ after) : motive before (root.routed before) := by
  rw [← List.nil_append before] at split
  exact routed_onward start move split

end Symbol
end CommandGrammar
