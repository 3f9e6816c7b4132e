import CommandGrammar.Proofs.Offers
import CommandGrammar.Proofs.Scanning

/-! Typing on narrows what completion offers: a word to complete that has grown fits fewer
candidates, and the candidates stay the same. A blank inside an open quote is the exception.
Completion takes the word there for ended and offers what may follow it, and the next character
makes it the word to complete again. -/
namespace CommandGrammar

theorem Text.contains_of_push {text part : String} {c : Char}
    (contained : contains text (part.push c) = true) : contains text part = true := by
  rw [contains_iff] at contained ⊢
  rw [String.toList_push] at contained
  exact (List.prefix_append _ _).isInfix.trans contained

/-- Without sources the suggestions do not depend on the text to complete. -/
theorem Argument.suggest_eq {argument : Argument} (fixed : argument.sources = [])
    (text other : String) : argument.suggest text = argument.suggest other := by
  simp only [suggest, fixed, List.flatMap_nil]

/-- No suggestion of a symbol depends on the text to complete. -/
def Symbol.SuggestsFixed (root : Symbol) : Prop :=
  ∀ symbol ∈ root.preorder, symbol.argument.sources = []

instance (root : Symbol) : Decidable root.SuggestsFixed :=
  decidable_of_iff (root.preorder.all (·.argument.sources.isEmpty) = true) (by
    simp only [List.all_eq_true, List.isEmpty_iff, Symbol.SuggestsFixed])

theorem Symbol.optionIn_eq_some {commands : List Symbol} {option : Symbol}
    (meant : optionIn? commands raw = some option) :
    ∃ command ∈ commands, option ∈ command.children := by
  obtain ⟨command, member, found⟩ := List.exists_of_findSome?_eq_some meant
  exact ⟨command, member, List.mem_of_find?_eq_some found⟩

namespace Context
variable {root : Symbol} {context : Context}

/-- The commands entered and the option that may take a value belong to the tree. -/
structure Inside (root : Symbol) (context : Context) : Prop where
  commands : ∀ command ∈ context.commands.toList, command ∈ root.preorder
  pending : ∀ pending ∈ context.pending, pending.option ∈ root.preorder

theorem Inside.start (root : Symbol) : (start root).Inside root := by
  constructor
  case commands => exact List.forall_mem_singleton.mpr root.mem_preorder_self
  case pending => nofun

theorem Inside.step (inside : context.Inside root) (token : Token) :
    (context.step token).Inside root := by
  unfold Context.step
  cases token.kind with
  | command =>
    dsimp only
    split
    · rename_i child entered
      have owned := (Symbol.subcommand_eq_some entered).1
      have inTree := Symbol.mem_preorder_of_child
        (inside.commands _ List.mem_cons_self) owned
      exact ⟨List.forall_mem_cons.mpr ⟨inTree, inside.commands⟩, nofun⟩
    · exact inside
  | option =>
    refine ⟨inside.commands, fun pending found => ?_⟩
    obtain ⟨option, meant, rfl⟩ := Option.map_eq_some_iff.mp found
    obtain ⟨command, onPath, owned⟩ :=
      Symbol.optionIn_eq_some (Option.eq_some_of_filter_eq_some meant)
    exact Symbol.mem_preorder_of_child (inside.commands _ onPath) owned
  | argument =>
    refine ⟨inside.commands, fun pending found => ?_⟩
    obtain ⟨before, open_, found⟩ := Option.bind_eq_some_iff.mp found
    split at found
    · contradiction
    · cases found
      exact inside.pending before open_
  | endOfOptions => exact ⟨inside.commands, nofun⟩
  | directive | unparsed => exact inside

theorem Inside.ofWords (root : Symbol) (words : List String) :
    (ofWords root words).Inside root := by
  rw [Context.ofWords]
  generalize root.tokenize words = tokens
  induction tokens using List.reverseRecOn with
  | nil => exact .start root
  | append_singleton tokens token ih =>
    rw [List.foldl_append]
    exact ih.step token

/-- A value that no option waits for changes nothing. -/
theorem ofWords_value {words : List String} {raw : String}
    (idle : (ofWords root words).pending = none)
    (read : (((Classifier.start root).run words).step raw).2 = [(raw, .argument)]) :
    ofWords root (words ++ [raw]) = ofWords root words := by
  have stays : (ofWords root words).step ⟨raw, .argument, some words.length⟩ =
      { ofWords root words with pending := none } := by
    simp only [Context.step, idle, Option.bind_none]
  have stream : root.tokenize (words ++ [raw]) =
      root.tokenize words ++ [⟨raw, .argument, some words.length⟩] := by
    rw [Symbol.tokenize_concat, read]
    rfl
  rw [ofWords, stream, List.foldl_concat, ← ofWords, stays, ← idle]

/-- Without sources it is the context alone that tells the candidates. -/
theorem Inside.candidates_eq (inside : context.Inside root) (fixed : root.SuggestsFixed)
    (text other : String) : context.candidates text = context.candidates other := by
  have command := Argument.suggest_eq
    (fixed _ (inside.commands _ List.mem_cons_self)) text other
  unfold candidates
  cases pending : context.pending with
  | none => simp only [command]
  | some open_ =>
    have option := Argument.suggest_eq (fixed _ (inside.pending _ pending)) text other
    simp only [command, option]

end Context

namespace Completion
variable {line : String} {c : Char}

theorem split_push (plain : Line.IsPlain c) :
    split (line.push c) = (Line.ended line, (Line.inProgress line).push c) := by
  have unquoted : ¬ Line.EndsInQuotedBlank (line.push c) := by
    rintro ⟨-, last, found, blank⟩
    rw [String.toList_push, List.getLast?_concat] at found
    cases found
    rw [plain.1] at blank
    contradiction
  rw [Line.completion_split unquoted, Line.ended_push plain, Line.inProgress_push plain]

end Completion

/-- What a character typed at the end of a line does to the suggestions. -/
structure Narrows (root : Symbol) (line : String) (c : Char) : Prop where
  /-- The word in progress is completed, by candidates that do not depend on it. -/
  typed : ∀ s, s ∈ root.suggest (line.push c) (line.push c).length ↔
    s ∈ (Context.ofWords root (Line.ended line)).candidates "" ∧
      Text.contains s ((Line.inProgress line).push c) = true
  narrows : ¬ Line.EndsInQuotedBlank line →
    ∀ s ∈ root.suggest (line.push c) (line.push c).length, s ∈ root.suggest line line.length
  /-- In a quoted blank the word counts as ended, and everything that may follow it is offered. -/
  quoted : Line.EndsInQuotedBlank line → ∀ s, s ∈ root.suggest line line.length ↔
    s ∈ (Context.ofWords root (Line.ended line ++ [Line.inProgress line])).candidates ""
  /-- A value that no option waits for leaves the candidates as they are. -/
  value : Line.EndsInQuotedBlank line →
    (Context.ofWords root (Line.ended line)).pending = none →
    (((Classifier.start root).run (Line.ended line)).step (Line.inProgress line)).2 =
      [(Line.inProgress line, .argument)] →
    ∀ s ∈ root.suggest (line.push c) (line.push c).length, s ∈ root.suggest line line.length

theorem narrows_suggest {root : Symbol} (fixed : root.SuggestsFixed) (line : String) {c : Char}
    (plain : Line.IsPlain c) : Narrows root line c := by
  have inside := Context.Inside.ofWords root (Line.ended line)
  have typed (s : String) : s ∈ root.suggest (line.push c) (line.push c).length ↔
      s ∈ (Context.ofWords root (Line.ended line)).candidates "" ∧
        Text.contains s ((Line.inProgress line).push c) = true := by
    rw [Completion.mem_suggest_end (Completion.split_push plain),
      inside.candidates_eq fixed ((Line.inProgress line).push c) ""]
  have quoted (blank : Line.EndsInQuotedBlank line) (s : String) :
      s ∈ root.suggest line line.length ↔
        s ∈ (Context.ofWords root (Line.ended line ++ [Line.inProgress line])).candidates "" := by
    rw [Completion.mem_suggest_end (Line.completion_split_quoted blank)]
    exact and_iff_left (Text.contains_iff.mpr List.nil_infix)
  constructor
  case typed => exact typed
  case narrows =>
    intro unquoted s offered
    obtain ⟨candidate, fits⟩ := (typed s).mp offered
    rw [Completion.mem_suggest_end (Line.completion_split unquoted),
      inside.candidates_eq fixed (Line.inProgress line) ""]
    exact ⟨candidate, Text.contains_of_push fits⟩
  case quoted => exact quoted
  case value =>
    intro blank idle read s offered
    rw [quoted blank, Context.ofWords_value idle read]
    exact ((typed s).mp offered).1

theorem narrows_suggest_sample : ∃ root, Declaration.sample.build = .ok root ∧
    root.SuggestsFixed ∧ Line.IsPlain 'u' ∧ Narrows root "-n 1 r" 'u' := by
  obtain ⟨root, built, fixed⟩ : ∃ root, Declaration.sample.build = .ok root ∧
      root.SuggestsFixed := ⟨_, rfl, by decide +kernel⟩
  have plain : Line.IsPlain 'u' := by decide
  exact ⟨root, built, fixed, plain, narrows_suggest fixed _ plain⟩

/-- A tool with an option that requires one of two values with a blank in them. -/
def Declaration.blankValues : Declaration :=
  .command { aliases := ["tool"] } none true [.option
    { aliases := ["--color"], argument := { type := some .string, allowed := ["a b", "c d"] } }]

/-- A quoted value is offered up to its blank and behind it, but not at the blank. -/
theorem quoted_blank_widens : ∃ root, Declaration.blankValues.build = .ok root ∧
    root.SuggestsFixed ∧ Line.IsPlain 'b' ∧
    "a b" ∈ root.suggest ("--color \"a ".push 'b') ("--color \"a ".push 'b').length ∧
    "a b" ∉ root.suggest "--color \"a " "--color \"a ".length := by
  refine ⟨_, rfl, ?_⟩
  decide +kernel

end CommandGrammar
