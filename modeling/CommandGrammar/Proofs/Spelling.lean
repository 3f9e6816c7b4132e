import CommandGrammar.Proofs.Scope
import Mathlib.Data.List.TakeWhile

/-! The tokens of an argument list spell its arguments: each argument can be put together again from
the tokens at its position, and no token has another origin. A stream begins with the brackets in
front of the command line, and behind the first `--` there are only values. -/
namespace CommandGrammar
open Text

namespace Directive

/-- A name that a directive may have. A colon would end it. -/
def IsNamed (name : List Char) : Prop :=
  name ≠ [] ∧ ∀ c ∈ name, isBlank c = false ∧ c ≠ '[' ∧ c ≠ ']' ∧ c ≠ ':'

/-- What stands between the brackets of a directive. -/
def body (directive : Directive) : List Char :=
  directive.name.toList ++
    match directive.value with
    | none => []
    | some value => ':' :: value.toList

theorem isNamed_takeWhile {body : List Char}
    (named : isName (body.takeWhile (· != ':')) = true) : IsNamed (body.takeWhile (· != ':')) := by
  simp only [isName, Bool.and_eq_true, Bool.not_eq_true', List.isEmpty_eq_false_iff,
    List.all_eq_true, Bool.or_eq_false_iff, beq_eq_false_iff_ne] at named
  refine ⟨named.1, fun c member => ?_⟩
  obtain ⟨⟨blank, opening⟩, closing⟩ := named.2 c member
  exact ⟨blank, opening, closing, by simpa using List.mem_takeWhile_imp member⟩

theorem isName_of_named {name : List Char} (named : IsNamed name) : isName name = true := by
  simp only [isName, Bool.and_eq_true, Bool.not_eq_true', List.isEmpty_eq_false_iff,
    List.all_eq_true, Bool.or_eq_false_iff, beq_eq_false_iff_ne]
  refine ⟨named.1, fun c member => ?_⟩
  obtain ⟨blank, opening, closing, -⟩ := named.2 c member
  exact ⟨⟨blank, opening⟩, closing⟩

theorem ofBody_eq_some_iff {text : List Char} {directive : Directive} :
    ofBody text = some directive ↔ IsNamed directive.name.toList ∧ text = directive.body := by
  constructor
  · intro read
    simp only [ofBody] at read
    split at read
    · rename_i named
      cases read
      refine ⟨by simpa using isNamed_takeWhile named, ?_⟩
      conv_lhs => rw [← List.takeWhile_append_dropWhile (p := (· != ':')) (l := text)]
      cases behind : text.dropWhile (· != ':') with
      | nil => simp [body]
      | cons separator value =>
        have colon := List.head?_dropWhile_not (· != ':') text
        rw [behind] at colon
        simp only [List.head?_cons, bne_eq_false_iff_eq] at colon
        simp [body, colon]
    · contradiction
  · rintro ⟨named, rfl⟩
    obtain ⟨name, value⟩ := directive
    have plain : ∀ c ∈ name.toList, (c != ':') = true := by
      intro c member
      simpa using (named.2 c member).2.2.2
    have isName := isName_of_named named
    cases value with
    | none =>
      rw [ofBody, body, List.append_nil, List.takeWhile_eq_self_iff.mpr plain,
        List.dropWhile_eq_nil_iff.mpr plain]
      simp [isName]
    | some value =>
      rw [ofBody, body, List.takeWhile_append_of_pos plain, List.dropWhile_append_of_pos plain]
      simp [isName]

/-- A directive is written in brackets, and only what is written so is one. -/
theorem parse_eq_some_iff {raw : String} {directive : Directive} :
    parse? raw = some directive ↔
      IsNamed directive.name.toList ∧ raw.toList = '[' :: (directive.body ++ [']']) := by
  unfold parse?
  split
  · rename_i rest opened
    rw [opened, List.cons.injEq]
    split
    · rename_i closed
      have ending : rest.dropLast ++ [']'] = rest :=
        List.dropLast_append_getLast? _ (by rw [closed]; rfl)
      rw [ofBody_eq_some_iff, ← ending]
      simp
    · rename_i unclosed
      refine iff_of_false (by simp) ?_
      rintro ⟨-, -, rfl⟩
      simp at unclosed
  · rename_i unopened
    refine iff_of_false (by simp) ?_
    rintro ⟨-, spelled⟩
    exact unopened _ spelled

end Directive

namespace Piece
variable {commands : List Symbol}

/-- A short option named by one character. -/
def short (c : Char) : Piece := (.ofList ['-', c], .option)

/-- The pieces make up the argument again. -/
inductive Spells (raw : String) : List Piece → Prop where
  | whole (kind : TokenKind) : Spells raw [(raw, kind)]
  | assignment {name value : List Char} {separator : Char} :
      raw.toList = name ++ separator :: value → separator = '=' ∨ separator = ':' →
      name ≠ [] → (∀ c ∈ name, c ≠ '=' ∧ c ≠ ':') →
      Spells raw [(.ofList name, .option), (.ofList value, .argument)]
  | flags {letters : List Char} : raw.toList = '-' :: letters → 2 ≤ letters.length →
      Spells raw (letters.map short)
  | flagsAndValue {letters value : List Char} : raw.toList = '-' :: (letters ++ value) →
      letters ≠ [] → value ≠ [] →
      Spells raw (letters.map short ++ [(.ofList value, .argument)])

theorem Spells.nonempty (spells : Spells raw pieces) : pieces ≠ [] := by
  cases spells with
  | whole | assignment => exact List.cons_ne_nil _ _
  | flags _ many =>
    rw [Ne, List.map_eq_nil_iff]
    rintro rfl
    contradiction
  | flagsAndValue => exact List.append_ne_nil_of_right_ne_nil _ (List.cons_ne_nil _ _)

theorem assignment_spells {raw : String}
    (read : assignment? commands raw.toList = some pieces) : Spells raw pieces := by
  simp only [assignment?] at read
  split at read
  · contradiction
  · rename_i separator value behind
    split at read
    · rename_i known
      cases read
      have split : raw.toList = raw.toList.takeWhile (fun c => c != '=' && c != ':') ++
          separator :: value := by rw [← behind, List.takeWhile_append_dropWhile]
      refine .assignment split ?_ known.1 ?_
      · have ends := List.head?_dropWhile_not (fun c => c != '=' && c != ':') raw.toList
        rw [behind] at ends
        simpa [Classical.or_iff_not_imp_left] using ends
      · intro c member
        simpa using List.mem_takeWhile_imp member
    · contradiction

/-- A cluster is read letter by letter, up to one that takes what is left. -/
theorem shortOptions_letters {chars : List Char}
    (read : shortOptions? commands chars = some pieces) :
    pieces = chars.map short ∨ ∃ letters value, chars = letters ++ value ∧ letters ≠ [] ∧
      value ≠ [] ∧ pieces = letters.map short ++ [(.ofList value, .argument)] := by
  induction chars generalizing pieces with
  | nil =>
    cases read
    exact .inl rfl
  | cons c rest ih =>
    rw [shortOptions?] at read
    obtain ⟨option, -, read⟩ := Option.bind_eq_some_iff.mp read
    split at read
    · rename_i takes
      cases read
      exact .inr ⟨[c], rest, rfl, List.cons_ne_nil _ _, takes.2, rfl⟩
    · obtain ⟨others, readRest, read⟩ := Option.bind_eq_some_iff.mp read
      cases read
      rcases ih readRest with rfl | ⟨letters, value, rfl, -, some, rfl⟩
      · exact .inl rfl
      · exact .inr ⟨c :: letters, value, rfl, List.cons_ne_nil _ _, some, rfl⟩

theorem cluster_spells {raw : String}
    (read : cluster? commands raw.toList = some pieces) : Spells raw pieces := by
  unfold cluster? at read
  split at read
  · rename_i first second rest dashed
    split at read
    · contradiction
    · rcases shortOptions_letters read with rfl | ⟨letters, value, same, named, some, rfl⟩
      · exact .flags dashed (by simp)
      · exact .flagsAndValue (same ▸ dashed) named some
  · contradiction

theorem ofWord_spells (commands : List Symbol) (raw : String) :
    Spells raw (ofWord commands raw) := by
  unfold ofWord
  split
  · exact .whole .option
  · split
    · rename_i read
      exact assignment_spells read
    · cases read : cluster? commands raw.toList with
      | none => exact .whole .argument
      | some pieces => exact cluster_spells read

theorem filter_locate (spot other : Nat) (pieces : List Piece) :
    (pieces.map (locate spot)).filter (·.position == some other) =
      if spot = other then pieces.map (locate spot) else [] := by
  split
  · rename_i same
    apply List.filter_eq_self.mpr
    intro token member
    obtain ⟨piece, -, rfl⟩ := List.mem_map.mp member
    simp [locate, same]
  · rename_i apart
    apply List.filter_eq_nil_iff.mpr
    intro token member
    obtain ⟨piece, -, rfl⟩ := List.mem_map.mp member
    simp [locate, apart]

end Piece

namespace Token

/-- Arguments that are one token each, the first of them at the given position. -/
def each (kind : String → TokenKind) (position : Nat) : List String → List Token
  | [] => []
  | raw :: rest => ⟨raw, kind raw, some position⟩ :: each kind (position + 1) rest

end Token

namespace Classifier
variable {reader next : Classifier} {position : Nat} {args : List String}

theorem Reading.spells (reading : Reading reader raw next pieces) : Piece.Spells raw pieces := by
  cases reading with
  | directive | endOfOptions | command | root | value => exact .whole _
  | word => exact Piece.ofWord_spells reader.commands.toList raw

/-- The tokens at a position are the pieces of the argument that stands there. -/
theorem tokens_at (reader : Classifier) (position : Nat) {place : Nat}
    (found : args[place]? = some raw) :
    (reader.tokens position args).filter (·.position == some (position + place)) =
      ((reader.run (args.take place)).step raw).2.map (Piece.locate (position + place)) := by
  induction args generalizing reader position place with
  | nil => contradiction
  | cons first rest ih =>
    rw [tokens_cons, List.filter_append]
    cases place with
    | zero =>
      obtain rfl : first = raw := by simpa using found
      have later : ((reader.step first).1.tokens (position + 1) rest).filter
          (·.position == some (position + 0)) = [] := by
        apply List.filter_eq_nil_iff.mpr
        intro token member
        obtain ⟨place, positioned, after, -⟩ := position_of_mem member
        simp only [positioned, beq_iff_eq, Option.some.injEq]
        omega
      rw [later, Nat.add_zero, Piece.filter_locate, if_pos rfl, List.append_nil]
      rfl
    | succ place =>
      have shift : position + (place + 1) = position + 1 + place := by omega
      rw [Piece.filter_locate, if_neg (by omega), List.nil_append, shift, ih _ _ found]
      rfl

theorem tokens_ascending (reader : Classifier) (position : Nat) (args : List String) :
    (reader.tokens position args).Pairwise fun first second =>
      first.position.getD 0 ≤ second.position.getD 0 := by
  induction args generalizing reader position with
  | nil => exact .nil
  | cons raw rest ih =>
    rw [tokens_cons, List.pairwise_append]
    refine ⟨?_, ih _ _, ?_⟩
    · rw [List.pairwise_map]
      exact List.pairwise_of_forall_mem_list fun _ _ _ _ => Nat.le_refl _
    · intro first here second later
      obtain ⟨piece, -, rfl⟩ := List.mem_map.mp here
      obtain ⟨place, positioned, after, -⟩ := position_of_mem later
      simp only [Piece.locate, positioned, Option.getD_some]
      omega

/-- Whether an argument opens a bracket, as a directive does. -/
def opensBracket (raw : String) : Bool := raw.toList.head? == some '['

theorem step_bracket (phase : reader.phase = .directives) (opens : opensBracket raw = true) :
    reader.step raw = (reader, [Piece.ofBracket raw]) := by
  unfold step
  rw [phase]
  exact if_pos (beq_iff_eq.mp opens)

/-- Brackets in front of the command line leave the reader where it is. -/
theorem run_brackets (phase : reader.phase = .directives)
    (opens : ∀ raw ∈ args, opensBracket raw = true) : reader.run args = reader := by
  induction args with
  | nil => rfl
  | cons raw rest ih =>
    obtain ⟨here, later⟩ := List.forall_mem_cons.mp opens
    rw [run_cons, step_bracket phase here, ih later]

theorem tokens_brackets (phase : reader.phase = .directives)
    (opens : ∀ raw ∈ args, opensBracket raw = true) (position : Nat) :
    reader.tokens position args =
      Token.each (fun raw => (Piece.ofBracket raw).2) position args := by
  induction args generalizing position with
  | nil => rfl
  | cons raw rest ih =>
    obtain ⟨here, later⟩ := List.forall_mem_cons.mp opens
    rw [tokens_cons, step_bracket phase here, ih later]
    rfl

theorem tokens_values (phase : reader.phase = .values) (position : Nat) (args : List String) :
    reader.tokens position args = Token.each (fun _ => .argument) position args := by
  have value (raw : String) : reader.step raw = (reader, [(raw, .argument)]) := by
    rw [step, phase]
  induction args generalizing position with
  | nil => rfl
  | cons raw rest ih =>
    rw [tokens_cons, value, ih]
    rfl

/-- A word of the command line is a command, options, a value, or options and a value. -/
def IsWordKind (kind : TokenKind) : Prop :=
  kind = .command ∨ kind = .option ∨ kind = .argument

theorem Reading.of_word (reading : Reading reader raw next pieces)
    (expects : reader.ExpectsWord raw) (dashes : raw ≠ "--") :
    next.phase = .words ∧ ∀ piece ∈ pieces, IsWordKind piece.2 := by
  cases reading with
  | directive phase bracket =>
    rcases expects with words | ⟨-, plain⟩
    · rw [phase] at words
      contradiction
    · exact absurd bracket plain
  | endOfOptions _ same => exact absurd same dashes
  | value phase =>
    rcases expects with words | ⟨directives, -⟩
    · rw [phase] at words
      contradiction
    · rw [phase] at directives
      contradiction
  | command | root => exact ⟨rfl, List.forall_mem_singleton.mpr (.inl rfl)⟩
  | word =>
    refine ⟨rfl, fun piece member => .inr ?_⟩
    exact (Piece.ofWord_stays reader.commands.toList raw piece member).imp And.left id

/-- Up to the first `--` a command line is read word by word. -/
theorem tokens_words (expects : ∀ raw ∈ args.head?, reader.ExpectsWord raw)
    (plain : ∀ raw ∈ args, raw ≠ "--") (position : Nat) :
    (∀ token ∈ reader.tokens position args, IsWordKind token.kind) ∧
      (args = [] ∧ reader.run args = reader ∨ (reader.run args).phase = .words) := by
  induction args generalizing reader position with
  | nil => exact ⟨List.forall_mem_nil _, .inl ⟨rfl, rfl⟩⟩
  | cons raw rest ih =>
    obtain ⟨here, later⟩ := List.forall_mem_cons.mp plain
    have word := (reader.step_reading raw).of_word (expects raw rfl) here
    have expectsNext : ∀ next ∈ rest.head?, (reader.step raw).1.ExpectsWord next :=
      fun _ _ => .inl word.1
    obtain ⟨kinds, ends⟩ := ih expectsNext later (position + 1)
    rw [tokens_cons, run_cons]
    refine ⟨List.forall_mem_append.mpr ⟨?_, kinds⟩, .inr ?_⟩
    · exact List.forall_mem_map.mpr word.2
    · rcases ends with ⟨-, same⟩ | phase
      · rw [same]
        exact word.1
      · exact phase

theorem phase_step_eq_values_iff (reader : Classifier) (raw : String) :
    (reader.step raw).1.phase = .values ↔ reader.phase = .values ∨ raw = "--" := by
  have reading := reader.step_reading raw
  generalize (reader.step raw).1 = next, (reader.step raw).2 = pieces at reading ⊢
  cases reading with
  | directive phase bracket =>
    have plain : raw ≠ "--" := by
      rintro rfl
      exact absurd bracket (by decide)
    simp only [plain, or_false]
  | endOfOptions expects dashes => simp only [dashes, or_true]
  | command expects dashes | root _ expects dashes | word expects dashes =>
    rcases expects with phase | ⟨phase, -⟩ <;> simp [phase, dashes]
  | value phase => simp only [phase, true_or]

/-- Nothing but `--` leads behind the words. -/
theorem phase_run_eq_values_iff (reader : Classifier) (args : List String) :
    (reader.run args).phase = .values ↔ reader.phase = .values ∨ "--" ∈ args := by
  induction args generalizing reader with
  | nil => simp [run]
  | cons raw rest ih =>
    rw [run_cons, ih, phase_step_eq_values_iff, List.mem_cons, or_assoc, eq_comm (a := raw)]

theorem step_dashes (expects : reader.ExpectsWord "--") :
    reader.step "--" = (⟨.values, reader.commands⟩, [("--", .endOfOptions)]) := by
  rcases expects with phase | ⟨phase, -⟩
  · rw [step, phase]
    rfl
  · rw [step, phase]
    rfl

end Classifier

namespace CommandLine
variable (args : List String)

/-- The arguments in front that open a bracket. -/
def brackets : List String := args.takeWhile Classifier.opensBracket

/-- What is read word by word. -/
def words : List String := (args.dropWhile Classifier.opensBracket).takeWhile (· != "--")

/-- The first `--` and all that follows. -/
def closing : List String := args.dropWhile (· != "--")

theorem words_closing : words args ++ closing args = args.dropWhile Classifier.opensBracket := by
  have behind : (args.dropWhile Classifier.opensBracket).dropWhile (· != "--") =
      closing args := by
    conv_rhs => rw [closing, ← List.takeWhile_append_dropWhile (p := Classifier.opensBracket)
      (l := args)]
    rw [List.dropWhile_append_of_pos]
    intro raw member
    have opens := List.mem_takeWhile_imp member
    rw [bne_iff_ne]
    rintro rfl
    contradiction
  rw [words, ← behind, List.takeWhile_append_dropWhile]

theorem brackets_words_closing : brackets args ++ (words args ++ closing args) = args := by
  rw [words_closing, brackets, List.takeWhile_append_dropWhile]

variable {args}

theorem opensBracket_of_mem (member : raw ∈ brackets args) :
    Classifier.opensBracket raw = true :=
  List.mem_takeWhile_imp member

theorem ne_dashes_of_mem (member : raw ∈ words args) : raw ≠ "--" := by
  simpa using List.mem_takeWhile_imp member

/-- Behind the brackets a first word is expected, or else `--`. -/
theorem expectsWord_head (root : Symbol) (first : (words args ++ closing args).head? = some raw) :
    (Classifier.start root).ExpectsWord raw := by
  have ends := List.head?_dropWhile_not Classifier.opensBracket args
  rw [← words_closing, first] at ends
  exact .inr ⟨rfl, by simpa [Classifier.opensBracket] using ends⟩

theorem eq_dashes_of_closing (rest : closing args = dashes :: values) : dashes = "--" := by
  have starts := List.head?_dropWhile_not (· != "--") args
  rw [← closing, rest] at starts
  simpa using starts

end CommandLine

namespace Token

/-- A bracket in front of the command line is a directive if it has the form of one. -/
def bracketKind (raw : String) : TokenKind := (Piece.ofBracket raw).2

/-- The tokens of `--` and of the values behind it. -/
def ofClosing (position : Nat) : List String → List Token
  | [] => []
  | dashes :: values =>
    ⟨dashes, .endOfOptions, some position⟩ :: each (fun _ => .argument) (position + 1) values

theorem bracketKind_eq_directive {raw : String} :
    bracketKind raw = .directive ↔ ∃ directive : Directive,
      Directive.IsNamed directive.name.toList ∧
        raw.toList = '[' :: (directive.body ++ [']']) := by
  simp only [← Directive.parse_eq_some_iff, ← Option.isSome_iff_exists, bracketKind,
    Piece.ofBracket, ite_eq_left_iff, reduceCtorEq, imp_false, not_not]

theorem bracketKind_eq_unparsed {raw : String} :
    bracketKind raw = .unparsed ↔ bracketKind raw ≠ .directive := by
  unfold bracketKind Piece.ofBracket
  split <;> simp

theorem kind_each {kind : String → TokenKind} {position : Nat} {args : List String} {token : Token}
    (member : token ∈ each kind position args) : token.kind = kind token.text := by
  induction args generalizing position with
  | nil => contradiction
  | cons raw rest ih =>
    rcases List.mem_cons.mp member with rfl | later
    · rfl
    · exact ih later

theorem kind_ofClosing {position : Nat} {args : List String} {token : Token}
    (member : token ∈ ofClosing position args) :
    token.kind = .endOfOptions ∨ token.kind = .argument := by
  cases args with
  | nil => contradiction
  | cons dashes values =>
    rcases List.mem_cons.mp member with rfl | value
    · exact .inl rfl
    · exact .inr (kind_each value)

end Token

namespace Symbol
open CommandLine
variable (root : Symbol) (args : List String)

theorem tokens_closing {reader : Classifier} (position : Nat)
    (expects : ∀ raw ∈ (closing args).head?, reader.ExpectsWord raw) :
    reader.tokens position (closing args) = Token.ofClosing position (closing args) := by
  cases rest : closing args with
  | nil => rfl
  | cons dashes values =>
    obtain rfl := eq_dashes_of_closing rest
    have expectsDashes : reader.ExpectsWord "--" := expects "--" (by rw [rest]; rfl)
    rw [Classifier.tokens_cons, Classifier.step_dashes expectsDashes,
      Classifier.tokens_values rfl]
    rfl

/-- The stream has three parts: brackets, words, and what `--` closes. -/
theorem tokenize_parts : ∃ middle,
    root.tokenize args = Token.each Token.bracketKind 0 (brackets args) ++
      (middle ++ Token.ofClosing ((brackets args).length + (words args).length) (closing args)) ∧
    ∀ token ∈ middle, Classifier.IsWordKind token.kind ∧ ∃ place, token.position = some place ∧
      (brackets args).length ≤ place ∧
      place < (brackets args).length + (words args).length := by
  have opens : ∀ raw ∈ brackets args, Classifier.opensBracket raw = true :=
    fun _ => opensBracket_of_mem
  have expects : ∀ raw ∈ (words args).head?, (Classifier.start root).ExpectsWord raw := by
    intro raw first
    have head : (words args ++ closing args).head? = some raw := by
      rw [List.head?_append, first]
      rfl
    exact expectsWord_head root head
  obtain ⟨kinds, ends⟩ := Classifier.tokens_words expects (fun _ => ne_dashes_of_mem)
    (0 + (brackets args).length)
  have expectsRest : ∀ raw ∈ (closing args).head?,
      ((Classifier.start root).run (words args)).ExpectsWord raw := by
    intro raw first
    rcases ends with ⟨none, same⟩ | phase
    · rw [same]
      exact expectsWord_head root (by rw [none]; exact first)
    · exact .inl phase
  refine ⟨_, ?_, fun token member => ⟨kinds token member, ?_⟩⟩
  · conv_lhs => rw [← brackets_words_closing args]
    rw [tokenize, Classifier.tokens_append, Classifier.tokens_append,
      Classifier.tokens_brackets rfl opens, Classifier.run_brackets rfl opens, Nat.zero_add,
      tokens_closing args _ expectsRest]
    rfl
  · obtain ⟨place, positioned, after, before⟩ := Classifier.position_of_mem member
    exact ⟨place, positioned, by omega, by omega⟩

/-- Behind the brackets nothing is a directive or is taken for one. -/
theorem tokenize_outside : ∃ behind,
    root.tokenize args = Token.each Token.bracketKind 0 (brackets args) ++ behind ∧
    ∀ token ∈ behind, token.kind ≠ .directive ∧ token.kind ≠ .unparsed := by
  obtain ⟨middle, stream, words⟩ := root.tokenize_parts args
  refine ⟨_, stream, fun token member => ?_⟩
  rcases List.mem_append.mp member with word | closing
  · rcases (words token word).1 with kind | kind | kind <;> simp [kind]
  · rcases Token.kind_ofClosing closing with kind | kind <;> simp [kind]

end Symbol

/-- The tokens of an argument list tell all of it and nothing else. -/
structure Spelled (root : Symbol) (args : List String) : Prop where
  ascending : (root.tokenize args).Pairwise fun first second =>
    first.position.getD 0 ≤ second.position.getD 0
  placed : ∀ token ∈ root.tokenize args, ∃ place, token.position = some place ∧
    place < args.length
  spelled : ∀ {place raw}, args[place]? = some raw → ∃ pieces, pieces ≠ [] ∧
    Piece.Spells raw pieces ∧
    (root.tokenize args).filter (·.position == some place) = pieces.map (Piece.locate place)
  parts : CommandLine.brackets args ++ (CommandLine.words args ++ CommandLine.closing args) = args
  stream : ∃ middle,
    root.tokenize args = Token.each Token.bracketKind 0 (CommandLine.brackets args) ++
      (middle ++ Token.ofClosing
        ((CommandLine.brackets args).length + (CommandLine.words args).length)
        (CommandLine.closing args)) ∧
    ∀ token ∈ middle, Classifier.IsWordKind token.kind ∧ ∃ place, token.position = some place ∧
      (CommandLine.brackets args).length ≤ place ∧
      place < (CommandLine.brackets args).length + (CommandLine.words args).length
  directive : ∀ raw, Token.bracketKind raw = .directive ↔ ∃ directive : Directive,
    Directive.IsNamed directive.name.toList ∧ raw.toList = '[' :: (directive.body ++ [']'])
  unparsed : ∀ raw, Token.bracketKind raw = .unparsed ↔ Token.bracketKind raw ≠ .directive
  /-- Every bracket that is no directive is told as an error, in order, and nothing else is. -/
  errors : (Token.malformed (root.tokenize args)).map
      (fun token => (token.malformedMessage, token)) =
    ((Token.each Token.bracketKind 0 (CommandLine.brackets args)).filter
      (·.kind == .unparsed)).map fun token => (s!"Invalid directive syntax '{token.text}'", token)

theorem spelled_tokenize (root : Symbol) (args : List String) : Spelled root args := by
  obtain ⟨middle, stream, wordKind⟩ := root.tokenize_parts args
  constructor
  case ascending => exact Classifier.tokens_ascending _ _ _
  case placed =>
    intro token member
    obtain ⟨place, positioned, -, before⟩ := Classifier.position_of_mem member
    exact ⟨place, positioned, by omega⟩
  case spelled =>
    intro place raw found
    have here := Classifier.tokens_at (.start root) 0 found
    have reading := Classifier.step_reading ((Classifier.start root).run (args.take place)) raw
    rw [Nat.zero_add] at here
    exact ⟨_, reading.spells.nonempty, reading.spells, here⟩
  case parts => exact CommandLine.brackets_words_closing args
  case stream => exact ⟨middle, stream, wordKind⟩
  case directive => exact fun _ => Token.bracketKind_eq_directive
  case unparsed => exact fun _ => Token.bracketKind_eq_unparsed
  case errors =>
    obtain ⟨behind, split, outside⟩ := root.tokenize_outside args
    have none : behind.filter (·.kind == .unparsed) = [] := by
      apply List.filter_eq_nil_iff.mpr
      intro token member
      simpa using (outside token member).2
    rw [Token.malformed, split, List.filter_append, none, List.append_nil]
    rfl

end CommandGrammar
