import CommandGrammar.Proofs.Agreement
import CommandGrammar.Proofs.Construction
import CommandGrammar.Proofs.Continuation

/-! What completion offers of the commands and options in reach is met as what it names, under the
command that has been entered last. Only behind `--` it is not: everything is a value there, and
completion goes on to offer names. -/
namespace CommandGrammar

namespace Symbol

/-- What a token that names the symbol is. -/
def tokenKind (symbol : Symbol) : TokenKind := if symbol.isCommand then .command else .option

variable {declaration : Declaration} {root symbol : Symbol}

theorem ne_dashes_of_alias (built : declaration.build = .ok root) (found : symbol ∈ root.preorder)
    (named : raw ∈ symbol.aliases) : raw ≠ "--" := by
  obtain ⟨node, -, sound, shapes⟩ := Declaration.shaped_of_built built found
  rw [shapes.itself.aliases] at named
  have visible := (sound.heading.aliases raw named).2
  rintro rfl
  exact absurd visible (by decide +kernel)

end Symbol

namespace Classifier
variable {declaration : Declaration} {root child : Symbol} {reader : Classifier} {raw : String}

/-- An alias of a child of the innermost command is read as the name of that child. -/
theorem step_alias (built : declaration.build = .ok root)
    (inTree : reader.commands.innermost ∈ root.preorder) (expects : reader.ExpectsWord raw)
    (owned : child ∈ reader.commands.innermost.children) (named : raw ∈ child.aliases)
    (unnamed : reader.phase = .directives → reader.commands.innermost.answersTo raw = false) :
    (reader.step raw).2 = [(raw, child.tokenKind)] := by
  have foundChild := Symbol.mem_preorder_of_child inTree owned
  have answers : child.answersTo raw = true := List.contains_iff_mem.mpr named
  have reading := reader.step_reading raw
  generalize (reader.step raw).1 = next, (reader.step raw).2 = pieces at reading ⊢
  cases reading with
  | directive phase bracket =>
    rcases expects with words | ⟨-, plain⟩
    · rw [phase] at words
      contradiction
    · exact absurd bracket plain
  | endOfOptions _ dashes => exact absurd dashes (Symbol.ne_dashes_of_alias built foundChild named)
  | value phase => rcases expects with expects | ⟨expects, -⟩ <;> simp [phase] at expects
  | root phase _ _ _ answersRoot => simp [unnamed phase] at answersRoot
  | command _ _ entered =>
    obtain ⟨ownedOther, isCommand, answersOther⟩ :=
      (Declaration.subcommand_eq_some_iff built inTree raw).mp entered
    have same := eq_of_apart (Declaration.apart_of_built built inTree raw) ownedOther owned
      (Symbol.isCalled_of_answersTo answersOther) (Symbol.isCalled_of_answersTo answers)
    rw [Symbol.tokenKind, if_pos (same ▸ isCommand)]
  | word _ _ unknown =>
    have isOption : child.isCommand = false := by
      refine Bool.eq_false_iff.mpr fun isCommand => ?_
      rw [(Declaration.subcommand_eq_some_iff built inTree raw).mpr ⟨owned, isCommand, answers⟩]
        at unknown
      contradiction
    have meant := (Declaration.option_eq_some_iff built inTree raw).mpr
      ⟨owned, by rw [Symbol.isOption, isOption, Bool.not_false], answers⟩
    have inScope : (Symbol.optionIn? reader.commands.toList raw).isSome = true := by
      rw [Symbol.optionIn?, Nesting.toList, List.findSome?_cons, meant]
      rfl
    rw [Piece.ofWord, if_pos inScope, Symbol.tokenKind, if_neg (Bool.eq_false_iff.mp isOption)]

end Classifier

namespace Routing
variable {root child : Symbol} {routing after : Routing} {token : Token}

/-- A token that names a child of the innermost command is met as that child, under that command. -/
theorem Move.meets (move : Move routing token after) (grown : Grown root routing)
    (numbered : root.Numbered)
    (names : token.kind = .command ∧
        routing.path.innermost.command.subcommand? token.text = some child ∨
      token.kind = .option ∧ routing.path.innermost.command.option? token.text = some child) :
    ∃ i : Nat, after.links[i]? = some (child, some routing.path.innermost.occurrence) := by
  have pushed (occurrence : Occurrence)
      (linked : occurrence.link = (child, some routing.path.innermost.occurrence))
      (grew : after.occurrences = (routing.push occurrence).occurrences) :
      ∃ i : Nat, after.links[i]? = some (child, some routing.path.innermost.occurrence) := by
    have links : after.links = (routing.push occurrence).links :=
      congrArg (List.map Occurrence.link) grew
    rw [links, links_push, linked]
    exact ⟨_, List.getElem?_concat_length⟩
  rcases names with ⟨kind, known⟩ | ⟨kind, known⟩
  · cases move with
    | skip kind' => rcases kind' with kind' | kind' <;> simp [kind] at kind'
    | close kind' | «open» kind' | reopen kind' | fill kind' | take kind' | leave kind' =>
      rw [kind] at kind'
      contradiction
    | name _ unknown =>
      rw [known] at unknown
      contradiction
    | enter _ entered =>
      cases known.symm.trans entered
      exact pushed (.met .command child token (some _)) rfl rfl
  · have meant : routing.optionMeant? token.text = some (routing.path.innermost, child) := by
      rw [optionMeant?, Nesting.toList, List.findSome?_cons, known]
      rfl
    cases move with
    | skip kind' => rcases kind' with kind' | kind' <;> simp [kind] at kind'
    | close kind' | enter kind' | name kind' | fill kind' | take kind' | leave kind' =>
      rw [kind] at kind'
      contradiction
    | «open» _ meant' =>
      cases meant.symm.trans meant'
      exact pushed (.met .option child token (some _)) rfl rfl
    | reopen _ meant' present =>
      cases meant.symm.trans meant'
      exact ⟨_, grown.link_of_meant numbered meant' present⟩

end Routing

namespace Context
variable {context : Context} {child : Symbol} {raw text : String}

/-- The option named last has fewer values than it requires. -/
def LacksValue (context : Context) : Prop :=
  ∃ pending, context.pending = some pending ∧ pending.taken < pending.option.arity.min

/-- A value that the option named last suggests. -/
def SuggestsValue (context : Context) (text raw : String) : Prop :=
  ∃ pending, context.pending = some pending ∧ raw ∈ pending.option.argument.suggest text

/-- What a new word may be: a value for the option named last, and unless that lacks one, a visible
name under the innermost command or a value for that command. -/
def Offers (context : Context) (text raw : String) : Prop :=
  context.SuggestsValue text raw ∨ ¬ context.LacksValue ∧
    ((∃ child ∈ context.commands.innermost.children,
        child.hidden = false ∧ raw ∈ child.aliases) ∨
      raw ∈ context.commands.innermost.argument.suggest text)

theorem mem_candidates : raw ∈ context.candidates text ↔ context.Offers text raw := by
  have listed : raw ∈ (context.commands.innermost.children.filter (!·.hidden)).flatMap
      (·.aliases) ↔ ∃ child ∈ context.commands.innermost.children,
        child.hidden = false ∧ raw ∈ child.aliases := by
    simp only [List.mem_flatMap, List.mem_filter, Bool.not_eq_true', and_assoc]
  cases pending : context.pending with
  | none => simp [candidates, Offers, LacksValue, SuggestsValue, pending, ← listed]
  | some pending' =>
    by_cases lacks : pending'.taken < pending'.option.arity.min <;>
      simp [candidates, Offers, LacksValue, SuggestsValue, pending, ← listed, lacks]

/-- A visible name is a candidate unless a value has to come first. -/
theorem mem_candidates_of_name (owned : child ∈ context.commands.innermost.children)
    (visible : child.hidden = false) (named : raw ∈ child.aliases) :
    raw ∈ context.candidates text ↔ context.LacksValue → context.SuggestsValue text raw := by
  have named : ∃ child ∈ context.commands.innermost.children,
      child.hidden = false ∧ raw ∈ child.aliases := ⟨child, owned, visible, named⟩
  rw [mem_candidates, Offers, and_iff_left (Or.inl named), or_comm, ← imp_iff_not_or]

end Context

namespace Text

theorem occursIn_iff {part text : List Char} : occursIn part text = true ↔ part <:+: text := by
  induction text with
  | nil => rw [occursIn, List.isEmpty_iff, List.infix_nil]
  | cons c rest ih =>
    rw [occursIn, Bool.or_eq_true, List.isPrefixOf_iff_prefix, ih, List.infix_cons_iff]

theorem contains_iff {text part : String} :
    contains text part = true ↔ part.toList <:+: text.toList := occursIn_iff

end Text

namespace Completion

/-- The completed words in front of the cursor. -/
def words (line : String) (cursor : Nat) : List String :=
  (split (.ofList (line.toList.take cursor))).1

/-- What there is of the word under the cursor. -/
def beginning (line : String) (cursor : Nat) : String :=
  (split (.ofList (line.toList.take cursor))).2

theorem mem_suggest {root : Symbol} {line raw : String} {cursor : Nat} :
    raw ∈ root.suggest line cursor ↔
      raw ∈ (Context.ofWords root (words line cursor)).candidates (beginning line cursor) ∧
        Text.contains raw (beginning line cursor) = true := by
  change raw ∈ root.completions (words line cursor) (beginning line cursor) ↔ _
  rw [Symbol.completions, mem_sorted, List.mem_filter]

theorem take_length (line : String) : String.ofList (line.toList.take line.length) = line := by
  rw [← String.length_toList, List.take_length, String.ofList_toList]

/-- With the cursor at its end a line is cut as a whole. -/
theorem mem_suggest_end {root : Symbol} {line raw text : String} {words : List String}
    (cut : split line = (words, text)) :
    raw ∈ root.suggest line line.length ↔
      raw ∈ (Context.ofWords root words).candidates text ∧ Text.contains raw text = true := by
  rw [mem_suggest, Completion.words, beginning, take_length, cut]

end Completion

namespace Symbol
variable {declaration : Declaration} {root child : Symbol} {words : List String} {raw : String}

theorem tokenize_concat (root : Symbol) (words : List String) (raw : String) :
    root.tokenize (words ++ [raw]) = root.tokenize words ++
      (((Classifier.start root).run words).step raw).2.map (Piece.locate words.length) := by
  rw [tokenize_append, Classifier.tokens_cons, Nat.zero_add]
  exact congrArg _ (List.append_nil _)

/-- Completion stands in the command that the parse of the words ends in. -/
theorem innermost_ofWords (root : Symbol) (files : Files) (words : List String) :
    (Context.ofWords root words).commands.innermost = (root.parse files words).innermost := by
  have entered := context_routed (List.append_nil (root.tokenize words)).symm
  exact congrArg Nesting.innermost entered

/-- Behind `--` no option is open. -/
theorem pending_of_dashes (root : Symbol) (dashes : "--" ∈ words) :
    (Context.ofWords root words).pending = none := by
  obtain ⟨middle, stream, -⟩ := root.tokenize_parts words
  have idle {tokens : List Token} {context : Context} (pending : context.pending = none)
      (values : ∀ token ∈ tokens, token.kind = .argument) :
      (tokens.foldl Context.step context).pending = none := by
    induction tokens generalizing context with
    | nil => exact pending
    | cons token rest ih =>
      obtain ⟨here, later⟩ := List.forall_mem_cons.mp values
      exact ih (by simp only [Context.step, here, pending, Option.bind_none]) later
  cases closing : CommandLine.closing words with
  | nil =>
    have every := List.dropWhile_eq_nil_iff.mp closing "--" dashes
    contradiction
  | cons first rest =>
    rw [Context.ofWords, stream, closing, Token.ofClosing, List.foldl_append, List.foldl_append,
      List.foldl_cons]
    exact idle rfl fun token => Token.kind_each

end Symbol

/-- The last word is met as the symbol, under the command that the words before it end in. -/
structure Recognised (root : Symbol) (files : Files) (words : List String) (raw : String)
    (symbol : Symbol) : Prop where
  token : (root.parse files (words ++ [raw])).tokens.getLast? =
    some ⟨raw, symbol.tokenKind, some words.length⟩
  owner : ∃ owner, (root.parse files (words ++ [raw])).occurrences[
      (root.parse files words).command]? = some owner ∧
    owner.symbol = (root.parse files words).innermost
  occurrence : ∃ resolved ∈ (root.parse files (words ++ [raw])).occurrences,
    resolved.symbol = symbol ∧ resolved.parent = some (root.parse files words).command

namespace Symbol
variable {declaration : Declaration} {root child : Symbol} {words : List String} {raw : String}

/-- A link that routing has made is in every longer parse. -/
theorem link_parse_concat (numbered : root.Numbered) (files : Files) (words : List String)
    (raw : String) {i : Nat} {link : Symbol × Option Nat}
    (placed : (root.routed (root.tokenize words)).links[i]? = some link ∨
      (root.routed (root.tokenize (words ++ [raw]))).links[i]? = some link) :
    ∃ resolved, (root.parse files (words ++ [raw])).occurrences[i]? = some resolved ∧
      (resolved.symbol, resolved.parent) = link := by
  have routed : (root.routed (root.tokenize (words ++ [raw]))).links[i]? = some link := by
    rcases placed with before | after
    · have stream := root.tokenize_concat words raw
      rw [stream]
      exact (routed_extends numbered (stream.trans (List.append_nil _).symm) i).1 link before
    · exact after
  obtain ⟨defaults, arena⟩ := root.links_arena (words ++ [raw])
  refine link_parse_inv files ?_
  rw [arena, List.getElem?_append_left (List.getElem?_eq_some_iff.mp routed).1, routed]

theorem recognised (built : declaration.build = .ok root) (numbered : root.Numbered)
    (files : Files) (reads : "--" ∉ words)
    (owned : child ∈ (root.parse files words).innermost.children)
    (named : raw ∈ child.aliases) (plain : raw.toList.head? ≠ some '[')
    (notRoot : raw ∉ root.aliases) : Recognised root files words raw child := by
  have follows := (Follows.initial root).run 0 words
  have grown := grown_routed numbered (List.append_nil (root.tokenize words)).symm
  have path : (root.parse files words).path = (root.routed (root.tokenize words)).path := rfl
  have innermost : (root.routed (root.tokenize words)).path.innermost.command =
      ((Classifier.start root).run words).commands.innermost := follows.innermost
  rw [Parse.innermost, path] at owned
  have inTree := grown.mem_preorder List.mem_cons_self
  have answers : child.answersTo raw = true := List.contains_iff_mem.mpr named
  have expects : ((Classifier.start root).run words).ExpectsWord raw := by
    cases phase : ((Classifier.start root).run words).phase with
    | directives => exact .inr ⟨phase, plain⟩
    | words => exact .inl phase
    | values =>
      rcases (Classifier.phase_run_eq_values_iff _ _).mp phase with start | dashes
      · contradiction
      · exact absurd dashes reads
  have unnamed : ((Classifier.start root).run words).phase = .directives →
      ((Classifier.start root).run words).commands.innermost.answersTo raw = false := by
    intro phase
    have start := follows.fresh (follows.phase.mp phase)
    have atRoot : (root.routed (root.tokenize words)).path.innermost.command = root :=
      congrArg (fun path => path.innermost.command) start
    rw [← innermost, atRoot]
    exact Bool.eq_false_iff.mpr fun named => notRoot (List.contains_iff_mem.mp named)
  have read := Classifier.step_alias built (innermost ▸ inTree) expects (innermost ▸ owned) named
    unnamed
  have stream : root.tokenize (words ++ [raw]) =
      root.tokenize words ++ [⟨raw, child.tokenKind, some words.length⟩] := by
    rw [tokenize_concat, read]
    rfl
  obtain ⟨_, _, met⟩ := Symbol.met stream
  have move := Routing.move_step met.understood
  rw [← routed_concat, ← stream] at move
  have names : child.tokenKind = .command ∧
        (root.routed (root.tokenize words)).path.innermost.command.subcommand? raw = some child ∨
      child.tokenKind = .option ∧
        (root.routed (root.tokenize words)).path.innermost.command.option? raw = some child := by
    rw [Declaration.subcommand_eq_some_iff built inTree,
      Declaration.option_eq_some_iff built inTree]
    cases isCommand : child.isCommand <;>
      simp [tokenKind, isOption, isCommand, owned, answers]
  obtain ⟨i, placed⟩ := move.meets grown numbered names
  obtain ⟨-, above, placedOwner⟩ := grown.found List.mem_cons_self
  obtain ⟨resolved, found, same⟩ := link_parse_concat numbered files words raw (.inr placed)
  obtain ⟨owner, foundOwner, sameOwner⟩ :=
    link_parse_concat numbered files words raw (.inl placedOwner)
  constructor
  case token =>
    change (root.tokenize (words ++ [raw])).getLast? = _
    rw [stream, List.getLast?_concat]
  case owner =>
    rw [Parse.command, Parse.innermost, path]
    exact ⟨owner, foundOwner, (Prod.mk.inj sameOwner).1⟩
  case occurrence =>
    rw [Parse.command, path]
    exact ⟨resolved, List.mem_of_getElem? found, Prod.mk.inj same⟩

/-- Behind `--` the last word is a value. -/
theorem tokens_of_dashes (root : Symbol) (files : Files) (dashes : "--" ∈ words) (raw : String) :
    (root.parse files (words ++ [raw])).tokens.getLast? =
      some ⟨raw, .argument, some words.length⟩ := by
  have phase := (Classifier.phase_run_eq_values_iff (Classifier.start root) words).mpr (.inr dashes)
  change (root.tokenize (words ++ [raw])).getLast? = _
  rw [tokenize_concat, Classifier.step, phase]
  exact List.getLast?_concat

end Symbol

theorem Recognised.reads {root symbol : Symbol} {files : Files} {words : List String} {raw : String}
    (recognised : Recognised root files words raw symbol) : "--" ∉ words := by
  intro dashes
  have kinds := congrArg (Option.map Token.kind)
    (recognised.token.symm.trans (root.tokens_of_dashes files dashes raw))
  rw [Option.map_some, Option.map_some, Option.some.injEq, Symbol.tokenKind] at kinds
  split at kinds <;> contradiction

/-- When completion offers a name of a symbol, and what the parser makes of that name as the next
word. -/
structure Offered (root : Symbol) (files : Files) (line : String) (cursor : Nat) (symbol : Symbol)
    (raw : String) : Prop where
  /-- A name that matches is held back only while an option lacks a value. -/
  offered : raw ∈ root.suggest line cursor ↔
    Text.contains raw (Completion.beginning line cursor) = true ∧
      ((Context.ofWords root (Completion.words line cursor)).LacksValue →
        (Context.ofWords root (Completion.words line cursor)).SuggestsValue
          (Completion.beginning line cursor) raw)
  recognised : Recognised root files (Completion.words line cursor) raw symbol ↔
    "--" ∉ Completion.words line cursor
  /-- Completion does not know that only values stand behind `--`. -/
  behind : "--" ∈ Completion.words line cursor →
    (raw ∈ root.suggest line cursor ↔
      Text.contains raw (Completion.beginning line cursor) = true) ∧
    (root.parse files (Completion.words line cursor ++ [raw])).tokens.getLast? =
      some ⟨raw, .argument, some (Completion.words line cursor).length⟩

theorem offered_parse {heading : Heading} {subcommandRequired : Option Bool} {strict : Bool}
    {children : List Declaration} {root child : Symbol} {files : Files} {line raw : String}
    {cursor : Nat}
    (built : (Declaration.command heading subcommandRequired strict children).build = .ok root)
    (owned : child ∈ (root.parse files (Completion.words line cursor)).innermost.children)
    (visible : child.hidden = false) (named : raw ∈ child.aliases)
    (plain : raw.toList.head? ≠ some '[') (notRoot : raw ∉ root.aliases) :
    Offered root files line cursor child raw := by
  have numbered := Declaration.numbered_build built
  have listed : child ∈
      (Context.ofWords root (Completion.words line cursor)).commands.innermost.children := by
    rw [Symbol.innermost_ofWords root files]
    exact owned
  have offered : raw ∈ root.suggest line cursor ↔ _ := Completion.mem_suggest.trans
    (and_comm.trans (and_congr_right' (Context.mem_candidates_of_name listed visible named)))
  constructor
  case offered => exact offered
  case recognised =>
    exact ⟨Recognised.reads, fun reads =>
      Symbol.recognised built numbered files reads owned named plain notRoot⟩
  case behind =>
    intro dashes
    refine ⟨offered.trans (and_iff_left ?_), root.tokens_of_dashes files dashes raw⟩
    rintro ⟨pending, unfinished, -⟩
    rw [Symbol.pending_of_dashes root dashes] at unfinished
    contradiction

theorem offered_parse_sample : ∃ root child, Declaration.sample.build = .ok root ∧
    Completion.words "-n 1 --n" 8 = ["-n", "1"] ∧
    child ∈ (root.parse .absent (Completion.words "-n 1 --n" 8)).innermost.children ∧
    Offered root .absent "-n 1 --n" 8 child "--number" := by
  obtain ⟨root, built, child, owned, visible, named, notRoot⟩ : ∃ root,
      Declaration.sample.build = .ok root ∧ ∃ child,
      child ∈ (root.parse .absent (Completion.words "-n 1 --n" 8)).innermost.children ∧
      child.hidden = false ∧ "--number" ∈ child.aliases ∧ "--number" ∉ root.aliases :=
    ⟨_, rfl, _, List.mem_cons_self, rfl, by decide, by decide⟩
  exact ⟨root, child, built, by decide +kernel, owned,
    offered_parse built owned visible named (by decide) notRoot⟩

/-- A tool with a flag. -/
def Declaration.plainFlag : Declaration :=
  .command { aliases := ["tool"] } none true [.option { aliases := ["--flag"] }]

/-- Behind `--` the flag is offered, but it would be a value. -/
theorem dashes_offer_flag : ∃ root flag, Declaration.plainFlag.build = .ok root ∧
    Completion.words "-- " 3 = ["--"] ∧
    flag ∈ (root.parse .absent ["--"]).innermost.children ∧ flag.hidden = false ∧
    "--flag" ∈ flag.aliases ∧ "--flag" ∉ root.aliases ∧ "--flag" ∈ root.suggest "-- " 3 ∧
    ¬ Recognised root .absent ["--"] "--flag" flag := by
  refine ⟨_, _, rfl, by decide +kernel, List.mem_cons_self, rfl, by decide, by decide,
    by decide +kernel, fun recognised => ?_⟩
  exact recognised.reads List.mem_cons_self

end CommandGrammar
