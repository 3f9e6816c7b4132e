import CommandGrammar.Proofs.Closing
import CommandGrammar.Proofs.Compact
import CommandGrammar.Proofs.Offers

/-! A command line may begin with a name of the root. The name takes one position and becomes the
token that introduces the root, and everything behind it is read as it is without the name. Only a
validator could tell the two apart, by looking at positions or at introducing tokens. -/
namespace CommandGrammar

/-- The occurrence as another token introduces it. -/
def Occurrence.introducedBy (name : Token) (occurrence : Occurrence) : Occurrence :=
  { occurrence with token := name }

def Resolved.introducedBy (name : Token) (resolved : Resolved) : Resolved :=
  { resolved with token := name }

/-- The same error if the token introduces the root. -/
def ParseError.introducedBy (name : Token) : ParseError → ParseError
  | .refused 0 resolved fault => .refused 0 (resolved.introducedBy name) fault
  | .subcommandMissing 0 _ => .subcommandMissing 0 name
  | error => error

namespace Routing
variable {root : Symbol} {routing : Routing} {name token : Token}

/-- The routing of the same tokens behind one that names the root. -/
def named (name : Token) (routing : Routing) : Routing :=
  { routing with
    occurrences := routing.occurrences.modify 0 (·.introducedBy name)
    started := true }

@[simp] theorem named_path (name : Token) (routing : Routing) :
    (routing.named name).path = routing.path := rfl

@[simp] theorem named_window (name : Token) (routing : Routing) :
    (routing.named name).window = routing.window := rfl

theorem named_length (name : Token) (routing : Routing) :
    (routing.named name).occurrences.length = routing.occurrences.length :=
  List.length_modify _ _ _

theorem map_named {α : Type} {view : Occurrence → α}
    (keeps : ∀ occurrence, view (occurrence.introducedBy name) = view occurrence)
    (routing : Routing) :
    (routing.named name).occurrences.map view = routing.occurrences.map view :=
  Occurrence.map_modify keeps _ _

theorem tokensOf_named (name : Token) (routing : Routing) (i : Nat) :
    (routing.named name).tokensOf i = routing.tokensOf i := by
  rw [tokensOf_eq, tokensOf_eq, map_named fun _ => rfl]

theorem childrenOf_named (name : Token) (routing : Routing) (i : Nat) :
    (routing.named name).childrenOf i = routing.childrenOf i := by
  rw [childrenOf_eq, childrenOf_eq, map_named fun _ => rfl]

theorem occurrenceOf_named (name : Token) (routing : Routing) (frame : Frame) (option : Symbol) :
    (routing.named name).occurrenceOf? frame option = routing.occurrenceOf? frame option :=
  occurrenceOf_congr (map_named (fun _ => rfl) routing) (childrenOf_named name routing) frame option

theorem give_named (name : Token) (routing : Routing) (i : Nat) (token : Token) :
    (routing.named name).give i token = (routing.give i token).named name := by
  simp only [give, named]
  rw [modify_comm]
  exact fun _ => rfl

theorem push_named (present : 0 < routing.occurrences.length) (name : Token)
    (occurrence : Occurrence) :
    (routing.named name).push occurrence = (routing.push occurrence).named name := by
  simp only [push, named, List.length_modify]
  cases occurrence.parent with
  | none => rw [modify_append_left present]
  | some parent =>
    dsimp only
    rw [modify_append_left (by rwa [List.length_modify]), modify_comm]
    exact fun _ => rfl

theorem toCommand_named (name : Token) (routing : Routing) (token : Token) :
    (routing.named name).toCommand token = (routing.toCommand token).named name := by
  simp only [toCommand, tokensOf_named, give_named, named_path, apply_ite (named name)]
  rfl

theorem value_named (name : Token) (routing : Routing) (token : Token) :
    (routing.named name).value token = (routing.value token).named name := by
  unfold value
  rw [named_window]
  cases routing.window with
  | none => exact toCommand_named name routing token
  | some window =>
    simp only [tokensOf_named, give_named]
    by_cases full : window.limit ≤ (routing.tokensOf window.occurrence).length
    · simp only [if_pos full]
      exact toCommand_named name { routing with window := none } token
    · simp only [if_neg full]
      split
      · exact toCommand_named name routing token
      · rfl

theorem command_named (present : 0 < routing.occurrences.length)
    (unnamed : routing.started = false →
      routing.path.innermost.command.answersTo token.text = false) :
    (routing.named name).command token = (routing.command token).named name := by
  simp only [command, named_path, named_length, value_named, push_named present]
  cases routing.path.innermost.command.subcommand? token.text with
  | some child => rfl
  | none =>
    have stays : (!routing.started &&
        routing.path.innermost.command.answersTo token.text) = false := by
      cases started : routing.started with
      | true => rfl
      | false => exact unnamed started
    have staysNamed : (!(routing.named name).started &&
        routing.path.innermost.command.answersTo token.text) = false := rfl
    simp only [stays, staysNamed, Bool.false_eq_true, if_false]

theorem option_named (present : 0 < routing.occurrences.length) (name token : Token) :
    (routing.named name).option token = (routing.option token).named name := by
  simp only [option, optionMeant?, named_path, named_length, value_named, occurrenceOf_named,
    tokensOf_named, push_named present]
  split
  · rfl
  · split <;> rfl

theorem step_named (present : 0 < routing.occurrences.length)
    (unnamed : routing.started = false → token.kind = .command →
      routing.path.innermost.command.answersTo token.text = false) :
    (routing.named name).step token = (routing.step token).named name := by
  cases kind : token.kind with
  | command =>
    simp only [step, kind, command_named present fun fresh => unnamed fresh kind]
    rfl
  | option =>
    simp only [step, kind, option_named present]
    rfl
  | argument =>
    simp only [step, kind, value_named]
    rfl
  | directive | unparsed | endOfOptions => simp only [step, kind, named]

/-- A name of the root comes before anything else. -/
theorem step_name {position : Option Nat} {raw : String} (unknown : root.subcommand? raw = none)
    (answers : root.answersTo raw = true) :
    (start root).step ⟨raw, .command, position⟩ = (start root).named ⟨raw, .command, position⟩ := by
  simp only [step, command, start, Nesting.single, unknown, answers]
  rfl

theorem completed_named (present : 0 < routing.occurrences.length) (name : Token) :
    (routing.named name).completed = routing.completed.named name := by
  have unnoticed : Unnoticed (named name) fun routing => 0 < routing.occurrences.length := by
    constructor
    case path => exact named_path name
    case found => exact occurrenceOf_named name
    case push =>
      intro routing option parent present
      exact push_named present name (.missing option parent)
    case onward =>
      intro routing option parent present
      rw [length_push]
      exact Nat.lt_succ_of_lt present
  exact unnoticed.completed present

end Routing

/-- What a validator sees of an occurrence without the token that introduced it. -/
def Glimpse.anonymous (glimpse : Glimpse) : Glimpse :=
  { glimpse with token := .implicit "" .command }

def View.anonymous (view : View) : View :=
  ⟨view.subject.anonymous, view.value, view.all.map Glimpse.anonymous⟩

/-- Whether a validator says the same whatever tokens introduced the occurrences. -/
def Validator.IgnoresIntroductions (validator : Validator) : Prop :=
  ∀ files view, validator.check files view.anonymous = validator.check files view

theorem Validator.ignoresIntroductions_of_texts {validator : Validator}
    (reads : ∀ files (view other : View), view.texts = other.texts →
      validator.check files view = validator.check files other) :
    validator.IgnoresIntroductions :=
  fun files view => reads files view.anonymous view rfl

/-- Whether no validator of a grammar looks at introducing tokens. -/
def Symbol.IgnoresIntroductions (root : Symbol) : Prop :=
  ∀ symbol ∈ root.preorder, ∀ validator ∈ symbol.argument.validators,
    validator.IgnoresIntroductions

namespace Verdict
variable {occurrence : Occurrence}

theorem complaint_anonymous (files : Files) {view other : View}
    (same : view.anonymous = other.anonymous) {validators : List Validator}
    (ignores : ∀ validator ∈ validators, validator.IgnoresIntroductions) :
    complaint? files view validators = complaint? files other validators := by
  unfold complaint?
  congr 1
  apply List.filterMap_congr
  intro validator member
  rw [← ignores validator member files view, same, ignores validator member files other]

theorem of_introducedBy (name : Token) (files : Files) {all others : List Glimpse}
    (same : all.map Glimpse.anonymous = others.map Glimpse.anonymous)
    (ignores : ∀ validator ∈ occurrence.symbol.argument.validators,
      validator.IgnoresIntroductions) :
    of files all (occurrence.introducedBy name) = of files others occurrence := by
  have complaint (value : Value) :
      complaint? files ⟨(occurrence.introducedBy name).glimpse, value, all⟩
          occurrence.symbol.argument.validators =
        complaint? files ⟨occurrence.glimpse, value, others⟩
          occurrence.symbol.argument.validators := by
    refine complaint_anonymous files ?_ ignores
    simp only [View.anonymous, same]
    rfl
  have texts : (occurrence.introducedBy name).texts = occurrence.texts := rfl
  have symbol : (occurrence.introducedBy name).symbol = occurrence.symbol := rfl
  simp only [of, ofValues, ofConversion, texts, symbol, complaint]
  rfl

end Verdict

namespace Routing
variable {routing : Routing}

theorem resolve_named (present : 0 < routing.occurrences.length) (name : Token) (files : Files)
    (ignores : ∀ occurrence ∈ routing.completed.occurrences,
      ∀ validator ∈ occurrence.symbol.argument.validators, validator.IgnoresIntroductions) :
    (routing.named name).resolve files =
      (routing.resolve files).modify 0 (·.introducedBy name) := by
  have glimpses : ((routing.completed.named name).occurrences.map Occurrence.glimpse).map
      Glimpse.anonymous =
        (routing.completed.occurrences.map Occurrence.glimpse).map Glimpse.anonymous := by
    rw [List.map_map, List.map_map]
    exact map_named (fun _ => rfl) routing.completed
  have verdicts (occurrence : Occurrence) (member : occurrence ∈ routing.completed.occurrences)
      (token : Token) :
      Verdict.of files ((routing.completed.named name).occurrences.map Occurrence.glimpse)
          (occurrence.introducedBy token) =
        Verdict.of files (routing.completed.occurrences.map Occurrence.glimpse) occurrence :=
    Verdict.of_introducedBy token files glimpses (ignores occurrence member)
  simp only [resolve, completed_named present]
  apply List.ext_getElem?
  intro i
  rw [List.getElem?_map, List.getElem?_modify, List.getElem?_map]
  rw [named, List.getElem?_modify]
  cases found : routing.completed.occurrences[i]? with
  | none => rfl
  | some occurrence =>
    have member := List.mem_of_getElem? found
    by_cases here : 0 = i
    · subst here
      exact congrArg (some ∘ Resolved.mk (occurrence.introducedBy name))
        (verdicts occurrence member name)
    · simp only [if_neg here]
      exact congrArg (some ∘ Resolved.mk occurrence) (verdicts occurrence member occurrence.token)

end Routing

namespace Classifier
variable {root : Symbol} {name : String} {args : List String}

/-- A name of the root is read as such, and then the words begin. -/
theorem step_name (plain : name.toList.head? ≠ some '[') (notDashes : name ≠ "--")
    (named : root.answersTo name = true) (unknown : root.subcommand? name = none) :
    (start root).step name = (⟨.words, .single root⟩, [(name, .command)]) := by
  simp only [step, start, if_neg plain, word, if_neg notDashes, Nesting.single, unknown, named,
    Bool.and_self, if_true]

/-- Behind a name of the root, words are read as they are at the start. -/
theorem tokens_unnamed (position : Nat) (plain : ∀ raw ∈ args.head?, raw.toList.head? ≠ some '[')
    (unnamed : ∀ raw ∈ args.head?, root.answersTo raw = false) :
    tokens ⟨.words, .single root⟩ position args = (start root).tokens position args := by
  cases args with
  | nil => rfl
  | cons raw rest =>
    have read : (start root).step raw = step ⟨.words, .single root⟩ raw := by
      have innermost : (Nesting.single root).innermost.answersTo raw = false := unnamed raw rfl
      simp only [step, start, if_neg (plain raw rfl), word, innermost, Bool.and_false]
    rw [tokens, tokens, read]

end Classifier

namespace Symbol
variable {root : Symbol} {name : String} {args : List String}

/-- Unless the first word is a name of the root, no token is one. -/
theorem Met.unnamed {routing : Routing} {token : Token} {place : Nat} {raw : String}
    (met : Met root args routing token place raw)
    (plain : ∀ raw ∈ args.head?, raw.toList.head? ≠ some '[')
    (unnamed : ∀ raw ∈ args.head?, root.answersTo raw = false)
    (fresh : routing.started = false) (kind : token.kind = .command) :
    routing.path.innermost.command.answersTo token.text = false := by
  obtain ⟨follows, single⟩ := met.alone kind
  obtain ⟨-, opens⟩ := Classifier.opensBracket_of_phase (follows.phase.mpr fresh)
  have found := met.argument
  cases args with
  | nil => contradiction
  | cons first rest =>
    cases place with
    | zero =>
      cases found
      have piece := met.piece
      rw [single, List.mem_singleton] at piece
      rw [follows.fresh fresh, (Prod.mk.inj piece).1]
      exact unnamed _ rfl
    | succ place =>
      exact absurd (beq_iff_eq.mp (opens first List.mem_cons_self)) (plain first rfl)

theorem routed_named (numbered : root.Numbered)
    (plain : ∀ raw ∈ args.head?, raw.toList.head? ≠ some '[')
    (unnamed : ∀ raw ∈ args.head?, root.answersTo raw = false) (name : Token) :
    ((Routing.start root).named name).run ((root.tokenize args).map (Token.moved (· + 1))) =
      ((root.routed (root.tokenize args)).moved (· + 1)).named name := by
  refine routed_induction (motive := fun tokens routing =>
    ((Routing.start root).named name).run (tokens.map (Token.moved (· + 1))) =
      (routing.moved (· + 1)).named name) rfl ?_ (List.append_nil _).symm
  intro before token after split _ same
  obtain ⟨_, _, met⟩ := met split
  have present := (grown_routed numbered split).innermost_lt
  rw [List.map_append, List.map_singleton, Routing.run_concat, same, Routing.step_named,
    Routing.step_moved, routed_concat]
  · rw [Routing.moved_length]
    exact Nat.zero_lt_of_lt present
  · exact met.unnamed plain unnamed

theorem tokenize_named (plain : name.toList.head? ≠ some '[') (notDashes : name ≠ "--")
    (named : root.answersTo name = true) (unknown : root.subcommand? name = none)
    (plainArgs : ∀ raw ∈ args.head?, raw.toList.head? ≠ some '[')
    (unnamed : ∀ raw ∈ args.head?, root.answersTo raw = false) :
    root.tokenize (name :: args) =
      ⟨name, .command, some 0⟩ :: (root.tokenize args).map (Token.moved (· + 1)) := by
  rw [tokenize, Classifier.tokens_cons, Classifier.step_name plain notDashes named unknown,
    Classifier.tokens_unnamed _ plainArgs unnamed, Classifier.tokens_moved]
  rfl

end Symbol

namespace ParseError

theorem introducedBy_refused (name : Token) (i : Nat) (resolved : Resolved) (fault : Fault) :
    (refused i resolved fault).introducedBy name =
      refused i (if i = 0 then resolved.introducedBy name else resolved) fault := by
  cases i <;> rfl

theorem introducedBy_subcommandMissing (name : Token) (i : Nat) (token : Token) :
    (subcommandMissing i token).introducedBy name =
      subcommandMissing i (if i = 0 then name else token) := by
  cases i <;> rfl

end ParseError

namespace Parse
variable {parse : Parse}

/-- The same parse with the root introduced by the token. -/
def named (name : Token) (parse : Parse) : Parse :=
  { parse with occurrences := parse.occurrences.modify 0 (·.introducedBy name) }

theorem indexed_named (name : Token) (parse : Parse) :
    (parse.named name).indexed = parse.indexed.map fun (i, resolved) =>
      (i, if i = 0 then resolved.introducedBy name else resolved) := by
  apply List.ext_getElem?
  intro i
  simp only [indexed, named, List.getElem?_map, List.getElem?_zipIdx, List.getElem?_modify]
  cases parse.occurrences[i]? with
  | none => rfl
  | some resolved => cases i <;> rfl

theorem refusals_named (name : Token) (parse : Parse) :
    (parse.named name).refusals = parse.refusals.map (ParseError.introducedBy name) := by
  rw [refusals, indexed_named, List.filterMap_map, refusals, List.map_filterMap]
  apply List.filterMap_congr
  rintro ⟨i, resolved⟩ -
  have verdict : (if i = 0 then resolved.introducedBy name else resolved).verdict =
      resolved.verdict := by split <;> rfl
  simp only [Function.comp_apply, verdict, Option.map_map]
  congr 1
  funext fault
  exact (ParseError.introducedBy_refused name i resolved fault).symm

theorem leftovers_named (name : Token) (parse : Parse) :
    (parse.named name).leftovers = parse.leftovers.map (ParseError.introducedBy name) := by
  have same : (parse.named name).leftovers = parse.leftovers := rfl
  rw [same, leftovers]
  split
  · rw [List.map_map]
    rfl
  · rfl

theorem tokenOf_named (present : 0 < parse.occurrences.length) (name : Token) (i : Nat) :
    (parse.named name).tokenOf i = if i = 0 then name else parse.tokenOf i := by
  simp only [tokenOf, named, List.getElem?_modify]
  cases i with
  | zero =>
    rw [List.getElem?_eq_getElem present]
    rfl
  | succ i => cases parse.occurrences[i + 1]? <;> rfl

theorem missingSubcommand_named (present : 0 < parse.occurrences.length) (name : Token) :
    (parse.named name).missingSubcommand =
      parse.missingSubcommand.map (ParseError.introducedBy name) := by
  have innermost : (parse.named name).innermost = parse.innermost := rfl
  have command : (parse.named name).command = parse.command := rfl
  rw [missingSubcommand, innermost, command, tokenOf_named present, missingSubcommand]
  split
  · rw [List.map_singleton, ParseError.introducedBy_subcommandMissing]
  · rfl

theorem errors_named (present : 0 < parse.occurrences.length) (name : Token) :
    (parse.named name).errors = parse.errors.map (ParseError.introducedBy name) := by
  have unparsed : (parse.named name).unparsed = parse.unparsed := rfl
  simp only [errors, unparsed, refusals_named, leftovers_named, missingSubcommand_named present,
    List.map_append, List.map_map]
  rfl

end Parse

namespace Symbol
variable {root : Symbol} {name : String} {args : List String}

theorem parse_named (numbered : root.Numbered) (positions : root.IgnoresPositions)
    (introductions : root.IgnoresIntroductions) (files : Files) {token : Token}
    (routed : root.routed (root.tokenize (name :: args)) =
      ((root.routed (root.tokenize args)).moved (· + 1)).named token) :
    root.parse files (name :: args) =
      { ((root.parse files args).moved (· + 1)).named token with
        args := name :: args
        tokens := root.tokenize (name :: args) } := by
  have present := (grown_routed numbered (List.append_nil (root.tokenize args)).symm).innermost_lt
  have ignores : ∀ occurrence ∈
      ((root.routed (root.tokenize args)).moved (· + 1)).completed.occurrences,
      ∀ validator ∈ occurrence.symbol.argument.validators, validator.IgnoresIntroductions := by
    rw [Routing.completed_moved]
    intro moved member
    obtain ⟨occurrence, listed, rfl⟩ := List.mem_map.mp member
    exact introductions occurrence.symbol (symbol_arena numbered listed)
  have resolved := Routing.resolve_named (by rw [Routing.moved_length]; omega) token files ignores
  rw [resolve_moved numbered positions, ← routed] at resolved
  have routing : (Routing.start root).run (root.tokenize (name :: args)) =
    root.routed (root.tokenize (name :: args)) := rfl
  simp only [parse, routing, resolved]
  rw [routed]
  rfl

end Symbol

/-- The parse of a command line that begins with a name of the root, compared with the parse of the
line without the name. -/
structure Parse.Named (name : Token) (named bare : Parse) : Prop where
  tokens : named.tokens = name :: bare.tokens.map (Token.moved (· + 1))
  /-- The name introduces the root, and otherwise only the places of tokens change. -/
  occurrences : named.occurrences =
    (bare.occurrences.map (Resolved.moved (· + 1))).modify 0 (·.introducedBy name)
  path : named.path = bare.path
  unmatched : named.unmatched = bare.unmatched.map (Token.moved (· + 1))
  errors : named.errors = bare.errors.map fun error => (error.moved (· + 1)).introducedBy name
  directives : named.directives = bare.directives

theorem named_parse {heading : Heading} {subcommandRequired : Option Bool} {strict : Bool}
    {children : List Declaration} {root : Symbol}
    (built : (Declaration.command heading subcommandRequired strict children).build = .ok root)
    (positions : root.IgnoresPositions) (introductions : root.IgnoresIntroductions) (files : Files)
    {name : String} (named : name ∈ root.aliases) (plain : name.toList.head? ≠ some '[')
    (foreign : ∀ child ∈ root.children, child.isCommand = true → name ∉ child.aliases)
    {args : List String}
    (bare : ∀ raw ∈ args.head?, raw.toList.head? ≠ some '[' ∧ raw ∉ root.aliases) :
    Parse.Named ⟨name, .command, some 0⟩ (root.parse files (name :: args))
      (root.parse files args) := by
  have numbered := Declaration.numbered_build built
  have notDashes := Symbol.ne_dashes_of_alias built root.mem_preorder_self named
  have answers : root.answersTo name = true := List.contains_iff_mem.mpr named
  have unknown : root.subcommand? name = none := by
    apply List.find?_eq_none.mpr
    intro child owned fits
    obtain ⟨isCommand, called⟩ := Bool.and_eq_true_iff.mp fits
    exact foreign child owned isCommand (List.contains_iff_mem.mp called)
  have plainArgs : ∀ raw ∈ args.head?, raw.toList.head? ≠ some '[' :=
    fun raw first => (bare raw first).1
  have unnamed : ∀ raw ∈ args.head?, root.answersTo raw = false := fun raw first =>
    Bool.eq_false_iff.mpr fun answers => (bare raw first).2 (List.contains_iff_mem.mp answers)
  have tokens := Symbol.tokenize_named plain notDashes answers unknown plainArgs unnamed
  have routed : root.routed (root.tokenize (name :: args)) =
      ((root.routed (root.tokenize args)).moved (· + 1)).named ⟨name, .command, some 0⟩ := by
    have first : (Routing.start root).step ⟨name, .command, some 0⟩ =
        (Routing.start root).named ⟨name, .command, some 0⟩ :=
      Routing.step_name unknown answers
    rw [tokens, Symbol.routed, Routing.run_cons, first,
      Symbol.routed_named numbered plainArgs unnamed]
  have same := Symbol.parse_named numbered positions introductions files routed
  constructor
  case tokens => exact tokens
  case occurrences => rw [same]; rfl
  case path => rw [same]; rfl
  case unmatched => rw [same]; rfl
  case errors =>
    have present : 0 < ((root.parse files args).moved (· + 1)).occurrences.length := by
      obtain ⟨_, found, -⟩ := Symbol.innermost_parse numbered files args
      rw [Parse.moved, List.length_map]
      exact Nat.zero_lt_of_lt (List.getElem?_eq_some_iff.mp found).1
    have unparsed : (root.parse files (name :: args)).unparsed =
        (((root.parse files args).moved (· + 1)).named ⟨name, .command, some 0⟩).unparsed := by
      change Token.malformed (root.tokenize (name :: args)) = _
      rw [tokens]
      rfl
    have errors : (root.parse files (name :: args)).errors =
        (((root.parse files args).moved (· + 1)).named ⟨name, .command, some 0⟩).errors := by
      rw [Parse.errors, unparsed, same]
      rfl
    rw [errors, Parse.errors_named present, Parse.errors_joined rfl, List.map_map]
    rfl
  case directives =>
    have behind : (root.parse files (name :: args)).directives =
        ((root.parse files args).moved (· + 1)).directives := by
      change ((root.tokenize (name :: args)).filter _ |>.filterMap _).foldl _ _ = _
      rw [tokens]
      rfl
    rw [behind, Parse.directives_joined rfl]

theorem named_parse_sample : ∃ root, Declaration.guarded.build = .ok root ∧
    root.IgnoresPositions ∧ root.IgnoresIntroductions ∧
    Parse.Named ⟨"tool", .command, some 0⟩ (root.parse .absent ("tool" :: ["x", "tool"]))
      (root.parse .absent ["x", "tool"]) := by
  obtain ⟨root, built, validators, named, childless, unnamed⟩ : ∃ root,
      Declaration.guarded.build = .ok root ∧
      root.preorder.flatMap (·.argument.validators) = [.legalPaths, .barring "x"] ∧
      "tool" ∈ root.aliases ∧ root.children = [] ∧ "x" ∉ root.aliases :=
    ⟨_, rfl, rfl, by decide, rfl, by decide⟩
  have listed {symbol : Symbol} {validator : Validator} (member : symbol ∈ root.preorder)
      (guards : validator ∈ symbol.argument.validators) :
      validator = .legalPaths ∨ validator = .barring "x" := by
    rw [← List.mem_pair, ← validators]
    exact List.mem_flatMap.mpr ⟨symbol, member, guards⟩
  have positions : root.IgnoresPositions := by
    intro symbol member validator guards
    rcases listed member guards with rfl | rfl
    · exact Validator.ignoresPositions_of_builtin (fun _ same => nomatch same)
    · exact Validator.barring_ignoresPositions "x"
  have introductions : root.IgnoresIntroductions := by
    intro symbol member validator guards
    rcases listed member guards with rfl | rfl
    · have builtin : ∀ check, Validator.legalPaths ≠ .custom check := fun _ same => nomatch same
      exact Validator.ignoresIntroductions_of_texts fun files _ _ same =>
        Validator.check_of_texts builtin files same
    · exact Validator.ignoresIntroductions_of_texts fun files _ _ same =>
        Validator.barring_of_texts "x" files same
  refine ⟨root, built, positions, introductions,
    named_parse built positions introductions _ named (by decide) ?_ ?_⟩
  · rw [childless]
    exact fun _ none => absurd none List.not_mem_nil
  · rintro raw ⟨⟩
    exact ⟨by decide, unnamed⟩

end CommandGrammar
