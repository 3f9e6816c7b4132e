import CommandGrammar.Proofs.Compact
import CommandGrammar.Proofs.Findings
import CommandGrammar.Proofs.Typing

/-! Neighbouring groups of arguments that settle one option each may change places. They are read
alike in both orders and change the ledger at different symbols, so what follows meets the same
ledger. -/
namespace CommandGrammar

/-- The tokens of an option with all the values that it can hold: none, or the one it needs. -/
inductive OptionGroup (commands : List Symbol) (option : Symbol) : List Token → Prop where
  | flag {name : Token} : name.kind = .option →
      Symbol.optionIn? commands name.text = some option → option.arity.max = 0 →
      OptionGroup commands option [name]
  | valued {name value : Token} : name.kind = .option →
      Symbol.optionIn? commands name.text = some option → value.kind = .argument →
      option.arity.min = 1 → option.arity.max = 1 → OptionGroup commands option [name, value]

namespace OptionGroup
variable {commands : List Symbol} {option : Symbol} {tokens : List Token}

theorem meant (group : OptionGroup commands option tokens) :
    ∃ name rest, tokens = name :: rest ∧ name.kind = .option ∧
      Symbol.optionIn? commands name.text = some option := by
  cases group with
  | flag kind meant | valued kind meant => exact ⟨_, _, rfl, kind, meant⟩

theorem kinds (group : OptionGroup commands option tokens) :
    ∀ token ∈ tokens, token.kind = .option ∨ token.kind = .argument := by
  cases group with
  | flag kind => exact List.forall_mem_singleton.mpr (.inl kind)
  | valued kind _ kindValue =>
    exact List.forall_mem_cons.mpr ⟨.inl kind, List.forall_mem_singleton.mpr (.inr kindValue)⟩

theorem filter_kind (group : OptionGroup commands option tokens) {kind : TokenKind}
    (noOption : kind ≠ .option) (noArgument : kind ≠ .argument) :
    tokens.filter (fun token => token.kind == kind) = [] := by
  apply List.filter_eq_nil_iff.mpr
  intro token member same
  rw [beq_iff_eq] at same
  rcases group.kinds token member with own | own
  · exact noOption (same.symm.trans own)
  · exact noArgument (same.symm.trans own)

theorem moved (group : OptionGroup commands option tokens) (move : Nat → Nat) :
    OptionGroup commands option (tokens.map (Token.moved move)) := by
  cases group with
  | flag kind meant none => exact .flag kind meant none
  | valued kind meant kindValue needs most => exact .valued kind meant kindValue needs most

end OptionGroup

theorem Symbol.declines_of_needs {option : Symbol} (needs : 0 < option.arity.min)
    (texts : List String) : option.declines texts = false := by
  have needed : (option.arity.min == 0) = false := beq_eq_false_iff_ne.mpr (by omega)
  unfold declines
  split
  · rename_i fault _
    cases fault <;> simp [Fault.isRetryable, needed]
  · rfl

namespace Ledger
variable {ledger : Ledger} {option first second : Symbol} {commands : List Symbol}
  {tokens : List Token}

/-- The entry of an option that has been named and given these values. -/
def Entry.settled (option : Symbol) (name : String) (values : List String)
    (known : Option Entry) : Option Entry :=
  some ((known.getD (.met option name)).take values)

/-- What a group of arguments does that names an option and gives it all its values. -/
def settle (ledger : Ledger) (option : Symbol) : List String → Ledger
  | [] => ledger
  | name :: values => { ledger.amend option (Entry.settled option name values) with window := none }

theorem settle_commands (ledger : Ledger) (option : Symbol) (texts : List String) :
    (ledger.settle option texts).commands = ledger.commands := by
  cases texts <;> rfl

/-- Options are settled in their own entries. -/
theorem settle_comm (apart : first.id ≠ second.id) (texts others : List String) :
    (ledger.settle first texts).settle second others =
      (ledger.settle second others).settle first texts := by
  cases texts with
  | nil => rfl
  | cons name values =>
    cases others with
    | nil => rfl
    | cons other valuesOther =>
      have entries := congrArg entry (amend_comm apart ledger (Entry.settled first name values)
        (Entry.settled second other valuesOther))
      exact Ledger.ext entries rfl rfl rfl

theorem held_name (ledger : Ledger) (option : Symbol) (text : String) :
    (ledger.name option text).held option = ledger.held option := by
  simp only [held, name, add, amend, Entry.met, Function.update_self]
  cases ledger.entry option.id <;> rfl

theorem name_flag (closed : option.arity.max = 0) (text : String) :
    ledger.name option text = ledger.settle option [text] := by
  apply Ledger.ext
  case entry =>
    simp only [name, add, settle, amend, Entry.met]
    cases ledger.entry option.id <;> simp [Entry.settled, Entry.met, Entry.take]
  case window =>
    simp only [name, settle, opening, Routing.reopenedLimit, if_pos closed]
    exact if_neg (Nat.not_lt_zero _)
  all_goals rfl

theorem name_valued (needs : 0 < option.arity.min) (most : option.arity.max = 1)
    (text value : String) :
    (ledger.name option text).value value = ledger.settle option [text, value] := by
  -- Named again, the option takes one value more than it holds.
  have limit (held : Nat) : Routing.reopenedLimit option held = held + 1 := by
    rw [Routing.reopenedLimit, if_neg (by omega)]
    omega
  have opened : (ledger.name option text).window =
      some (option, (ledger.held option).length + 1) := by
    rw [name, limit]
    exact if_pos (Nat.lt_succ_self _)
  simp only [Ledger.value, opened, Symbol.declines_of_needs needs, Bool.false_eq_true, if_false,
    held_name]
  apply Ledger.ext
  case entry =>
    simp only [give, name, add, settle, amend, Entry.met, Function.update_self,
      Function.update_idem]
    cases ledger.entry option.id <;> rfl
  case window => exact if_neg (Nat.lt_irrefl _)
  all_goals rfl

/-- A group settles its option and nothing else. -/
theorem run_group (group : OptionGroup commands option tokens)
    (scope : ledger.commands.toList = commands) :
    ledger.run tokens = ledger.settle option (tokens.map Token.text) := by
  cases group with
  | flag kind meant closed =>
    simp only [run, List.foldl_cons, List.foldl_nil, step, kind, scope, meant]
    exact name_flag closed _
  | valued kind meant kindValue needs most =>
    simp only [run, List.foldl_cons, List.foldl_nil, step, kind, scope, meant, kindValue]
    exact name_valued (by omega) most _ _

end Ledger

namespace Classifier
variable {reader next : Classifier} {position : Nat} {args : List String} {token : Token}
  {rest : List Token}

/-- The reader as soon as words have begun. -/
def amongWords (reader : Classifier) : Classifier := ⟨.words, reader.commands⟩

theorem Reading.nonempty (reading : reader.Reading raw next pieces) : pieces ≠ [] := by
  cases reading with
  | word => exact (Piece.ofWord_shape _ _).nonempty
  | directive | endOfOptions | command | root | value => exact List.cons_ne_nil _ _

/-- What begins with an option is read so among words. -/
theorem Reading.option {piece : Piece} {others : List Piece}
    (reading : reader.Reading raw next pieces) (begins : pieces = piece :: others)
    (kind : piece.2 = .option) : reader.amongWords.step raw = (next, pieces) := by
  cases reading with
  | word _ dashes unknown =>
    simp only [step, amongWords, Classifier.word, if_neg dashes, unknown, Bool.false_and]
    rfl
  | directive =>
    cases begins
    simp only [Piece.ofBracket] at kind
    split at kind <;> contradiction
  | endOfOptions | command | root | value =>
    cases begins
    contradiction

/-- Arguments that begin with an option are read as if words had begun before. -/
theorem tokens_option (tokens : reader.tokens position args = token :: rest)
    (kind : token.kind = .option) :
    (∀ place, reader.amongWords.tokens place args = reader.tokens place args) ∧
      reader.amongWords.run args = reader.run args := by
  cases args with
  | nil => contradiction
  | cons raw more =>
    have reading := reader.step_reading raw
    obtain ⟨piece, pieces, begins⟩ := List.exists_cons_of_ne_nil reading.nonempty
    rw [tokens_cons, begins] at tokens
    have first : piece.locate position = token := (List.cons.inj tokens).1
    have same := reading.option begins (congrArg Token.kind first |>.trans kind)
    constructor
    · intro place
      rw [tokens_cons, same]
      rfl
    · rw [run_cons, same]
      rfl

/-- Options and values among words leave the reader as it is. -/
theorem run_plain (plain : ∀ token ∈ reader.amongWords.tokens position args,
      token.kind = .option ∨ token.kind = .argument) :
    reader.amongWords.run args = reader.amongWords := by
  induction args generalizing position with
  | nil => rfl
  | cons raw more ih =>
    rw [tokens_cons] at plain
    have stays : (reader.amongWords.step raw).1 = reader.amongWords := by
      have reading := reader.amongWords.step_reading raw
      obtain ⟨piece, pieces, begins⟩ := List.exists_cons_of_ne_nil reading.nonempty
      have first : piece ∈ (reader.amongWords.step raw).2 := begins ▸ List.mem_cons_self
      apply reading.of_stays nofun first
      exact plain (piece.locate position) (List.mem_append_left _ (List.mem_map_of_mem first))
    rw [stays] at plain
    rw [run_cons, stays]
    exact ih fun token member => plain token (List.mem_append_right _ member)

end Classifier

namespace Symbol
variable {root first second : Symbol} {front g h : List String}

/-- The tokens of a group of arguments at its place behind others. -/
def tokensBehind (root : Symbol) (front group : List String) : List Token :=
  ((Classifier.start root).run front).tokens front.length group

theorem tokenize_front (root : Symbol) (front group : List String) :
    root.tokenize (front ++ group) = root.tokenize front ++ root.tokensBehind front group := by
  rw [tokenize_append, Nat.zero_add, tokensBehind]

/-- Behind some arguments a group is read as one option with the values that it needs. -/
def Gives (root : Symbol) (front group : List String) (option : Symbol) : Prop :=
  OptionGroup ((Classifier.start root).run front).commands.toList option
    (root.tokensBehind front group)

theorem Gives.reader (given : root.Gives front g first) :
    (Classifier.start root).run (front ++ g) = ((Classifier.start root).run front).amongWords := by
  obtain ⟨name, rest, tokens, kind, -⟩ := OptionGroup.meant given
  obtain ⟨same, run⟩ := Classifier.tokens_option tokens kind
  have plain := OptionGroup.kinds given
  rw [tokensBehind, ← same] at plain
  rw [Classifier.run_append, ← run, Classifier.run_plain plain]

/-- Behind a group that gives an option the next one is read as it was before. -/
theorem Gives.tokens_behind (given : root.Gives front g first)
    (givenNext : root.Gives front h second) :
    root.tokensBehind (front ++ g) h =
      (root.tokensBehind front h).map (Token.moved (· + g.length)) := by
  obtain ⟨name, rest, tokens, kind, -⟩ := OptionGroup.meant givenNext
  obtain ⟨same, -⟩ := Classifier.tokens_option tokens kind
  rw [tokensBehind, given.reader, same, List.length_append, Classifier.tokens_moved, tokensBehind]

/-- So each group gives its option in front of the other and behind it. -/
theorem Gives.behind (given : root.Gives front g first) (givenNext : root.Gives front h second) :
    root.Gives (front ++ g) h second := by
  rw [Gives, given.tokens_behind givenNext, given.reader]
  exact OptionGroup.moved givenNext _

/-- What stands behind two groups is read alike in both orders. -/
theorem Gives.tokens_post (given : root.Gives front g first)
    (givenNext : root.Gives front h second) (post : List String) :
    root.tokensBehind (front ++ g ++ h) post = root.tokensBehind (front ++ h ++ g) post := by
  have lengths : (front ++ g ++ h).length = (front ++ h ++ g).length := by
    simp only [List.length_append]
    omega
  rw [tokensBehind, tokensBehind, lengths, (given.behind givenNext).reader, given.reader,
    (givenNext.behind given).reader, givenNext.reader]

theorem Gives.mem_preorder (numbered : root.Numbered) (given : root.Gives front g first) :
    first ∈ root.preorder := by
  obtain ⟨name, rest, -, -, meant⟩ := OptionGroup.meant given
  obtain ⟨command, entered, owned⟩ := optionIn_eq_some meant
  have follows := (Follows.initial root).run 0 front
  rw [← follows.scope, Nesting.toList_map] at entered
  obtain ⟨frame, onPath, rfl⟩ := List.mem_map.mp entered
  have grown := grown_routed numbered (List.append_nil (root.tokenize front)).symm
  exact mem_preorder_of_child (grown.mem_preorder onPath) owned

/-- Behind two groups the ledger is settled for both options. -/
theorem Gives.ledger (numbered : root.Numbered) (given : root.Gives front g first)
    (givenNext : root.Gives front h second) (post : List String) :
    (root.routed (root.tokenize (front ++ g ++ h ++ post))).ledger =
      (((root.routed (root.tokenize front)).ledger.settle first
          ((root.tokensBehind front g).map Token.text)).settle second
        ((root.tokensBehind front h).map Token.text)).run
          (root.tokensBehind (front ++ g ++ h) post) := by
  have scope : (root.routed (root.tokenize front)).ledger.commands =
      ((Classifier.start root).run front).commands := ((Follows.initial root).run 0 front).scope
  obtain ⟨name, rest, begins, kind, -⟩ := OptionGroup.meant given
  have split : root.tokenize (front ++ g ++ h ++ post) = root.tokenize front ++
      name :: (rest ++ root.tokensBehind (front ++ g) h ++
        root.tokensBehind (front ++ g ++ h) post) := by
    rw [tokenize_front, tokenize_front, tokenize_front, begins]
    simp only [List.append_assoc, List.cons_append]
  have groups : name :: (rest ++ root.tokensBehind (front ++ g) h ++
      root.tokensBehind (front ++ g ++ h) post) = root.tokensBehind front g ++
        root.tokensBehind (front ++ g) h ++ root.tokensBehind (front ++ g ++ h) post := by
    rw [begins]
    rfl
  have scopeNext : (((root.routed (root.tokenize front)).ledger.settle first
      ((root.tokensBehind front g).map Token.text)).commands).toList =
        ((Classifier.start root).run (front ++ g)).commands.toList := by
    rw [Ledger.settle_commands, scope, given.reader]
    rfl
  rw [ledger_routed numbered split kind, groups, Ledger.run_append, Ledger.run_append,
    Ledger.run_group given (congrArg Nesting.toList scope),
    Ledger.run_group (given.behind givenNext) scopeNext, given.tokens_behind givenNext,
    Token.texts_moved]

/-- The order of two groups does not show in the ledger. -/
theorem Gives.ledger_exchanged (numbered : root.Numbered) (given : root.Gives front g first)
    (givenNext : root.Gives front h second) (differ : first ≠ second) (post : List String) :
    (root.routed (root.tokenize (front ++ g ++ h ++ post))).ledger =
      (root.routed (root.tokenize (front ++ h ++ g ++ post))).ledger := by
  have apart : first.id ≠ second.id := fun same =>
    differ (numbered.eq_of_id (given.mem_preorder numbered) (givenNext.mem_preorder numbered) same)
  rw [given.ledger numbered givenNext, givenNext.ledger numbered given, Ledger.settle_comm apart,
    given.tokens_post givenNext]

theorem Gives.filter_exchanged (given : root.Gives front g first)
    (givenNext : root.Gives front h second) (post : List String) (kind : TokenKind)
    (noOption : kind ≠ .option) (noArgument : kind ≠ .argument) :
    (root.tokenize (front ++ g ++ h ++ post)).filter (fun token => token.kind == kind) =
      (root.tokenize (front ++ h ++ g ++ post)).filter fun token => token.kind == kind := by
  have passed {front g : List String} {option : Symbol} (given : root.Gives front g option) :=
    OptionGroup.filter_kind given noOption noArgument
  simp only [tokenize_front, List.filter_append, passed given, passed givenNext,
    passed (given.behind givenNext), passed (givenNext.behind given),
    given.tokens_post givenNext]

end Symbol

/-- The same is told of every symbol and every error, and the same commands are entered, the same
directives given and the same values left over. Only the order in which options were named, and
with it the numbers of occurrences and the places of tokens, may differ. -/
structure Parse.Rearranged (parse other : Parse) : Prop where
  findings : parse.findings.Perm other.findings
  path : parse.path.map Frame.command = other.path.map Frame.command
  unmatched : parse.unmatched.map Token.text = other.unmatched.map Token.text
  grievances : parse.grievances.Perm other.grievances
  directives : parse.directives = other.directives

/-- Groups of arguments that give two options all their values may change places. -/
theorem exchanged_parse {heading : Heading} {subcommandRequired : Option Bool} {strict : Bool}
    {children : List Declaration} {root : Symbol}
    (built : (Declaration.command heading subcommandRequired strict children).build = .ok root)
    (builtin : root.Builtin) (files : Files) {pre g h : List String} {first second : Symbol}
    (firstGiven : root.Gives pre g first) (secondGiven : root.Gives pre h second)
    (differ : first ≠ second) (post : List String) :
    (root.parse files (pre ++ g ++ h ++ post)).Rearranged
      (root.parse files (pre ++ h ++ g ++ post)) := by
  have numbered := Declaration.numbered_build built
  have arena : (root.arena (pre ++ g ++ h ++ post)).ledger =
      (root.arena (pre ++ h ++ g ++ post)).ledger := by
    rw [Symbol.ledger_arena numbered, Symbol.ledger_arena numbered,
      firstGiven.ledger_exchanged numbered secondGiven differ]
  constructor
  case findings => exact Symbol.findings_of_ledger numbered builtin files arena
  case path => rw [← Symbol.commands_ledger, ← Symbol.commands_ledger, arena]
  case unmatched => rw [← Symbol.unmatched_ledger, ← Symbol.unmatched_ledger, arena]
  case grievances =>
    apply Symbol.grievances_of_ledger numbered builtin files arena
    exact firstGiven.filter_exchanged secondGiven post .unparsed nofun nofun
  case directives =>
    have directives := firstGiven.filter_exchanged secondGiven post .directive nofun nofun
    exact congrArg (fun tokens : List Token => (tokens.filterMap fun token =>
      Directive.parse? token.text).foldl Parse.addDirective []) directives

theorem exchanged_parse_sample : ∃ root first second, Declaration.sample.build = .ok root ∧
    root.Builtin ∧ root.Gives ["run"] ["-d", "1"] first ∧ root.Gives ["run"] ["-v"] second ∧
    first ≠ second ∧
    (root.parse .absent (["run"] ++ ["-d", "1"] ++ ["-v"] ++ ["x", "-d", "2"])).Rearranged
      (root.parse .absent (["run"] ++ ["-v"] ++ ["-d", "1"] ++ ["x", "-d", "2"])) := by
  obtain ⟨root, first, second, built, validators, tokens, meant, needs, most, tokensNext, meantNext,
      closed, apart⟩ : ∃ root first second, Declaration.sample.build = .ok root ∧
      root.preorder.flatMap (·.argument.validators) = [] ∧
      root.tokensBehind ["run"] ["-d", "1"] =
        [⟨"-d", .option, some 1⟩, ⟨"1", .argument, some 2⟩] ∧
      Symbol.optionIn? ((Classifier.start root).run ["run"]).commands.toList "-d" = some first ∧
      first.arity.min = 1 ∧ first.arity.max = 1 ∧
      root.tokensBehind ["run"] ["-v"] = [⟨"-v", .option, some 1⟩] ∧
      Symbol.optionIn? ((Classifier.start root).run ["run"]).commands.toList "-v" = some second ∧
      second.arity.max = 0 ∧ first.id ≠ second.id :=
    ⟨_, _, _, rfl, rfl, by decide, rfl, rfl, rfl, by decide, rfl, rfl, by decide⟩
  have builtin : root.Builtin := by
    intro symbol member validator guards
    have listed : validator ∈ root.preorder.flatMap (·.argument.validators) :=
      List.mem_flatMap.mpr ⟨symbol, member, guards⟩
    rw [validators] at listed
    exact absurd listed List.not_mem_nil
  have firstGiven : root.Gives ["run"] ["-d", "1"] first := by
    rw [Symbol.Gives, tokens]
    exact .valued rfl meant rfl needs most
  have secondGiven : root.Gives ["run"] ["-v"] second := by
    rw [Symbol.Gives, tokensNext]
    exact .flag rfl meantNext closed
  have differ : first ≠ second := fun same => apart (congrArg Symbol.id same)
  exact ⟨root, first, second, built, builtin, firstGiven, secondGiven, differ,
    exchanged_parse built builtin .absent firstGiven secondGiven differ _⟩

end CommandGrammar
