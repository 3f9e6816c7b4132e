import CommandGrammar.Line
import CommandGrammar.Token.Classifier

/-! Completion of a command line up to the cursor. The last word is completed unless a blank has
ended it; the words before it tell the innermost command and the option that may still take a
value. -/
namespace CommandGrammar

/-- An option that may take a value, and how many it has been given since it was named. -/
structure Pending where
  option : Symbol
  taken : Nat

/-- Where a new word would stand. -/
structure Context where
  commands : Nesting Symbol
  pending : Option Pending

namespace Context

def start (root : Symbol) : Context := ⟨.single root, none⟩

def step (context : Context) (token : Token) : Context :=
  match token.kind with
  | .command =>
    match context.commands.innermost.subcommand? token.text with
    | some child => ⟨context.commands.enter child, none⟩
    | none => context
  | .option =>
    { context with
      pending := ((Symbol.optionIn? context.commands.toList token.text).filter
        (·.arity.takesValues)).map (⟨·, 0⟩) }
  | .argument =>
    { context with
      pending := context.pending.bind fun pending =>
        if pending.option.arity.max ≤ pending.taken + 1 then none
        else some { pending with taken := pending.taken + 1 } }
  | .endOfOptions => { context with pending := none }
  | .directive | .unparsed => context

/-- The context behind the given words. -/
def ofWords (root : Symbol) (words : List String) : Context :=
  (root.tokenize words).foldl step (start root)

/-- The words that could come next, whether or not they fit the text to complete. An option that
lacks a required value leaves no choice. -/
def candidates (context : Context) (text : String) : List String :=
  let values := match context.pending with
    | some pending => pending.option.argument.suggest text
    | none => []
  let mustTakeValue := match context.pending with
    | some pending => decide (pending.taken < pending.option.arity.min)
    | none => false
  let command := context.commands.innermost
  if mustTakeValue then values
  else
    values ++ (command.children.filter (!·.hidden)).flatMap (·.aliases) ++
      command.argument.suggest text

end Context

namespace Completion

/-- Puts a text at its place among sorted ones, unless it is there already. -/
def insert (text : String) : List String → List String
  | [] => [text]
  | first :: rest =>
    if text = first then first :: rest
    else if text < first then text :: first :: rest
    else first :: insert text rest

/-- Sorted by code points, each text once. -/
def sorted (texts : List String) : List String := texts.foldr insert []

theorem mem_insert {text other : String} {texts : List String} :
    other ∈ insert text texts ↔ other = text ∨ other ∈ texts := by
  induction texts with
  | nil => simp [insert]
  | cons first rest ih =>
    simp only [insert]
    split
    · rename_i same
      subst same
      simp
    · split
      · simp
      · simp only [List.mem_cons, ih]
        exact or_left_comm

theorem mem_sorted {text : String} {texts : List String} :
    text ∈ sorted texts ↔ text ∈ texts := by
  induction texts with
  | nil => simp [sorted]
  | cons first rest ih =>
    rw [sorted, List.foldr_cons, mem_insert, ← sorted, ih, List.mem_cons]

/-- The completed words of a line and the text of the word in progress. -/
def split (line : String) : List String × String :=
  let words := Line.split line
  match line.toList.getLast? with
  | none => (words, "")
  | some c => if Text.isBlank c then (words, "") else (words.dropLast, words.getLast?.getD "")

end Completion

namespace Symbol

/-- The completions of a word behind the given words. -/
def completions (root : Symbol) (words : List String) (text : String) : List String :=
  Completion.sorted (((Context.ofWords root words).candidates text).filter
    fun candidate => Text.contains candidate text)

/-- The completions of a line with the cursor behind so many characters. -/
def suggest (root : Symbol) (line : String) (cursor : Nat) : List String :=
  let (words, text) := Completion.split (.ofList (line.toList.take cursor))
  root.completions words text

end Symbol
end CommandGrammar
