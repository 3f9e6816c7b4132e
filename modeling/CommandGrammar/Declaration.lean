import CommandGrammar.Symbol
import CommandGrammar.Text.Quoted

/-! Declared commands and options, and the grammar they build. Building numbers the symbols and
refuses declarations under which a name could be meant in two ways; faults are found in preorder,
those between siblings as soon as the later one is complete. -/
namespace CommandGrammar
open Text

/-- What commands and options declare alike. -/
structure Heading where
  aliases : List String
  name : Option String := none
  description : String := ""
  hidden : Bool := false
  argument : ArgumentDraft := {}

inductive Declaration where
  | option (heading : Heading)
  | command (heading : Heading) (subcommandRequired : Option Bool) (strict : Bool)
      (children : List Declaration)

inductive BuildError where
  | noAliases
  | emptyAlias (raw : String)
  | blankEdges (raw : String)
  | duplicateAlias (raw symbol : String)
  | aliasCollision (raw first second parent : String)
  | emptyName
  | decoratedName (name : String)
  | invalidArity (arity : Arity)
deriving DecidableEq

def BuildError.message : BuildError → String
  | noAliases => "a symbol must have at least one alias"
  | emptyAlias raw => s!"an alias cannot be empty or consist entirely of whitespace: {quoted raw}"
  | blankEdges raw => s!"alias {quoted raw} has leading or trailing whitespace"
  | duplicateAlias raw symbol => s!"alias {quoted raw} is registered twice on '{symbol}'"
  | aliasCollision raw first second parent =>
    s!"alias {quoted raw} is used by both '{first}' and '{second}' under '{parent}'"
  | emptyName => "symbol name cannot be empty or whitespace"
  | decoratedName name => s!"symbol name {quoted name} cannot have a prefix"
  | invalidArity arity => s!"invalid arity: minimum {arity.min} exceeds maximum {arity.max}"

namespace Heading

def settledArgument (heading : Heading) (forCommand : Bool) : Except BuildError Argument :=
  let argument := heading.argument.settle forCommand
  if argument.arity.max < argument.arity.min then .error (.invalidArity argument.arity)
  else .ok argument

/-- Checks the aliases in order, given the bare forms of those before. -/
def checkAliases (first : String) (seen : List String) : List String → Except BuildError Unit
  | [] => .ok ()
  | raw :: rest =>
    if trim raw ≠ raw ∧ !allBlank raw then .error (.blankEdges raw)
    else if allBlank (Alias.bare raw) then .error (.emptyAlias raw)
    else if seen.contains (Alias.bare raw) then .error (.duplicateAlias raw first)
    else checkAliases first (Alias.bare raw :: seen) rest

/-- The name given, or else the longest bare alias. -/
def checkName (heading : Heading) : Except BuildError String :=
  match heading.name with
  | none => .ok (Alias.defaultName heading.aliases)
  | some name =>
    if allBlank name then .error .emptyName
    else if Alias.bare name ≠ name then .error (.decoratedName name)
    else .ok name

/-- The symbol of a heading, still without children. -/
def symbol (heading : Heading) (id : Nat) (kind : SymbolKind) : Except BuildError Symbol := do
  let argument ← heading.settledArgument (kind ≠ .option)
  match heading.aliases with
  | [] => .error .noAliases
  | first :: _ =>
    checkAliases first [] heading.aliases
    let name ← heading.checkName
    .ok ⟨id, kind, heading.aliases, name, heading.description, heading.hidden, argument, []⟩

end Heading

/-- The bare aliases met among siblings so far, each with the name of its owner. -/
abbrev Siblings := List (String × String)

/-- Adds the aliases of the next sibling; an alias met before is a collision. -/
def Siblings.add (parent name : String) : List String → Siblings → Except BuildError Siblings
  | [], seen => .ok seen
  | raw :: rest, seen =>
    match seen.lookup (Alias.bare raw) with
    | some first => .error (.aliasCollision raw first name parent)
    | none => Siblings.add parent name rest ((Alias.bare raw, name) :: seen)

namespace Declaration

def isCommand : Declaration → Bool
  | command .. => true
  | option .. => false

mutual

/-- The number of symbols that a declaration builds. -/
def size : Declaration → Nat
  | option _ => 1
  | command _ _ _ children => 1 + sizeAll children

def sizeAll : List Declaration → Nat
  | [] => 0
  | d :: rest => d.size + sizeAll rest

end

mutual

/-- Builds a subtree whose first symbol gets the given number. -/
def buildFrom (id : Nat) : Declaration → Except BuildError Symbol
  | option heading => heading.symbol id .option
  | command heading subcommandRequired strict children => do
    let required := subcommandRequired.getD (children.any isCommand)
    let symbol ← heading.symbol id (.command required strict)
    let children ← buildAll symbol.name [] (id + 1) children
    .ok { symbol with children }

/-- Builds siblings one after the other. -/
def buildAll (parent : String) (seen : Siblings) (id : Nat) :
    List Declaration → Except BuildError (List Symbol)
  | [] => .ok []
  | d :: rest => do
    let symbol ← d.buildFrom id
    let seen ← Siblings.add parent symbol.name symbol.aliases seen
    let symbols ← buildAll parent seen (id + d.size) rest
    .ok (symbol :: symbols)

end

/-- The grammar of a declaration. -/
def build (declaration : Declaration) : Except BuildError Symbol :=
  declaration.buildFrom 0

end Declaration
end CommandGrammar
