import CommandGrammar.Alias
import CommandGrammar.Argument

/-! A grammar is a tree of symbols: commands, which may contain commands and options, and options,
which contain nothing. Symbols are numbered in preorder, and the number identifies a symbol within
its tree. -/
namespace CommandGrammar

inductive SymbolKind where
  | command (subcommandRequired strict : Bool)
  | option
deriving DecidableEq

structure Symbol where
  id : Nat
  kind : SymbolKind
  aliases : List String
  name : String
  description : String
  hidden : Bool
  argument : Argument
  children : List Symbol

namespace Symbol

def isCommand (symbol : Symbol) : Bool :=
  match symbol.kind with
  | .command .. => true
  | .option => false

def isOption (symbol : Symbol) : Bool := !symbol.isCommand

def subcommandRequired (symbol : Symbol) : Bool :=
  match symbol.kind with
  | .command required _ => required
  | .option => false

/-- Whether values that nothing takes are errors. -/
def isStrict (symbol : Symbol) : Bool :=
  match symbol.kind with
  | .command _ strict => strict
  | .option => true

def arity (symbol : Symbol) : Arity := symbol.argument.arity

/-- The alias that diagnostics quote. -/
def display (symbol : Symbol) : String := Alias.display symbol.aliases

/-- Whether one of the aliases is the given text exactly. -/
def answersTo (symbol : Symbol) (raw : String) : Bool := symbol.aliases.contains raw

/-- Whether one of the aliases agrees with the given text up to decoration. -/
def isCalled (symbol : Symbol) (name : String) : Bool :=
  symbol.aliases.any fun own => Alias.bare own == Alias.bare name

def subcommand? (command : Symbol) (raw : String) : Option Symbol :=
  command.children.find? fun child => child.isCommand && child.answersTo raw

def option? (command : Symbol) (raw : String) : Option Symbol :=
  command.children.find? fun child => child.isOption && child.answersTo raw

/-- The option meant inside nested commands, given innermost first: inner options hide outer
ones. -/
def optionIn? (commands : List Symbol) (raw : String) : Option Symbol :=
  commands.findSome? (·.option? raw)

mutual

/-- The symbols of a tree, each in front of its children. -/
def preorder : Symbol → List Symbol
  | symbol@{ children, .. } => symbol :: preorderAll children

def preorderAll : List Symbol → List Symbol
  | [] => []
  | symbol :: rest => symbol.preorder ++ preorderAll rest

end

/-- The symbol with the given number. -/
def at? (root : Symbol) (id : Nat) : Option Symbol := root.preorder[id]?

/-- The first symbol in preorder that is called by the name. -/
def find? (root : Symbol) (name : String) : Option Symbol :=
  root.preorder.find? (·.isCalled name)

/-- The symbol that has the given one among its children. -/
def parentOf? (root : Symbol) (id : Nat) : Option Symbol :=
  root.preorder.find? fun symbol => symbol.children.any (·.id == id)

end Symbol
end CommandGrammar
