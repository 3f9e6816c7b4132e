import CommandGrammar.GrammarFile.Build

/-! The file that describes a grammar. Converters, validators and suggestion sources have no place
in a file and are left out, as is the argument of a symbol that takes no values and has no type. -/
namespace CommandGrammar

def ArityEntry.ofArity (arity : Arity) : ArityEntry :=
  ⟨arity.min, if arity.isUnbounded then none else some arity.max⟩

def ArgumentEntry.ofArgument? (argument : Argument) : Option ArgumentEntry :=
  if !argument.arity.takesValues && argument.type.isNone then none
  else
    some {
      name := argument.name
      description := argument.description
      type := argument.type.map ValueType.name
      arity := some (.ofArity argument.arity)
      default := argument.default.bind Value.toJson?
      allowed := argument.allowed
      suggestions := argument.suggestions }

/-- The name is written only where it is not the one that the aliases give. -/
def OptionEntry.ofSymbol (option : Symbol) : OptionEntry where
  aliases := option.aliases
  name := if option.name = Alias.defaultName option.aliases then none else some option.name
  description := option.description
  hidden := option.hidden
  argument := ArgumentEntry.ofArgument? option.argument

namespace CommandEntry

mutual

def ofSymbol : Symbol → CommandEntry
  | symbol@{ children, .. } =>
    { name := symbol.aliases.headD ""
      aliases := symbol.aliases.tail
      description := symbol.description
      hidden := symbol.hidden
      subcommandRequired := some symbol.subcommandRequired
      strict := some symbol.isStrict
      argument := ArgumentEntry.ofArgument? symbol.argument
      options := (children.filter (·.isOption)).map .ofSymbol
      commands := ofSymbols children }

/-- The commands among some siblings. -/
def ofSymbols : List Symbol → List CommandEntry
  | [] => []
  | symbol :: rest =>
    if symbol.isCommand then ofSymbol symbol :: ofSymbols rest else ofSymbols rest

end

end CommandEntry

def GrammarFile.ofSymbol (root : Symbol) : GrammarFile := .ofCommand (.ofSymbol root)

end CommandGrammar
