import CommandGrammar.Symbol

/-! A command or option met on a command line, with the values it took. Its parent is the
occurrence of the command that declares it. An implicit occurrence stands for an option that was
not given but has a default. -/
namespace CommandGrammar

inductive OccurrenceKind where
  | command
  | option
deriving DecidableEq

structure Occurrence where
  kind : OccurrenceKind
  symbol : Symbol
  /-- The token that introduced the symbol. -/
  token : Token
  parent : Option Nat
  /-- The occurrences under this one, the earliest first. -/
  children : List Nat
  tokens : List Token
  implicit : Bool

namespace Occurrence

/-- What has been met and has taken no value yet. -/
def met (kind : OccurrenceKind) (symbol : Symbol) (token : Token) (parent : Option Nat) :
    Occurrence :=
  ⟨kind, symbol, token, parent, [], [], false⟩

/-- An option that was not given and has a default. -/
def missing (option : Symbol) (parent : Nat) : Occurrence :=
  ⟨.option, option, .implicit option.display .option, some parent, [], [], true⟩

def texts (occurrence : Occurrence) : List String := occurrence.tokens.map Token.text

def glimpse (occurrence : Occurrence) : Glimpse where
  isCommand := occurrence.kind = .command
  name := occurrence.symbol.name
  aliases := occurrence.symbol.aliases
  token := occurrence.token
  tokens := occurrence.tokens
  parent := occurrence.parent
  implicit := occurrence.implicit

end Occurrence
end CommandGrammar
