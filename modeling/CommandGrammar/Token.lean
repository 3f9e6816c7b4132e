/-! Classified pieces of a command line. Pieces of one argument share its position; a token made up
by the parser itself has none. -/
namespace CommandGrammar

inductive TokenKind where
  | command
  | option
  | argument
  | directive
  | endOfOptions
  | unparsed
deriving DecidableEq

structure Token where
  text : String
  kind : TokenKind
  position : Option Nat
deriving DecidableEq

namespace Token

def implicit (text : String) (kind : TokenKind) : Token := ⟨text, kind, none⟩

end Token
end CommandGrammar
