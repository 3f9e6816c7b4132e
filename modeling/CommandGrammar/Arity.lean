/-! How many values a symbol may take. The greatest 64-bit bound stands for no bound at all, also
where it is written out. -/
namespace CommandGrammar

structure Arity where
  min : Nat
  max : Nat
deriving DecidableEq

namespace Arity

def unbounded : Nat := Nat.pow 2 64 - 1

def zero : Arity := ⟨0, 0⟩
def zeroOrOne : Arity := ⟨0, 1⟩
def exactlyOne : Arity := ⟨1, 1⟩
def zeroOrMore : Arity := ⟨0, unbounded⟩
def oneOrMore : Arity := ⟨1, unbounded⟩

def isUnbounded (arity : Arity) : Bool := arity.max == unbounded

def takesValues (arity : Arity) : Bool := 0 < arity.max

def text (arity : Arity) : String :=
  if arity.isUnbounded then s!"{arity.min}.." else s!"{arity.min}..={arity.max}"

end Arity
end CommandGrammar
