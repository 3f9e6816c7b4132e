/-! Numbers in decimal text: optionally signed integers, and numerals with a point or an exponent.
Only ASCII digits count, and at least one digit is needed before an exponent. -/
namespace CommandGrammar

/-- The number `digits * 10 ^ exponent`. -/
structure Decimal where
  digits : Nat
  exponent : Int
deriving DecidableEq

namespace Decimal

def digitsValue (cs : List Char) : Nat :=
  cs.foldl (fun value c => 10 * value + (c.toNat - 48)) 0

def isDigits (cs : List Char) : Bool :=
  !cs.isEmpty && cs.all Char.isDigit

/-- Whether the text begins with a minus sign, and what follows the sign. -/
def splitSign : List Char → Bool × List Char
  | '-' :: rest => (true, rest)
  | '+' :: rest => (false, rest)
  | cs => (false, cs)

/-- An integer of any size. -/
def int? (cs : List Char) : Option Int :=
  let (negative, digits) := splitSign cs
  if isDigits digits then
    some (if negative then -Int.ofNat (digitsValue digits) else Int.ofNat (digitsValue digits))
  else none

/-- An integer that fits into 64 bits with its sign. -/
def int64? (cs : List Char) : Option Int64 :=
  (int? cs).bind fun n =>
    if Int64.minValue.toInt ≤ n ∧ n ≤ Int64.maxValue.toInt then some (.ofInt n) else none

/-- What follows the digits of a numeral: nothing, or an exponent. -/
def exponentPart? : List Char → Option Int
  | [] => some 0
  | c :: rest => if c = 'e' ∨ c = 'E' then int? rest else none

/-- An unsigned numeral such as `12`, `1.5`, `.5`, `5.` or `1e-3`. -/
def parse? (cs : List Char) : Option Decimal :=
  let whole := cs.takeWhile Char.isDigit
  let (fraction, rest) := match cs.dropWhile Char.isDigit with
    | '.' :: rest => (rest.takeWhile Char.isDigit, rest.dropWhile Char.isDigit)
    | rest => ([], rest)
  if whole.isEmpty && fraction.isEmpty then none
  else (exponentPart? rest).map fun e => ⟨digitsValue (whole ++ fraction), e - fraction.length⟩

end Decimal
end CommandGrammar
