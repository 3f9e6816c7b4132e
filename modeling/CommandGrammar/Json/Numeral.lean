import CommandGrammar.Json

/-! Numbers as JSON writes them. An integer of 64 bits stays one; every other number becomes a
double. Its leading digits, as many as fit into 64 bits, are rounded first and then scaled by powers
of ten that are doubles themselves. -/
namespace CommandGrammar

/-- The parts of a number: digits in front of the point, digits behind it if there is one, and an
exponent. -/
structure Numeral where
  negative : Bool
  whole : List Char
  fraction : Option (List Char)
  exponent : Option (Bool × List Char)
deriving DecidableEq

namespace Numeral

/-- Leading digits as a number below `2 ^ 64`, and the power of ten that they stand for. -/
structure Leading where
  digits : Nat
  exponent : Int
  full : Bool

def wordCount : Nat := Nat.pow 2 64

/-- Digits in front of the point; those that no longer fit raise the exponent. -/
def Leading.addWhole (leading : Leading) (c : Char) : Leading :=
  let digits := 10 * leading.digits + (c.toNat - 48)
  if leading.full || wordCount ≤ digits then
    { leading with full := true, exponent := leading.exponent + 1 }
  else { leading with digits }

/-- Digits behind the point; those that no longer fit are dropped. -/
def Leading.addFraction (leading : Leading) (c : Char) : Leading :=
  let digits := 10 * leading.digits + (c.toNat - 48)
  if leading.full || wordCount ≤ digits then { leading with full := true }
  else { leading with digits, exponent := leading.exponent - 1 }

def leading (numeral : Numeral) : Leading :=
  let whole := numeral.whole.foldl Leading.addWhole ⟨0, 0, false⟩
  (numeral.fraction.getD []).foldl Leading.addFraction { whole with full := false }

def powerOfTen (n : Nat) : Binary64 := .ofDecimal ⟨1, n⟩

/-- Multiplies by a power of ten, in steps that a double can hold. Overflow has no result. -/
def scale (x : Binary64) (exponent : Int) : Option Binary64 :=
  if exponent.natAbs ≤ 308 then
    if 0 ≤ exponent then
      let scaled := x.mul (powerOfTen exponent.natAbs)
      if scaled.isFinite then some scaled else none
    else some (x.div (powerOfTen exponent.natAbs))
  else if x.isZero then some x
  else if 0 ≤ exponent then none
  else scale (x.div (powerOfTen 308)) (exponent + 308)
termination_by exponent.natAbs

/-- Written exponents beyond 32 bits count as infinite. -/
def exponentLimit : Nat := Nat.pow 2 31

/-- The magnitude as a double. -/
def float? (numeral : Numeral) : Option Binary64 :=
  let leading := numeral.leading
  let x := Binary64.ofInt leading.digits
  match numeral.exponent with
  | none => scale x leading.exponent
  | some (negative, digits) =>
    let written := Decimal.digitsValue digits
    if exponentLimit ≤ written then
      if leading.digits = 0 ∨ negative then some .zero else none
    else scale x (leading.exponent + if negative then -Int.ofNat written else written)

def isInteger (numeral : Numeral) : Bool := numeral.fraction.isNone && numeral.exponent.isNone

/-- The number meant, if there is a double near enough. Minus zero is a double. -/
def number? (numeral : Numeral) : Option JsonNumber :=
  let value := Decimal.digitsValue numeral.whole
  if numeral.isInteger && !numeral.negative && value < wordCount then some (.int value)
  else if numeral.isInteger && numeral.negative && 0 < value && 2 * value ≤ wordCount then
    some (.int (-Int.ofNat value))
  else
    numeral.float?.map fun x => .float (if numeral.negative then x.neg else x)

end Numeral
end CommandGrammar
