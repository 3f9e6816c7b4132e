import CommandGrammar.Number.Decimal

/-! Double precision numbers as their 64 bits. A finite magnitude is a significand times a power of
two, and the double nearest to a quotient of natural numbers is found by exact division, a tie
going to the even significand. -/
namespace CommandGrammar

structure Binary64 where
  bits : UInt64
deriving DecidableEq

namespace Binary64

def signPlace : Nat := Nat.pow 2 63
def fractionCount : Nat := Nat.pow 2 52
def infinityCode : Nat := 2047 * fractionCount

def negative (x : Binary64) : Bool := signPlace ≤ x.bits.toNat

/-- The bits below the sign. Magnitudes are ordered as their codes. -/
def code (x : Binary64) : Nat := x.bits.toNat % signPlace

def ofCode (negative : Bool) (code : Nat) : Binary64 :=
  ⟨.ofNat ((if negative then signPlace else 0) + code)⟩

def zero : Binary64 := ofCode false 0
def infinity : Binary64 := ofCode false infinityCode
def nan : Binary64 := ofCode false (infinityCode + fractionCount / 2)

def isNaN (x : Binary64) : Bool := infinityCode < x.code
def isFinite (x : Binary64) : Bool := x.code < infinityCode
def isZero (x : Binary64) : Bool := x.code == 0

/-- Numeric equality: the two zeros are equal, and no NaN equals anything. -/
def equal (x y : Binary64) : Bool :=
  !x.isNaN && !y.isNaN && (x == y || x.isZero && y.isZero)

def neg (x : Binary64) : Binary64 := ofCode (!x.negative) x.code

/-- A finite magnitude is `significand * 2 ^ exponent`. -/
def significand (x : Binary64) : Nat :=
  if x.code < fractionCount then x.code else fractionCount + x.code % fractionCount

def exponent (x : Binary64) : Int := Int.ofNat (max 1 (x.code / fractionCount)) - 1075

/-- The quotient rounded to the nearest natural number, a half to the even one. -/
def roundedQuotient (numerator denominator : Nat) : Nat :=
  let quotient := numerator / denominator
  let remainder := numerator % denominator
  if denominator < 2 * remainder ∨ denominator = 2 * remainder ∧ quotient % 2 = 1 then
    quotient + 1
  else quotient

/-- Numerator and denominator of `numerator / denominator / 2 ^ exponent`. -/
def scaled (numerator denominator : Nat) (exponent : Int) : Nat × Nat :=
  (numerator * Nat.pow 2 (-exponent).toNat, denominator * Nat.pow 2 exponent.toNat)

/-- The least exponent at which the scaled quotient stays below `2 ^ 53`, but not less than that of
the subnormal numbers. -/
def quotientExponent (numerator denominator : Nat) : Int :=
  let estimate := Int.ofNat numerator.log2 - Int.ofNat denominator.log2 - 53
  let (n, d) := scaled numerator denominator estimate
  max (if 2 * fractionCount ≤ n / d then estimate + 1 else estimate) (-1074)

/-- Code of the magnitude nearest to a quotient; too large a quotient is infinite. -/
def nearestCode (numerator denominator : Nat) : Nat :=
  if numerator = 0 then 0
  else
    let exponent := quotientExponent numerator denominator
    let (n, d) := scaled numerator denominator exponent
    min infinityCode ((exponent + 1074).toNat * fractionCount + roundedQuotient n d)

def ofInt (n : Int) : Binary64 := ofCode (decide (n < 0)) (nearestCode n.natAbs 1)

/-- The double nearest to a decimal number. Beyond four hundred places from the point every number
is infinite or zero. -/
def ofDecimal (d : Decimal) : Binary64 :=
  let magnitude := Int.ofNat (Nat.toDigits 10 d.digits).length + d.exponent
  ofCode false <|
    if d.digits = 0 ∨ magnitude < -400 then 0
    else if 400 < magnitude then infinityCode
    else nearestCode (d.digits * Nat.pow 10 d.exponent.toNat) (Nat.pow 10 (-d.exponent).toNat)

/-- The magnitude named by a word or a numeral without a sign. -/
def parseMagnitude? (cs : List Char) : Option Binary64 :=
  let word := String.ofList (cs.map Char.toLower)
  if word = "inf" ∨ word = "infinity" then some infinity
  else if word = "nan" then some nan
  else (Decimal.parse? cs).map ofDecimal

def parse? (cs : List Char) : Option Binary64 :=
  let (negative, rest) := Decimal.splitSign cs
  (parseMagnitude? rest).map fun x => if negative then x.neg else x

/-- The exact product, rounded once. -/
def mul (x y : Binary64) : Binary64 :=
  let (n, d) := scaled (x.significand * y.significand) 1 (-(x.exponent + y.exponent))
  ofCode (x.negative != y.negative) (nearestCode n d)

/-- The exact quotient, rounded once. -/
def div (x y : Binary64) : Binary64 :=
  let (n, d) := scaled x.significand y.significand (y.exponent - x.exponent)
  ofCode (x.negative != y.negative) (nearestCode n d)

end Binary64
end CommandGrammar
