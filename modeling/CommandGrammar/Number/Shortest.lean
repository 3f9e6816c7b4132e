import CommandGrammar.Number.Binary64

/-! The shortest decimal text that reads back as a given double. Of the decimal grids, from coarse
to fine, the first with a point in the interval of numbers that round to the double is taken, and
on it the point nearer to the double. A style record says how the digits are laid out. -/
namespace CommandGrammar

/-- How the digits of a finite double are written. -/
structure FloatStyle where
  /-- Of two shortest candidates equally near, take the greater rather than the even one. -/
  tieUp : Bool
  /-- Write `.0` behind an integral number. -/
  keepsPoint : Bool
  /-- Whether a number whose leading digit has this power of ten is written without exponent. -/
  isPlain : Int → Bool

namespace Binary64

/-- A double between the midpoints to its neighbours, all over one denominator. The midpoints
belong to the interval iff the significand is even. -/
structure Interval where
  low : Nat
  value : Nat
  high : Nat
  denominator : Nat
  closed : Bool

/-- Below a power of two the neighbours lie half as far away as above it. -/
def interval (x : Binary64) : Interval :=
  let below := if x.significand = fractionCount ∧ fractionCount < x.code then 1 else 2
  let (value, denominator) := scaled (4 * x.significand) 1 (2 - x.exponent)
  let unit := value / (4 * x.significand)
  ⟨value - below * unit, value, value + 2 * unit, denominator, x.significand % 2 = 0⟩

namespace Interval

def holds (i : Interval) (point : Nat) : Bool :=
  if i.closed then i.low ≤ point && point ≤ i.high else i.low < point && point < i.high

/-- The candidate on the grid of the given spacing: a neighbour of the value inside the interval,
the nearer one if both are. -/
def candidate? (i : Interval) (tieUp : Bool) (spacing : Nat) : Option Nat :=
  let below := i.value / spacing
  let remainder := i.value % spacing
  let nearerAbove := spacing < 2 * remainder ∨
    spacing = 2 * remainder ∧ (tieUp ∨ below % 2 = 1)
  match i.holds (below * spacing), i.holds ((below + 1) * spacing) with
  | true, true => some (if nearerAbove then below + 1 else below)
  | true, false => some below
  | false, true => some (below + 1)
  | false, false => none

/-- The interval seen on a grid so many times as fine. -/
def refine (i : Interval) (times : Nat) : Interval :=
  { i with low := times * i.low, value := times * i.value, high := times * i.high }

/-- Tries grids of decreasing spacing, `10 ^ exponent` being the first. -/
def search (tieUp : Bool) (spacing : Nat) : Nat → Interval → Int → Decimal
  | 0, _, _ => ⟨0, 0⟩
  | fuel + 1, i, exponent =>
    match i.candidate? tieUp spacing with
    | some digits => ⟨digits, exponent⟩
    | none => search tieUp spacing fuel (i.refine 10) (exponent - 1)

end Interval

/-- A power of ten above the double and its interval, but not far above: `30103 / 100000` is a
little more than the decimal logarithm of two. -/
def coarsestExponent (x : Binary64) : Int :=
  (Int.ofNat x.significand.log2 + x.exponent + 2) * 30103 / 100000 + 2

/-- Seventeen digits are always enough, and the first grids have none. -/
def shortest (tieUp : Bool) (x : Binary64) : Decimal :=
  if x.isZero then ⟨0, 0⟩
  else
    let exponent := x.coarsestExponent
    let i := x.interval.refine (Nat.pow 10 (-exponent).toNat)
    i.search tieUp (i.denominator * Nat.pow 10 exponent.toNat) 24 exponent

end Binary64

namespace FloatStyle

/-- The digits with a point in front of the last `places`. -/
def pointed (digits : List Char) (places : Nat) : List Char :=
  let padded := List.replicate (places + 1 - digits.length) '0' ++ digits
  padded.take (padded.length - places) ++ '.' :: padded.drop (padded.length - places)

def plain (style : FloatStyle) (digits : List Char) (exponent : Int) : List Char :=
  if exponent < 0 then pointed digits (-exponent).toNat
  else digits ++ List.replicate exponent.toNat '0' ++ if style.keepsPoint then ['.', '0'] else []

/-- One digit in front of the point, and the sign of the exponent always written. -/
def scientific (digits : List Char) (exponent : Int) : List Char :=
  (if digits.length = 1 then digits else pointed digits (digits.length - 1)) ++
    ['e', if exponent < 0 then '-' else '+'] ++ Nat.toDigits 10 exponent.natAbs

def magnitude (style : FloatStyle) (x : Binary64) : List Char :=
  let decimal := x.shortest style.tieUp
  let digits := Nat.toDigits 10 decimal.digits
  let leading := decimal.exponent + digits.length - 1
  if x.isZero ∨ style.isPlain leading then style.plain digits decimal.exponent
  else scientific digits leading

/-- The text of a finite double. -/
def render (style : FloatStyle) (x : Binary64) : String :=
  .ofList ((if x.negative then ['-'] else []) ++ style.magnitude x)

end FloatStyle
end CommandGrammar
