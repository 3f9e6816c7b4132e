/-! Cursor positions as the tool reads them: natural numbers of 64 bits. -/
namespace CommandGrammar.Tool

/-- Why a text is no position. -/
inductive PositionError where
  | empty
  | notDigit
  | tooLarge
deriving DecidableEq

def PositionError.message : PositionError → String
  | empty => "cannot parse integer from empty string"
  | notDigit => "invalid digit found in string"
  | tooLarge => "number too large to fit in target type"

def positionLimit : Nat := Nat.pow 2 64

/-- Reads digits after others that have the given value. -/
def positionFrom (value : Nat) : List Char → Except PositionError Nat
  | [] => .ok value
  | c :: rest =>
    let next := 10 * value + (c.toNat - 48)
    if !c.isDigit then .error .notDigit
    else if positionLimit ≤ next then .error .tooLarge
    else positionFrom next rest

/-- A position is a natural number of 64 bits, with or without a plus sign. -/
def position (text : String) : Except PositionError Nat :=
  match text.toList with
  | [] => .error .empty
  | ['+'] => .error .notDigit
  | '+' :: digits | digits => positionFrom 0 digits

end CommandGrammar.Tool
