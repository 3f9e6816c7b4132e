import CommandGrammar.FilePath
import CommandGrammar.Number.Shortest

/-! Converted values. A value that is present without content, such as that of a flag, is the
unit. -/
namespace CommandGrammar

inductive Value where
  | unit
  | bool (b : Bool)
  | int (n : Int64)
  | float (x : Binary64)
  | string (text : String)
  | path (file : FilePath)
  | list (items : List Value)

namespace Value

/-- Floats in running text have no exponent, and integral ones no point. -/
def floatStyle : FloatStyle where
  tieUp := true
  keepsPoint := false
  isPlain _ := true

def floatText (x : Binary64) : String :=
  if x.isNaN then "NaN"
  else if x.isFinite then floatStyle.render x
  else if x.negative then "-inf" else "inf"

mutual

/-- The text of a value; the items of a list stand one blank apart. -/
def text : Value → String
  | unit => ""
  | bool b => if b then "true" else "false"
  | int n => toString n.toInt
  | float x => floatText x
  | string text => text
  | path file => file.display
  | list items => " ".intercalate (itemTexts items)

def itemTexts : List Value → List String
  | [] => []
  | item :: rest => item.text :: itemTexts rest

end

mutual

/-- Equality of contents, floats compared as numbers: a NaN differs from itself. -/
def equal : Value → Value → Bool
  | unit, unit => true
  | bool a, bool b => a == b
  | int a, int b => a == b
  | float a, float b => a.equal b
  | string a, string b => a == b
  | path a, path b => a.equal b
  | list as, list bs => equalItems as bs
  | _, _ => false

def equalItems : List Value → List Value → Bool
  | [], [] => true
  | a :: as, b :: bs => a.equal b && equalItems as bs
  | _, _ => false

end

def bool? : Value → Option Bool
  | bool b => some b
  | _ => none

def int? : Value → Option Int64
  | int n => some n
  | _ => none

/-- An integer is a float, too. -/
def float? : Value → Option Binary64
  | float x => some x
  | int n => some (.ofInt n.toInt)
  | _ => none

def string? : Value → Option String
  | string text => some text
  | _ => none

def path? : Value → Option FilePath
  | path file => some file
  | _ => none

def items? : Value → Option (List Value)
  | list items => some items
  | _ => none

end Value
end CommandGrammar
