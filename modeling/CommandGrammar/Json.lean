import CommandGrammar.Number.Shortest

/-! JSON documents and their text. Members of an object keep their order, and a number is an
integer or a double. Text is written either without blanks or indented by two columns a level. -/
namespace CommandGrammar

inductive JsonNumber where
  | int (n : Int)
  | float (x : Binary64)
deriving DecidableEq

inductive Json where
  | null
  | bool (b : Bool)
  | number (n : JsonNumber)
  | string (text : String)
  | array (items : List Json)
  | object (members : List (String × Json))

/-- Floats keep a point, and very small or large ones have an exponent. -/
def JsonNumber.floatStyle : FloatStyle where
  tieUp := false
  keepsPoint := true
  isPlain leading := -5 ≤ leading && leading < 16

/-- A double that is not finite has no JSON number. -/
def JsonNumber.chars : JsonNumber → List Char
  | int n => (toString n).toList
  | float x => if x.isFinite then (floatStyle.render x).toList else ['n', 'u', 'l', 'l']

namespace Json

def escapedChar (c : Char) : List Char :=
  if c = '"' ∨ c = '\\' then ['\\', c]
  else if c = '\x08' then ['\\', 'b']
  else if c = '\x0c' then ['\\', 'f']
  else if c = '\n' then ['\\', 'n']
  else if c = '\r' then ['\\', 'r']
  else if c = '\t' then ['\\', 't']
  else if c.toNat < 0x20 then
    ['\\', 'u', '0', '0', Nat.digitChar (c.toNat / 16), Nat.digitChar (c.toNat % 16)]
  else [c]

def stringChars (text : String) : List Char :=
  '"' :: text.toList.flatMap escapedChar ++ ['"']

/-- What is written in front of an item at some depth, and between a key and its value. -/
structure Layout where
  line : Nat → List Char
  colon : List Char

def compact : Layout := ⟨fun _ => [], [':']⟩

def indented : Layout := ⟨fun depth => '\n' :: List.replicate (2 * depth) ' ', [':', ' ']⟩

/-- The texts between two brackets, each on its own line one level below the brackets. -/
def block (layout : Layout) (depth : Nat) : List (List Char) → List Char
  | [] => []
  | texts =>
    [','].intercalate (texts.map (layout.line (depth + 1) ++ ·)) ++ layout.line depth

mutual

def chars (layout : Layout) (depth : Nat) : Json → List Char
  | null => ['n', 'u', 'l', 'l']
  | bool true => ['t', 'r', 'u', 'e']
  | bool false => ['f', 'a', 'l', 's', 'e']
  | number n => n.chars
  | string text => stringChars text
  | array items => '[' :: block layout depth (itemTexts layout (depth + 1) items) ++ [']']
  | object members => '{' :: block layout depth (memberTexts layout (depth + 1) members) ++ ['}']

def itemTexts (layout : Layout) (depth : Nat) : List Json → List (List Char)
  | [] => []
  | item :: rest => item.chars layout depth :: itemTexts layout depth rest

def memberTexts (layout : Layout) (depth : Nat) : List (String × Json) → List (List Char)
  | [] => []
  | (key, value) :: rest =>
    (stringChars key ++ layout.colon ++ value.chars layout depth) ::
      memberTexts layout depth rest

end

/-- The text without blanks. -/
def text (json : Json) : String := .ofList (json.chars compact 0)

/-- The text with one item a line. -/
def pretty (json : Json) : String := .ofList (json.chars indented 0)

end Json
end CommandGrammar
