import CommandGrammar.Json.Numeral

/-! JSON text as it is written, before its strings and numbers are given a meaning. Text that nobody
looks at only has to be well formed: it may hold numbers out of range, halves of surrogate pairs,
and any depth of nesting. -/
namespace CommandGrammar

/-- A character of a string, or a code unit written as an escape. -/
inductive StringPart where
  | char (c : Char)
  | unit (code : Nat)
deriving DecidableEq

inductive RawJson where
  | null
  | bool (b : Bool)
  | number (numeral : Numeral)
  | string (parts : List StringPart)
  | array (items : List RawJson)
  | object (members : List (List StringPart × RawJson))

namespace StringPart

def isHigh (code : Nat) : Bool := 0xD800 ≤ code && code < 0xDC00
def isLow (code : Nat) : Bool := 0xDC00 ≤ code && code < 0xE000

/-- The characters of a string. Surrogates have to come in pairs. -/
def decode? : List StringPart → Option (List Char)
  | [] => some []
  | char c :: rest => (decode? rest).map (c :: ·)
  | unit code :: rest =>
    if isLow code then none
    else if isHigh code then
      match rest with
      | unit low :: rest =>
        if isLow low then
          (decode? rest).map (.ofNat (0x10000 + (code - 0xD800) * 0x400 + (low - 0xDC00)) :: ·)
        else none
      | _ => none
    else (decode? rest).map (.ofNat code :: ·)

end StringPart

namespace RawJson

def isSpace (c : Char) : Bool := c == ' ' || c == '\n' || c == '\t' || c == '\r'

def skipSpace (cs : List Char) : List Char := cs.dropWhile isSpace

def hexDigit? (c : Char) : Option Nat :=
  if '0' ≤ c ∧ c ≤ '9' then some (c.toNat - 48)
  else if 'a' ≤ c ∧ c ≤ 'f' then some (c.toNat - 87)
  else if 'A' ≤ c ∧ c ≤ 'F' then some (c.toNat - 55)
  else none

def codeUnit? (a b c d : Char) : Option Nat := do
  let a ← hexDigit? a
  let b ← hexDigit? b
  let c ← hexDigit? c
  let d ← hexDigit? d
  some (((a * 16 + b) * 16 + c) * 16 + d)

/-- The characters that a backslash and a letter stand for. -/
def escapes : List (Char × Char) :=
  [('"', '"'), ('\\', '\\'), ('/', '/'), ('b', '\x08'), ('f', '\x0c'), ('n', '\n'), ('r', '\r'),
    ('t', '\t')]

/-- A string up to and with its closing quote. -/
def stringTail? : List Char → Option (List StringPart × List Char)
  | [] => none
  | '"' :: rest => some ([], rest)
  | '\\' :: 'u' :: a :: b :: c :: d :: rest => do
    let unit ← codeUnit? a b c d
    let (parts, rest) ← stringTail? rest
    some (.unit unit :: parts, rest)
  | '\\' :: c :: rest => do
    let c ← escapes.lookup c
    let (parts, rest) ← stringTail? rest
    some (.char c :: parts, rest)
  | c :: rest => do
    if c = '\\' ∨ c.toNat < 0x20 then none
    else
      let (parts, rest) ← stringTail? rest
      some (.char c :: parts, rest)

/-- Digits without a leading zero, unless they are a zero alone. -/
def whole? (cs : List Char) : Option (List Char × List Char) :=
  match cs with
  | '0' :: rest => if (rest.head?.map Char.isDigit).getD false then none else some (['0'], rest)
  | c :: _ =>
    if c.isDigit then some (cs.takeWhile Char.isDigit, cs.dropWhile Char.isDigit) else none
  | [] => none

/-- One digit or more. -/
def digits? (cs : List Char) : Option (List Char × List Char) :=
  let digits := cs.takeWhile Char.isDigit
  if digits.isEmpty then none else some (digits, cs.dropWhile Char.isDigit)

def fraction? : List Char → Option (Option (List Char) × List Char)
  | '.' :: rest => (digits? rest).map fun (digits, rest) => (some digits, rest)
  | cs => some (none, cs)

def exponent? : List Char → Option (Option (Bool × List Char) × List Char)
  | c :: rest =>
    if c = 'e' ∨ c = 'E' then
      let (negative, rest) := Decimal.splitSign rest
      (digits? rest).map fun (digits, rest) => (some (negative, digits), rest)
    else some (none, c :: rest)
  | [] => some (none, [])

def numeral? (negative : Bool) (cs : List Char) : Option (RawJson × List Char) := do
  let (whole, rest) ← whole? cs
  let (fraction, rest) ← fraction? rest
  let (exponent, rest) ← exponent? rest
  some (number ⟨negative, whole, fraction, exponent⟩, rest)

/-- A fixed word, of which the first letter has been read. -/
def word? (word : List Char) (json : RawJson) (cs : List Char) : Option (RawJson × List Char) :=
  if word.isPrefixOf cs then some (json, cs.drop word.length) else none

mutual

/-- A value that begins with the first character. -/
def value? : Nat → List Char → Option (RawJson × List Char)
  | 0, _ => none
  | _ + 1, [] => none
  | fuel + 1, c :: rest =>
    if c = 'n' then word? ['u', 'l', 'l'] null rest
    else if c = 't' then word? ['r', 'u', 'e'] (bool true) rest
    else if c = 'f' then word? ['a', 'l', 's', 'e'] (bool false) rest
    else if c = '"' then (stringTail? rest).map fun (parts, rest) => (string parts, rest)
    else if c = '-' then numeral? true rest
    else if c = '[' then
      match skipSpace rest with
      | ']' :: rest => some (array [], rest)
      | rest => (items? fuel rest).map fun (items, rest) => (array items, rest)
    else if c = '{' then
      match skipSpace rest with
      | '}' :: rest => some (object [], rest)
      | rest => (members? fuel rest).map fun (members, rest) => (object members, rest)
    else numeral? false (c :: rest)

/-- The items of an array up to and with its closing bracket. -/
def items? : Nat → List Char → Option (List RawJson × List Char)
  | 0, _ => none
  | fuel + 1, cs => do
    let (item, rest) ← value? fuel cs
    match skipSpace rest with
    | ']' :: rest => some ([item], rest)
    | ',' :: rest =>
      let (items, rest) ← items? fuel (skipSpace rest)
      some (item :: items, rest)
    | _ => none

/-- The members of an object up to and with its closing brace. -/
def members? : Nat → List Char → Option (List (List StringPart × RawJson) × List Char)
  | 0, _ => none
  | fuel + 1, cs => do
    match cs with
    | '"' :: rest =>
      let (key, rest) ← stringTail? rest
      match skipSpace rest with
      | ':' :: rest =>
        let (value, rest) ← value? fuel (skipSpace rest)
        match skipSpace rest with
        | '}' :: rest => some ([(key, value)], rest)
        | ',' :: rest =>
          let (members, rest) ← members? fuel (skipSpace rest)
          some ((key, value) :: members, rest)
        | _ => none
      | _ => none
    | _ => none

end

/-- The document that a text holds, blanks around it aside. Two steps a character are enough. -/
def ofChars? (cs : List Char) : Option RawJson := do
  let (json, rest) ← value? (2 * cs.length + 2) (skipSpace cs)
  if (skipSpace rest).isEmpty then some json else none

def parse? (text : String) : Option RawJson := ofChars? text.toList

end RawJson
end CommandGrammar
