import CommandGrammar.Text.Blank
import CommandGrammar.Text.Combining
import CommandGrammar.Text.Unassigned

/-! A text quoted for a diagnostic. Quotes and backslashes are escaped, and a character that a
terminal would not show by itself is spelled by its code point. -/
namespace CommandGrammar.Text

/-- The ranges of controls, format controls, fillers and private characters. -/
def invisibleRanges : Ranges :=
  [(0x00, 0x1F), (0x7F, 0x9F), (0xAD, 0xAD), (0x600, 0x605), (0x61C, 0x61C), (0x6DD, 0x6DD),
    (0x70F, 0x70F), (0x890, 0x891), (0x8E2, 0x8E2), (0x115F, 0x1160), (0x180E, 0x180E),
    (0x200B, 0x200F), (0x202A, 0x202E), (0x2060, 0x2064), (0x2066, 0x206F), (0x3164, 0x3164),
    (0xE000, 0xF8FF), (0xFEFF, 0xFEFF), (0xFFA0, 0xFFA0), (0xFFF9, 0xFFFB), (0x110BD, 0x110BD),
    (0x110CD, 0x110CD), (0x13430, 0x1343F), (0x1BCA0, 0x1BCA3), (0x1D173, 0x1D17A),
    (0xE0001, 0xE0001), (0xE0020, 0xE007F), (0xF0000, 0xFFFFD), (0x100000, 0x10FFFD)]

/-- A terminal shows nothing, or a mark on another character. -/
def isInvisible (c : Char) : Bool :=
  c != ' ' && isBlank c || invisibleRanges.has c || isCombining c || isUnassigned c

/-- The code point in hexadecimal without leading zeros. -/
def codePoint (c : Char) : List Char :=
  ['\\', 'u', '{'] ++ Nat.toDigits 16 c.toNat ++ ['}']

def quotedChar (c : Char) : List Char :=
  if c = '"' ∨ c = '\\' then ['\\', c]
  else if c = '\t' then ['\\', 't']
  else if c = '\n' then ['\\', 'n']
  else if c = '\r' then ['\\', 'r']
  else if c = '\x00' then ['\\', '0']
  else if isInvisible c then codePoint c
  else [c]

def quoted (text : String) : String :=
  .ofList ('"' :: text.toList.flatMap quotedChar ++ ['"'])

end CommandGrammar.Text
