import CommandGrammar.Text.Ranges

/-! White space is the Unicode property White_Space, which is wider than the blanks of ASCII.
Trimming drops the blank runs at both ends of a text and nothing else. -/
namespace CommandGrammar.Text

/-- The ranges of White_Space. -/
def blankRanges : Ranges :=
  [(0x09, 0x0D), (0x20, 0x20), (0x85, 0x85), (0xA0, 0xA0), (0x1680, 0x1680), (0x2000, 0x200A),
    (0x2028, 0x2029), (0x202F, 0x202F), (0x205F, 0x205F), (0x3000, 0x3000)]

def isBlank (c : Char) : Bool := blankRanges.has c

def trimChars (cs : List Char) : List Char :=
  ((cs.dropWhile isBlank).reverse.dropWhile isBlank).reverse

theorem length_trimChars_le (cs : List Char) : (trimChars cs).length ≤ cs.length := by
  have outer := (List.dropWhile_sublist (l := (cs.dropWhile isBlank).reverse) isBlank).length_le
  have inner := (List.dropWhile_sublist (l := cs) isBlank).length_le
  simp only [trimChars, List.length_reverse] at *
  omega

def trim (text : String) : String :=
  .ofList (trimChars text.toList)

/-- The empty text is blank, too. -/
def allBlank (text : String) : Bool :=
  text.toList.all isBlank

/-- Whether `part` occurs somewhere in the given characters. -/
def occursIn (part : List Char) : List Char → Bool
  | [] => part.isEmpty
  | c :: rest => part.isPrefixOf (c :: rest) || occursIn part rest

def contains (text part : String) : Bool :=
  occursIn part.toList text.toList

/-- ASCII letters in lower case, every other character as it is. -/
def lowercase (text : String) : String :=
  .ofList (text.toList.map Char.toLower)

end CommandGrammar.Text
