import CommandGrammar.Text.Blank

/-! A command line and its words. Blanks separate words outside double quotes; a backslash escapes
a quote everywhere and a backslash only inside quotes. Rendering quotes the words that need it, so
that splitting the rendered line gives the words back. -/
namespace CommandGrammar.Line
open Text

/-- What has been read of the current word. A word may be empty once a quote has opened it. -/
inductive Reading where
  | between
  | bare (word : List Char)
  | quoted (word : List Char)
deriving DecidableEq

namespace Reading

def push (c : Char) : Reading → Reading
  | between => bare [c]
  | bare word => bare (word ++ [c])
  | quoted word => quoted (word ++ [c])

/-- A double quote opens a quoted part or closes it; either way there is a word. -/
def toggle : Reading → Reading
  | between => quoted []
  | bare word => quoted word
  | quoted word => bare word

/-- The word in progress, if there is one. -/
def word? : Reading → List (List Char)
  | between => []
  | bare word | quoted word => [word]

end Reading

def splitFrom : Reading → List Char → List (List Char)
  | reading, [] => reading.word?
  | reading, '\\' :: '"' :: rest => splitFrom (reading.push '"') rest
  | .quoted word, '\\' :: '\\' :: rest => splitFrom (.quoted (word ++ ['\\'])) rest
  | reading, '"' :: rest => splitFrom reading.toggle rest
  | .quoted word, c :: rest => splitFrom (.quoted (word ++ [c])) rest
  | reading, c :: rest =>
    if isBlank c then reading.word? ++ splitFrom .between rest
    else splitFrom (reading.push c) rest

/-- The words of a command line. -/
def split (line : String) : List String :=
  (splitFrom .between line.toList).map .ofList

def needsQuotes (word : List Char) : Bool :=
  word.isEmpty || word.any fun c => isBlank c || c == '"' || c == '\\'

def escape (word : List Char) : List Char :=
  word.flatMap fun c => if c = '"' ∨ c = '\\' then ['\\', c] else [c]

def renderWord (word : List Char) : List Char :=
  if needsQuotes word then '"' :: escape word ++ ['"'] else word

/-- A command line with the given words. -/
def render (words : List String) : String :=
  .ofList ([' '].intercalate (words.map fun word => renderWord word.toList))

end CommandGrammar.Line
