import CommandGrammar.Text.Blank

/-! Aliases of commands and options. A leading `--`, `-` or `/` is decoration: two aliases that
agree without it name the same symbol. -/
namespace CommandGrammar.Alias
open Text

def bareChars : List Char → List Char
  | '-' :: '-' :: rest => rest
  | '-' :: rest => rest
  | '/' :: rest => rest
  | cs => cs

/-- The alias without its leading `--`, `-` or `/`. -/
def bare (name : String) : String :=
  .ofList (bareChars name.toList)

/-- The longer of two texts in UTF-8 bytes, the first one if they are equally long. -/
def longer (first second : String) : String :=
  if first.utf8ByteSize < second.utf8ByteSize then second else first

/-- The longest alias, decoration included, is the one that diagnostics quote. -/
def display (aliases : List String) : String :=
  aliases.foldl longer ""

/-- The longest bare alias names a symbol that was given no name of its own. -/
def defaultName (aliases : List String) : String :=
  (aliases.map bare).foldl longer ""

/-- The form under which values are looked up: case, dashes and underscores do not count. -/
def lookupKey (name : String) : String :=
  .ofList (((bareChars (trimChars name.toList)).filter fun c => c != '-' && c != '_').map
    Char.toLower)

end CommandGrammar.Alias
