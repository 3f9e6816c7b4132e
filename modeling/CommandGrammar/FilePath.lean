import CommandGrammar.Text.Utf8

/-! Paths of files. A path is a row of bytes, and it need not be a text. Two paths are the same if
they go through the same names, however the slashes between these are written. -/
namespace CommandGrammar

structure FilePath where
  bytes : List UInt8
deriving DecidableEq

namespace FilePath

def ofText (text : String) : FilePath := ⟨Utf8.encode text.toList⟩

/-- The text that shows a path. It tells the path only if the path is a text. -/
def display (path : FilePath) : String := .ofList (Utf8.decode path.bytes)

@[simp] theorem display_ofText (text : String) : (ofText text).display = text := by
  rw [ofText, display, Utf8.decode_encode, String.ofList_toList]

/-- Whether the bytes of a path are those of a text. -/
def IsUnicode (path : FilePath) : Prop := ∃ text, path = ofText text

theorem isUnicode_ofText (text : String) : (ofText text).IsUnicode := ⟨text, rfl⟩

/-- A path that is a text is read back from what it is shown as. -/
theorem isUnicode_iff {path : FilePath} : path.IsUnicode ↔ ofText path.display = path := by
  constructor
  · rintro ⟨text, rfl⟩
    rw [display_ofText]
  · exact fun same => ⟨_, same.symm⟩

instance (path : FilePath) : Decidable path.IsUnicode := decidable_of_iff _ isUnicode_iff.symm

/-- The pieces between slashes. -/
def separate : List UInt8 → List (List UInt8)
  | [] => [[]]
  | byte :: rest =>
    match separate rest with
    | [] => [[byte]]
    | name :: names => if byte = '/'.toUInt8 then [] :: name :: names else (byte :: name) :: names

def isAbsolute (path : FilePath) : Bool := path.bytes.head? == some '/'.toUInt8

/-- The names that a path goes through. A dot counts only as the first of them. -/
def names (path : FilePath) : List (List UInt8) :=
  match separate path.bytes with
  | [] => []
  | name :: names =>
    (name :: names.filter (· != ['.'.toUInt8])).filter (!·.isEmpty)

def equal (a b : FilePath) : Bool := a.isAbsolute == b.isAbsolute && a.names == b.names

example : (ofText "src//main/.").equal (ofText "src/main/") = true := by decide +kernel

end FilePath
end CommandGrammar
