import CommandGrammar.Files

/-! Files kept in memory, with the rules by which a path is followed: slashes separate the steps, a
step needs a directory to start from, and names and paths are bounded in length. -/
namespace CommandGrammar

inductive FileTree where
  | file (text : String)
  | directory (entries : List (String × FileTree))

namespace FileTree

def separate : List Char → List (List Char)
  | [] => [[]]
  | c :: rest =>
    match separate rest with
    | [] => [[c]]
    | step :: steps => if c = '/' then [] :: step :: steps else (c :: step) :: steps

def nameLimit : Nat := 255
def pathLimit : Nat := 4096

/-- Follows the steps of a path. The directories passed on the way are kept, innermost first, so
that `..` can return to the one before. -/
def follow (here : FileTree) (passed : List FileTree) : List String → Except PathFault FileTree
  | [] => .ok here
  | step :: steps =>
    match here with
    | file _ => .error .notDirectory
    | directory entries =>
      if step = "" ∨ step = "." then follow here passed steps
      else if step = ".." then
        match passed with
        | [] => follow here [] steps
        | outer :: rest => follow outer rest steps
      else if nameLimit < step.utf8ByteSize then .error .nameTooLong
      else
        match entries.lookup step with
        | none => .error .notFound
        | some next => follow next (here :: passed) steps

/-- The node that a path names; relative paths start from the given directory below the root. -/
def resolve (root : FileTree) (start : List String) (path : String) : Except PathFault FileTree :=
  let cs := path.toList
  let steps := (separate cs).map .ofList
  if '\x00' ∈ cs then .error .interiorNul
  else if pathLimit ≤ path.utf8ByteSize then .error .nameTooLong
  else if cs.isEmpty then .error .notFound
  else if cs.head? = some '/' then follow root [] steps
  else follow root [] (start ++ steps)

/-- The files of a tree, seen from a directory in it. -/
def files (root : FileTree) (start : List String) : Files where
  isDirectory path := (resolve root start path).map fun
    | file _ => false
    | directory _ => true
  read path := do
    match ← resolve root start path with
    | file text => .ok text
    | directory _ => .error .isDirectory

end FileTree
end CommandGrammar
