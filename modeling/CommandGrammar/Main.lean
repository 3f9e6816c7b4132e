import CommandGrammar.Tool

/-! The tool as a program. A run asks about no other paths than the grammar file and the values
given, each of which is the end of an argument; so all of these are looked up in advance. -/
namespace CommandGrammar.Main

def faultOf : IO.Error → PathFault
  | .noFileOrDirectory .. => .notFound
  | .inappropriateType _ 20 _ => .notDirectory
  | .inappropriateType _ 21 _ => .isDirectory
  | error => .other (toString error)

/-- Does something with a path that an operating system can be told. -/
def withPath {α : Type} (path : String) (act : IO α) : IO (Except PathFault α) :=
  if '\x00' ∈ path.toList then pure (.error .interiorNul)
  else
    try
      return .ok (← act)
    catch error => return .error (faultOf error)

/-- A path can be continued iff it names a directory. -/
def isDirectory (path : String) : IO (Except PathFault Bool) := do
  let found ← withPath path do
    discard <| IO.FS.Handle.mk path .read
  let inside ← withPath path do
    discard <| IO.FS.Handle.mk (path ++ "/.") .read
  return found.map fun _ => inside.isOk

def ends : List Char → List String
  | [] => [""]
  | c :: rest => .ofList (c :: rest) :: ends rest

/-- The files that a run may ask about. -/
def filesFor (args : List String) : IO Files := do
  let paths := args.flatMap fun arg => ends arg.toList
  let directories ← paths.mapM fun path => do return (path, ← isDirectory path)
  let text ← match Tool.order args with
    | .ok order => withPath order.path (IO.FS.readFile order.path)
    | .error _ => pure (.error .notFound)
  return {
    isDirectory := fun path => (directories.lookup path).getD (.error .notFound)
    read := fun _ => text }

end CommandGrammar.Main

def main (args : List String) : IO UInt32 := do
  let answer := CommandGrammar.Tool.run (← CommandGrammar.Main.filesFor args) args
  IO.print answer.output
  IO.eprint answer.errors
  return answer.code.toUInt32
