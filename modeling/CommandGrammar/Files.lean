/-! What a program may learn about files: whether a path names a directory, the text of a file, and
the reasons why neither can be told. -/
namespace CommandGrammar

inductive PathFault where
  | notFound
  | notDirectory
  | isDirectory
  | nameTooLong
  | interiorNul
  | other (message : String)
deriving DecidableEq

def PathFault.message : PathFault → String
  | notFound => "No such file or directory (os error 2)"
  | notDirectory => "Not a directory (os error 20)"
  | isDirectory => "Is a directory (os error 21)"
  | nameTooLong => "File name too long (os error 36)"
  | interiorNul => "file name contained an unexpected NUL byte"
  | other message => message

structure Files where
  /-- Whether the path names a directory. -/
  isDirectory : String → Except PathFault Bool
  /-- The text of a file. -/
  read : String → Except PathFault String

end CommandGrammar
