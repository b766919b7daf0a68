import RelationalAvro.Text.Segments

/-!
# Paths

A path is a text of steps separated by slashes. Repeated slashes count once; a path that starts with
a slash starts at the root, and any other at the working directory. The text as it is given, not the
place it leads to, is limited in length.
-/

namespace RelationalAvro.Files

/-- The steps of a path. -/
def steps (path : String) : List String :=
  ((Text.segments '/' path.toList).filter fun step => !step.isEmpty).map String.ofList

/-- Does the path start at the root? -/
def isAbsolute (path : String) : Bool :=
  path.toList.head? == some '/'

/-- The names that lead to a place from the root. -/
abbrev Location := List String

/-- The steps of a path from the root, if `working` is the working directory. -/
def stepsFrom (working : Location) (path : String) : List String :=
  if isAbsolute path then steps path else working ++ steps path

/-- Does the path insist on a directory? -/
def endsInSlash (path : String) : Bool :=
  path.toList.getLast? == some '/'

/-- The bytes that the text of a path may have, dot steps and repeated slashes included. -/
def maxPathBytes : Nat :=
  4095

/-- Is the path one that no file or directory can have? -/
def isImpossible (path : String) : Bool :=
  path.isEmpty || path.toList.contains '\x00' || decide (maxPathBytes < path.utf8ByteSize)

/-- The path of `name` seen from the directory `directory`. -/
def join (directory name : String) : String :=
  if isAbsolute name then name
  else if directory.isEmpty || endsInSlash directory then directory ++ name
  else directory ++ "/" ++ name

end RelationalAvro.Files
