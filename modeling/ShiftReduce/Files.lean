import ShiftReduce.Input.ByteReader

/-!
Files as far as reading them goes: what a path opens to. A path is a text of names
with slashes between them.
-/
namespace ShiftReduce

/-- What every path opens to. -/
abbrev Files := String → Except ReadError ByteReader

/-- The path of a name in a directory. A name that starts with a slash needs no
directory. -/
def joinPath (directory name : String) : String :=
  if directory.isEmpty || name.startsWith "/" then name
  else if directory.endsWith "/" then directory ++ name
  else directory ++ "/" ++ name

/-- The text of a file. -/
def Files.readText (files : Files) (path : String) : Except ReadError (List Char) :=
  match files path with
  | .error error => .error error
  | .ok reader => reader.readAll

end ShiftReduce
