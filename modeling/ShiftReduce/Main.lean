import ShiftReduce.CommandLine

/-!
The program: it reads the files that its arguments name, runs the command on them
and writes what comes of it.
-/
open ShiftReduce

/-- What a path opens to on this machine. A directory opens, but cannot be read. -/
def openFile (path : String) : IO (Except ReadError ByteReader) := do
  try
    let bytes ← IO.FS.readBinFile path
    return .ok (.ofBytes bytes.toList)
  catch
    | .noFileOrDirectory _ _ _ => return .error .notFound
    | .inappropriateType _ code _ =>
      return if code = 21 then .ok ⟨[.failure .isDirectory]⟩ else .error .notDirectory
    | .permissionDenied _ code _ =>
      return .error (.failed ("Permission denied (os error " ++ toString code ++ ")"))
    | error => return .error (.failed (toString error))

/-- Run a command, with twice the number of turns as long as they do not suffice. -/
partial def runCommand (files : Files) (arguments : List String) (limit : Nat) : Exit :=
  match CommandLine.run limit files arguments with
  | some exit => exit
  | none => runCommand files arguments (2 * limit)

def main (arguments : List String) : IO UInt32 := do
  let opened ← (CommandLine.paths arguments).mapM fun path => return (path, ← openFile path)
  let files : Files := fun path => (opened.lookup path).getD (.error .notFound)
  let exit := runCommand files arguments 1000000
  IO.print exit.output
  IO.eprint exit.errors
  return UInt32.ofNat exit.code
