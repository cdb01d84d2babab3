import ShiftReduce.Command

/-!
The command line: which command the arguments ask for, and what is written to the
two streams and returned as the exit code.
-/
namespace ShiftReduce

/-- What a program leaves when it ends. -/
structure Exit where
  code : Nat
  output : String := ""
  errors : String := ""
  deriving DecidableEq, Inhabited, Repr

namespace CommandLine

/-- The usage of the program. -/
def usage : String := Command.linesOf [
  "lrkit: table-driven LR parsing",
  "",
  "Usage: lrkit <command> [arguments]",
  "",
  "Commands:",
  "  check <dir> <name>          Load a language and list its productions",
  "  lex <dir> <name> <file>     Tokenize a file and display the tokens",
  "  parse <dir> <name> <file>   Parse a file and display the reductions",
  "  help                        Show this help message",
  "  version                     Show version information",
  "",
  "A language <name> in <dir> is read from <name>.grammar, <name>.table",
  "and, if present, <name>.error.",
  "",
  "Environment:",
  "  LRKIT_LOG    Tracing filter, e.g. lrkit_parse=trace (falls back to RUST_LOG)"]

/-- The version of the program. -/
def version : String := "lrkit 0.1.0\n"

/-- The end of a program that was called with too few arguments. -/
def misuse (arguments : String) : Exit := { code := 1, errors := "Usage: lrkit " ++ arguments ++ "\n" }

/-- The end of a program that has run a command. -/
def exitOf (outcome : CommandOutcome) : Exit :=
  match outcome.result with
  | .ok true => { code := 0, output := outcome.written }
  | .ok false => { code := 1, output := outcome.written }
  | .error error =>
    { code := 1, output := outcome.written, errors := "error: " ++ error.message ++ "\n" }

/-- What the arguments lead to. Arguments behind those of a command do not matter.
There is no answer if a parse takes more turns than the limit. -/
def run (limit : Nat) (files : Files) : List String → Option Exit
  | [] => some { code := 1, output := usage }
  | "check" :: directory :: name :: _ => some (exitOf (Command.check files directory name))
  | "check" :: _ => some (misuse "check <dir> <name>")
  | "lex" :: directory :: name :: file :: _ =>
    some (exitOf (Command.lex files directory name file))
  | "lex" :: _ => some (misuse "lex <dir> <name> <file>")
  | "parse" :: directory :: name :: file :: _ =>
    (Command.parse limit files directory name file).map exitOf
  | "parse" :: _ => some (misuse "parse <dir> <name> <file>")
  | command :: _ =>
    if command ∈ ["help", "--help", "-h"] then some { code := 0, output := usage }
    else if command ∈ ["version", "--version", "-V"] then some { code := 0, output := version }
    else some { code := 1, output := usage, errors := "Unknown command: " ++ command ++ "\n\n" }

/-- The paths that a command may read. -/
def paths : List String → List String
  | _ :: directory :: name :: rest =>
    ([".grammar", ".error", ".table"].map fun ending => joinPath directory (name ++ ending)) ++
      rest.take 1
  | _ => []

end CommandLine

end ShiftReduce
