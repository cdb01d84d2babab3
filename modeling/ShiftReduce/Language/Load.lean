import ShiftReduce.Files
import ShiftReduce.Language
import ShiftReduce.Table.Notation

/-!
Languages on disk. A language is three files of one name in a directory: a
grammar, a table, and messages, which may be missing.
-/
namespace ShiftReduce

variable {τ ν : Type}

/-- Why a language cannot be loaded. -/
inductive LoadError where
  | unreadable (path : String) (error : ReadError)
  | grammar (error : NotationError)
  | messages (error : MalformedMessage)
  | table (error : TableTextError)
  deriving DecidableEq

/-- The wording of a failure to load. -/
def LoadError.message : LoadError → String
  | .unreadable path error => "Could not read " ++ path ++ ": " ++ error.message
  | .grammar error => error.message
  | .messages error => error.message
  | .table error => error.message

/-- The text of a file of a language. -/
def Files.loadText (files : Files) (path : String) : Except LoadError (List Char) :=
  (files.readText path).mapError (.unreadable path)

/-- The messages in a file; without the file there are none. -/
def Messages.load (files : Files) (path : String) : Except LoadError Messages :=
  match files.readText path with
  | .error .notFound => .ok {}
  | .error error => .error (.unreadable path error)
  | .ok text => (Messages.ofText text).mapError .messages

/-- The table of a language: the grammar is read first, then the messages, and the
table last. -/
def Table.load [DecidableEq τ] [DecidableEq ν] (names : Naming τ ν) (files : Files)
    (directory name : String) : Except LoadError (Table τ ν) := do
  let path (extension : String) := joinPath directory (name ++ extension)
  let grammarText ← files.loadText (path ".grammar")
  let grammar ← (Grammar.ofText names grammarText).mapError .grammar
  let messages ← Messages.load files (path ".error")
  let tableText ← files.loadText (path ".table")
  (Table.ofText names messages grammar tableText).mapError .table

/-- The language with a name in a directory. -/
def Language.load (files : Files) (directory name : String) : Except LoadError Language :=
  (Table.load .byCapitals files directory name).map (Language.ofTable name)

end ShiftReduce
