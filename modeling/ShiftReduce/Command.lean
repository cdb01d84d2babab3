import ShiftReduce.Language.Load

/-!
Commands on a language: list its productions, tokenize a file with it, or parse a
file with it. A command leaves a written report, also when it fails on the way,
and says whether all was well with what it looked at.
-/
namespace ShiftReduce

/-- Why a command could not do its work. -/
inductive CommandError where
  | load (error : LoadError)
  | cannotOpen (path : String) (error : ReadError)
  | lex (error : LexError)
  deriving DecidableEq

/-- The wording of a failure of a command. -/
def CommandError.message : CommandError → String
  | .load error => error.message
  | .cannotOpen path error => "cannot open '" ++ path ++ "': " ++ error.message
  | .lex error => "error reading input: " ++ error.message

/-- What a command has written, and its result: whether all was well, or why the
command stopped. -/
structure CommandOutcome where
  written : String
  result : Except CommandError Bool

namespace Command

/-- Lines of a report. -/
def linesOf (lines : List String) : String := String.join (lines.map (· ++ "\n"))

/-- The outcome of a command that stops before it writes anything. -/
def stop (error : CommandError) : CommandOutcome := ⟨"", .error error⟩

/-- The source that a path opens to. -/
def openSource (files : Files) (path : String) : Except CommandError Source :=
  match files path with
  | .error error => .error (.cannotOpen path error)
  | .ok reader => .ok (.bytes reader)

/-- The report on a language: its size, its terminals and its productions. -/
def summary (language : Language) : List String :=
  let table := language.table
  let numbered := table.grammar.productions.zipIdx.map fun (production, index) =>
    "  " ++ Text.padStart 3 (toString index) ++ "  " ++ production.display
  ["Language '" ++ language.name ++ "': " ++ toString table.grammar.size ++ " productions, " ++
      toString table.rows.length ++ " states",
    "Terminals: " ++ " ".intercalate (ascending table.terminals),
    "",
    "Productions:"] ++ numbered

/-- List the productions of a language. -/
def check (files : Files) (directory name : String) : CommandOutcome :=
  match Language.load files directory name with
  | .error error => stop (.load error)
  | .ok language => ⟨linesOf (summary language), .ok true⟩

/-- A line for each token and each text that was not recognized, and the failed
read that ends them, if there is one. -/
def tokenLines : List (Lexed String) → List String × Except CommandError Bool
  | [] => ([], .ok true)
  | .ok token :: rest =>
    let (lines, result) := tokenLines rest
    (("  " ++ token.display) :: lines, result)
  | .error (.unrecognized text reason?) :: rest =>
    let (lines, result) := tokenLines rest
    (("  error: " ++ (LexError.unrecognized text reason?).message) :: lines,
      result.map fun _ => false)
  | .error (.unreadable error) :: _ => ([], .error (.lex (.unreadable error)))

/-- Tokenize a file. The heading is written before the file is opened. -/
def lex (files : Files) (directory name file : String) : CommandOutcome :=
  match Language.load files directory name with
  | .error error => stop (.load error)
  | .ok language =>
    let heading := "Tokens for '" ++ file ++ "':"
    match openSource files file with
    | .error error => ⟨linesOf [heading], .error error⟩
    | .ok source =>
      let (lines, result) := tokenLines (language.tokenizer source).drain.1
      ⟨linesOf (heading :: lines), result⟩

/-- The report on a parse: the reductions, and then the tree or the diagnostics. -/
def parseLines (file : String) (report : Report) : List String :=
  let reductions := report.reductions.map fun production => "  " ++ production.display
  let verdict :=
    if report.isSuccess then
      match report.tree? with
      | some tree => ["Accepted: " ++ tree.display]
      | none => ["Accepted"]
    else "Errors:" :: report.diagnostics.map ("  " ++ ·)
  ("Reductions for '" ++ file ++ "':") :: reductions ++ "" :: verdict

/-- Parse a file, with at most as many turns as the limit. -/
def parse (limit : Nat) (files : Files) (directory name file : String) : Option CommandOutcome :=
  match Language.load files directory name with
  | .error error => some (stop (.load error))
  | .ok language =>
    match openSource files file with
    | .error error => some (stop error)
    | .ok source =>
      (language.parse limit source).map fun
        | .error error => stop (.lex error)
        | .ok report => ⟨linesOf (parseLines file report), .ok report.isSuccess⟩

end Command

end ShiftReduce
