import ShiftReduce.Grammar.Notation
import ShiftReduce.Messages
import ShiftReduce.Table

/-!
Tables as text. Cells are separated by tabs. The first line has an empty cell and
then a name for each column, which is tried as a terminal first and as a
nonterminal then. Every further line starts with the number of its state and has
an entry in some columns: a letter and a number, or the word for accepting, under
a terminal, and a bare number under a nonterminal. An error entry names the code
of a message. Blank lines and lines that start with a hash are left out.
-/
namespace ShiftReduce

variable {τ ν : Type}

/-- Why a text is no table. -/
inductive TableTextError where
  | missingHeader
  | invalidColumn (symbol : String)
  | unexpectedState (expected : Nat) (found : String)
  | invalidAction (action row column : String)
  | extraCell (row : String)
  | missingMessage (code : Nat)
  | defect (error : TableError)
  deriving DecidableEq, Repr

/-- The wording of a malformed table. -/
def TableTextError.message : TableTextError → String
  | .missingHeader => "Could not find header row for table"
  | .invalidColumn symbol => "\"" ++ symbol ++ "\" in parse table is not a valid symbol"
  | .unexpectedState expected found =>
    "Expected state \"" ++ toString expected ++ "\" but found \"" ++ found ++ "\""
  | .invalidAction action row column =>
    "Invalid action \"" ++ action ++ "\" in row \"" ++ row ++ "\" and column \"" ++ column ++ "\""
  | .extraCell row => "Row \"" ++ row ++ "\" has more cells than the header"
  | .missingMessage code => "Could not find error message for error code \"" ++ toString code ++ "\""
  | .defect error => error.message

/-- A column with the name in its first line. -/
structure Column (τ ν : Type) where
  symbol : Symbol τ ν
  name : String
  deriving DecidableEq, Repr

namespace Column

/-- The column with a name. -/
def ofName (names : Naming τ ν) (name : String) : Except TableTextError (Column τ ν) :=
  match names.terminal? name, names.nonterminal? name with
  | some terminal, _ => .ok ⟨.terminal terminal, name⟩
  | none, some nonterminal => .ok ⟨.nonterminal nonterminal, name⟩
  | none, none => .error (.invalidColumn name)

/-- The columns with some names. -/
def ofNames (names : Naming τ ν) : List String → Except TableTextError (List (Column τ ν))
  | [] => .ok []
  | name :: rest =>
    match ofName names name with
    | .error error => .error error
    | .ok column => (ofNames names rest).map (column :: ·)

/-- The columns that the first line names. -/
def ofHeader (names : Naming τ ν) (header : List Char) : Except TableTextError (List (Column τ ν)) :=
  match (Text.cells header).map Text.trim with
  | [] :: cells => ofNames names (cells.map String.ofList)
  | _ => .error .missingHeader

end Column

/-- What a cell under a terminal says, if its form is right: the word for
accepting, or a letter and a number. -/
inductive CellCode where
  | accept
  | numbered (letter : Char) (number : Nat)
  deriving DecidableEq, Repr

/-- The form of a cell under a terminal. -/
def CellCode.ofCell? : List Char → Option CellCode
  | [] => none
  | letter :: digits =>
    if letter :: digits = "acc".toList then some .accept
    else (Number.count? digits).map (.numbered letter)

namespace RowDraft

variable [DecidableEq τ] [DecidableEq ν]

/-- A row with what a cell says about a column; the label is that of the row. -/
def addCell (messages : Messages) (label : String) (d : RowDraft τ ν) (column : Column τ ν)
    (cell : List Char) : Except TableTextError (RowDraft τ ν) :=
  let invalid := TableTextError.invalidAction (String.ofList cell) label column.name
  match column.symbol with
  | .nonterminal nonterminal =>
    match Number.count? cell with
    | some target => .ok (d.goto nonterminal target)
    | none => .error invalid
  | .terminal terminal =>
    match CellCode.ofCell? cell with
    | some .accept => .ok (d.accept terminal)
    | some (.numbered 's' state) => .ok (d.shift terminal state)
    | some (.numbered 'r' production) => .ok (d.reduce terminal production)
    | some (.numbered 'e' code) =>
      match messages.get? code with
      | some message => .ok (d.error terminal message)
      | none => .error (.missingMessage code)
    | _ => .error invalid

/-- A row with what its cells say; empty cells say nothing, and only empty cells
may stand behind the last column. -/
def addCells (messages : Messages) (label : String) :
    RowDraft τ ν → List (Column τ ν) → List (List Char) → Except TableTextError (RowDraft τ ν)
  | d, _, [] => .ok d
  | d, [], cell :: cells =>
    if cell.isEmpty then d.addCells messages label [] cells else .error (.extraCell label)
  | d, column :: columns, cell :: cells =>
    if cell.isEmpty then d.addCells messages label columns cells
    else
      match d.addCell messages label column cell with
      | .error error => .error error
      | .ok d => d.addCells messages label columns cells

end RowDraft

namespace TableDraft

variable [DecidableEq τ] [DecidableEq ν]

/-- The draft with another line. -/
def addLine (messages : Messages) (columns : List (Column τ ν)) (d : TableDraft τ ν)
    (line : List Char) : Except TableTextError (TableDraft τ ν) :=
  let cells := (Text.cells line).map Text.trim
  let label := cells.headD []
  if Number.count? label ≠ some d.size then
    .error (.unexpectedState d.size (String.ofList label))
  else
    (d.newRow.addCells messages (String.ofList label) columns cells.tail).map d.push

/-- The draft with some more lines. -/
def addLines (messages : Messages) (columns : List (Column τ ν)) :
    TableDraft τ ν → List (List Char) → Except TableTextError (TableDraft τ ν)
  | d, [] => .ok d
  | d, line :: rest =>
    match d.addLine messages columns line with
    | .error error => .error error
    | .ok d => d.addLines messages columns rest

end TableDraft

/-- The table in a text. -/
def Table.ofText [DecidableEq τ] [DecidableEq ν] (names : Naming τ ν) (messages : Messages)
    (grammar : Grammar τ ν) (text : List Char) : Except TableTextError (Table τ ν) :=
  match (Text.lines text).filter fun line => !isIdleLine line with
  | [] => .error .missingHeader
  | header :: rows =>
    match Column.ofHeader names header with
    | .error error => .error error
    | .ok columns =>
      match TableDraft.addLines messages columns { grammar } rows with
      | .error error => .error error
      | .ok draft => draft.build.mapError .defect

end ShiftReduce
