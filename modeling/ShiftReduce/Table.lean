import ShiftReduce.Grammar
import ShiftReduce.Table.Row

/-!
Parsing tables. A table is a grammar with the rows of an automaton, which are
numbered from zero, and the entry that holds wherever a row has none. A draft
becomes a table when it has a row and every state and production its entries name,
at any depth of branching, exists.
-/
namespace ShiftReduce

variable {τ ν : Type}

/-- An automaton over a grammar. -/
structure Table (τ ν : Type) where
  grammar : Grammar τ ν
  rows : List (Row τ ν)
  defaultEntry : Entry τ
  deriving DecidableEq, Repr

namespace Table

/-- The row of a state. -/
def row? (t : Table τ ν) (state : Nat) : Option (Row τ ν) := t.rows[state]?

/-- The terminals that have an entry in some row, each once. -/
def terminals [DecidableEq τ] (t : Table τ ν) : List τ :=
  (t.rows.flatMap fun row => row.entries.keys).eraseDups

end Table

/-- Why a draft is no table. -/
inductive TableError where
  | noStates
  | unknownState (state target size : Nat)
  | unknownProduction (state production size : Nat)
  deriving DecidableEq, Repr

/-- The wording of a defect of a draft. -/
def TableError.message : TableError → String
  | .noStates => "The parsing table has no states"
  | .unknownState state target size =>
    "State " ++ toString state ++ " refers to state " ++ toString target ++
      ", but the table has " ++ toString size ++ " states"
  | .unknownProduction state production size =>
    "State " ++ toString state ++ " reduces by production " ++ toString production ++
      ", but the grammar has " ++ toString size ++ " productions"

/-- The message of the error that is reported where a row has no entry. -/
def defaultMessage : String := "Syntax error"

/-- A table being drafted. -/
structure TableDraft (τ ν : Type) where
  grammar : Grammar τ ν
  rows : List (Row τ ν) := []
  message : String := defaultMessage
  deriving DecidableEq, Repr

namespace TableDraft

/-- The number of rows so far. -/
def size (d : TableDraft τ ν) : Nat := d.rows.length

/-- A draft with another message for missing entries; rows drafted before keep
theirs. -/
def setMessage (d : TableDraft τ ν) (message : String) : TableDraft τ ν := { d with message }

/-- A row to be drafted for the table. -/
def newRow (d : TableDraft τ ν) : RowDraft τ ν := { message := d.message }

/-- A draft with another row, whose number is the old size. -/
def push (d : TableDraft τ ν) (r : RowDraft τ ν) : TableDraft τ ν := { d with rows := d.rows ++ [r.row] }

/-- A draft with another row that is drafted in place. -/
def addRow (d : TableDraft τ ν) (draft : RowDraft τ ν → RowDraft τ ν) : TableDraft τ ν :=
  d.push (draft d.newRow)

/-- Whether a target of a state exists. -/
def checkTarget (d : TableDraft τ ν) (state target : Nat) : Except TableError Unit :=
  if target < d.size then .ok () else .error (.unknownState state target d.size)

/-- Whether everything an entry of a state names exists. -/
def checkEntry (d : TableDraft τ ν) (state : Nat) : Entry τ → Except TableError Unit
  | .shift target | .goto target => d.checkTarget state target
  | .reduce production =>
    if production < d.grammar.size then .ok ()
    else .error (.unknownProduction state production d.grammar.size)
  | .accept | .error _ => .ok ()
  | .branch _ ifEqual otherwise =>
    match d.checkEntry state ifEqual with
    | .error defect => .error defect
    | .ok () => d.checkEntry state otherwise

/-- The first defect that a check finds in a list. -/
def firstDefect {α : Type} (check : α → Except TableError Unit) : List α → Except TableError Unit
  | [] => .ok ()
  | a :: rest =>
    match check a with
    | .error defect => .error defect
    | .ok () => firstDefect check rest

/-- Whether everything a row names exists. -/
def checkRow (d : TableDraft τ ν) (state : Nat) (row : Row τ ν) : Except TableError Unit :=
  match firstDefect (fun pair => d.checkEntry state pair.2) row.entries.pairs with
  | .error defect => .error defect
  | .ok () => firstDefect (fun pair => d.checkTarget state pair.2) row.gotos.pairs

/-- The table, unless the draft has a defect; the first row with one is reported. -/
def build (d : TableDraft τ ν) : Except TableError (Table τ ν) :=
  if d.rows.isEmpty then .error .noStates
  else
    match firstDefect (fun pair => d.checkRow pair.2 pair.1) d.rows.zipIdx with
    | .error defect => .error defect
    | .ok () => .ok ⟨d.grammar, d.rows, .error d.message⟩

end TableDraft

end ShiftReduce
