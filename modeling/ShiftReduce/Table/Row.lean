import ShiftReduce.Dictionary
import ShiftReduce.Table.Entry

/-!
Rows of a parsing table. A row has an entry for some terminals and a target state
for some nonterminals. While it is drafted, a later entry for a terminal replaces
the earlier one; a conditional entry keeps it for the case that its condition does
not hold, and where there is none that case is an error.
-/
namespace ShiftReduce

variable {τ ν : Type}

/-- One state of the automaton. -/
structure Row (τ ν : Type) where
  entries : Dictionary τ (Entry τ) := {}
  gotos : Dictionary ν Nat := {}
  deriving DecidableEq, Repr

namespace Row

/-- The entry for a terminal. -/
def entryFor [DecidableEq τ] (r : Row τ ν) (terminal : τ) : Option (Entry τ) := r.entries.get? terminal

/-- The target state for a nonterminal. -/
def goto? [DecidableEq ν] (r : Row τ ν) (nonterminal : ν) : Option Nat := r.gotos.get? nonterminal

end Row

/-- A row being drafted, with the message of the error that a conditional entry
ends in when nothing else was there before. -/
structure RowDraft (τ ν : Type) where
  row : Row τ ν := {}
  message : String
  deriving DecidableEq, Repr

namespace RowDraft

/-- A draft with another target for a nonterminal. -/
def goto [DecidableEq ν] (d : RowDraft τ ν) (nonterminal : ν) (state : Nat) : RowDraft τ ν :=
  { d with row.gotos := d.row.gotos.set nonterminal state }

variable [DecidableEq τ]

/-- A draft with another entry for a terminal. -/
def set (d : RowDraft τ ν) (terminal : τ) (entry : Entry τ) : RowDraft τ ν :=
  { d with row.entries := d.row.entries.set terminal entry }

/-- On the terminal, shift to a state. -/
def shift (d : RowDraft τ ν) (terminal : τ) (state : Nat) : RowDraft τ ν :=
  d.set terminal (.shift state)

/-- On the terminal, reduce by a production. -/
def reduce (d : RowDraft τ ν) (terminal : τ) (production : Nat) : RowDraft τ ν :=
  d.set terminal (.reduce production)

/-- On the terminal, accept. -/
def accept (d : RowDraft τ ν) (terminal : τ) : RowDraft τ ν := d.set terminal .accept

/-- On the terminal, report an error. -/
def error (d : RowDraft τ ν) (terminal : τ) (message : String) : RowDraft τ ν :=
  d.set terminal (.error message)

/-- On the terminal, do something if the token behind it is the lookahead, and
otherwise what was to be done before. -/
def setIf (d : RowDraft τ ν) (terminal lookahead : τ) (entry : Entry τ) : RowDraft τ ν :=
  d.set terminal
    (.branch lookahead entry ((d.row.entryFor terminal).getD (.error d.message)))

/-- On the terminal, shift to a state if the token behind it is the lookahead. -/
def shiftIf (d : RowDraft τ ν) (terminal lookahead : τ) (state : Nat) : RowDraft τ ν :=
  d.setIf terminal lookahead (.shift state)

/-- On the terminal, reduce by a production if the token behind it is the
lookahead. -/
def reduceIf (d : RowDraft τ ν) (terminal lookahead : τ) (production : Nat) : RowDraft τ ν :=
  d.setIf terminal lookahead (.reduce production)

end RowDraft

end ShiftReduce
