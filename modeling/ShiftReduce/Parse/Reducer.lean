import ShiftReduce.Dictionary
import ShiftReduce.Grammar
import ShiftReduce.Token

/-!
What happens at a reduction. A reducer is called with the production and with what
was found for its right-hand side; it may give the left-hand side a value, keep
something in a memory for later calls, or refuse with a message, which ends the
parse. A set of reducers calls the one attached to the production, or else a
common one.
-/
namespace ShiftReduce

variable {σ τ ν α : Type}

/-- What was found for a symbol: the token of a terminal, or the value that a
nonterminal was given, if any. -/
inductive StackValue (τ α : Type) where
  | terminal (token : Token τ)
  | nonterminal (value? : Option α)
  deriving DecidableEq

namespace StackValue

/-- The token of a terminal. -/
def token? : StackValue τ α → Option (Token τ)
  | .terminal token => some token
  | .nonterminal _ => none

/-- The value of a nonterminal. -/
def value? : StackValue τ α → Option α
  | .terminal _ => none
  | .nonterminal value? => value?

end StackValue

/-- A call for one production, with the values of its right-hand side from left to
right: a value or a refusal, and the memory after it. -/
abbrev Reduction (σ τ ν α : Type) :=
  Production τ ν → List (StackValue τ α) → σ → Except String (Option α) × σ

/-- A call for any production, which is told the number of the production. -/
abbrev Reducer (σ τ ν α : Type) := Nat → Reduction σ τ ν α

/-- The reducer that gives no values and remembers nothing. -/
def Reducer.silent : Reducer σ τ ν α := fun _ _ _ memory => (.ok none, memory)

/-- Reducers by production, and one for the productions that have none. -/
structure ReducerSet (σ τ ν α : Type) where
  byProduction : Dictionary Nat (Reduction σ τ ν α) := {}
  common? : Option (Reduction σ τ ν α) := none

namespace ReducerSet

/-- The number of productions that have a reducer of their own. -/
def size (s : ReducerSet σ τ ν α) : Nat := s.byProduction.size

/-- Attach a reducer to the production with a number, in place of an earlier one. -/
def attach (g : Grammar τ ν) (index : Nat) (reduction : Reduction σ τ ν α)
    (s : ReducerSet σ τ ν α) : Except GrammarError (ReducerSet σ τ ν α) :=
  (g.checkIndex index).map fun index =>
    { s with byProduction := s.byProduction.set index reduction }

/-- Attach a reducer to the last production with a written form. -/
def attachDisplay [ToString τ] [ToString ν] (g : Grammar τ ν) (display : String)
    (reduction : Reduction σ τ ν α) (s : ReducerSet σ τ ν α) :
    Except GrammarError (ReducerSet σ τ ν α) :=
  match g.find? display with
  | some index => .ok { s with byProduction := s.byProduction.set index reduction }
  | none => .error (.unknownDisplay display)

/-- Attach a reducer to all productions that have none of their own. -/
def attachCommon (reduction : Reduction σ τ ν α) (s : ReducerSet σ τ ν α) : ReducerSet σ τ ν α :=
  { s with common? := some reduction }

/-- The reducer that calls the attached ones, and gives no value where there is
none. -/
def reducer (s : ReducerSet σ τ ν α) : Reducer σ τ ν α := fun index =>
  match s.byProduction.get? index, s.common? with
  | some reduction, _ => reduction
  | none, some reduction => reduction
  | none, none => Reducer.silent index

/-- The set in words: the numbers with a reducer, and whether there is a common
one. -/
def describe (s : ReducerSet σ τ ν α) : String :=
  "Listeners \x7b productions: [" ++
    ", ".intercalate ((ascending s.byProduction.keys).map toString) ++
    "], default: " ++ toString s.common?.isSome ++ " \x7d"

/-- The set in words, with the number of productions it is attached to. -/
def describeFor (g : Grammar τ ν) (s : ReducerSet σ τ ν α) : String :=
  "ListenersBuilder \x7b grammar_productions: " ++ toString g.size ++ ", listeners: " ++
    s.describe ++ " \x7d"

end ReducerSet

end ShiftReduce
