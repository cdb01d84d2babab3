/-!
Grammars. A production says that a nonterminal may consist of a sequence of
symbols, possibly an empty one, and a grammar is a list of productions, which are
numbered from zero. A production can also be found by its written form; where
several are written alike, the last one is found.
-/
namespace ShiftReduce

variable {τ ν : Type}

/-- A symbol of a grammar. -/
inductive Symbol (τ ν : Type) where
  | terminal (name : τ)
  | nonterminal (name : ν)
  deriving DecidableEq, Repr

namespace Symbol

/-- The name of a symbol, which does not tell whether it is a terminal. -/
def display [ToString τ] [ToString ν] : Symbol τ ν → String
  | .terminal name => toString name
  | .nonterminal name => toString name

end Symbol

/-- A nonterminal and the symbols it may consist of. -/
structure Production (τ ν : Type) where
  lhs : ν
  rhs : List (Symbol τ ν)
  deriving DecidableEq, Repr

namespace Production

/-- Whether the right-hand side is empty. -/
def isEpsilon (p : Production τ ν) : Bool := p.rhs.isEmpty

/-- The written form: an arrow between the sides, spaces between the symbols, and
two quotes for an empty right-hand side. -/
def display [ToString τ] [ToString ν] (p : Production τ ν) : String :=
  toString p.lhs ++ " ->" ++
    match p.rhs with
    | [] => " ''"
    | rhs => String.join (rhs.map fun symbol => " " ++ symbol.display)

end Production

/-- Why a production was not found. -/
inductive GrammarError where
  | unknownIndex (index size : Nat)
  | unknownDisplay (display : String)
  deriving DecidableEq, Repr

/-- The wording of a failed search. -/
def GrammarError.message : GrammarError → String
  | .unknownIndex index size =>
    "Production " ++ toString index ++ " does not exist; the grammar has " ++ toString size ++
      " productions"
  | .unknownDisplay display => "No production \"" ++ display ++ "\" in the grammar"

/-- A list of productions. -/
structure Grammar (τ ν : Type) where
  productions : List (Production τ ν) := []
  deriving DecidableEq, Repr

/-- The place of the last element that passes a test. -/
def lastIndex? {α : Type} (test : α → Bool) : List α → Option Nat
  | [] => none
  | a :: rest =>
    match lastIndex? test rest with
    | some index => some (index + 1)
    | none => if test a then some 0 else none

namespace Grammar

/-- The number of productions. -/
def size (g : Grammar τ ν) : Nat := g.productions.length

/-- The grammar with another production, whose number is the old size. -/
def push (g : Grammar τ ν) (p : Production τ ν) : Grammar τ ν := ⟨g.productions ++ [p]⟩

/-- The production with a number. -/
def production? (g : Grammar τ ν) (index : Nat) : Option (Production τ ν) := g.productions[index]?

/-- A number, if it is one of a production. -/
def checkIndex (g : Grammar τ ν) (index : Nat) : Except GrammarError Nat :=
  if index < g.size then .ok index else .error (.unknownIndex index g.size)

/-- The number of the last production with a written form. -/
def find? [ToString τ] [ToString ν] (g : Grammar τ ν) (display : String) : Option Nat :=
  lastIndex? (fun p => p.display = display) g.productions

/-- The number of the first production equal to a given one. -/
def position? [DecidableEq τ] [DecidableEq ν] (g : Grammar τ ν) (p : Production τ ν) : Option Nat :=
  g.productions.findIdx? (· = p)

/-- A new production is found under its number. -/
theorem production?_push_self (g : Grammar τ ν) (p : Production τ ν) :
    (g.push p).production? g.size = some p := by
  simp [production?, push, size]

/-- A new production leaves the others alone. -/
theorem production?_push_of_lt (g : Grammar τ ν) (p : Production τ ν) {index : Nat}
    (h : index < g.size) : (g.push p).production? index = g.production? index := by
  simp only [production?, push]
  exact List.getElem?_append_left h

end Grammar

end ShiftReduce
