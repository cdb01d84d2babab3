/-!
Entries of a parsing table: what the automaton does in one state on one symbol. A
branch looks at the token behind the current one to choose between two entries.
-/
namespace ShiftReduce

variable {τ : Type}

/-- What the automaton does. -/
inductive Entry (τ : Type) where
  | shift (state : Nat)
  | reduce (production : Nat)
  | goto (state : Nat)
  | accept
  | error (message : String)
  | branch (lookahead : τ) (ifEqual otherwise : Entry τ)
  deriving DecidableEq, Repr

namespace Entry

/-- Whether the entry always ends the parse. -/
def halts : Entry τ → Bool
  | .accept | .error _ => true
  | _ => false

/-- The written form of an entry. -/
def display [ToString τ] : Entry τ → String
  | .shift state => "s" ++ toString state
  | .reduce production => "r" ++ toString production
  | .goto state => "g" ++ toString state
  | .accept => "acc"
  | .error message => "error(" ++ message ++ ")"
  | .branch lookahead ifEqual otherwise =>
    "if " ++ toString lookahead ++ " then " ++ ifEqual.display ++ " else " ++ otherwise.display

end Entry

end ShiftReduce
