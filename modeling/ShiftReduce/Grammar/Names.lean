import ShiftReduce.Unicode.Uppercase

/-!
Names of symbols. A naming says which names stand for terminals and which for
nonterminals; a name may stand for both or for neither. In the usual naming a name
that starts with a capital is a nonterminal, and any other name is a terminal,
except the two quotes that stand for an empty right-hand side.
-/
namespace ShiftReduce

/-- Which symbols the names in a notation stand for. -/
structure Naming (τ ν : Type) where
  terminal? : String → Option τ
  nonterminal? : String → Option ν

/-- The two quotes that stand for an empty right-hand side. -/
def epsilonName : String := "''"

/-- Whether a name starts with a capital. -/
def isCapitalized (name : String) : Bool :=
  match name.toList with
  | [] => false
  | c :: _ => Unicode.isUppercase c

/-- The naming in which capitals make nonterminals. -/
def Naming.byCapitals : Naming String String where
  terminal? name := if name.isEmpty || name == epsilonName || isCapitalized name then none else some name
  nonterminal? name := if isCapitalized name then some name else none

/-- The naming of listed symbols. -/
def Naming.listed (terminals nonterminals : List String) : Naming String String where
  terminal? name := if terminals.contains name then some name else none
  nonterminal? name := if nonterminals.contains name then some name else none

end ShiftReduce
