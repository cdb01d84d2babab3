import ShiftReduce.Grammar
import ShiftReduce.Grammar.Names
import ShiftReduce.Text.Pieces

/-!
Grammars as text. Each line is a production: a nonterminal, an arrow, and the
names of the right-hand side, which are tried as nonterminals first and as
terminals then. The two quotes make an empty right-hand side if they stand alone
and are no name. Blank lines and lines that start with a hash are left out.
-/
namespace ShiftReduce

variable {τ ν : Type}

/-- Why a line is no production. -/
inductive NotationError where
  | shortProduction (line : String)
  | leftHandSide (symbol line : String)
  | missingArrow (line : String)
  | epsilonNotAlone (line : String)
  | invalidSymbol (symbol line : String)
  deriving DecidableEq, Repr

/-- The wording of a malformed line. -/
def NotationError.message : NotationError → String
  | .shortProduction line => "Production with less than 3 symbols: " ++ line
  | .leftHandSide symbol line =>
    "Left hand symbol \"" ++ symbol ++ "\" in production \"" ++ line ++
      "\" was not recognized as a non-terminal"
  | .missingArrow line => "Expected \"->\" after the left hand symbol: " ++ line
  | .epsilonNotAlone line =>
    "Epsilon symbol must be the only one in the right hand side of a production: " ++ line
  | .invalidSymbol symbol line => "Symbol \"" ++ symbol ++ "\" in production \"" ++ line ++ "\" is not valid"

/-- Whether a line of a notation is left out. -/
def isIdleLine (line : List Char) : Bool := (Text.trim line).isEmpty || line.head? == some '#'

namespace Production

/-- The symbols of a right-hand side, whose names stand in the given line. -/
def symbolsOf (names : Naming τ ν) (line : String) (isAlone : Bool) :
    List String → Except NotationError (List (Symbol τ ν))
  | [] => .ok []
  | name :: rest =>
    let prepend (symbol : Symbol τ ν) := (symbolsOf names line isAlone rest).map (symbol :: ·)
    match names.nonterminal? name, names.terminal? name with
    | some nonterminal, _ => prepend (.nonterminal nonterminal)
    | none, some terminal => prepend (.terminal terminal)
    | none, none =>
      if name ≠ epsilonName then .error (.invalidSymbol name line)
      else if isAlone then symbolsOf names line isAlone rest
      else .error (.epsilonNotAlone line)

/-- The production in a line. -/
def ofLine (names : Naming τ ν) (line : List Char) : Except NotationError (Production τ ν) :=
  let shown := String.ofList line
  match (Text.words line).map String.ofList with
  | first :: arrow :: name :: rest =>
    match names.nonterminal? first with
    | none => .error (.leftHandSide first shown)
    | some lhs =>
      if arrow ≠ "->" then .error (.missingArrow shown)
      else (symbolsOf names shown rest.isEmpty (name :: rest)).map fun rhs => ⟨lhs, rhs⟩
  | _ => .error (.shortProduction shown)

end Production

namespace Grammar

/-- The productions in some lines. -/
def productionsOf (names : Naming τ ν) :
    List (List Char) → Except NotationError (List (Production τ ν))
  | [] => .ok []
  | line :: rest =>
    match Production.ofLine names line with
    | .error error => .error error
    | .ok production => (productionsOf names rest).map (production :: ·)

/-- The grammar in a text. -/
def ofText (names : Naming τ ν) (text : List Char) : Except NotationError (Grammar τ ν) :=
  (productionsOf names ((Text.lines text).filter fun line => !isIdleLine line)).map Grammar.mk

end Grammar

end ShiftReduce
