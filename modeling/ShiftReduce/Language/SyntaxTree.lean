import ShiftReduce.Parse.Reducer

/-!
Syntax trees. A leaf is a token, a node is a nonterminal with what was found for
the right-hand side of one of its productions. The reducer that builds them also
records the productions it was called with.
-/
namespace ShiftReduce

/-- A syntax tree. -/
inductive SyntaxTree where
  | leaf (kind text : String)
  | node (symbol : String) (children : List SyntaxTree)

namespace SyntaxTree

mutual

/-- The written form: a leaf is its text, and a node is its symbol and its
children in parentheses. -/
def display : SyntaxTree → String
  | .leaf _ text => text
  | .node symbol children => "(" ++ symbol ++ displayAll children ++ ")"

/-- The written forms of trees, each behind a space. -/
def displayAll : List SyntaxTree → String
  | [] => ""
  | child :: rest => " " ++ child.display ++ displayAll rest

end

/-- The tree for what was found for a symbol, if there is one. -/
def ofValue? : StackValue String SyntaxTree → Option SyntaxTree
  | .terminal token => some (.leaf token.kind token.text)
  | .nonterminal tree? => tree?

/-- The reducer that makes a node at every reduction. Its memory holds the
productions so far, the last one first. -/
def builder : Reducer (List (Production String String)) String String SyntaxTree :=
  fun _ production values record =>
    (.ok (some (.node production.lhs (values.filterMap ofValue?))), production :: record)

end SyntaxTree

end ShiftReduce
