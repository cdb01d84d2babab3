import ShiftReduce.Grammar.Names
import ShiftReduce.Language.SyntaxTree
import ShiftReduce.Parse.Machine

/-!
Languages. The tokenizer of a language is derived from its table: some terminals
stand for a whole pattern, and every other one for itself. Literal terminals rank
before the patterns, so that a keyword is not read as an identifier, and comments
rank first. A parse records its reductions and builds a syntax tree.
-/
namespace ShiftReduce

/-- The terminal for the end of the input. -/
def endTerminal : String := "$"

/-- A terminal that stands for a pattern. -/
structure PatternTerminal where
  name : String
  recognizer : String → Recognizer String (NoCustom String)

/-- The terminals that stand for patterns, in the order of their rank. -/
def patternTerminals : List PatternTerminal :=
  [⟨"char", .character⟩, ⟨"str", (.string ·)⟩, ⟨"num", .number⟩, ⟨"bool", .boolean⟩,
    ⟨"id", .identifier⟩]

/-- Whether a terminal stands for itself. -/
def isLiteral (terminal : String) : Bool :=
  terminal != endTerminal && patternTerminals.all fun pattern => pattern.name != terminal

/-- The tokenizers for the terminals of a table. -/
def Table.blueprint (table : Table String String) : Blueprint String (NoCustom String) :=
  let terminals := table.terminals
  let literals := (ascending terminals).filter isLiteral
  let patterns := patternTerminals.filter fun pattern => terminals.contains pattern.name
  { endKind := endTerminal
    recognizers := [.lineComment, .blockComment] ++
      literals.map (fun literal => .symbol literal literal) ++
      patterns.map fun pattern => pattern.recognizer pattern.name }

/-- What a parse did: its reductions in order, and how it ended. -/
structure Report where
  reductions : List (Production String String)
  ending : Ending SyntaxTree

namespace Report

/-- The diagnostics of a parse; a parse without any was accepted. -/
def diagnostics (r : Report) : List String :=
  match r.ending with
  | .rejected diagnostic => [diagnostic]
  | _ => []

/-- Whether the parse has no diagnostics. -/
def isSuccess (r : Report) : Bool := r.diagnostics.isEmpty

/-- The tree of an accepted parse. -/
def tree? (r : Report) : Option SyntaxTree :=
  match r.ending with
  | .accepted tree? => tree?
  | _ => none

end Report

/-- A language: a table with the tokenizers derived from it. -/
structure Language where
  name : String
  table : Table String String
  blueprint : Blueprint String (NoCustom String)

namespace Language

/-- The language of a table. -/
def ofTable (name : String) (table : Table String String) : Language :=
  { name, table, blueprint := table.blueprint }

/-- A tokenizer over a source. -/
def tokenizer (l : Language) (source : Source) :
    Tokenizer (Recognizer String (NoCustom String)) String :=
  l.blueprint.build source

/-- A parse of a source, with at most as many turns as the limit. A parse that was
broken off has no report. -/
def parse (l : Language) (limit : Nat) (source : Source) : Option (Except LexError Report) :=
  (ShiftReduce.parse l.table SyntaxTree.builder limit (l.tokenizer source) []).map fun
    | (.broken error, _) => .error error
    | (ending, record) => .ok { reductions := record.reverse, ending }

end Language

end ShiftReduce
