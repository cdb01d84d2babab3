import ShiftReduce.Recognition
import ShiftReduce.Unicode.Alphabetic
import ShiftReduce.Unicode.Blank
import ShiftReduce.Unicode.Numeric

/-!
Words and the blanks between them. An identifier is a letter, an underscore or a
dollar followed by any number of these and of numerals. A phrase is one fixed
text, and a truth value is one of two phrases.
-/
namespace ShiftReduce.Pattern

open Unicode

/-- Whether an identifier may start with a character. -/
def isIdentifierStart (c : Char) : Bool := isAlphabetic c || c == '_' || c == '$'

/-- Whether an identifier may go on with a character. -/
def isIdentifierPart (c : Char) : Bool :=
  isAlphabetic c || isNumeric c || c == '_' || c == '$'

/-- How far an identifier has been read. -/
inductive Identifier where
  | start
  | inside
  | over
  deriving DecidableEq, Repr

namespace Identifier

/-- The answer to the next character. -/
def test : Identifier → Option Char → Answer × Identifier
  | .start, some c => if isIdentifierStart c then (.fullMatch, .inside) else (.noMatch, .over)
  | .inside, some c => if isIdentifierPart c then (.fullMatch, .inside) else (.noMatch, .over)
  | _, _ => (.noMatch, .over)

end Identifier

/-- How far a run of blanks has been read. -/
inductive Blanks where
  | running
  | over
  deriving DecidableEq, Repr

namespace Blanks

/-- The answer to the next character. -/
def test : Blanks → Option Char → Answer × Blanks
  | .running, some c => if isBlank c then (.fullMatch, .running) else (.noMatch, .over)
  | _, _ => (.noMatch, .over)

end Blanks

/-- How far a fixed text has been read: what of it is still expected. -/
inductive Phrase.Progress where
  | expecting (rest : List Char)
  | over
  deriving DecidableEq, Repr

/-- The answer to the next character of a fixed text. -/
def Phrase.Progress.test : Phrase.Progress → Option Char → Answer × Phrase.Progress
  | .expecting (d :: rest), some c =>
    if c = d then (if rest.isEmpty then .fullMatch else .partialMatch, .expecting rest)
    else (.noMatch, .over)
  | _, _ => (.noMatch, .over)

/-- A fixed text: an operator, a bracket or a keyword. -/
structure Phrase where
  text : List Char
  progress : Phrase.Progress := .expecting text
  deriving DecidableEq, Repr

namespace Phrase

/-- The phrase before its first character. -/
def reset (p : Phrase) : Phrase := { p with progress := .expecting p.text }

/-- The answer to the next character. -/
def test (p : Phrase) (c? : Option Char) : Answer × Phrase :=
  let (answer, progress) := p.progress.test c?
  (answer, { p with progress })

end Phrase

/-- How far a truth value has been read. -/
inductive Truth where
  | start
  | inside (progress : Phrase.Progress)
  deriving DecidableEq, Repr

namespace Truth

/-- The answer to the next character. The first character decides the phrase. -/
def test : Truth → Option Char → Answer × Truth
  | .start, some 't' => (.partialMatch, .inside (.expecting "rue".toList))
  | .start, some 'f' => (.partialMatch, .inside (.expecting "alse".toList))
  | .start, _ => (.noMatch, .inside .over)
  | .inside progress, c? =>
    let (answer, progress) := progress.test c?
    (answer, .inside progress)

/-- The value of a text: true for its own phrase alone. -/
def value (text : List Char) : Value := .bool (decide (text = "true".toList))

end Truth

end ShiftReduce.Pattern
