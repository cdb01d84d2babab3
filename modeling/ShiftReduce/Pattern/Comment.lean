import ShiftReduce.Pattern.Flaw
import ShiftReduce.Recognition
import ShiftReduce.Text.Pieces

/-!
Comments. A line comment runs from its opening to the end of the line, whose line
feed is not part of it. A block comment runs from its opening to the first place
behind it where its closing has been read; until then it is incomplete, and the
end of the input is an error.
-/
namespace ShiftReduce.Pattern

open Text

/-- The given text, or another one if it holds nothing but blanks. -/
def unlessBlank (text default : List Char) : List Char := if (trim text).isEmpty then default else text

/-- How far a line comment has been read. -/
inductive LineComment.Progress where
  | opening (rest : List Char)
  | body
  | over
  deriving DecidableEq, Repr

/-- A comment that ends with its line. -/
structure LineComment where
  opening : List Char
  progress : LineComment.Progress := .opening opening
  deriving DecidableEq, Repr

namespace LineComment

/-- Comments with the given opening, or two slashes if it is blank. -/
def ofOpening (opening : String) : LineComment :=
  { opening := unlessBlank opening.toList "//".toList }

/-- The comment before its first character. -/
def reset (l : LineComment) : LineComment := { l with progress := .opening l.opening }

/-- The answer and the progress after the next character. -/
def Progress.test : Progress → Option Char → Answer × Progress
  | .opening (d :: rest), some c =>
    if c = d then
      if rest.isEmpty then (.fullMatch, .body) else (.partialMatch, .opening rest)
    else (.noMatch, .over)
  | .body, some c => if c = '\n' then (.noMatch, .over) else (.fullMatch, .body)
  | _, _ => (.noMatch, .over)

/-- The answer to the next character. -/
def test (l : LineComment) (c? : Option Char) : Answer × LineComment :=
  let (answer, progress) := l.progress.test c?
  (answer, { l with progress })

end LineComment

/-- How far a block comment has been read; the window holds the last characters
of the body, as many as the closing has. -/
inductive BlockComment.Progress where
  | opening (rest : List Char)
  | body (window : List Char)
  | over (flaw? : Option Flaw)
  deriving DecidableEq, Repr

/-- A comment between an opening and a closing. -/
structure BlockComment where
  opening : List Char
  closing : List Char
  progress : BlockComment.Progress := .opening opening
  deriving DecidableEq, Repr

namespace BlockComment

/-- Comments between the given texts. A blank opening means a slash and a star,
and a missing or blank closing is the opening backwards. -/
def ofDelimiters (opening : String) (closing? : Option String) : BlockComment :=
  let opening := unlessBlank opening.toList "/*".toList
  let closing := (closing?.map String.toList).getD []
  { opening, closing := unlessBlank closing opening.reverse }

/-- The comment before its first character. -/
def reset (b : BlockComment) : BlockComment := { b with progress := .opening b.opening }

/-- The window moved on by one character. -/
def slide (width : Nat) (window : List Char) (c : Char) : List Char :=
  (if window.length = width then window.tail else window) ++ [c]

/-- The answer and the progress after the next character. -/
def step (b : BlockComment) : Option Char → Answer × Progress := fun c? =>
  match b.progress, c? with
  | .opening (d :: rest), some c =>
    if c = d then (.partialMatch, if rest.isEmpty then .body [] else .opening rest)
    else (.noMatch, .over none)
  | .opening _, _ => (.noMatch, .over none)
  | .body window, some c =>
    let window := slide b.closing.length window c
    if window = b.closing then (.fullMatch, .over none) else (.partialMatch, .body window)
  | .body _, none => (.failure, .over (some .unclosedComment))
  | .over flaw?, _ => (.noMatch, .over flaw?)

/-- The answer to the next character. -/
def test (b : BlockComment) (c? : Option Char) : Answer × BlockComment :=
  let (answer, progress) := b.step c?
  (answer, { b with progress })

/-- What was found wrong with the comment. -/
def flaw? (b : BlockComment) : Option Flaw :=
  match b.progress with
  | .over flaw? => flaw?
  | _ => none

end BlockComment

end ShiftReduce.Pattern
