import ShiftReduce.Pattern.Flaw
import ShiftReduce.Recognition

/-!
Literals between delimiters. Inside a string literal an escape character makes
the next character part of the literal, and only characters of a given set may
follow it. A character literal holds exactly one character or one escaped one.
The value is the text between the delimiters with its escapes resolved.
-/
namespace ShiftReduce.Pattern

/-- The characters that may follow an escape character unless others are given. -/
def defaultEscapes : List Char := ['n', '"', '\'', 't', '\\', 'r']

/-- The character that an escaped character stands for. -/
def escapeMeaning (c : Char) : Char :=
  if c = 'n' then '\n' else if c = 't' then '\t' else if c = 'r' then '\r' else c

/-- The text with its escapes resolved. An escape character at the end stands for
itself. -/
def unescape (escape : Char) : List Char → List Char
  | [] => []
  | [c] => [c]
  | c :: d :: rest =>
    if c = escape then escapeMeaning d :: unescape escape rest
    else c :: unescape escape (d :: rest)

/-- What stands between the first and the last character of a text. -/
def between (text : List Char) : List Char := text.tail.dropLast

/-- How far a string literal has been read. -/
inductive StringLiteral.Progress where
  | start
  | body
  | escaped
  | over (flaw? : Option Flaw)
  deriving DecidableEq, Repr

/-- A string literal with its delimiter, its escape character and the characters
that may follow that. -/
structure StringLiteral where
  delimiter : Char := '"'
  escape : Char := '\\'
  escapes : List Char := defaultEscapes
  progress : StringLiteral.Progress := .start
  deriving DecidableEq, Repr

namespace StringLiteral

/-- The literal before its first character. -/
def reset (s : StringLiteral) : StringLiteral := { s with progress := .start }

/-- The answer and the progress after the next character. A line feed ends no
literal, nor does the end of the input, and neither can be mended. -/
def step (s : StringLiteral) : Option Char → Answer × Progress := fun c? =>
  match s.progress, c? with
  | .start, some c => if c = s.delimiter then (.partialMatch, .body) else (.noMatch, .over none)
  | .start, none => (.noMatch, .over none)
  | .body, some c =>
    if c = s.delimiter then (.fullMatch, .over none)
    else if c = s.escape then (.partialMatch, .escaped)
    else if c = '\n' then (.failure, .over (some .unterminatedString))
    else (.partialMatch, .body)
  | .body, none => (.failure, .over (some .unterminatedString))
  | .escaped, some c =>
    if c ∈ s.escapes then (.partialMatch, .body) else (.failure, .over (some .invalidEscape))
  | .escaped, none => (.failure, .over (some .invalidEscape))
  | .over flaw?, _ => (.noMatch, .over flaw?)

/-- The answer to the next character. -/
def test (s : StringLiteral) (c? : Option Char) : Answer × StringLiteral :=
  let (answer, progress) := s.step c?
  (answer, { s with progress })

/-- What was found wrong with the literal. -/
def flaw? (s : StringLiteral) : Option Flaw :=
  match s.progress with
  | .over flaw? => flaw?
  | _ => none

/-- The value of a text as a literal. -/
def value (s : StringLiteral) (text : List Char) : Value :=
  .text (String.ofList (unescape s.escape (between text)))

end StringLiteral

/-- How far a character literal has been read. -/
inductive CharLiteral where
  | start
  | opened
  | escaped
  | filled
  | over (flaw? : Option Flaw)
  deriving DecidableEq, Repr

namespace CharLiteral

/-- The answer to the next character. -/
def test : CharLiteral → Option Char → Answer × CharLiteral
  | .start, some c => if c = '\'' then (.partialMatch, .opened) else (.noMatch, .over none)
  | .start, none => (.noMatch, .over none)
  | .opened, some c =>
    if c = '\'' then (.noMatch, .over (some .emptyCharacter))
    else if c = '\\' then (.partialMatch, .escaped)
    else if c = '\n' then (.noMatch, .over (some .unterminatedCharacter))
    else (.partialMatch, .filled)
  | .opened, none => (.noMatch, .over (some .unterminatedCharacter))
  | .escaped, some c =>
    if c ∈ defaultEscapes then (.partialMatch, .filled) else (.noMatch, .over (some .invalidEscape))
  | .escaped, none => (.noMatch, .over (some .invalidEscape))
  | .filled, some c =>
    if c = '\'' then (.fullMatch, .over none)
    else if c = '\n' then (.noMatch, .over (some .unterminatedCharacter))
    else (.noMatch, .over (some .longCharacter))
  | .filled, none => (.noMatch, .over (some .unterminatedCharacter))
  | .over flaw?, _ => (.noMatch, .over flaw?)

/-- What was found wrong with the literal. -/
def flaw? : CharLiteral → Option Flaw
  | .over flaw? => flaw?
  | _ => none

/-- The value of a text as a literal. -/
def value? (text : List Char) : Option Value :=
  (unescape '\\' (between text)).head?.map .char

end CharLiteral

end ShiftReduce.Pattern
