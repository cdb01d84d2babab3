/-!
What can be wrong with a text that begins like a literal or a comment.
-/
namespace ShiftReduce.Pattern

/-- Why a text is not the literal or comment that it begins like. -/
inductive Flaw where
  | missingFraction
  | malformedExponent
  | badOctal
  | missingHexDigits
  | unterminatedString
  | invalidEscape
  | emptyCharacter
  | unterminatedCharacter
  | longCharacter
  | unclosedComment
  deriving DecidableEq, Repr

/-- The wording of a flaw. -/
def Flaw.message : Flaw → String
  | .missingFraction => "Floating point number missing decimal value"
  | .malformedExponent => "Malformed floating point literal"
  | .badOctal => "Invalid octal number. Integer number too large."
  | .missingHexDigits => "Hexadecimal numbers must contain at least one hexadecimal digit"
  | .unterminatedString => "Unterminated string literal"
  | .invalidEscape => "Not a valid escape sequence"
  | .emptyCharacter => "Empty character literal is not valid"
  | .unterminatedCharacter => "Unterminated character literal"
  | .longCharacter => "Only one character must be specified in a character literal"
  | .unclosedComment => "Unclosed comment"

end ShiftReduce.Pattern
