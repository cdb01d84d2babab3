import ShiftReduce.Unicode.Extending
import ShiftReduce.Unicode.Unprintable

/-!
Quoted text: what stands between two quotes so that every character can be told
apart. The quote and the backslash follow a backslash, four controls have a
letter, and a character without a glyph of its own, or one that would join the
character before it, is given by its code point.
-/
namespace ShiftReduce.Text

open Unicode

/-- The code point of a character in lower-case hexadecimal between braces. -/
def codePointEscape (c : Char) : List Char :=
  ['\\', 'u', '\x7b'] ++ Nat.toDigits 16 c.toNat ++ ['\x7d']

/-- What stands for a character between two quotes of the given kind. -/
def escaped (quote : Char) (c : Char) : List Char :=
  if c = '\x00' then ['\\', '0']
  else if c = '\t' then ['\\', 't']
  else if c = '\r' then ['\\', 'r']
  else if c = '\n' then ['\\', 'n']
  else if c = '\\' ∨ c = quote then ['\\', c]
  else if isExtending c || isUnprintable c then codePointEscape c
  else [c]

/-- A text between double quotes. -/
def quoted (text : String) : String :=
  String.ofList ('"' :: text.toList.flatMap (escaped '"') ++ ['"'])

/-- A character between single quotes. -/
def quotedChar (c : Char) : String :=
  String.ofList ('\'' :: escaped '\'' c ++ ['\''])

end ShiftReduce.Text
