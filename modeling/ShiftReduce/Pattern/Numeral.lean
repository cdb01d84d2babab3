import ShiftReduce.Pattern.Flaw
import ShiftReduce.Recognition

/-!
Numeric literals: decimal, octal and hexadecimal integers, and decimal fractions
with an optional exponent. A literal may end in a letter that fixes its type. An
automaton recognizes the literals; its accepting states are those in which the
text read so far is one. The value depends on the text alone.
-/
namespace ShiftReduce.Pattern

open Number

/-- How far a numeric literal has been read. -/
inductive Numeral where
  /-- Nothing read. -/
  | start
  /-- Digits, the first of them not zero. -/
  | integer
  /-- A point without digits. -/
  | point
  /-- A single zero. -/
  | zero
  /-- A point and digits on at least one side of it. -/
  | fraction
  /-- The letter of an exponent. -/
  | exponentMark
  /-- The sign of an exponent. -/
  | exponentSign
  /-- The digits of an exponent. -/
  | exponent
  /-- A zero and octal digits. -/
  | octal
  /-- A zero and digits, one of them not octal. -/
  | badOctal
  /-- A zero and the letter of the base sixteen. -/
  | hexMark
  /-- Hexadecimal digits behind their mark. -/
  | hex
  /-- The letter of a type. -/
  | suffix
  /-- The text is no literal, perhaps for a known reason. -/
  | over (flaw? : Option Flaw)
  deriving DecidableEq, Repr

namespace Numeral

/-- Whether the text read so far is a literal. -/
def isAccepting : Numeral → Bool
  | .integer | .zero | .fraction | .exponent | .octal | .hex | .suffix => true
  | _ => false

/-- What is wrong with a literal that stops here, if it is incomplete. -/
def flaw? : Numeral → Option Flaw
  | .point => some .missingFraction
  | .exponentMark | .exponentSign => some .malformedExponent
  | .badOctal => some .badOctal
  | .hexMark => some .missingHexDigits
  | _ => none

/-- Whether a character is a digit of an octal number. -/
def isOctalDigit (c : Char) : Bool := decide ('0' ≤ c ∧ c ≤ '7')

/-- Whether a character, in lower case, is a digit of a hexadecimal number. -/
def isHexDigit (c : Char) : Bool := c.isDigit || decide ('a' ≤ c ∧ c ≤ 'f')

/-- Where a character in lower case leads. -/
def step? : Numeral → Char → Option Numeral
  | .start, c =>
    if c = '0' then some .zero
    else if c.isDigit then some .integer
    else if c = '.' then some .point
    else none
  | .integer, c =>
    if c.isDigit then some .integer
    else if c = '.' then some .fraction
    else if c = 'e' then some .exponentMark
    else if c = 'd' ∨ c = 'f' ∨ c = 'l' then some .suffix
    else none
  | .point, c => if c.isDigit then some .fraction else none
  | .zero, c | .octal, c =>
    if isOctalDigit c then some .octal
    else if c.isDigit then some .badOctal
    else if c = '.' then some .fraction
    else if c = 'e' then some .exponentMark
    else if c = 'd' ∨ c = 'f' ∨ c = 'l' then some .suffix
    else none
  | .badOctal, c =>
    if c.isDigit then some .badOctal
    else if c = '.' then some .fraction
    else if c = 'e' then some .exponentMark
    else if c = 'd' ∨ c = 'f' then some .suffix
    else none
  | .fraction, c =>
    if c.isDigit then some .fraction
    else if c = 'e' then some .exponentMark
    else if c = 'd' ∨ c = 'f' then some .suffix
    else none
  | .exponentMark, c =>
    if c.isDigit then some .exponent
    else if c = '+' ∨ c = '-' then some .exponentSign
    else none
  | .exponentSign, c => if c.isDigit then some .exponent else none
  | .exponent, c =>
    if c.isDigit then some .exponent
    else if c = 'd' ∨ c = 'f' then some .suffix
    else none
  | .hexMark, c => if isHexDigit c then some .hex else none
  | .hex, c => if isHexDigit c then some .hex else if c = 'l' then some .suffix else none
  | .suffix, _ | .over _, _ => none

/-- Where a character leads: the letters of a literal may be in either case, and
only a single zero can be followed by the mark of the base sixteen. -/
def next? (n : Numeral) (c : Char) : Option Numeral :=
  if n = .zero ∧ c.toLower = 'x' then some .hexMark else n.step? c.toLower

/-- The answer to the next character. -/
def test (n : Numeral) (c? : Option Char) : Answer × Numeral :=
  match n with
  | .over flaw? => (.noMatch, .over flaw?)
  | n =>
    match c?.bind n.next? with
    | some next => (if next.isAccepting then .fullMatch else .partialMatch, next)
    | none => (.noMatch, .over n.flaw?)

/-- The digits behind the mark of the base sixteen. -/
def hexDigits? : List Char → Option (List Char)
  | '0' :: mark :: digits => if mark = 'x' ∨ mark = 'X' then some digits else none
  | _ => none

/-- The base and the digits of an integer without a mark: a zero before other
digits means octal. -/
def radixAndDigits : List Char → Nat × List Char
  | '0' :: d :: digits => (8, d :: digits)
  | digits => (10, digits)

/-- An integer of the narrower type that fits, or of the wider one. -/
def integerValue? (value : Int) : Option Value :=
  match int32? value with
  | some word => some (.int word)
  | none => (int64? value).map .long

/-- An integer of the wider type. -/
def longValue? (value : Int) : Option Value := (int64? value).map .long

/-- The value of a text as a numeric literal. The last letter, if it is one of a
type, is not part of the number. -/
def value? (text : List Char) : Option Value :=
  match text.getLast? with
  | none => none
  | some last =>
    let body := text.dropLast
    match hexDigits? text with
    | some digits =>
      if last.toLower = 'l' then (integer? 16 digits.dropLast).bind longValue?
      else (integer? 16 digits).bind integerValue?
    | none =>
      if last.toLower = 'l' then
        let (radix, digits) := radixAndDigits body
        (integer? radix digits).bind longValue?
      else if last.toLower = 'f' then
        (Format.single.ofText? body).map fun word => .float (UInt32.ofNat word)
      else if last.toLower = 'd' then
        (Format.double.ofText? body).map fun word => .double (UInt64.ofNat word)
      else if text.any fun c => c == '.' || c == 'e' || c == 'E' then
        (Format.double.ofText? text).map fun word => .double (UInt64.ofNat word)
      else
        let (radix, digits) := radixAndDigits text
        (integer? radix digits).bind integerValue?

end Numeral

end ShiftReduce.Pattern
