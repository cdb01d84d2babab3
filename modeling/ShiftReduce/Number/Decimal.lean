import ShiftReduce.Number.Binary
import ShiftReduce.Number.Radix

/-!
Decimal literals: digits with an optional point among or around them and an
optional power of ten, or one of the words for infinity and for a value that is
not a number, each behind an optional sign. A literal denotes the nearest word of
a binary format.
-/
namespace ShiftReduce.Number

/-- The number of decimal digits of a natural; zero has none. -/
def digitCount (n : Nat) : Nat := if h : n = 0 then 0 else digitCount (n / 10) + 1
termination_by n
decreasing_by omega

/-- A natural times a power of ten. -/
structure Decimal where
  coefficient : Nat
  exponent : Int
  deriving DecidableEq

/-- The magnitude of the word nearest to a decimal. Decimals that lie outside the
powers of two the format reaches need no quotient. -/
def Format.ofDecimal (f : Format) (d : Decimal) : Nat :=
  let top := d.exponent + digitCount d.coefficient
  if d.coefficient = 0 ∨ top < f.leastExponent then 0
  else if Nat.pow 2 (f.exponentBits - 1) < top then f.infinity
  else f.ofRatio (d.coefficient * Nat.pow 10 d.exponent.toNat) (Nat.pow 10 (-d.exponent).toNat)

/-- The digits at the start of a text, and what follows them. -/
def spanDigits (text : List Char) : List Char × List Char :=
  text.span fun c => decide ('0' ≤ c ∧ c ≤ '9')

namespace Decimal

/-- The exponent that ends a literal: nothing, or an e in either case and a signed
whole number. -/
def exponent? : List Char → Option Int
  | [] => some 0
  | c :: rest => if c = 'e' ∨ c = 'E' then integer? 10 rest else none

/-- The decimal a literal without sign denotes. At least one digit stands before
or behind the point. -/
def ofText? (text : List Char) : Option Decimal :=
  let (whole, rest) := spanDigits text
  let (fraction, rest) := match rest with
    | '.' :: rest => spanDigits rest
    | rest => ([], rest)
  if whole.isEmpty && fraction.isEmpty then none
  else do
    let coefficient ← natural? 10 (whole ++ fraction)
    let exponent ← exponent? rest
    return ⟨coefficient, exponent - fraction.length⟩

end Decimal

/-- The magnitude that a literal without sign denotes. -/
def Format.magnitude? (f : Format) (text : List Char) : Option Nat :=
  let word := text.map Char.toLower
  if word = "inf".toList ∨ word = "infinity".toList then some f.infinity
  else if word = "nan".toList then some (f.infinity + f.quiet)
  else (Decimal.ofText? text).map f.ofDecimal

/-- The word that a literal denotes. -/
def Format.ofText? (f : Format) : List Char → Option Nat
  | '+' :: rest => f.magnitude? rest
  | '-' :: rest => (f.magnitude? rest).map (f.signed true)
  | text => f.magnitude? text

end ShiftReduce.Number
