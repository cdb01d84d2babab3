/-!
Binary floating-point formats. A word of a format is a sign bit, a biased
exponent and a fraction. Decoding gives its value as a whole significand times a
power of two, and rounding finds the word nearest to a quotient, where of two
equally near words the one with the even significand is taken.
-/
namespace ShiftReduce.Number

/-- The widths of the fraction and of the exponent of a format. -/
structure Format where
  fractionBits : Nat
  exponentBits : Nat
  deriving DecidableEq

/-- What a word stands for. A finite value is the significand times two to the
power of the exponent. -/
inductive Datum where
  | nan (negative : Bool) (payload : Nat)
  | infinite (negative : Bool)
  | finite (negative : Bool) (significand : Nat) (exponent : Int)
  deriving DecidableEq

namespace Format

/-- The format of 32-bit words. -/
def single : Format := ⟨23, 8⟩

/-- The format of 64-bit words. -/
def double : Format := ⟨52, 11⟩

/-- The exponent that marks infinities and words that are not a number. -/
def topExponent (f : Format) : Nat := Nat.pow 2 f.exponentBits - 1

/-- The unit of the smallest words is two to this power. -/
def leastExponent (f : Format) : Int := 2 - Nat.pow 2 (f.exponentBits - 1) - f.fractionBits

/-- The word of positive infinity. -/
def infinity (f : Format) : Nat := f.topExponent * Nat.pow 2 f.fractionBits

/-- The weight of the sign bit. -/
def signWeight (f : Format) : Nat := Nat.pow 2 (f.exponentBits + f.fractionBits)

/-- The fraction of a word that is not a number and raises no alarm. -/
def quiet (f : Format) : Nat := Nat.pow 2 (f.fractionBits - 1)

/-- The word with the given sign and magnitude. -/
def signed (f : Format) (negative : Bool) (magnitude : Nat) : Nat :=
  if negative then f.signWeight + magnitude else magnitude

/-- What a word stands for. -/
def decode (f : Format) (word : Nat) : Datum :=
  let negative := decide (word / f.signWeight % 2 = 1)
  let exponent := word / Nat.pow 2 f.fractionBits % Nat.pow 2 f.exponentBits
  let fraction := word % Nat.pow 2 f.fractionBits
  if exponent = f.topExponent then
    if fraction = 0 then .infinite negative else .nan negative fraction
  else if exponent = 0 then .finite negative fraction f.leastExponent
  else .finite negative (Nat.pow 2 f.fractionBits + fraction) (f.leastExponent + (exponent - 1))

/-- The quotient of two naturals rounded to a whole number, a half to the even
neighbour. -/
def roundHalfEven (num den : Nat) : Nat :=
  let quotient := num / den
  let rest := num % den
  if 2 * rest > den ∨ (2 * rest = den ∧ quotient % 2 = 1) then quotient + 1 else quotient

/-- The greatest power of two that is not above a positive quotient. -/
def binaryOrder (num den : Nat) : Int :=
  let guess : Int := num.log2 - den.log2
  if num * Nat.pow 2 (-guess).toNat < den * Nat.pow 2 guess.toNat then guess - 1 else guess

/-- The magnitude of the word nearest to a quotient of naturals. The quotient is
rounded in the unit of the words around it; a significand that reaches the next
power of two carries into the exponent, and one beyond every word is infinite. -/
def ofRatio (f : Format) (num den : Nat) : Nat :=
  if num = 0 then 0
  else
    let unit := max f.leastExponent (binaryOrder num den - f.fractionBits)
    let significand := roundHalfEven (num * Nat.pow 2 (-unit).toNat) (den * Nat.pow 2 unit.toNat)
    min f.infinity ((unit - f.leastExponent).toNat * Nat.pow 2 f.fractionBits + significand)

/-- The word nearest to an integer. -/
def ofInt (f : Format) (value : Int) : Nat := f.signed (decide (value < 0)) (f.ofRatio value.natAbs 1)

/-- The word of another format for what a word stands for. A payload keeps its
place behind the binary point and becomes quiet. -/
def convert (source target : Format) (word : Nat) : Nat :=
  match source.decode word with
  | .nan negative payload =>
    let moved := payload * Nat.pow 2 (target.fractionBits - source.fractionBits)
    target.signed negative (target.infinity + (moved ||| target.quiet))
  | .infinite negative => target.signed negative target.infinity
  | .finite negative significand exponent =>
    target.signed negative
      (target.ofRatio (significand * Nat.pow 2 exponent.toNat) (Nat.pow 2 (-exponent).toNat))

end Format

end ShiftReduce.Number
