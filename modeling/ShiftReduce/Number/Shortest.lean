import ShiftReduce.Number.Decimal

/-!
The shortest decimal that reads back as a given value of a binary format. The
reals that round to the value form an interval, whose ends belong to it exactly
when the significand is even. On the grids of one, two and more significant
digits the two neighbours of the value are tried; the first grid with a neighbour
inside the interval decides, of two neighbours inside the nearer one is taken,
and of two equally near ones the greater.
-/
namespace ShiftReduce.Number.Shortest

/-- A positive value with the ends of the interval that rounds to it, as
numerators over one denominator. -/
structure Target where
  value : Nat
  low : Nat
  high : Nat
  den : Nat
  inclusive : Bool

/-- The interval around a significand times a power of two. Below a significand
that is a power of two the words are twice as dense, unless they are the smallest. -/
def Target.of (f : Format) (significand : Nat) (exponent : Int) : Target :=
  let half := if significand = Nat.pow 2 f.fractionBits ∧ f.leastExponent < exponent then 1 else 2
  let scale := Nat.pow 2 (exponent - 2).toNat
  { value := 4 * significand * scale
    low := (4 * significand - half) * scale
    high := (4 * significand + 2) * scale
    den := Nat.pow 2 (2 - exponent).toNat
    inclusive := significand % 2 = 0 }

/-- The greatest power of ten that is not above a positive quotient. -/
def decimalOrder (num den : Nat) : Int :=
  if den ≤ num then digitCount (num / den) - 1 else -digitCount ((den - 1) / num)

/-- Whether the first bound is below the second, or may be equal to it. -/
def below (inclusive : Bool) (a b : Nat) : Bool := decide (a < b) || inclusive && decide (a = b)

/-- The neighbour of the value on the grid of multiples of a power of ten that
lies inside the interval, if one does. -/
def Target.onGrid? (t : Target) (exponent : Int) : Option Nat :=
  let unit := t.den * Nat.pow 10 exponent.toNat
  let scale := Nat.pow 10 (-exponent).toNat
  let under := t.value * scale / unit
  let underInside := below t.inclusive (t.low * scale) (under * unit)
  let overInside := below t.inclusive ((under + 1) * unit) (t.high * scale)
  if underInside && overInside then
    if 2 * (t.value * scale) < (2 * under + 1) * unit then some under else some (under + 1)
  else if underInside then some under
  else if overInside then some (under + 1)
  else none

/-- The first hit on ever finer grids, at most as many as given; the last grid
gives the neighbour below. -/
def Target.search (t : Target) : Nat → Int → Decimal
  | 0, exponent =>
    ⟨t.value * Nat.pow 10 (-exponent).toNat / (t.den * Nat.pow 10 exponent.toNat), exponent⟩
  | more + 1, exponent =>
    match t.onGrid? exponent with
    | some coefficient => ⟨coefficient, exponent⟩
    | none => t.search more (exponent - 1)

/-- The shortest decimal for a positive significand times a power of two. A format
needs no more decimal digits than its significand has bits. -/
def decimal (f : Format) (significand : Nat) (exponent : Int) : Decimal :=
  let t := Target.of f significand exponent
  t.search (f.fractionBits + 1) (decimalOrder t.value t.den)

end ShiftReduce.Number.Shortest
