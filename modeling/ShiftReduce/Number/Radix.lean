/-!
Whole numbers in a base. Digits beyond nine are the letters of the alphabet in
either case. A word of digits has a value by position, a signed word may start
with a plus or a minus, and a count may start with a plus and fits 64 bits.
-/
namespace ShiftReduce.Number

/-- The value of a character as a digit of a base of at most thirty-six. -/
def digit? (base : Nat) (c : Char) : Option Nat :=
  let worth? :=
    if '0' ≤ c ∧ c ≤ '9' then some (c.toNat - '0'.toNat)
    else if 'a' ≤ c ∧ c ≤ 'z' then some (c.toNat - 'a'.toNat + 10)
    else if 'A' ≤ c ∧ c ≤ 'Z' then some (c.toNat - 'A'.toNat + 10)
    else none
  worth?.filter (· < base)

/-- The value of a row of digits, the most significant first. -/
def ofDigits (base : Nat) (digits : List Nat) : Nat :=
  digits.foldl (fun value digit => value * base + digit) 0

/-- The value of a word that consists of digits of the base, at least one. -/
def natural? (base : Nat) (word : List Char) : Option Nat :=
  if word.isEmpty then none else (word.mapM (digit? base)).map (ofDigits base)

/-- The value of digits of the base behind an optional sign. -/
def integer? (base : Nat) : List Char → Option Int
  | '+' :: rest => (natural? base rest).map Int.ofNat
  | '-' :: rest => (natural? base rest).map fun value => -Int.ofNat value
  | word => (natural? base word).map Int.ofNat

/-- The value of decimal digits behind an optional plus, if it fits 64 bits. -/
def count? (word : List Char) : Option Nat :=
  let digits := match word with
    | '+' :: rest => rest
    | word => word
  (natural? 10 digits).filter (· < UInt64.size)

/-- The integer as a 32-bit word with a sign, if it fits. -/
def int32? (value : Int) : Option Int32 :=
  if Int32.minValue.toInt ≤ value ∧ value ≤ Int32.maxValue.toInt then some (Int32.ofInt value)
  else none

/-- The integer as a 64-bit word with a sign, if it fits. -/
def int64? (value : Int) : Option Int64 :=
  if Int64.minValue.toInt ≤ value ∧ value ≤ Int64.maxValue.toInt then some (Int64.ofInt value)
  else none

/-- An integer that fits 32 bits is the value of its word. -/
theorem toInt_of_int32?_eq_some {value : Int} {word : Int32} (h : int32? value = some word) :
    word.toInt = value := by
  unfold int32? at h
  split at h
  · next hrange =>
    cases h
    rw [Int32.toInt_minValue, Int32.toInt_maxValue] at hrange
    exact Int32.toInt_ofInt_of_le (by omega) (by omega)
  · cases h

/-- An integer that fits 64 bits is the value of its word. -/
theorem toInt_of_int64?_eq_some {value : Int} {word : Int64} (h : int64? value = some word) :
    word.toInt = value := by
  unfold int64? at h
  split at h
  · next hrange =>
    cases h
    rw [Int64.toInt_minValue, Int64.toInt_maxValue] at hrange
    exact Int64.toInt_ofInt_of_le (by omega) (by omega)
  · cases h

end ShiftReduce.Number
