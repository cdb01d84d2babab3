import ShiftReduce.Number.Shortest

/-!
The text of a value of a binary format. The digits are the shortest ones that
read back; a layout decides how a whole number ends and which orders of magnitude
are written with an exponent.
-/
namespace ShiftReduce.Number

/-- How digits become text. -/
structure Layout where
  /-- What follows a number without a fractional part. -/
  wholeMark : String
  /-- The least and the greatest power of ten of a leading digit that is written
  without an exponent; without bounds no number has an exponent. -/
  positional : Option (Int × Int)

/-- The plain layout: never an exponent, and a whole number is its digits. -/
def Layout.plain : Layout := ⟨"", none⟩

/-- The layout that tells a floating-point number from an integer: a whole number
ends in a point and a zero, and far from one there is an exponent. -/
def Layout.marked : Layout := ⟨".0", some (-4, 15)⟩

/-- Digits without the zeros at their end. -/
def dropTrailingZeros (digits : List Char) : List Char :=
  (digits.reverse.dropWhile (· == '0')).reverse

/-- Digits behind a power of ten of the leading one, without an exponent. -/
def Layout.positionally (l : Layout) (digits : List Char) (order : Int) : String :=
  let zeros (n : Nat) := List.replicate n '0'
  if order < 0 then
    String.ofList (['0', '.'] ++ zeros (-order - 1).toNat ++ digits)
  else if digits.length ≤ order + 1 then
    String.ofList (digits ++ zeros (order.toNat + 1 - digits.length)) ++ l.wholeMark
  else
    String.ofList (digits.take (order.toNat + 1) ++ '.' :: digits.drop (order.toNat + 1))

/-- Digits with the power of ten of the leading one behind them. -/
def scientifically (digits : List Char) (order : Int) : String :=
  let mantissa := match digits with
    | first :: second :: rest => first :: '.' :: second :: rest
    | digits => digits
  String.ofList mantissa ++ "e" ++ toString order

/-- The text of a decimal without its sign. -/
def Layout.decimal (l : Layout) (d : Decimal) : String :=
  let digits := Nat.toDigits 10 d.coefficient
  let order := d.exponent + (digits.length - 1)
  let shown := dropTrailingZeros digits
  match l.positional with
  | some (least, greatest) =>
    if least ≤ order ∧ order ≤ greatest then l.positionally shown order
    else scientifically shown order
  | none => l.positionally shown order

/-- The text of a word of a format. -/
def Layout.text (l : Layout) (f : Format) (word : Nat) : String :=
  let signed (negative : Bool) (text : String) := if negative then "-" ++ text else text
  match f.decode word with
  | .nan _ _ => "NaN"
  | .infinite negative => signed negative "inf"
  | .finite negative 0 _ => signed negative ("0" ++ l.wholeMark)
  | .finite negative significand exponent =>
    signed negative (l.decimal (Shortest.decimal f significand exponent))

end ShiftReduce.Number
