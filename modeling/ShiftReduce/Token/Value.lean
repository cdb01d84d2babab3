import ShiftReduce.Number.Layout
import ShiftReduce.Text.Quoted

/-!
The typed values that tokens carry. Floating-point values are kept as the words
of their binary formats, so two values are equal exactly when their words are.
-/
namespace ShiftReduce

/-- The value of a token. -/
inductive Value where
  | text (text : String)
  | char (c : Char)
  | bool (truth : Bool)
  | int (value : Int32)
  | long (value : Int64)
  | float (word : UInt32)
  | double (word : UInt64)
  deriving DecidableEq

namespace Value

/-- The text of a text value. -/
def text? : Value → Option String
  | .text s => some s
  | _ => none

/-- The value of an integer in the wider integer type. -/
def long? : Value → Option Int64
  | .int value => some value.toInt64
  | .long value => some value
  | _ => none

/-- The value of a number in the wider floating-point format, rounded if it has
to be. -/
def double? : Value → Option UInt64
  | .float word => some (UInt64.ofNat (Number.Format.convert .single .double word.toNat))
  | .double word => some word
  | .int value => some (UInt64.ofNat (Number.Format.double.ofInt value.toInt))
  | .long value => some (UInt64.ofNat (Number.Format.double.ofInt value.toInt))
  | _ => none

/-- The value as plain text. -/
def display : Value → String
  | .text s => s
  | .char c => String.singleton c
  | .bool truth => toString truth
  | .int value => toString value.toInt
  | .long value => toString value.toInt
  | .float word => Number.Layout.plain.text .single word.toNat
  | .double word => Number.Layout.plain.text .double word.toNat

/-- The value with its type, so that no two values read the same. -/
def describe : Value → String
  | .text s => "Text(" ++ Text.quoted s ++ ")"
  | .char c => "Char(" ++ Text.quotedChar c ++ ")"
  | .bool truth => "Bool(" ++ toString truth ++ ")"
  | .int value => "Int(" ++ toString value.toInt ++ ")"
  | .long value => "Long(" ++ toString value.toInt ++ ")"
  | .float word => "Float(" ++ Number.Layout.marked.text .single word.toNat ++ ")"
  | .double word => "Double(" ++ Number.Layout.marked.text .double word.toNat ++ ")"

end Value

end ShiftReduce
