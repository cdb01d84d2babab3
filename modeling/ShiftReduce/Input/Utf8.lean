/-!
Characters as bytes in UTF-8. The first byte fixes how many bytes a character
takes. A sequence is well formed if the bytes behind the first carry six bits
each and the code point is a character that needs that many bytes.
-/
namespace ShiftReduce.Utf8

/-- The number of bytes of a character that starts with the given byte. -/
def width? (lead : UInt8) : Option Nat :=
  if lead < 0x80 then some 1
  else if lead < 0xC0 then none
  else if lead < 0xE0 then some 2
  else if lead < 0xF0 then some 3
  else if lead < 0xF8 then some 4
  else none

/-- Whether a byte may stand behind the first byte of a character. -/
def isTail (byte : UInt8) : Bool := decide (0x80 ≤ byte ∧ byte < 0xC0)

/-- The character with the given code point, if it is one and not below the least
code point allowed. -/
def scalar? (least value : Nat) : Option Char :=
  if least ≤ value ∧ value.isValidChar then some (Char.ofNat value) else none

/-- The character that a sequence of bytes encodes. -/
def decode? : List UInt8 → Option Char
  | [a] => if a < 0x80 then scalar? 0 a.toNat else none
  | [a, b] =>
    if width? a = some 2 && isTail b then
      scalar? 0x80 (a.toNat % 0x20 * 0x40 + b.toNat % 0x40)
    else none
  | [a, b, c] =>
    if width? a = some 3 && isTail b && isTail c then
      scalar? 0x800 (a.toNat % 0x10 * 0x1000 + b.toNat % 0x40 * 0x40 + c.toNat % 0x40)
    else none
  | [a, b, c, d] =>
    if width? a = some 4 && isTail b && isTail c && isTail d then
      scalar? 0x10000 (a.toNat % 0x08 * 0x40000 + b.toNat % 0x40 * 0x1000 +
        c.toNat % 0x40 * 0x40 + d.toNat % 0x40)
    else none
  | _ => none

end ShiftReduce.Utf8
