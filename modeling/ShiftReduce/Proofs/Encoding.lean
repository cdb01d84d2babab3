import ShiftReduce.Input.Source

/-!
Characters written as bytes. A character is encoded in as many bytes as its first byte
announces, and they are decoded to this character again. So a stream that delivers the
encoding of a text is read as the text, character by character, and then it goes on as it
would have without the text.
-/
namespace ShiftReduce

namespace Utf8

theorem toNat_ofNat {n : Nat} (h : n < 0x100) : (UInt8.ofNat n).toNat = n :=
  UInt8.toNat_ofNat_of_lt' h

theorem width?_ofNat {n : Nat} (h : n < 0x100) :
    width? (UInt8.ofNat n) =
      if n < 0x80 then some 1
      else if n < 0xC0 then none
      else if n < 0xE0 then some 2
      else if n < 0xF0 then some 3
      else if n < 0xF8 then some 4
      else none := by
  simp only [width?, UInt8.lt_iff_toNat_lt, toNat_ofNat h]
  rfl

theorem isTail_ofNat (n : Nat) : isTail (UInt8.ofNat (n % 64 + 128)) = true := by
  have hn : n % 64 + 128 < 0x100 := by omega
  simp only [isTail, UInt8.lt_iff_toNat_lt, UInt8.le_iff_toNat_le, toNat_ofNat hn,
    decide_eq_true_eq]
  have hlt : n % 64 + 128 < 192 := by omega
  exact ⟨Nat.le_add_left _ _, hlt⟩

theorem scalar?_of_eq {least value : Nat} {c : Char} (hvalue : value = c.toNat)
    (hleast : least ≤ c.toNat) : scalar? least value = some c := by
  subst hvalue
  have hvalid : c.toNat.isValidChar := c.valid
  rw [scalar?, if_pos ⟨hleast, hvalid⟩, Char.ofNat_toNat]

theorem toNat_lt (c : Char) : c.toNat < 0x110000 := by
  rcases c.valid with h | ⟨-, h⟩
  · exact Nat.lt_trans h (by decide)
  · exact h

/-- A sequence of bytes that starts with the number of its bytes and is decoded to the
character. -/
def Encodes (c : Char) (bytes : List UInt8) : Prop :=
  ∃ lead tail, bytes = lead :: tail ∧ width? lead = some bytes.length ∧ decode? bytes = some c

section

variable {c : Char}

theorem encodes_one (h : c.toNat ≤ 0x7F) : Encodes c [UInt8.ofNat c.toNat] := by
  have hlt : c.toNat < 0x100 := by omega
  refine ⟨_, _, rfl, ?_, ?_⟩
  · rw [width?_ofNat hlt, if_pos (by omega)]
    rfl
  · have hlead : UInt8.ofNat c.toNat < 0x80 := by
      rw [UInt8.lt_iff_toNat_lt, toNat_ofNat hlt]
      exact Nat.lt_succ_of_le h
    rw [decode?, if_pos hlead, toNat_ofNat hlt]
    exact scalar?_of_eq rfl (Nat.zero_le _)

theorem encodes_two (h : 0x7F < c.toNat) (h' : c.toNat ≤ 0x7FF) :
    Encodes c [UInt8.ofNat (c.toNat / 64 % 32 + 192), UInt8.ofNat (c.toNat % 64 + 128)] := by
  have hlead : c.toNat / 64 % 32 + 192 < 0x100 := by omega
  have hlast : c.toNat % 64 + 128 < 0x100 := by omega
  have hwidth : width? (UInt8.ofNat (c.toNat / 64 % 32 + 192)) = some 2 := by
    rw [width?_ofNat hlead, if_neg (by omega), if_neg (by omega), if_pos (by omega)]
  refine ⟨_, _, rfl, hwidth, ?_⟩
  simp only [decode?, hwidth, isTail_ofNat, toNat_ofNat hlead, toNat_ofNat hlast, decide_true,
    Bool.and_true, if_true]
  exact scalar?_of_eq (by omega) h

theorem encodes_three (h : 0x7FF < c.toNat) (h' : c.toNat ≤ 0xFFFF) :
    Encodes c [UInt8.ofNat (c.toNat / 4096 % 16 + 224), UInt8.ofNat (c.toNat / 64 % 64 + 128),
      UInt8.ofNat (c.toNat % 64 + 128)] := by
  have hlead : c.toNat / 4096 % 16 + 224 < 0x100 := by omega
  have hmiddle : c.toNat / 64 % 64 + 128 < 0x100 := by omega
  have hlast : c.toNat % 64 + 128 < 0x100 := by omega
  have hwidth : width? (UInt8.ofNat (c.toNat / 4096 % 16 + 224)) = some 3 := by
    rw [width?_ofNat hlead, if_neg (by omega), if_neg (by omega), if_neg (by omega),
      if_pos (by omega)]
  refine ⟨_, _, rfl, hwidth, ?_⟩
  simp only [decode?, hwidth, isTail_ofNat, toNat_ofNat hlead, toNat_ofNat hmiddle,
    toNat_ofNat hlast, decide_true, Bool.and_true, if_true]
  exact scalar?_of_eq (by omega) h

theorem encodes_four (h : 0xFFFF < c.toNat) :
    Encodes c [UInt8.ofNat (c.toNat / 262144 % 8 + 240),
      UInt8.ofNat (c.toNat / 4096 % 64 + 128), UInt8.ofNat (c.toNat / 64 % 64 + 128),
      UInt8.ofNat (c.toNat % 64 + 128)] := by
  have hvalid := toNat_lt c
  have hlead : c.toNat / 262144 % 8 + 240 < 0x100 := by omega
  have hsecond : c.toNat / 4096 % 64 + 128 < 0x100 := by omega
  have hthird : c.toNat / 64 % 64 + 128 < 0x100 := by omega
  have hlast : c.toNat % 64 + 128 < 0x100 := by omega
  have hwidth : width? (UInt8.ofNat (c.toNat / 262144 % 8 + 240)) = some 4 := by
    rw [width?_ofNat hlead, if_neg (by omega), if_neg (by omega), if_neg (by omega),
      if_neg (by omega), if_pos (by omega)]
  refine ⟨_, _, rfl, hwidth, ?_⟩
  simp only [decode?, hwidth, isTail_ofNat, toNat_ofNat hlead, toNat_ofNat hsecond,
    toNat_ofNat hthird, toNat_ofNat hlast, decide_true, Bool.and_true, if_true]
  exact scalar?_of_eq (by omega) h

end

/-- The encoding of a character has as many bytes as the first one says, and is decoded to
the character. -/
theorem encodes_utf8EncodeChar (c : Char) : Encodes c (String.utf8EncodeChar c) := by
  have hcode : c.val.toNat = c.toNat := rfl
  rw [String.utf8EncodeChar, hcode]
  split
  · next h => exact encodes_one h
  · next h =>
    split
    · next h' => exact encodes_two (Nat.lt_of_not_le h) h'
    · next h' =>
      split
      · next h'' => exact encodes_three (Nat.lt_of_not_le h') h''
      · next h'' => exact encodes_four (Nat.lt_of_not_le h'')

end Utf8

namespace ByteReader

theorem take_append (bytes more : List UInt8) (rest : List Delivery) :
    (ByteReader.mk (.chunk (bytes ++ more) :: rest)).take bytes.length =
      (.ok bytes, ⟨.chunk more :: rest⟩) := by
  induction bytes with
  | nil => rfl
  | cons byte bytes ih =>
    simp only [List.cons_append, List.length_cons, take, nextByte, nextOf, ih]

/-- The encoding of a character in front of a stream is read as the character. -/
theorem read_encoded (c : Char) (more : List UInt8) (rest : List Delivery) :
    (ByteReader.mk (.chunk (String.utf8EncodeChar c ++ more) :: rest)).read =
      (.ok (some c), ⟨.chunk more :: rest⟩) := by
  obtain ⟨lead, tail, hbytes, hwidth, hdecode⟩ := Utf8.encodes_utf8EncodeChar c
  rw [hbytes] at hwidth hdecode ⊢
  have htake := take_append tail more rest
  simp only [List.cons_append, read, nextByte, nextOf, hwidth, List.length_cons,
    Nat.add_sub_cancel, htake, hdecode]

/-- An empty chunk in front of a stream is not noticed. -/
theorem read_cons_nil (rest : List Delivery) :
    (ByteReader.mk (.chunk [] :: rest)).read = (ByteReader.mk rest).read := by
  simp only [read, nextByte, nextOf]

end ByteReader

end ShiftReduce
