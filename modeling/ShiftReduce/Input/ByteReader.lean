import ShiftReduce.Input.ReadError
import ShiftReduce.Input.Utf8

/-!
Reading characters from a stream of bytes. The stream delivers its bytes in
chunks of any length and may fail between two chunks, after which it goes on. A
character is read byte by byte: the bytes taken for a character that turns out to
be malformed, or is cut off by a failure, are lost. Every character read makes
the stream shorter.
-/
namespace ShiftReduce

/-- What a stream delivers at one time. -/
inductive Delivery where
  | chunk (bytes : List UInt8)
  | failure (error : ReadError)
  deriving DecidableEq

/-- The number of bytes delivered; a failure counts like one. -/
def Delivery.size : Delivery → Nat
  | .chunk bytes => bytes.length
  | .failure _ => 1

/-- A stream as what it has still to deliver. -/
structure ByteReader where
  deliveries : List Delivery
  deriving DecidableEq

namespace ByteReader

/-- The stream of the given bytes. -/
def ofBytes (bytes : List UInt8) : ByteReader := ⟨[.chunk bytes]⟩

/-- The number of bytes and failures still to come. -/
def size (r : ByteReader) : Nat :=
  r.deliveries.foldr (fun delivery count => delivery.size + count) 0

/-- The next byte of what a stream has to deliver, or none at its end. -/
def nextOf : List Delivery → Except ReadError (Option UInt8) × List Delivery
  | [] => (.ok none, [])
  | .failure error :: rest => (.error error, rest)
  | .chunk [] :: rest => nextOf rest
  | .chunk (byte :: bytes) :: rest => (.ok (some byte), .chunk bytes :: rest)

/-- The next byte, or none at the end of the stream. -/
def nextByte (r : ByteReader) : Except ReadError (Option UInt8) × ByteReader :=
  let (result, rest) := nextOf r.deliveries
  (result, ⟨rest⟩)

/-- The given number of bytes; a stream that ends before is malformed. -/
def take (r : ByteReader) : Nat → Except ReadError (List UInt8) × ByteReader
  | 0 => (.ok [], r)
  | more + 1 =>
    match r.nextByte with
    | (.error error, r) => (.error error, r)
    | (.ok none, r) => (.error .invalidEncoding, r)
    | (.ok (some byte), r) =>
      match r.take more with
      | (.error error, r) => (.error error, r)
      | (.ok bytes, r) => (.ok (byte :: bytes), r)

/-- The next character, or none at the end of the stream. -/
def read (r : ByteReader) : Except ReadError (Option Char) × ByteReader :=
  match r.nextByte with
  | (.error error, r) => (.error error, r)
  | (.ok none, r) => (.ok none, r)
  | (.ok (some lead), r) =>
    match Utf8.width? lead with
    | none => (.error .invalidEncoding, r)
    | some width =>
      match r.take (width - 1) with
      | (.error error, r) => (.error error, r)
      | (.ok bytes, r) =>
        match Utf8.decode? (lead :: bytes) with
        | none => (.error .invalidEncoding, r)
        | some c => (.ok (some c), r)

theorem size_cons_chunk (bytes : List UInt8) (rest : List Delivery) :
    (ByteReader.mk (.chunk bytes :: rest)).size = bytes.length + (ByteReader.mk rest).size := by
  simp [size, Delivery.size]

theorem size_cons_failure (error : ReadError) (rest : List Delivery) :
    (ByteReader.mk (.failure error :: rest)).size = 1 + (ByteReader.mk rest).size := by
  simp [size, Delivery.size]

/-- A byte read is one less to come. -/
theorem size_of_nextByte {r r' : ByteReader} {byte : UInt8}
    (h : r.nextByte = (.ok (some byte), r')) : r'.size + 1 = r.size := by
  obtain ⟨deliveries⟩ := r
  simp only [nextByte, Prod.mk.injEq] at h
  obtain ⟨hresult, rfl⟩ := h
  fun_induction nextOf deliveries with
  | case1 => simp at hresult
  | case2 => simp at hresult
  | case3 rest ih =>
    rw [size_cons_chunk]
    simpa using ih hresult
  | case4 =>
    simp only [size_cons_chunk, List.length_cons]
    omega

/-- Taking bytes makes the stream shorter by their number. -/
theorem size_of_take {r r' : ByteReader} {count : Nat} {bytes : List UInt8}
    (h : r.take count = (.ok bytes, r')) : r'.size + count = r.size := by
  induction count generalizing r bytes with
  | zero =>
    simp only [take, Prod.mk.injEq] at h
    rw [h.2, Nat.add_zero]
  | succ more ih =>
    unfold take at h
    split at h
    · simp at h
    · simp at h
    · next hbyte =>
      split at h
      · simp at h
      · next htake =>
        simp only [Prod.mk.injEq] at h
        obtain ⟨-, rfl⟩ := h
        have hrest := ih htake
        have hone := size_of_nextByte hbyte
        omega

/-- A character read makes the stream shorter. -/
theorem size_lt_of_read {r r' : ByteReader} {c : Char} (h : r.read = (.ok (some c), r')) :
    r'.size < r.size := by
  unfold read at h
  split at h
  · simp at h
  · simp at h
  · next hlead =>
    split at h
    · simp at h
    · split at h
      · simp at h
      · next htake =>
        split at h
        · simp at h
        · simp only [Prod.mk.injEq] at h
          have hone := size_of_nextByte hlead
          have hrest := size_of_take htake
          rw [← h.2]
          omega

/-- Finding the end of a stream does not make it longer. -/
theorem size_of_nextByte_end {r r' : ByteReader} (h : r.nextByte = (.ok none, r')) :
    r'.size ≤ r.size := by
  obtain ⟨deliveries⟩ := r
  simp only [nextByte, Prod.mk.injEq] at h
  obtain ⟨hresult, rfl⟩ := h
  fun_induction nextOf deliveries with
  | case1 => exact Nat.le_refl _
  | case2 => simp at hresult
  | case3 rest ih =>
    rw [size_cons_chunk]
    simpa using ih hresult
  | case4 => simp at hresult

/-- Finding no character does not make a stream longer. -/
theorem size_le_of_read_end {r r' : ByteReader} (h : r.read = (.ok none, r')) :
    r'.size ≤ r.size := by
  unfold read at h
  split at h
  · simp at h
  · next hend =>
    cases h
    exact size_of_nextByte_end hend
  · repeat' split at h
    all_goals simp at h

/-- All characters up to the end of the stream, unless a read fails. -/
def readAll (r : ByteReader) : Except ReadError (List Char) :=
  match h : r.read with
  | (.error error, _) => .error error
  | (.ok none, _) => .ok []
  | (.ok (some c), rest) =>
    have : rest.size < r.size := size_lt_of_read h
    match readAll rest with
    | .error error => .error error
    | .ok text => .ok (c :: text)
termination_by r.size

end ByteReader

end ShiftReduce
