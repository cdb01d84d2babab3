import ShiftReduce.Proofs.Encoding

/-!
Bytes read as characters. A sequence of bytes is decoded to a character only if it is the
encoding of that character, so a read of a stream takes the encoding of a character from
its front or, where there is none, reports that the bytes are no text. Hence the reads
give the longest text whose encoding the stream begins with, however its bytes are cut into
chunks.
-/
namespace ShiftReduce

namespace Utf8

/-- The character with a code point has this code point. -/
theorem toNat_of_scalar? {least value : Nat} {c : Char} (h : scalar? least value = some c) :
    least ≤ value ∧ c.toNat = value := by
  unfold scalar? at h
  split at h
  · next hvalue =>
    cases h
    refine ⟨hvalue.1, ?_⟩
    rw [Char.ofNat, dif_pos hvalue.2]
    rfl
  · cases h

theorem isTail_iff {byte : UInt8} : isTail byte = true ↔ 0x80 ≤ byte.toNat ∧ byte.toNat < 0xC0 := by
  simp only [isTail, UInt8.lt_iff_toNat_lt, UInt8.le_iff_toNat_le, decide_eq_true_eq]
  rfl

/-- The first bytes that announce so many bytes. -/
theorem width?_cases {lead : UInt8} {width : Nat} (h : width? lead = some width) :
    width = 1 ∧ lead.toNat < 0x80 ∨
      width = 2 ∧ 0xC0 ≤ lead.toNat ∧ lead.toNat < 0xE0 ∨
      width = 3 ∧ 0xE0 ≤ lead.toNat ∧ lead.toNat < 0xF0 ∨
      width = 4 ∧ 0xF0 ≤ lead.toNat ∧ lead.toNat < 0xF8 := by
  have hlead : lead = UInt8.ofNat lead.toNat := UInt8.ofNat_toNat.symm
  rw [hlead, width?_ofNat lead.toNat_lt] at h
  repeat' split at h
  all_goals
    cases h
    try omega

section

variable {a b d e : UInt8} {c : Char}

/-- A byte is determined by its number. -/
theorem ofNat_eq {n : Nat} (h : a.toNat = n) : UInt8.ofNat n = a := by
  rw [← h, UInt8.ofNat_toNat]

theorem utf8EncodeChar_one (ha : a.toNat < 0x80) (hc : c.toNat = a.toNat) :
    String.utf8EncodeChar c = [a] := by
  have hcode : c.val.toNat = c.toNat := rfl
  rw [String.utf8EncodeChar, hcode, if_pos (by omega), ofNat_eq hc.symm]

theorem utf8EncodeChar_two (hwidth : width? a = some 2) (hb : isTail b = true)
    (hc : c.toNat = a.toNat % 0x20 * 0x40 + b.toNat % 0x40) (hleast : 0x80 ≤ c.toNat) :
    String.utf8EncodeChar c = [a, b] := by
  have hcode : c.val.toNat = c.toNat := rfl
  have ha := width?_cases hwidth
  rw [isTail_iff] at hb
  rw [String.utf8EncodeChar, hcode, if_neg (by omega), if_pos (by omega)]
  have hfirst : a.toNat = c.toNat / 64 % 32 + 192 := by omega
  have hlast : b.toNat = c.toNat % 64 + 128 := by omega
  rw [ofNat_eq hfirst, ofNat_eq hlast]

theorem utf8EncodeChar_three (hwidth : width? a = some 3) (hb : isTail b = true)
    (hd : isTail d = true)
    (hc : c.toNat = a.toNat % 0x10 * 0x1000 + b.toNat % 0x40 * 0x40 + d.toNat % 0x40)
    (hleast : 0x800 ≤ c.toNat) : String.utf8EncodeChar c = [a, b, d] := by
  have hcode : c.val.toNat = c.toNat := rfl
  have ha := width?_cases hwidth
  rw [isTail_iff] at hb hd
  rw [String.utf8EncodeChar, hcode, if_neg (by omega), if_neg (by omega), if_pos (by omega)]
  have hfirst : a.toNat = c.toNat / 4096 % 16 + 224 := by omega
  have hmiddle : b.toNat = c.toNat / 64 % 64 + 128 := by omega
  have hlast : d.toNat = c.toNat % 64 + 128 := by omega
  rw [ofNat_eq hfirst, ofNat_eq hmiddle, ofNat_eq hlast]

theorem utf8EncodeChar_four (hwidth : width? a = some 4) (hb : isTail b = true)
    (hd : isTail d = true) (he : isTail e = true)
    (hc : c.toNat = a.toNat % 0x08 * 0x40000 + b.toNat % 0x40 * 0x1000 +
      d.toNat % 0x40 * 0x40 + e.toNat % 0x40)
    (hleast : 0x10000 ≤ c.toNat) : String.utf8EncodeChar c = [a, b, d, e] := by
  have hcode : c.val.toNat = c.toNat := rfl
  have ha := width?_cases hwidth
  rw [isTail_iff] at hb hd he
  rw [String.utf8EncodeChar, hcode, if_neg (by omega), if_neg (by omega), if_neg (by omega)]
  have hfirst : a.toNat = c.toNat / 262144 % 8 + 240 := by omega
  have hsecond : b.toNat = c.toNat / 4096 % 64 + 128 := by omega
  have hthird : d.toNat = c.toNat / 64 % 64 + 128 := by omega
  have hlast : e.toNat = c.toNat % 64 + 128 := by omega
  rw [ofNat_eq hfirst, ofNat_eq hsecond, ofNat_eq hthird, ofNat_eq hlast]

end

/-- What is decoded to a character is the encoding of the character. -/
theorem eq_utf8EncodeChar_of_decode? {bytes : List UInt8} {c : Char}
    (h : decode? bytes = some c) : bytes = String.utf8EncodeChar c := by
  unfold decode? at h
  split at h
  · next a =>
    split at h
    · next ha =>
      obtain ⟨-, hc⟩ := toNat_of_scalar? h
      exact (utf8EncodeChar_one (UInt8.lt_iff_toNat_lt.mp ha) hc).symm
    · cases h
  · next a b =>
    split at h
    · next hform =>
      simp only [Bool.and_eq_true, decide_eq_true_eq] at hform
      obtain ⟨ha, hb⟩ := hform
      obtain ⟨hleast, hc⟩ := toNat_of_scalar? h
      exact (utf8EncodeChar_two ha hb hc (hc ▸ hleast)).symm
    · cases h
  · next a b d =>
    split at h
    · next hform =>
      simp only [Bool.and_eq_true, decide_eq_true_eq] at hform
      obtain ⟨⟨ha, hb⟩, hd⟩ := hform
      obtain ⟨hleast, hc⟩ := toNat_of_scalar? h
      exact (utf8EncodeChar_three ha hb hd hc (hc ▸ hleast)).symm
    · cases h
  · next a b d e =>
    split at h
    · next hform =>
      simp only [Bool.and_eq_true, decide_eq_true_eq] at hform
      obtain ⟨⟨⟨ha, hb⟩, hd⟩, he⟩ := hform
      obtain ⟨hleast, hc⟩ := toNat_of_scalar? h
      exact (utf8EncodeChar_four ha hb hd he hc (hc ▸ hleast)).symm
    · cases h
  · cases h

/-- The encoding of a text: every character in as few bytes as hold its code point, which
is below 0x110000 and no surrogate. -/
def encode (text : List Char) : List UInt8 := text.flatMap String.utf8EncodeChar

theorem encode_cons (c : Char) (text : List Char) :
    encode (c :: text) = String.utf8EncodeChar c ++ encode text := List.flatMap_cons

/-- The bytes of a string are the encoding of its characters. -/
theorem encode_toList (text : String) : encode text.toList = text.toUTF8.data.toList := by
  rw [String.toUTF8, ← String.utf8Encode_toList, List.utf8Encode, List.data_toByteArray,
    List.toList_toArray, encode]

/-- The bytes do not begin with a character. -/
def Stops (bytes : List UInt8) : Prop := ∀ c rest, bytes ≠ String.utf8EncodeChar c ++ rest

theorem length_utf8EncodeChar_pos (c : Char) : 0 < (String.utf8EncodeChar c).length := by
  rw [String.length_utf8EncodeChar]
  exact Char.utf8Size_pos c

/-- Bytes begin with one character at most. -/
theorem eq_of_utf8EncodeChar_append {c c' : Char} {rest rest' : List UInt8}
    (h : String.utf8EncodeChar c ++ rest = String.utf8EncodeChar c' ++ rest') :
    c = c' ∧ rest = rest' := by
  obtain ⟨lead, tail, hbytes, hwidth, hdecode⟩ := encodes_utf8EncodeChar c
  obtain ⟨lead', tail', hbytes', hwidth', hdecode'⟩ := encodes_utf8EncodeChar c'
  have hlead : lead = lead' := by
    rw [hbytes, hbytes', List.cons_append, List.cons_append, List.cons.injEq] at h
    exact h.1
  have hlength : (String.utf8EncodeChar c).length = (String.utf8EncodeChar c').length := by
    rw [← hlead, hwidth] at hwidth'
    exact Option.some.inj hwidth'
  obtain ⟨hsame, hrest⟩ := List.append_inj h hlength
  rw [hsame, hdecode'] at hdecode
  exact ⟨Option.some.inj hdecode.symm, hrest⟩

/-- If as many bytes as the first one says are no character, none begins with them. -/
theorem stops_of_decode?_eq_none {lead : UInt8} {tail : List UInt8}
    (hwidth : width? lead = some (lead :: tail).length) (hdecode : decode? (lead :: tail) = none) :
    Stops (lead :: tail) := by
  intro c rest h
  obtain ⟨lead', tail', hbytes, hwidth', hdecode'⟩ := encodes_utf8EncodeChar c
  rw [hbytes] at h hwidth' hdecode'
  obtain ⟨rfl, htail⟩ := List.cons.inj h
  have hlength : (lead :: tail).length = (lead :: tail').length :=
    Option.some.inj (hwidth.symm.trans hwidth')
  have hrest : rest = [] := by
    rw [h, List.length_append] at hlength
    exact List.length_eq_zero_iff.mp (by omega)
  rw [h, hrest, List.append_nil, hdecode'] at hdecode
  cases hdecode

/-- The bytes begin with the encoding of the text, and with no longer one. -/
structure IsLongestEncoded (text : List Char) (bytes : List UInt8) : Prop where
  begins : ∃ rest, bytes = encode text ++ rest
  longest : ∀ text' rest', bytes = encode text' ++ rest' →
    (encode text').length ≤ (encode text).length

/-- Where no character begins, no longer text is encoded. -/
theorem length_encode_le {text text' : List Char} {rest rest' : List UInt8} (hrest : Stops rest)
    (h : encode text ++ rest = encode text' ++ rest') :
    (encode text').length ≤ (encode text).length := by
  induction text' generalizing text with
  | nil => exact Nat.zero_le _
  | cons c' text' ih =>
    rw [encode_cons, List.append_assoc] at h
    cases text with
    | nil => exact absurd h (hrest c' _)
    | cons c text =>
      rw [encode_cons, List.append_assoc] at h
      obtain ⟨rfl, hmore⟩ := eq_of_utf8EncodeChar_append h
      have hle := ih hmore
      rw [encode_cons, encode_cons, List.length_append, List.length_append]
      omega

theorem isLongestEncoded_iff {text : List Char} {bytes : List UInt8} :
    IsLongestEncoded text bytes ↔ ∃ rest, bytes = encode text ++ rest ∧ Stops rest := by
  constructor
  · rintro ⟨⟨rest, rfl⟩, hlongest⟩
    refine ⟨rest, rfl, ?_⟩
    rintro c rest' rfl
    have hlonger : encode (text ++ [c]) = encode text ++ String.utf8EncodeChar c := by
      simp [encode]
    have hle := hlongest (text ++ [c]) rest' (by rw [hlonger, List.append_assoc])
    have hpos := length_utf8EncodeChar_pos c
    rw [hlonger, List.length_append] at hle
    omega
  · rintro ⟨rest, rfl, hrest⟩
    exact ⟨⟨rest, rfl⟩, fun text' rest' h => length_encode_le hrest h⟩

/-- Some text is the longest: characters are taken off the front until none begins. -/
theorem exists_isLongestEncoded (bytes : List UInt8) : ∃ text, IsLongestEncoded text bytes := by
  generalize hbound : bytes.length = bound
  induction bound using Nat.strongRecOn generalizing bytes with
  | ind bound ih =>
    by_cases hstops : Stops bytes
    · exact ⟨[], isLongestEncoded_iff.mpr ⟨bytes, rfl, hstops⟩⟩
    · obtain ⟨c, rest, rfl⟩ : ∃ c rest, bytes = String.utf8EncodeChar c ++ rest := by
        simpa [Stops] using hstops
      have hpos := length_utf8EncodeChar_pos c
      rw [List.length_append] at hbound
      obtain ⟨text, htext⟩ := ih rest.length (by omega) rest rfl
      obtain ⟨left, rfl, hleft⟩ := isLongestEncoded_iff.mp htext
      refine ⟨c :: text, isLongestEncoded_iff.mpr ⟨left, ?_, hleft⟩⟩
      rw [encode_cons, List.append_assoc]

end Utf8

namespace ByteReader

/-- The stream delivers the bytes in chunks, and no read of it fails. -/
def Holds (r : ByteReader) (bytes : List UInt8) : Prop :=
  ∃ chunks : List (List UInt8), r = ⟨chunks.map .chunk⟩ ∧ bytes = chunks.flatten

variable {r : ByteReader} {bytes : List UInt8}

/-- The next byte is the first that is left. -/
theorem Holds.nextByte (h : r.Holds bytes) :
    ∃ r', r.nextByte = (.ok bytes.head?, r') ∧ r'.Holds bytes.tail := by
  obtain ⟨chunks, rfl, rfl⟩ := h
  induction chunks with
  | nil => exact ⟨⟨[]⟩, rfl, [], rfl, rfl⟩
  | cons chunk chunks ih =>
    cases chunk with
    | nil => exact ih
    | cons byte more => exact ⟨⟨.chunk more :: chunks.map .chunk⟩, rfl, more :: chunks, rfl, rfl⟩

theorem Holds.take {front rest : List UInt8} (h : r.Holds (front ++ rest)) :
    ∃ r', r.take front.length = (.ok front, r') ∧ r'.Holds rest := by
  induction front generalizing r with
  | nil => exact ⟨r, rfl, h⟩
  | cons byte front ih =>
    obtain ⟨r', hbyte, hfront⟩ := h.nextByte
    obtain ⟨r'', htake, hrest⟩ := ih hfront
    refine ⟨r'', ?_, hrest⟩
    rw [List.length_cons, ByteReader.take, hbyte]
    simp only [List.cons_append, List.head?_cons, htake]

/-- A stream that ends too early is no text. -/
theorem Holds.take_of_lt (h : r.Holds bytes) {count : Nat} (hcount : bytes.length < count) :
    ∃ r', r.take count = (.error .invalidEncoding, r') := by
  induction count generalizing r bytes with
  | zero => omega
  | succ count ih =>
    obtain ⟨r', hbyte, hrest⟩ := h.nextByte
    cases bytes with
    | nil =>
      refine ⟨r', ?_⟩
      rw [ByteReader.take, hbyte]
      rfl
    | cons byte bytes =>
      obtain ⟨r'', htake⟩ := ih hrest (by simpa using hcount)
      refine ⟨r'', ?_⟩
      rw [ByteReader.take, hbyte]
      simp only [List.head?_cons, htake]

theorem Holds.read_nil (h : r.Holds []) : ∃ r', r.read = (.ok none, r') ∧ r'.Holds [] := by
  obtain ⟨r', hbyte, hrest⟩ := h.nextByte
  refine ⟨r', ?_, hrest⟩
  rw [read, hbyte]
  rfl

/-- A character in front is read. -/
theorem Holds.read_encoded {c : Char} {rest : List UInt8}
    (h : r.Holds (String.utf8EncodeChar c ++ rest)) :
    ∃ r', r.read = (.ok (some c), r') ∧ r'.Holds rest := by
  obtain ⟨lead, tail, hbytes, hwidth, hdecode⟩ := Utf8.encodes_utf8EncodeChar c
  rw [hbytes] at h hwidth hdecode
  obtain ⟨r', hbyte, htail⟩ := h.nextByte
  obtain ⟨r'', htake, hrest⟩ := htail.take
  refine ⟨r'', ?_, hrest⟩
  rw [read, hbyte]
  simp only [List.cons_append, List.head?_cons, hwidth, List.length_cons, Nat.add_sub_cancel,
    htake, hdecode]

/-- Where no character begins and the stream does not end, it is no text. -/
theorem Holds.read_of_stops (h : r.Holds bytes) (hne : bytes ≠ []) (hstops : Utf8.Stops bytes) :
    ∃ r', r.read = (.error .invalidEncoding, r') := by
  obtain ⟨lead, tail, rfl⟩ := List.exists_cons_of_ne_nil hne
  obtain ⟨r', hbyte, htail⟩ := h.nextByte
  rw [read, hbyte]
  dsimp only [List.head?_cons]
  cases hwidth : Utf8.width? lead with
  | none => exact ⟨r', rfl⟩
  | some width =>
    by_cases hlength : width - 1 ≤ tail.length
    · have hsplit : tail = tail.take (width - 1) ++ tail.drop (width - 1) :=
        (List.take_append_drop _ _).symm
      have hfront : (tail.take (width - 1)).length = width - 1 := List.length_take_of_le hlength
      obtain ⟨r'', htake, -⟩ := Holds.take (hsplit ▸ htail)
      rw [hfront] at htake
      dsimp only
      rw [htake]
      dsimp only
      cases hdecode : Utf8.decode? (lead :: tail.take (width - 1)) with
      | none => exact ⟨r'', rfl⟩
      | some c =>
        -- The bytes that were taken would be the encoding of a character in front.
        have hencoded := Utf8.eq_utf8EncodeChar_of_decode? hdecode
        refine absurd ?_ (hstops c (tail.drop (width - 1)))
        rw [← hencoded, List.cons_append, ← hsplit]
    · obtain ⟨r'', htake⟩ := htail.take_of_lt (Nat.lt_of_not_le hlength)
      refine ⟨r'', ?_⟩
      dsimp only
      rw [htake]

end ByteReader

namespace Source

/-- What so many reads of a source give, one after the other. -/
def reads : Nat → Source → List (Except ReadError (Option Char))
  | 0, _ => []
  | count + 1, s => s.read.1 :: reads count s.read.2

/-- The reads that give the characters of a text. -/
def readsOf (text : List Char) : List (Except ReadError (Option Char)) :=
  text.map fun c => .ok (some c)

/-- Fewer reads are the first of more. -/
theorem take_reads (count more : Nat) (s : Source) :
    (s.reads (count + more)).take count = s.reads count := by
  induction count generalizing s with
  | zero => rfl
  | succ count ih => rw [Nat.add_right_comm, reads, List.take_succ_cons, ih, reads]

/-- Sources that give the same in any longer run of reads give the same. -/
theorem reads_eq_of_add {s s' : Source} {length : Nat}
    (h : ∀ more, s.reads (length + more) = s'.reads (length + more)) (count : Nat) :
    s.reads count = s'.reads count := by
  calc s.reads count
      = (s.reads (count + length)).take count := (take_reads count length s).symm
    _ = (s'.reads (count + length)).take count := by rw [Nat.add_comm, h]
    _ = s'.reads count := take_reads count length s'

theorem reads_text (text : List Char) (more : Nat) :
    (Source.text text).reads (text.length + more) =
      readsOf text ++ List.replicate more (.ok none) := by
  induction text with
  | nil =>
    rw [List.length_nil, Nat.zero_add]
    induction more with
    | zero => rfl
    | succ more ih => exact congrArg (.ok none :: ·) ih
  | cons c text ih =>
    rw [List.length_cons, Nat.add_right_comm]
    exact congrArg (.ok (some c) :: ·) ih

variable {r : ByteReader}

theorem reads_of_holds_nil (h : r.Holds []) (count : Nat) :
    (Source.bytes r).reads count = List.replicate count (.ok none) := by
  induction count generalizing r with
  | zero => rfl
  | succ count ih =>
    obtain ⟨r', hread, hrest⟩ := h.read_nil
    rw [reads, List.replicate_succ, ← ih hrest]
    simp only [read, hread]

/-- The encoding of a text in front of a stream is read as the text. -/
theorem exists_reads_of_holds {text : List Char} {rest : List UInt8}
    (h : r.Holds (Utf8.encode text ++ rest)) :
    ∃ r', r'.Holds rest ∧ ∀ more, (Source.bytes r).reads (text.length + more) =
      readsOf text ++ (Source.bytes r').reads more := by
  induction text generalizing r with
  | nil =>
    refine ⟨r, h, ?_⟩
    intro more
    rw [List.length_nil, Nat.zero_add]
    rfl
  | cons c text ih =>
    rw [Utf8.encode_cons, List.append_assoc] at h
    obtain ⟨r', hread, hmore⟩ := h.read_encoded
    obtain ⟨r'', hrest, hreads⟩ := ih hmore
    refine ⟨r'', hrest, ?_⟩
    intro more
    rw [List.length_cons, Nat.add_right_comm, reads]
    simp only [read, hread, hreads]
    rfl

/-- However the bytes are cut into chunks, the reads give the characters of the longest text
whose encoding the bytes begin with, and then the end for ever if there are no more bytes, or
else an error. A stream of the bytes of a string is read like the string. -/
theorem reads_decode_longest_encoded (chunks : List (List UInt8)) :
    let source : Source := .bytes ⟨chunks.map .chunk⟩
    (∃ text, Utf8.IsLongestEncoded text chunks.flatten) ∧
    (∀ text, Utf8.IsLongestEncoded text chunks.flatten →
      (Utf8.encode text = chunks.flatten → ∀ more, source.reads (text.length + more) =
        readsOf text ++ List.replicate more (.ok none)) ∧
      (Utf8.encode text ≠ chunks.flatten → source.reads (text.length + 1) =
        readsOf text ++ [.error .invalidEncoding])) ∧
    ∀ text : String, text.toUTF8.data.toList = chunks.flatten →
      ∀ count, source.reads count = (ofString text).reads count := by
  intro source
  have hholds : ByteReader.Holds ⟨chunks.map .chunk⟩ chunks.flatten := ⟨chunks, rfl, rfl⟩
  have hwhole : ∀ text, Utf8.encode text = chunks.flatten → ∀ more,
      source.reads (text.length + more) = readsOf text ++ List.replicate more (.ok none) := by
    intro text htext more
    rw [← htext, ← List.append_nil (Utf8.encode text)] at hholds
    obtain ⟨r, hend, hreads⟩ := exists_reads_of_holds hholds
    rw [hreads, reads_of_holds_nil hend]
  refine ⟨Utf8.exists_isLongestEncoded _, ?_, ?_⟩
  · intro text hlongest
    refine ⟨hwhole text, ?_⟩
    intro hmore
    obtain ⟨rest, hrest, hstops⟩ := Utf8.isLongestEncoded_iff.mp hlongest
    have hne : rest ≠ [] := by
      rintro rfl
      exact hmore (by rw [hrest, List.append_nil])
    rw [hrest] at hholds
    obtain ⟨r, hleft, hreads⟩ := exists_reads_of_holds hholds
    obtain ⟨r', hread⟩ := hleft.read_of_stops hne hstops
    rw [hreads]
    simp only [reads, read, hread]
  · intro text hbytes count
    have hencode : Utf8.encode text.toList = chunks.flatten :=
      (Utf8.encode_toList text).trans hbytes
    have hsame : ∀ more, source.reads (text.toList.length + more) =
        (ofString text).reads (text.toList.length + more) := by
      intro more
      rw [hwhole _ hencode, ofString, reads_text]
    exact reads_eq_of_add hsame count

/-- A character may be cut in two, and what follows is no encoding if it is longer than it
has to be. -/
theorem reads_decode_longest_encoded_cut :
    (Source.bytes ⟨[[0x61, 0xC3], [0xA9, 0xE0, 0x80], [0x80]].map .chunk⟩).reads 3 =
        [.ok (some 'a'), .ok (some '\u00e9'), .error .invalidEncoding] ∧
      ∀ count, (Source.bytes ⟨[[0x61, 0xC3], [0xA9]].map .chunk⟩).reads count =
        (ofString "a\u00e9").reads count := by
  have hstops : Utf8.Stops [0xE0, 0x80, 0x80] := Utf8.stops_of_decode?_eq_none (by decide) (by decide)
  constructor
  · have hlongest : Utf8.IsLongestEncoded ['a', '\u00e9']
        [[0x61, 0xC3], [0xA9, 0xE0, 0x80], [0x80]].flatten :=
      Utf8.isLongestEncoded_iff.mpr ⟨[0xE0, 0x80, 0x80], rfl, hstops⟩
    obtain ⟨-, hreads, -⟩ :=
      reads_decode_longest_encoded [[0x61, 0xC3], [0xA9, 0xE0, 0x80], [0x80]]
    exact (hreads _ hlongest).2 (by decide)
  · obtain ⟨-, -, hstring⟩ := reads_decode_longest_encoded [[0x61, 0xC3], [0xA9]]
    exact hstring "a\u00e9" rfl

end Source

end ShiftReduce
