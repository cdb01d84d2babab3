import ShiftReduce.Proofs.Encoding
import ShiftReduce.Proofs.Spelling

/-!
Inputs told apart by reading. Two inputs are alike if all reads of them give the same. To
read and to give characters back keeps inputs alike, and an input is like itself when a
character is read from it and given back. A text can be put in front of any source, and
the source then is like the input in which the text was given back.
-/
namespace ShiftReduce

/-- The source with a text before it. -/
def Source.behind (text : List Char) : Source → Source
  | .text rest => .text (text ++ rest)
  | .bytes reader =>
    .bytes ⟨.chunk (text.flatMap String.utf8EncodeChar) :: reader.deliveries⟩

namespace Input

/-- What so many reads give, one after the other. -/
def reads : Nat → Input → List (Except ReadError (Option Char))
  | 0, _ => []
  | count + 1, i => i.read.1 :: reads count i.read.2

/-- Inputs that all reads give the same of. -/
def Alike (i i' : Input) : Prop := ∀ count, reads count i = reads count i'

variable {i i' i'' : Input}

theorem Alike.refl (i : Input) : i.Alike i := fun _ => rfl

theorem Alike.symm (h : i.Alike i') : i'.Alike i := fun count => (h count).symm

theorem Alike.trans (h : i.Alike i') (h' : i'.Alike i'') : i.Alike i'' :=
  fun count => (h count).trans (h' count)

theorem Alike.read (h : i.Alike i') : i.read.1 = i'.read.1 ∧ i.read.2.Alike i'.read.2 := by
  constructor
  · have hone := h 1
    simpa [reads] using hone
  · intro count
    have hmore := h (count + 1)
    simp only [reads, List.cons.injEq] at hmore
    exact hmore.2

theorem Alike.of_read (hresult : i.read.1 = i'.read.1) (hrest : i.read.2.Alike i'.read.2) :
    i.Alike i' := by
  intro count
  cases count with
  | zero => rfl
  | succ count => rw [reads, reads, hresult, hrest count]

/-- A read of one of two inputs that are alike goes with a read of the other. -/
theorem Alike.exists_read (h : i.Alike i') {result : Except ReadError (Option Char)}
    {rest : Input} (hread : i.read = (result, rest)) :
    ∃ rest', i'.read = (result, rest') ∧ rest.Alike rest' := by
  obtain ⟨hresult, hrest⟩ := h.read
  rw [hread] at hresult hrest
  exact ⟨i'.read.2, Prod.ext hresult.symm rfl, hrest⟩

theorem Alike.giveBack (h : i.Alike i') (text : List Char) :
    (i.giveBack text).Alike (i'.giveBack text) := by
  induction text with
  | nil => exact h
  | cons c text ih => exact Alike.of_read rfl ih

theorem giveBack_append (front back : List Char) (i : Input) :
    i.giveBack (front ++ back) = (i.giveBack back).giveBack front := by
  simp only [giveBack, List.append_assoc]

/-- A character that is read and given back has not been read. -/
theorem alike_giveBack_of_read {c : Char} (h : i.read = (.ok (some c), i')) :
    i.Alike (i'.giveBack [c]) := by
  apply Alike.of_read
  · rw [h]
    rfl
  · rw [h]
    exact Alike.refl i'

theorem reads_of_spells_nil (h : i.Spells []) (count : Nat) :
    reads count i = List.replicate count (.ok none) := by
  induction count generalizing i with
  | zero => rfl
  | succ count ih =>
    obtain ⟨rest, hread⟩ := h
    rw [reads, hread, ih (spells_nil_of_read_end hread), List.replicate_succ]

/-- The end can be read any number of times. -/
theorem alike_of_read_end (h : i.read = (.ok none, i')) : i.Alike i' := by
  have hend : i.Spells [] := ⟨i', h⟩
  intro count
  rw [reads_of_spells_nil hend, reads_of_spells_nil (spells_nil_of_read_end h)]

/-- A text put in front of a source is read like a text that was given back. -/
theorem alike_behind (text : List Char) (source : Source) :
    (ofSource (source.behind text)).Alike ⟨text, source⟩ := by
  induction text with
  | nil =>
    cases source with
    | text rest => exact Alike.refl _
    | bytes reader =>
      -- The empty chunk in front is gone after the first read.
      have hread : (ofSource ((Source.bytes reader).behind [])).read =
          (ofSource (.bytes reader)).read := by
        simp only [ofSource, Source.behind, List.flatMap_nil, read, Source.read,
          ByteReader.read_cons_nil]
      exact Alike.of_read (by rw [hread]; rfl) (by rw [hread]; exact Alike.refl _)
  | cons c text ih =>
    have hread : (ofSource (source.behind (c :: text))).read =
        (.ok (some c), ofSource (source.behind text)) := by
      cases source with
      | text rest => rfl
      | bytes reader =>
        simp only [ofSource, Source.behind, List.flatMap_cons, read, Source.read,
          ByteReader.read_encoded]
    apply Alike.of_read
    · rw [hread]
      rfl
    · rw [hread]
      exact ih

/-- Reading gives the characters of the text and leaves the other input. -/
inductive Yields : Input → List Char → Input → Prop
  | nil (i : Input) : Yields i [] i
  | cons {i i' last : Input} {c : Char} {text : List Char} (hread : i.read = (.ok (some c), i'))
      (hrest : Yields i' text last) : Yields i (c :: text) last

/-- Inputs that are alike spell the same text. -/
theorem Alike.spells (h : i.Alike i') {text : List Char} (hspells : i.Spells text) :
    i'.Spells text := by
  induction text generalizing i i' with
  | nil =>
    obtain ⟨rest, hread⟩ := hspells
    obtain ⟨rest', hread', -⟩ := h.exists_read hread
    exact ⟨rest', hread'⟩
  | cons c text ih =>
    obtain ⟨rest, hread, hrest⟩ := hspells
    obtain ⟨rest', hread', halike⟩ := h.exists_read hread
    exact ⟨rest', hread', ih halike hrest⟩

/-- A text that was given back is the front of what the input spells. -/
theorem exists_of_spells_giveBack {front text : List Char} (h : (i.giveBack front).Spells text) :
    ∃ rest, text = front ++ rest ∧ i.Spells rest := by
  induction front generalizing text with
  | nil => exact ⟨text, rfl, h⟩
  | cons c front ih =>
    cases text with
    | nil =>
      obtain ⟨rest, hread⟩ := h
      cases hread
    | cons d text =>
      obtain ⟨rest, hread, hrest⟩ := h
      cases hread
      obtain ⟨left, rfl, hleft⟩ := ih hrest
      exact ⟨left, rfl, hleft⟩

/-- No read fails before the end of a text that the input spells. -/
theorem Spells.read_ne_error {text front : List Char} {last last' : Input} {error : ReadError}
    (h : i.Spells text) (hyields : i.Yields front last) : last.read ≠ (.error error, last') := by
  induction hyields generalizing text with
  | nil i =>
    intro herror
    cases text with
    | nil =>
      obtain ⟨rest, hread⟩ := h
      simp [hread] at herror
    | cons c text =>
      obtain ⟨rest, hread, -⟩ := h
      simp [hread] at herror
  | cons hread _ ih =>
    cases text with
    | nil =>
      obtain ⟨rest, hend⟩ := h
      simp [hread] at hend
    | cons d text =>
      obtain ⟨rest, hread', hrest⟩ := h
      rw [hread, Prod.mk.injEq] at hread'
      exact ih (hread'.2 ▸ hrest)

/-- When a read fails, nothing is left that was given back. -/
theorem pushback_of_read_error {error : ReadError} (h : i.read = (.error error, i')) :
    i'.pushback = [] := by
  obtain ⟨pushback, source⟩ := i
  cases pushback with
  | cons c pushback => simp [read] at h
  | nil =>
    simp only [read, Prod.mk.injEq] at h
    rw [← h.2]

end Input

end ShiftReduce
