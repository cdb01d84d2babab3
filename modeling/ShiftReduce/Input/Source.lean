import ShiftReduce.Input.ByteReader

/-!
Where characters come from. A source is a text or a stream of bytes, and an input
is a source with characters in front of it that were read before and given back.
Reading takes the characters given back first. Every character read makes an
input smaller.
-/
namespace ShiftReduce

/-- The characters not yet read. -/
inductive Source where
  | text (rest : List Char)
  | bytes (reader : ByteReader)
  deriving DecidableEq

namespace Source

/-- The source of a text. -/
def ofString (text : String) : Source := .text text.toList

/-- The next character, or none at the end. -/
def read : Source → Except ReadError (Option Char) × Source
  | .text [] => (.ok none, .text [])
  | .text (c :: rest) => (.ok (some c), .text rest)
  | .bytes reader =>
    let (result, rest) := reader.read
    (result, .bytes rest)

/-- A bound on the number of characters to come. -/
def size : Source → Nat
  | .text rest => rest.length
  | .bytes reader => reader.size

/-- Finding no character does not make a source larger. -/
theorem size_le_of_read_end {s s' : Source} (h : s.read = (.ok none, s')) : s'.size ≤ s.size := by
  cases s with
  | text rest =>
    cases rest with
    | nil =>
      simp only [read, Prod.mk.injEq] at h
      simp [← h.2]
    | cons d rest => simp [read] at h
  | bytes reader =>
    simp only [read, Prod.mk.injEq] at h
    obtain ⟨hresult, rfl⟩ := h
    exact ByteReader.size_le_of_read_end (Prod.ext hresult rfl)

/-- A character read makes a source smaller. -/
theorem size_lt_of_read {s s' : Source} {c : Char} (h : s.read = (.ok (some c), s')) :
    s'.size < s.size := by
  cases s with
  | text rest =>
    cases rest with
    | nil => simp [read] at h
    | cons d rest =>
      simp only [read, Prod.mk.injEq] at h
      simp [← h.2, size]
  | bytes reader =>
    simp only [read, Prod.mk.injEq] at h
    obtain ⟨hresult, rfl⟩ := h
    exact ByteReader.size_lt_of_read (Prod.ext hresult rfl)

end Source

/-- A source behind characters that were given back, the next one first. -/
structure Input where
  pushback : List Char
  source : Source
  deriving DecidableEq

namespace Input

/-- The input of a source nothing was read from. -/
def ofSource (source : Source) : Input := ⟨[], source⟩

/-- The next character, or none at the end. -/
def read : Input → Except ReadError (Option Char) × Input
  | ⟨c :: pushback, source⟩ => (.ok (some c), ⟨pushback, source⟩)
  | ⟨[], source⟩ =>
    let (result, rest) := source.read
    (result, ⟨[], rest⟩)

/-- The input with a text before it. -/
def giveBack (text : List Char) (i : Input) : Input := ⟨text ++ i.pushback, i.source⟩

/-- A bound on the number of characters to come. -/
def size (i : Input) : Nat := i.pushback.length + i.source.size

/-- A text given back counts by its length. -/
theorem size_giveBack (text : List Char) (i : Input) :
    (i.giveBack text).size = text.length + i.size := by
  simp [giveBack, size, Nat.add_assoc]

/-- Finding no character does not make an input larger. -/
theorem size_le_of_read_end {i i' : Input} (h : i.read = (.ok none, i')) : i'.size ≤ i.size := by
  obtain ⟨pushback, source⟩ := i
  cases pushback with
  | cons d pushback => simp [read] at h
  | nil =>
    simp only [read, Prod.mk.injEq] at h
    obtain ⟨hresult, rfl⟩ := h
    have := Source.size_le_of_read_end (s := source) (Prod.ext hresult rfl)
    simpa [size] using this

/-- A character read makes an input smaller. -/
theorem size_lt_of_read {i i' : Input} {c : Char} (h : i.read = (.ok (some c), i')) :
    i'.size < i.size := by
  obtain ⟨pushback, source⟩ := i
  cases pushback with
  | cons d pushback =>
    simp only [read, Prod.mk.injEq] at h
    simp [← h.2, size]
  | nil =>
    simp only [read, Prod.mk.injEq] at h
    obtain ⟨hresult, rfl⟩ := h
    have := Source.size_lt_of_read (s := source) (Prod.ext hresult rfl)
    simpa [size] using this

end Input

end ShiftReduce
