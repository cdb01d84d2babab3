import ShiftReduce.Input.Source

/-!
What is left in an input. An input spells a text when reading it gives the
characters of the text and then the end, and no read fails. Every input spells at
most one text, giving characters back puts them in front of it, and the end can be
found any number of times. An input over a text spells the characters given back
and the rest of the text, and reading leaves it an input over a text.
-/
namespace ShiftReduce

namespace ByteReader

theorem rest_of_nextOf_end {deliveries : List Delivery}
    (h : (nextOf deliveries).1 = .ok none) : (nextOf deliveries).2 = [] := by
  fun_induction nextOf deliveries with
  | case1 => rfl
  | case2 => simp at h
  | case3 rest ih => exact ih h
  | case4 => simp at h

/-- A stream at its end has nothing to deliver. -/
theorem rest_of_read_end {r r' : ByteReader} (h : r.read = (.ok none, r')) : r' = ⟨[]⟩ := by
  unfold read at h
  split at h
  · simp at h
  · next hend =>
    cases h
    simp only [nextByte, Prod.mk.injEq] at hend
    rw [← hend.2, rest_of_nextOf_end hend.1]
  · repeat' split at h
    all_goals simp at h

end ByteReader

/-- The end of a source stays its end. -/
theorem Source.read_of_read_end {s s' : Source} (h : s.read = (.ok none, s')) :
    s'.read = (.ok none, s') := by
  cases s with
  | text rest =>
    cases rest with
    | nil =>
      simp only [read, Prod.mk.injEq] at h
      rw [← h.2]
      rfl
    | cons c rest => simp [read] at h
  | bytes reader =>
    simp only [read, Prod.mk.injEq] at h
    obtain ⟨hresult, rfl⟩ := h
    have hend : reader.read = (.ok none, reader.read.2) := Prod.ext hresult rfl
    simp only [ByteReader.rest_of_read_end hend]
    rfl

namespace Input

/-- Reading the input gives the characters of the text and then its end. -/
def Spells : Input → List Char → Prop
  | i, [] => ∃ rest, i.read = (.ok none, rest)
  | i, c :: text => ∃ rest, i.read = (.ok (some c), rest) ∧ rest.Spells text

/-- Behind the end there is nothing more. -/
theorem spells_nil_of_read_end {i i' : Input} (h : i.read = (.ok none, i')) : i'.Spells [] := by
  obtain ⟨pushback, source⟩ := i
  cases pushback with
  | cons c pushback => simp [read] at h
  | nil =>
    simp only [read, Prod.mk.injEq] at h
    obtain ⟨hresult, rfl⟩ := h
    have hagain := Source.read_of_read_end (s := source) (Prod.ext hresult rfl)
    exact ⟨⟨[], source.read.2⟩, by simp only [read, hagain]⟩

theorem Spells.unique {i : Input} {text text' : List Char} (h : i.Spells text)
    (h' : i.Spells text') : text = text' := by
  induction text generalizing i text' with
  | nil =>
    obtain ⟨rest, hread⟩ := h
    cases text' with
    | nil => rfl
    | cons c text' =>
      obtain ⟨rest', hread', -⟩ := h'
      simp [hread] at hread'
  | cons c text ih =>
    obtain ⟨rest, hread, hrest⟩ := h
    cases text' with
    | nil =>
      obtain ⟨rest', hread'⟩ := h'
      simp [hread] at hread'
    | cons d text' =>
      obtain ⟨rest', hread', hrest'⟩ := h'
      simp only [hread, Prod.mk.injEq, Except.ok.injEq, Option.some.injEq] at hread'
      obtain ⟨rfl, rfl⟩ := hread'
      rw [ih hrest hrest']

/-- Characters given back are read first. -/
theorem Spells.giveBack {i : Input} {text : List Char} (h : i.Spells text) (front : List Char) :
    (i.giveBack front).Spells (front ++ text) := by
  induction front with
  | nil => exact h
  | cons c front ih => exact ⟨i.giveBack front, rfl, ih⟩

/-- The input reads from a text. -/
def IsText (i : Input) : Prop := ∃ rest, i.source = .text rest

theorem spells_of_source_eq {i : Input} {rest : List Char} (h : i.source = .text rest) :
    i.Spells (i.pushback ++ rest) := by
  obtain ⟨pushback, source⟩ := i
  subst h
  have hrest : ∀ text, (Input.mk [] (.text text)).Spells text := by
    intro text
    induction text with
    | nil => exact ⟨⟨[], .text []⟩, rfl⟩
    | cons c text ih => exact ⟨⟨[], .text text⟩, rfl, ih⟩
  simpa [Input.giveBack] using (hrest rest).giveBack pushback

theorem IsText.read {i : Input} (h : i.IsText) : i.read.2.IsText := by
  obtain ⟨pushback, source⟩ := i
  obtain ⟨rest, hsource⟩ := h
  subst hsource
  cases pushback with
  | cons c pushback => exact ⟨rest, rfl⟩
  | nil =>
    cases rest with
    | nil => exact ⟨[], rfl⟩
    | cons c rest => exact ⟨rest, rfl⟩

theorem IsText.giveBack {i : Input} (h : i.IsText) (front : List Char) :
    (i.giveBack front).IsText := h

end Input

end ShiftReduce
