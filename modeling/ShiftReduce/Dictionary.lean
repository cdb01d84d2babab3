/-!
Dictionaries with few keys, as lists of pairs. Setting a key replaces what it had
before. Also ascending lists without repetition, in which keys are shown.
-/
namespace ShiftReduce

variable {κ α : Type}

/-- Values by key. -/
structure Dictionary (κ α : Type) where
  pairs : List (κ × α) := []
  deriving DecidableEq, Repr

namespace Dictionary

/-- The keys that have a value. -/
def keys (d : Dictionary κ α) : List κ := d.pairs.map Prod.fst

/-- The number of keys that have a value. -/
def size (d : Dictionary κ α) : Nat := d.pairs.length

variable [DecidableEq κ]

/-- The value of a key. -/
def get? (d : Dictionary κ α) (key : κ) : Option α :=
  (d.pairs.find? fun pair => pair.1 = key).map Prod.snd

/-- The dictionary with another value for a key. -/
def set (d : Dictionary κ α) (key : κ) (value : α) : Dictionary κ α :=
  ⟨(key, value) :: d.pairs.filter fun pair => pair.1 ≠ key⟩

/-- A key that was set has its value. -/
@[simp]
theorem get?_set_self (d : Dictionary κ α) (key : κ) (value : α) :
    (d.set key value).get? key = some value := by simp [get?, set]

/-- Setting a key leaves the others alone. -/
@[simp]
theorem get?_set_of_ne (d : Dictionary κ α) {key other : κ} (value : α) (h : other ≠ key) :
    (d.set key value).get? other = d.get? other := by
  have hne : ¬ key = other := fun heq => h heq.symm
  simp only [get?, set, List.find?_cons, hne, decide_false, List.find?_filter]
  congr 2
  funext pair
  by_cases hother : pair.1 = other <;> simp [hother, h]

/-- The empty dictionary has no values. -/
@[simp]
theorem get?_empty (key : κ) : (Dictionary.mk [] : Dictionary κ α).get? key = none := rfl

/-- The value of a key stands in a pair with it. -/
theorem mem_pairs_of_get? {d : Dictionary κ α} {key : κ} {value : α}
    (h : d.get? key = some value) : (key, value) ∈ d.pairs := by
  simp only [get?, Option.map_eq_some_iff] at h
  obtain ⟨⟨found, _⟩, hfind, rfl⟩ := h
  obtain rfl : found = key := by simpa using List.find?_some hfind
  exact List.mem_of_find?_eq_some hfind

/-- If the keys differ from each other, every pair holds the value of its key. -/
theorem get?_of_mem_pairs {d : Dictionary κ α} (h : d.keys.Nodup) {key : κ} {value : α}
    (hpair : (key, value) ∈ d.pairs) : d.get? key = some value := by
  obtain ⟨pairs⟩ := d
  induction pairs with
  | nil => exact absurd hpair List.not_mem_nil
  | cons first rest ih =>
    obtain ⟨hfirst, hrest⟩ := List.nodup_cons.mp h
    rcases List.mem_cons.mp hpair with rfl | hpair
    · simp [get?]
    · have hne : first.1 ≠ key := by
        rintro rfl
        exact hfirst (List.mem_map.mpr ⟨_, hpair, rfl⟩)
      have hget := ih hrest hpair
      simpa [get?, hne] using hget

/-- The keys are those with a value. -/
theorem mem_keys_iff (d : Dictionary κ α) (key : κ) : key ∈ d.keys ↔ ∃ value, d.get? key = some value := by
  simp only [keys, List.mem_map]
  constructor
  · rintro ⟨pair, hpair, rfl⟩
    rw [get?]
    cases hfind : d.pairs.find? fun other => other.1 = pair.1 with
    | none => exact absurd (List.find?_eq_none.mp hfind pair hpair) (by simp)
    | some found => exact ⟨found.2, rfl⟩
  · rintro ⟨value, hvalue⟩
    exact ⟨(key, value), mem_pairs_of_get? hvalue, rfl⟩

/-- Setting a key keeps the keys apart from each other. -/
theorem nodup_keys_set {d : Dictionary κ α} (h : d.keys.Nodup) (key : κ) (value : α) :
    (d.set key value).keys.Nodup := by
  simp only [keys, set, List.map_cons, List.nodup_cons, List.mem_map, List.mem_filter,
    decide_eq_true_eq, not_exists, not_and]
  refine ⟨fun pair hpair => hpair.2, ?_⟩
  exact List.Pairwise.sublist (List.Sublist.map Prod.fst List.filter_sublist) h

end Dictionary

/-- An element put in its place into an ascending list, unless it is there. -/
def insertAscending [DecidableEq α] [LT α] [DecidableLT α] (a : α) : List α → List α
  | [] => [a]
  | b :: rest =>
    if a < b then a :: b :: rest else if a = b then b :: rest else b :: insertAscending a rest

/-- The elements of a list in ascending order without repetition. -/
def ascending [DecidableEq α] [LT α] [DecidableLT α] (list : List α) : List α :=
  list.foldr insertAscending []

/-- Inserting adds one element. -/
theorem mem_insertAscending [DecidableEq α] [LT α] [DecidableLT α] (a b : α) (list : List α) :
    b ∈ insertAscending a list ↔ b = a ∨ b ∈ list := by
  induction list with
  | nil => simp [insertAscending]
  | cons c rest ih =>
    unfold insertAscending
    split
    · simp
    · split
      · next heq => simp [heq]
      · simp only [List.mem_cons, ih]
        constructor
        · rintro (h | h | h) <;> simp [h]
        · rintro (h | h | h) <;> simp [h]

/-- Putting a list in order keeps its elements. -/
@[simp]
theorem mem_ascending [DecidableEq α] [LT α] [DecidableLT α] (a : α) (list : List α) :
    a ∈ ascending list ↔ a ∈ list := by
  induction list with
  | nil => simp [ascending]
  | cons b rest ih =>
    have hstep : ascending (b :: rest) = insertAscending b (ascending rest) := rfl
    rw [hstep, mem_insertAscending, ih, List.mem_cons]

end ShiftReduce
