import Mathlib.Computability.RegularExpressions

/-!
Regular expressions over characters, read from the front. An expression is made of sets of
characters, and whether it matches a text is known from the first character and from what
matches the rest: each way of putting expressions together hands the first character on to
one of its parts.
-/
namespace ShiftReduce.Expressions

open RegularExpression Computability

/-- Any one of some characters. -/
def oneOf (letters : List Char) : RegularExpression Char := (letters.map char).sum

/-- The expression or nothing. -/
def atMostOnce (r : RegularExpression Char) : RegularExpression Char := 1 + r

/-- The expression, once or repeatedly. -/
def atLeastOnce (r : RegularExpression Char) : RegularExpression Char := r * r.star

variable {c : Char} {s letters : List Char} {q r : RegularExpression Char}

theorem mem_oneOf : s ∈ (oneOf letters).matches' ↔ ∃ c ∈ letters, s = [c] := by
  unfold oneOf
  induction letters with
  | nil => simp [matches'_zero]
  | cons c letters ih =>
    rw [List.map_cons, List.sum_cons, matches'_add, Language.mem_add, ih, List.exists_mem_cons_iff]
    rfl

theorem matches'_oneOf_append (front back : List Char) :
    (oneOf (front ++ back)).matches' = (oneOf front).matches' + (oneOf back).matches' := by
  ext s
  simp only [mem_oneOf, Language.mem_add, List.mem_append, or_and_right, exists_or]

theorem cons_mem_oneOf : c :: s ∈ (oneOf letters).matches' ↔ c ∈ letters ∧ s = [] := by
  rw [mem_oneOf]
  constructor
  · rintro ⟨letter, hletter, heq⟩
    obtain ⟨rfl, rfl⟩ := List.cons.inj heq
    exact ⟨hletter, rfl⟩
  · rintro ⟨hletter, rfl⟩
    exact ⟨c, hletter, rfl⟩

theorem cons_mem_oneOf_mul :
    c :: s ∈ (oneOf letters * r).matches' ↔ c ∈ letters ∧ s ∈ r.matches' := by
  rw [matches'_mul, Language.mem_mul]
  constructor
  · rintro ⟨front, hfront, back, hback, heq⟩
    obtain ⟨letter, hletter, rfl⟩ := mem_oneOf.mp hfront
    obtain ⟨rfl, rfl⟩ := List.cons.inj heq
    exact ⟨hletter, hback⟩
  · rintro ⟨hletter, hs⟩
    exact ⟨[c], mem_oneOf.mpr ⟨c, hletter, rfl⟩, s, hs, rfl⟩

theorem mem_matches'_add :
    s ∈ (q + r).matches' ↔ s ∈ q.matches' ∨ s ∈ r.matches' :=
  Iff.rfl

theorem cons_mem_atMostOnce : c :: s ∈ (atMostOnce q).matches' ↔ c :: s ∈ q.matches' := by
  rw [atMostOnce, mem_matches'_add, matches'_epsilon, Language.mem_one]
  simp

theorem mem_atMostOnce_mul :
    s ∈ (atMostOnce q * r).matches' ↔ s ∈ r.matches' ∨ s ∈ (q * r).matches' := by
  rw [atMostOnce, matches'_mul, matches'_add, matches'_epsilon, add_mul, one_mul]
  rfl

theorem matches'_star_mul (q r : RegularExpression Char) :
    (q.star * r).matches' = r.matches' + (q * (q.star * r)).matches' := by
  calc q.matches'∗ * r.matches'
      = (1 + q.matches' * q.matches'∗) * r.matches' := by
        rw [Language.one_add_self_mul_kstar_eq_kstar]
    _ = r.matches' + q.matches' * (q.matches'∗ * r.matches') := by
        rw [add_mul, one_mul, mul_assoc]

/-- The first character belongs to a repetition or to what follows it. -/
theorem cons_mem_star_mul :
    c :: s ∈ ((oneOf letters).star * r).matches' ↔
      c ∈ letters ∧ s ∈ ((oneOf letters).star * r).matches' ∨ c :: s ∈ r.matches' := by
  rw [← cons_mem_oneOf_mul, matches'_star_mul, Language.mem_add, or_comm]

theorem mem_matches'_mul :
    s ∈ (q * r).matches' ↔ ∃ front ∈ q.matches', ∃ back ∈ r.matches', front ++ back = s :=
  Language.mem_mul

theorem mem_atMostOnce : s ∈ (atMostOnce q).matches' ↔ s = [] ∨ s ∈ q.matches' := by
  rw [atMostOnce, mem_matches'_add, matches'_epsilon, Language.mem_one]

theorem mem_star_oneOf : s ∈ (oneOf letters).star.matches' ↔ ∀ c ∈ s, c ∈ letters := by
  induction s with
  | nil => simpa using Language.nil_mem_kstar _
  | cons c s ih =>
    have hstar : ((oneOf letters).star * 1).matches' = (oneOf letters).star.matches' :=
      mul_one _
    rw [← hstar, cons_mem_star_mul, hstar, ih, List.forall_mem_cons]
    simp [Language.mem_one]

theorem mem_atLeastOnce_oneOf :
    s ∈ (atLeastOnce (oneOf letters)).matches' ↔ s ≠ [] ∧ ∀ c ∈ s, c ∈ letters := by
  cases s with
  | nil =>
    simp only [atLeastOnce, mem_matches'_mul, mem_oneOf, ne_eq, not_true_eq_false, false_and,
      iff_false]
    rintro ⟨_, ⟨c, -, rfl⟩, back, -, heq⟩
    cases heq
  | cons c s =>
    rw [atLeastOnce, cons_mem_oneOf_mul, mem_star_oneOf, List.forall_mem_cons]
    simp

end ShiftReduce.Expressions
