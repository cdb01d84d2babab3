/-!
Sets of code points as ascending lists of runs. A property of characters with
many members is stored this way, one list to a module, and a character has the
property exactly when its code point is covered by the list.
-/
namespace ShiftReduce.Unicode

/-- All code points from the first to the second, both included. -/
abbrev Run := Nat × Nat

/-- Whether a code point lies in one of the runs. The runs ascend, so a run that
starts behind the code point ends the search. -/
def covers (n : Nat) : List Run → Bool
  | [] => false
  | (first, last) :: rest => decide (first ≤ n) && (decide (n ≤ last) || covers n rest)

/-- Only a code point inside a listed run is covered. -/
theorem exists_of_covers {n : Nat} {runs : List Run} (h : covers n runs = true) :
    ∃ run ∈ runs, run.1 ≤ n ∧ n ≤ run.2 := by
  induction runs with
  | nil => simp [covers] at h
  | cons run rest ih =>
    simp only [covers, Bool.and_eq_true, Bool.or_eq_true, decide_eq_true_eq] at h
    obtain ⟨hfirst, hlast | hrest⟩ := h
    · exact ⟨run, by simp, hfirst, hlast⟩
    · obtain ⟨other, hmem, hin⟩ := ih hrest
      exact ⟨other, by simp [hmem], hin⟩

end ShiftReduce.Unicode
