import ShiftReduce.Recognition

/-!
One recognizer in a race. A contender is fed as long as it is live, and remembers
its longest match and the last time it had something to say about a text that did
not match. What it remembers depends on its own answers alone, so a contender in a
race is the contender that runs by itself.

Among contenders the longest match wins. Of equally long ones the earliest wins,
and of those the first in the list; a match can be late only when it was found at
the end of the input.
-/
namespace ShiftReduce

variable {ρ κ : Type}

/-- A match: how many characters it has and at which feeding it was found. -/
structure Mark where
  length : Nat
  moment : Nat
  deriving DecidableEq, Repr

/-- An answer that explains why there is no match: the feeding at which it was
given, and whether it was a failure. -/
structure Remark where
  moment : Nat
  isHard : Bool
  deriving DecidableEq, Repr

/-- A recognizer with its history in the current race. -/
structure Contender (ρ : Type) where
  recognizer : ρ
  isLive : Bool := true
  fed : Nat := 0
  match? : Option Mark := none
  remark? : Option Remark := none

namespace Contender

variable [Recognizes ρ κ]

/-- A recognizer before the race. -/
def enter (recognizer : ρ) : Contender ρ := { recognizer := Recognizes.reset recognizer }

/-- The better of the best match so far and a new one: only a longer match is
better. -/
def longer (mark? : Option Mark) (mark : Mark) : Mark :=
  match mark? with
  | some old => if old.length < mark.length then mark else old
  | none => mark

/-- A contender after the next character, or after the end of the input. At the
end a match has the characters fed before. -/
def feed (context : Context) (c? : Option Char) (k : Contender ρ) : Contender ρ :=
  if k.isLive then
    let (answer, recognizer) := Recognizes.test k.recognizer c? context
    let moment := k.fed + 1
    let length := if c?.isSome then moment else k.fed
    match answer with
    | .noMatch => { k with recognizer, fed := moment, isLive := false }
    | .partialMatch => { k with recognizer, fed := moment, remark? := some ⟨moment, false⟩ }
    | .fullMatch =>
      { k with recognizer, fed := moment, match? := some (longer k.match? ⟨length, moment⟩) }
    | .failure =>
      { k with recognizer, fed := moment, isLive := false, remark? := some ⟨moment, true⟩ }
  else k

/-- The contender that wins, with its match. -/
def winner? : List (Contender ρ) → Option (Contender ρ × Mark)
  | [] => none
  | k :: rest =>
    match k.match?, winner? rest with
    | none, other => other
    | some mark, none => some (k, mark)
    | some mark, some (other, best) =>
      if mark.length < best.length ∨ mark.length = best.length ∧ best.moment < mark.moment then
        some (other, best)
      else some (k, mark)

/-- The contender that explains a race without a winner: the one that had
something to say last, and of those the last in the list. -/
def spokesman? : List (Contender ρ) → Option (Contender ρ × Remark)
  | [] => none
  | k :: rest =>
    match k.remark?, spokesman? rest with
    | none, other => other
    | some remark, none => some (k, remark)
    | some remark, some (other, last) =>
      if last.moment < remark.moment then some (k, remark) else some (other, last)

/-- A contender that has been fed has matched no empty text. -/
def Started (k : Contender ρ) : Prop := 0 < k.fed ∧ ∀ mark, k.match? = some mark → 0 < mark.length

/-- The better of two matches is one of them. -/
theorem longer_cases (mark? : Option Mark) (mark : Mark) :
    longer mark? mark = mark ∨ mark? = some (longer mark? mark) := by
  unfold longer
  split
  · split
    · exact Or.inl rfl
    · exact Or.inr rfl
  · exact Or.inl rfl

/-- A first character starts a contender. -/
theorem started_feed_enter (context : Context) (c : Char) (recognizer : ρ) :
    (feed context (some c) (enter recognizer)).Started := by
  unfold feed enter
  generalize Recognizes.test (Recognizes.reset recognizer) (some c) context = result
  obtain ⟨answer, after⟩ := result
  cases answer <;> simp [Started, longer]

/-- A contender that was started stays so. -/
theorem Started.feed {k : Contender ρ} (h : k.Started) (context : Context) (c? : Option Char) :
    (k.feed context c?).Started := by
  unfold Contender.feed
  split
  · generalize Recognizes.test k.recognizer c? context = result
    obtain ⟨answer, after⟩ := result
    cases answer with
    | fullMatch =>
      refine ⟨Nat.succ_pos _, ?_⟩
      intro mark hmark
      simp only [Option.some.injEq] at hmark
      rcases longer_cases k.match? ⟨if c?.isSome then k.fed + 1 else k.fed, k.fed + 1⟩ with hnew | hold
      · rw [← hmark, hnew]
        have := h.1
        simp only
        split <;> omega
      · exact h.2 mark (by rw [hold, hmark])
    | noMatch => exact ⟨Nat.succ_pos _, h.2⟩
    | partialMatch => exact ⟨Nat.succ_pos _, h.2⟩
    | failure => exact ⟨Nat.succ_pos _, h.2⟩
  · exact h

omit [Recognizes ρ κ] in
/-- The winner is one of the contenders, with its own match. -/
theorem mem_of_winner? {contenders : List (Contender ρ)} {k : Contender ρ} {mark : Mark}
    (h : winner? contenders = some (k, mark)) : k ∈ contenders ∧ k.match? = some mark := by
  induction contenders with
  | nil => simp [winner?] at h
  | cons first rest ih =>
    unfold winner? at h
    split at h
    · obtain ⟨hmem, hmark⟩ := ih h
      exact ⟨by simp [hmem], hmark⟩
    · next hfirst _ =>
      cases h
      exact ⟨by simp, hfirst⟩
    · next hfirst hrest =>
      split at h
      · cases h
        obtain ⟨hmem, hmark⟩ := ih hrest
        exact ⟨by simp [hmem], hmark⟩
      · cases h
        exact ⟨by simp, hfirst⟩

end Contender

end ShiftReduce
