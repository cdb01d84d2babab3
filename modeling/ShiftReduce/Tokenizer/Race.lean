import ShiftReduce.Input.Source
import ShiftReduce.Tokenizer.Contender

/-!
A race of recognizers over an input. All of them are fed the same characters until
none is live any more or the input ends; the end of the input is fed once. A read
that fails breaks the race off.
-/
namespace ShiftReduce

variable {ρ κ : Type}

/-- A race: the input behind it, the characters it has read, the last one first,
and the contenders. -/
structure Race (ρ : Type) where
  input : Input
  read : List Char
  contenders : List (Contender ρ)

namespace Race

variable [Recognizes ρ κ]

/-- The race after its first character. -/
def start (context : Context) (recognizers : List ρ) (c : Char) (rest : Input) : Race ρ where
  input := rest
  read := [c]
  contenders := recognizers.map fun recognizer =>
    (Contender.enter recognizer).feed context (some c)

/-- The race after another character. -/
def feed (context : Context) (r : Race ρ) (c : Char) (rest : Input) : Race ρ where
  input := rest
  read := c :: r.read
  contenders := r.contenders.map (Contender.feed context (some c))

/-- The race after the end of the input. -/
def close (context : Context) (r : Race ρ) (rest : Input) : Race ρ where
  input := rest
  read := r.read
  contenders := r.contenders.map (Contender.feed context none)

/-- The race when it is over, and the failed read if one broke it off. -/
def run (context : Context) (r : Race ρ) : Option ReadError × Race ρ :=
  if r.contenders.any Contender.isLive then
    match h : r.input.read with
    | (.error error, rest) => (some error, { r with input := rest })
    | (.ok none, rest) => (none, r.close context rest)
    | (.ok (some c), rest) =>
      have : rest.size < r.input.size := Input.size_lt_of_read h
      run context (r.feed context c rest)
  else (none, r)
termination_by r.input.size
decreasing_by simpa [feed] using this

/-- The characters that the race has read. -/
def text (r : Race ρ) : List Char := r.read.reverse

/-- A race that has read something, with contenders that were fed. -/
def Started (r : Race ρ) : Prop := r.read ≠ [] ∧ ∀ k ∈ r.contenders, k.Started

theorem started_start (context : Context) (recognizers : List ρ) (c : Char) (rest : Input) :
    (start context recognizers c rest).Started := by
  refine ⟨by simp [start], ?_⟩
  intro k hk
  obtain ⟨recognizer, -, rfl⟩ := List.mem_map.mp hk
  exact Contender.started_feed_enter context c recognizer

theorem Started.feed {r : Race ρ} (h : r.Started) (context : Context) (c : Char) (rest : Input) :
    (r.feed context c rest).Started := by
  refine ⟨by simp [Race.feed], ?_⟩
  intro k hk
  obtain ⟨before, hbefore, rfl⟩ := List.mem_map.mp hk
  exact (h.2 before hbefore).feed context (some c)

theorem Started.close {r : Race ρ} (h : r.Started) (context : Context) (rest : Input) :
    (r.close context rest).Started := by
  refine ⟨h.1, ?_⟩
  intro k hk
  obtain ⟨before, hbefore, rfl⟩ := List.mem_map.mp hk
  exact (h.2 before hbefore).feed context none

/-- A race that was started stays so when it runs. -/
theorem Started.run {r : Race ρ} (h : r.Started) (context : Context) {r' : Race ρ}
    (hrun : r.run context = (none, r')) : r'.Started := by
  fun_induction Race.run context r with
  | case1 => simp at hrun
  | case2 r _ rest _ =>
    cases hrun
    exact h.close context rest
  | case3 r _ c rest _ _ ih => exact ih (h.feed context c rest) hrun
  | case4 =>
    cases hrun
    exact h

/-- What a race reads it takes from the input. -/
theorem size_of_run {r r' : Race ρ} {context : Context} (hrun : r.run context = (none, r')) :
    r'.input.size + r'.read.length ≤ r.input.size + r.read.length := by
  fun_induction Race.run context r with
  | case1 => simp at hrun
  | case2 r _ rest hread =>
    cases hrun
    have := Input.size_le_of_read_end hread
    simpa [close] using this
  | case3 r _ c rest hread hlt ih =>
    have := ih hrun
    simp only [Race.feed, List.length_cons] at this
    omega
  | case4 =>
    cases hrun
    exact Nat.le_refl _

end Race

end ShiftReduce
