import ShiftReduce.Proofs.Rounds

/-!
Scans step by step. A step begins a round with its first character or feeds the next one
to the race; when no contender is live, or the input ends, the race is settled, and what
was found ends the scan or begins another round. A round that does not end the scan leaves
less input than it began with, and a race reads forward, so a scan is over after so many
steps whatever its recognizers answer, and it ends with the result of `Tokenizer.scan`.
-/
namespace ShiftReduce

variable {ρ κ : Type}

/-- A scan between two steps: before a round, in the race of the round that a tokenizer
has begun, or finished. -/
inductive Scan (ρ κ : Type) where
  | round (t : Tokenizer ρ κ)
  | racing (t : Tokenizer ρ κ) (race : Race ρ)
  | finished (item : Lexed κ) (t : Tokenizer ρ κ)

namespace Scan

/-- How a scan goes on after a round. -/
def ofFinding (t : Tokenizer ρ κ) : Round κ → Scan ρ κ
  | .endOfInput => .finished (.ok (Token.endOfInput t.endKind)) t
  | .found _ token => .finished (.ok token) t
  | .skipped _ => .round t
  | .unrecognized text reason? _ => .finished (.error (.unrecognized (String.ofList text) reason?)) t
  | .broken error => .finished (.error (.unreadable error)) t

variable [Recognizes ρ κ]

/-- How a scan goes on after a race. -/
def ofRace (t : Tokenizer ρ κ) (race : Race ρ) : Scan ρ κ :=
  ofFinding { t with
    recognizers := race.contenders.map Contender.recognizer
    input := (Round.settle race).2 } (Round.settle race).1

/-- One step, which reads at most one character. -/
def step (context : Context) : Scan ρ κ → Scan ρ κ
  | .round t =>
    let ended (rest : Input) := { t with
      recognizers := t.recognizers.map Recognizes.reset
      input := rest }
    match t.input.read with
    | (.error error, rest) => ofFinding (ended rest) (.broken error)
    | (.ok none, rest) => ofFinding (ended rest) .endOfInput
    | (.ok (some c), rest) => .racing t (Race.start context t.recognizers c rest)
  | .racing t race =>
    if race.contenders.any Contender.isLive then
      match race.input.read with
      | (.error error, rest) =>
        ofFinding { t with
          recognizers := race.contenders.map Contender.recognizer
          input := rest } (.broken error)
      | (.ok none, rest) => ofRace t (race.close context rest)
      | (.ok (some c), rest) => .racing t (race.feed context c rest)
    else ofRace t race
  | .finished item t => .finished item t

/-- The scan after so many steps. -/
def after (context : Context) : Nat → Scan ρ κ → Scan ρ κ
  | 0, s => s
  | steps + 1, s => after context steps (s.step context)

/-- The scan is on its way to a result. The race of a round is what the race from its
first character has come to. -/
def Leads (context : Context) (result : Lexed κ × Tokenizer ρ κ) : Scan ρ κ → Prop
  | .round t => t.scan context = result
  | .racing t race => t.scan context = result ∧ race.Started ∧
      ∃ c rest, t.input.read = (.ok (some c), rest) ∧
        (Race.start context t.recognizers c rest).run context = race.run context
  | .finished item t => (item, t) = result

variable {context : Context} {result : Lexed κ × Tokenizer ρ κ}

/-- A round that ends in the scan's way leads to the result of the scan. -/
theorem leads_ofFinding {t t' : Tokenizer ρ κ} {finding : Round κ}
    (h : t.scan context = result) (hround : t.round context = (finding, t')) :
    (ofFinding t' finding).Leads context result := by
  rw [Tokenizer.scan_eq_of_round hround] at h
  cases finding with
  | endOfInput => rwa [ofFinding, Leads, Tokenizer.endKind_of_round hround]
  | found text token => exact h
  | skipped text => exact h
  | unrecognized text reason? discarded => exact h
  | broken error => exact h

/-- A race that is over leads to the result of the scan that it belongs to. -/
theorem leads_ofRace {t : Tokenizer ρ κ} {race : Race ρ} {c : Char} {rest : Input}
    (h : t.scan context = result) (hread : t.input.read = (.ok (some c), rest))
    (hrun : (Race.start context t.recognizers c rest).run context = (none, race)) :
    (ofRace t race).Leads context result := by
  have hround : t.round context = ((Round.settle race).1, { t with
      recognizers := race.contenders.map Contender.recognizer
      input := (Round.settle race).2 }) := by
    simp only [Tokenizer.round, Round.play, hread, hrun]
  exact leads_ofFinding h hround

theorem Leads.step {s : Scan ρ κ} (h : s.Leads context result) :
    (s.step context).Leads context result := by
  cases s with
  | finished item t => exact h
  | round t =>
    unfold Scan.step
    dsimp only
    split
    · next error rest hread =>
      exact leads_ofFinding h (by simp only [Tokenizer.round, Round.play, hread])
    · next rest hread =>
      exact leads_ofFinding h (by simp only [Tokenizer.round, Round.play, hread])
    · next c rest hread =>
      exact ⟨h, Race.started_start context t.recognizers c rest, c, rest, hread, rfl⟩
  | racing t race =>
    obtain ⟨hscan, hstarted, c, rest, hread, hrun⟩ := h
    unfold Scan.step
    dsimp only
    split
    · next hlive =>
      split
      · next error rest' hnext =>
        rw [Race.run_eq_of_read hlive hnext] at hrun
        exact leads_ofFinding hscan (by simp only [Tokenizer.round, Round.play, hread, hrun])
      · next rest' hnext =>
        rw [Race.run_eq_of_read hlive hnext] at hrun
        exact leads_ofRace hscan hread hrun
      · next d rest' hnext =>
        rw [Race.run_eq_of_read hlive hnext] at hrun
        exact ⟨hscan, hstarted.feed context d rest', c, rest, hread, hrun⟩
    · next hdone =>
      rw [Race.run.eq_def context race, if_neg hdone] at hrun
      exact leads_ofRace hscan hread hrun

theorem Leads.after {s : Scan ρ κ} (h : s.Leads context result) (steps : Nat) :
    (s.after context steps).Leads context result := by
  induction steps generalizing s with
  | zero => exact h
  | succ steps ih => exact ih h.step

/-- Whether a scan has its result. -/
def isFinished : Scan ρ κ → Bool
  | .finished _ _ => true
  | .round _ | .racing _ _ => false

/-- A bound on the number of steps to come. A round reads no more characters than are left
and takes one of them at least, so the bound is quadratic in what is left. -/
def potential : Scan ρ κ → Nat
  | .round t => (t.input.size + 1) * (t.input.size + 2)
  | .racing _ race =>
    let left := race.input.size + race.read.length
    left * (left + 1) + race.input.size + 1
  | .finished _ _ => 0

omit [Recognizes ρ κ] in
theorem potential_racing (t : Tokenizer ρ κ) (race : Race ρ) :
    (racing t race).potential = (race.input.size + race.read.length) *
      (race.input.size + race.read.length + 1) + race.input.size + 1 := rfl

omit [Recognizes ρ κ] in
/-- What is found ends the scan, unless another round is to begin. -/
theorem potential_ofFinding_le (t : Tokenizer ρ κ) (finding : Round κ) :
    (ofFinding t finding).potential ≤ (t.input.size + 1) * (t.input.size + 2) := by
  cases finding with
  | skipped text => exact Nat.le_refl _
  | _ => exact Nat.zero_le _

/-- After a race the next round has less input than the race had and had read. -/
theorem potential_ofRace_le (t : Tokenizer ρ κ) {race : Race ρ} (h : race.Started) {left : Nat}
    (hleft : race.input.size + race.read.length ≤ left) :
    (ofRace t race).potential ≤ left * (left + 1) := by
  have hsize : (Round.settle race).2.size + 1 ≤ left := by
    have hlt : (Round.settle race).2.size < race.input.size + race.read.length :=
      Round.size_lt_of_settle h rfl
    omega
  calc (ofRace t race).potential
      ≤ ((Round.settle race).2.size + 1) * ((Round.settle race).2.size + 2) :=
        potential_ofFinding_le _ _
    _ ≤ left * (left + 1) := Nat.mul_le_mul hsize (Nat.succ_le_succ hsize)

theorem Leads.potential_step_lt {s : Scan ρ κ} (h : s.Leads context result)
    (hfinished : s.isFinished = false) : (s.step context).potential < s.potential := by
  cases s with
  | finished item t => simp [isFinished] at hfinished
  | round t =>
    have hpos : 0 < (t.input.size + 1) * (t.input.size + 2) :=
      Nat.mul_pos (Nat.succ_pos _) (Nat.succ_pos _)
    unfold Scan.step
    dsimp only
    split
    · exact hpos
    · exact hpos
    · next c rest hread =>
      have hlt := Input.size_lt_of_read hread
      have hle : (rest.size + 1) * (rest.size + 1 + 1) ≤ t.input.size * (t.input.size + 1) :=
        Nat.mul_le_mul hlt (Nat.succ_le_succ hlt)
      have hsplit : (t.input.size + 1) * (t.input.size + 2) =
          t.input.size * (t.input.size + 1) + 2 * (t.input.size + 1) := by
        rw [← Nat.add_mul, Nat.mul_comm]
      have hround : (round t).potential = (t.input.size + 1) * (t.input.size + 2) := rfl
      simp only [potential_racing, Race.start, List.length_singleton, hround, hsplit]
      omega
  | racing t race =>
    obtain ⟨-, hstarted, -⟩ := h
    rw [potential_racing]
    unfold Scan.step
    dsimp only
    split
    · split
      · exact Nat.succ_pos _
      · next rest hread =>
        have hle := Input.size_le_of_read_end hread
        have hleft : (race.close context rest).input.size + (race.close context rest).read.length ≤
            race.input.size + race.read.length := Nat.add_le_add_right hle _
        have hclosed := potential_ofRace_le t (hstarted.close context rest) hleft
        omega
      · next c rest hread =>
        have hlt := Input.size_lt_of_read hread
        have hle : rest.size + (race.read.length + 1) ≤ race.input.size + race.read.length := by
          omega
        have hmul := Nat.mul_le_mul hle (Nat.add_le_add_right hle 1)
        simp only [potential_racing, Race.feed, List.length_cons]
        omega
    · have hsettled := potential_ofRace_le t hstarted (Nat.le_refl _)
      omega

/-- A scan on its way to a result comes to it. -/
theorem Leads.exists_after_eq_finished {s : Scan ρ κ} (h : s.Leads context result) :
    ∃ steps ≤ s.potential, s.after context steps = .finished result.1 result.2 := by
  -- The potential falls with every step until the scan is finished.
  generalize hbound : s.potential = bound
  induction bound using Nat.strongRecOn generalizing s with
  | ind bound ih =>
    cases hfinished : s.isFinished with
    | true =>
      cases s with
      | finished item t =>
        refine ⟨0, Nat.zero_le _, ?_⟩
        cases h
        rfl
      | round t => simp [isFinished] at hfinished
      | racing t race => simp [isFinished] at hfinished
    | false =>
      have hlt := h.potential_step_lt hfinished
      obtain ⟨steps, hsteps, hafter⟩ := ih _ (hbound ▸ hlt) h.step rfl
      exact ⟨steps + 1, by omega, hafter⟩

end Scan

/-- Every scan returns, whatever its recognizers answer, and it does so after a number of
steps that depends on the size of its input alone. -/
theorem Tokenizer.exists_steps_of_scan [Recognizes ρ κ] (context : Context) (t : Tokenizer ρ κ) :
    ∃ steps ≤ (t.input.size + 1) * (t.input.size + 2),
      (Scan.round t).after context steps = .finished (t.scan context).1 (t.scan context).2 := by
  have hleads : (Scan.round t).Leads context (t.scan context) := rfl
  exact hleads.exists_after_eq_finished

end ShiftReduce
