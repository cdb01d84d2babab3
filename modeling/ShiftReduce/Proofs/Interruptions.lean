import ShiftReduce.Proofs.Peeking
import ShiftReduce.Proofs.Reading

/-!
What scans take from their input. A round leaves the input as it was behind the text that
the round took, from whatever source it reads. Only a failed read loses more: the
characters read before it in the same round are gone. Nothing is kept or given back then,
so the tokenizer goes on behind the failed read.
-/
namespace ShiftReduce

variable {ρ κ : Type} [Recognizes ρ κ]

namespace Race

/-- A race that comes to its end has read the front of its input. -/
theorem alike_giveBack_of_run {r r' : Race ρ} {context : Context}
    (h : r.run context = (none, r')) :
    (r.input.giveBack r.text).Alike (r'.input.giveBack r'.text) := by
  fun_induction Race.run context r with
  | case1 => simp at h
  | case2 r _ rest hread =>
    cases h
    exact (Input.alike_of_read_end hread).giveBack r.text
  | case3 r _ c rest hread _ ih =>
    have hmoved := (Input.alike_giveBack_of_read hread).giveBack r.text
    rw [← Input.giveBack_append] at hmoved
    have htext : (r.feed context c rest).text = r.text ++ [c] := List.reverse_cons
    have hrest := ih h
    rw [htext] at hrest
    exact hmoved.trans hrest
  | case4 =>
    cases h
    exact Input.Alike.refl _

/-- A race is broken off by a read that fails, behind some characters. -/
theorem exists_yields_of_run {r r' : Race ρ} {context : Context} {error : ReadError}
    (h : r.run context = (some error, r')) :
    ∃ text last, r.input.Yields text last ∧ last.read = (.error error, r'.input) := by
  fun_induction Race.run context r with
  | case1 r _ error' rest hread =>
    cases h
    exact ⟨[], r.input, .nil r.input, hread⟩
  | case2 => simp at h
  | case3 r _ c rest hread _ ih =>
    obtain ⟨text, last, hyields, hlast⟩ := ih h
    exact ⟨c :: text, last, .cons hread hyields, hlast⟩
  | case4 => simp at h

end Race

namespace Tokenizer

/-- Before a round the input was what it is afterwards, behind the text that the round has
taken, unless a read has failed. -/
theorem alike_giveBack_of_round {t t' : Tokenizer ρ κ} {context : Context} {finding : Round κ}
    (h : t.round context = (finding, t')) (hwhole : ∀ error, finding ≠ .broken error) :
    t.input.Alike (t'.input.giveBack finding.taken) := by
  rcases round_cases context t with ⟨error, rest, -, hround⟩ | ⟨rest, hread, hround⟩ |
    ⟨c, rest, error, race, -, -, hround⟩ | ⟨c, rest, race, hread, hrun, hround⟩
  · rw [hround] at h
    cases h
    exact absurd rfl (hwhole error)
  · rw [hround] at h
    cases h
    exact Input.alike_of_read_end hread
  · rw [hround] at h
    cases h
    exact absurd rfl (hwhole error)
  · have hfirst := Input.alike_giveBack_of_read hread
    have hrace := Race.alike_giveBack_of_run hrun
    obtain ⟨back, htext, hback⟩ := Round.exists_giveBack_of_settle race
    rw [htext, Input.giveBack_append, ← hback] at hrace
    rw [hround] at h
    cases h
    exact hfirst.trans hrace

theorem exists_yields_of_round {t t' : Tokenizer ρ κ} {context : Context} {error : ReadError}
    (h : t.round context = (.broken error, t')) :
    ∃ text last, t.input.Yields text last ∧ last.read = (.error error, t'.input) := by
  rcases round_cases context t with ⟨error', rest, hread, hround⟩ | ⟨rest, -, hround⟩ |
    ⟨c, rest, error', race, hread, hrun, hround⟩ | ⟨c, rest, race, -, -, hround⟩
  · rw [hround] at h
    cases h
    exact ⟨[], t.input, .nil t.input, hread⟩
  · simp [hround] at h
  · obtain ⟨text, last, hyields, hlast⟩ := Race.exists_yields_of_run hrun
    rw [hround] at h
    cases h
    exact ⟨c :: text, last, .cons hread hyields, hlast⟩
  · rw [hround] at h
    have hfinding : (Round.settle race).1 = .broken error := congrArg Prod.fst h
    have htakes := Round.takesText_settle race
    simp [hfinding, Round.takesText] at htakes

/-- Rounds that skip the text they take lead from one tokenizer to another. -/
inductive Skips (context : Context) : Tokenizer ρ κ → List Char → Tokenizer ρ κ → Prop
  | nil (t : Tokenizer ρ κ) : Skips context t [] t
  | round {t t' t'' : Tokenizer ρ κ} {text more : List Char}
      (hround : t.round context = (.skipped text, t')) (hmore : Skips context t' more t'') :
      Skips context t (text ++ more) t''

theorem Skips.alike {context : Context} {t t' : Tokenizer ρ κ} {text : List Char}
    (h : t.Skips context text t') : t.input.Alike (t'.input.giveBack text) := by
  induction h with
  | nil t => exact Input.Alike.refl t.input
  | round hround _ ih =>
    have hfirst := alike_giveBack_of_round hround (by simp)
    rw [Input.giveBack_append]
    exact hfirst.trans (ih.giveBack _)

/-- What a failed read leaves of a tokenizer: nothing is kept or given back. The scan has
skipped some text, which was in front of the input, and in the round that was broken off
it has read some characters up to the read that failed. Only these are lost. -/
structure IsBrokenOff (context : Context) (error : ReadError) (t t' : Tokenizer ρ κ) : Prop where
  peeked_eq : t'.peeked? = none
  pushback_eq : t'.input.pushback = []
  exists_round : ∃ skipped s lost last,
    t.Skips context skipped s ∧ t.input.Alike (s.input.giveBack skipped) ∧
      s.round context = (.broken error, t') ∧
      s.input.Yields lost last ∧ last.read = (.error error, t'.input)

theorem exists_skips_of_scan {t t' : Tokenizer ρ κ} {context : Context} {error : ReadError}
    (h : t.scan context = (.error (.unreadable error), t')) :
    ∃ skipped s, t.Skips context skipped s ∧ s.round context = (.broken error, t') := by
  fun_induction scan context t with
  | case1 => simp at h
  | case2 => simp at h
  | case3 t text after hround _ ih =>
    obtain ⟨skipped, s, hskips, hbroken⟩ := ih h
    exact ⟨text ++ skipped, s, .round hround hskips, hbroken⟩
  | case4 => simp at h
  | case5 t error' after hround =>
    cases h
    exact ⟨[], t, .nil t, hround⟩

theorem isBrokenOff_of_next {t t' : Tokenizer ρ κ} {context : Context} {error : ReadError}
    (h : t.next context = (.error (.unreadable error), t')) : t.IsBrokenOff context error t' := by
  have hpeeked := peeked?_next context t
  rw [h] at hpeeked
  have hscan : t.scan context = (.error (.unreadable error), t') := by
    unfold next at h
    split at h
    · simp at h
    · exact h
  obtain ⟨skipped, s, hskips, hround⟩ := exists_skips_of_scan hscan
  obtain ⟨lost, last, hyields, hlast⟩ := exists_yields_of_round hround
  exact ⟨hpeeked, Input.pushback_of_read_error hlast, skipped, s, lost, last, hskips,
    hskips.alike, hround, hyields, hlast⟩

/-- A look fails as a request does. -/
theorem next_eq_of_peek_error {t t' : Tokenizer ρ κ} {context : Context} {error : LexError}
    (h : t.peek context = (.error error, t')) : t.next context = (.error error, t') := by
  rw [peek_eq_next] at h
  split at h
  · simp at h
  · next heq =>
    cases h
    exact heq

end Tokenizer

end ShiftReduce
