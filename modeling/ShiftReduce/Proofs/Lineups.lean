import ShiftReduce.Proofs.Rounds

/-!
What becomes of the recognizers. A recognizer takes part in every race, where it is reset
and fed characters; in the list it keeps its place. So what neither a reset nor a character
changes about a recognizer is the same after any number of rounds.
-/
namespace ShiftReduce

theorem forall_of_map_eq {α γ : Type} {p : α → Prop} {q : γ → Prop} {xs : List α} {ys : List γ}
    (h : xs.map p = ys.map q) (hall : ∀ y ∈ ys, q y) : ∀ x ∈ xs, p x := by
  intro x hx
  have hmem : p x ∈ ys.map q := h ▸ List.mem_map_of_mem hx
  obtain ⟨y, hy, heq⟩ := List.mem_map.mp hmem
  exact heq.mp (hall y hy)

variable {ρ κ β : Type} [Recognizes ρ κ]

/-- Something about recognizers that neither a reset nor a character changes. -/
structure IsKept (f : ρ → β) : Prop where
  reset : ∀ r : ρ, f (Recognizes.reset r) = f r
  test : ∀ (r : ρ) (c? : Option Char) (context : Context),
    f (Recognizes.test r c? context).2 = f r

namespace IsKept

variable {f : ρ → β} (h : IsKept f) (context : Context)
include h

theorem feed (k : Contender ρ) (c? : Option Char) :
    f (k.feed context c?).recognizer = f k.recognizer := by
  have htest := h.test k.recognizer c? context
  unfold Contender.feed
  generalize Recognizes.test k.recognizer c? context = result at htest ⊢
  obtain ⟨answer, recognizer⟩ := result
  split
  · cases answer <;> exact htest
  · rfl

theorem map_feed (contenders : List (Contender ρ)) (c? : Option Char) :
    (contenders.map (Contender.feed context c?)).map (fun k => f k.recognizer) =
      contenders.map fun k => f k.recognizer := by
  rw [List.map_map]
  exact List.map_congr_left fun k _ => h.feed context k c?

theorem map_start (recognizers : List ρ) (c : Char) (rest : Input) :
    (Race.start context recognizers c rest).contenders.map (fun k => f k.recognizer) =
      recognizers.map f := by
  rw [Race.start, List.map_map]
  apply List.map_congr_left
  intro r _
  have hfeed := h.feed context (Contender.enter r) (some c)
  have hreset := h.reset r
  exact hfeed.trans hreset

theorem map_run (r : Race ρ) :
    (r.run context).2.contenders.map (fun k => f k.recognizer) =
      r.contenders.map fun k => f k.recognizer := by
  fun_induction Race.run context r with
  | case1 => rfl
  | case2 r _ rest _ => exact h.map_feed context r.contenders none
  | case3 r _ c rest _ _ ih => rw [ih, Race.feed, h.map_feed context r.contenders (some c)]
  | case4 => rfl

theorem map_reset (recognizers : List ρ) :
    (recognizers.map Recognizes.reset).map f = recognizers.map f := by
  rw [List.map_map]
  exact List.map_congr_left fun r _ => h.reset r

theorem map_race (recognizers : List ρ) (c : Char) (rest : Input) :
    (((Race.start context recognizers c rest).run context).2.contenders.map
      Contender.recognizer).map f = recognizers.map f := by
  rw [List.map_map]
  exact (h.map_run context _).trans (h.map_start context recognizers c rest)

/-- Whether a round goes through a race or not, the recognizers keep their places. -/
theorem map_round (t : Tokenizer ρ κ) :
    (t.round context).2.recognizers.map f = t.recognizers.map f := by
  rcases Tokenizer.round_cases context t with ⟨error, rest, -, hround⟩ | ⟨rest, -, hround⟩ |
    ⟨c, rest, error, race, -, hrun, hround⟩ | ⟨c, rest, race, -, hrun, hround⟩
  · rw [hround]
    exact h.map_reset t.recognizers
  · rw [hround]
    exact h.map_reset t.recognizers
  · rw [hround, ← h.map_race context t.recognizers c rest, hrun]
  · rw [hround, ← h.map_race context t.recognizers c rest, hrun]

theorem map_scan (t : Tokenizer ρ κ) :
    (t.scan context).2.recognizers.map f = t.recognizers.map f := by
  have hround := h.map_round context t
  fun_induction Tokenizer.scan context t with
  | case1 t t' heq => rwa [heq] at hround
  | case2 t text token t' heq => rwa [heq] at hround
  | case3 t text t' heq _ ih =>
    rw [heq] at hround
    exact (ih (h.map_round context t')).trans hround
  | case4 t text reason? discarded t' heq => rwa [heq] at hround
  | case5 t error t' heq => rwa [heq] at hround

theorem map_next (t : Tokenizer ρ κ) :
    (t.next context).2.recognizers.map f = t.recognizers.map f := by
  unfold Tokenizer.next
  split
  · rfl
  · exact h.map_scan context t

end IsKept

/-- If two lists agree in all that is kept, there is the same recognizer at each place, as far as
something is kept. -/
theorem exists_getElem?_of_kept {recognizers recognizers' : List ρ} {place : Nat} {r : ρ}
    (h : ∀ {β : Type} {f : ρ → β}, IsKept f → recognizers.map f = recognizers'.map f)
    (hr : recognizers[place]? = some r) :
    ∃ r', recognizers'[place]? = some r' ∧
      ∀ {β : Type} {f : ρ → β}, IsKept f → f r = f r' := by
  have hplace : ∀ {β : Type} {f : ρ → β}, IsKept f →
      recognizers'[place]?.map f = some (f r) := by
    intro β f hf
    rw [← List.getElem?_map, ← h hf, List.getElem?_map, hr, Option.map_some]
  have hsome := hplace (f := fun _ => ()) ⟨fun _ => rfl, fun _ _ _ => rfl⟩
  obtain ⟨r', hr', -⟩ := Option.map_eq_some_iff.mp hsome
  refine ⟨r', hr', ?_⟩
  intro β f hf
  have heq := hplace hf
  rw [hr', Option.map_some] at heq
  exact (Option.some.inj heq).symm

namespace Recognizer

/-- If the patterns keep something, and it passes from a recognizer to one that is limited to
some contexts or changes its values, every recognizer keeps it. -/
theorem isKept_of_congr {f : Recognizer κ (NoCustom κ) → β}
    (hlexeme : ∀ kind (pattern : Lexeme) (c? : Option Char),
      f (.lexeme kind pattern.reset) = f (.lexeme kind pattern) ∧
        f (.lexeme kind (pattern.test c?).2) = f (.lexeme kind pattern))
    (htrivia : ∀ (pattern : Trivia) (c? : Option Char),
      f (.trivia pattern.reset) = f (.trivia pattern) ∧
        f (.trivia (pattern.test c?).2) = f (.trivia pattern))
    (hactive : ∀ isActive inner inner', f inner = f inner' →
      f (.active isActive inner) = f (.active isActive inner'))
    (hmapped : ∀ transform inner inner', f inner = f inner' →
      f (.mapped transform inner) = f (.mapped transform inner')) : IsKept f where
  reset r := by
    induction r with
    | lexeme kind pattern => exact (hlexeme kind pattern none).1
    | trivia pattern => exact (htrivia pattern none).1
    | active isActive inner ih => exact hactive _ _ _ ih
    | mapped transform inner ih => exact hmapped _ _ _ ih
    | custom fresh current => cases fresh
  test r c? context := by
    induction r with
    | lexeme kind pattern => exact (hlexeme kind pattern c?).2
    | trivia pattern => exact (htrivia pattern c?).2
    | active isActive inner ih =>
      simp only [Recognizes.test, test]
      split
      · exact hactive _ _ _ ih
      · rfl
    | mapped transform inner ih => exact hmapped _ _ _ ih
    | custom fresh current => cases fresh

/-- Whatever a recognizer was fed, it makes the same token of a text. -/
theorem isKept_token? (text : List Char) :
    IsKept fun r : Recognizer κ (NoCustom κ) => r.token? text := by
  apply isKept_of_congr
  · intro kind pattern c?
    cases pattern <;> exact ⟨rfl, rfl⟩
  · intro pattern c?
    exact ⟨rfl, rfl⟩
  · intro isActive inner inner' h
    exact h
  · intro transform inner inner' h
    exact congrArg (Option.map _) h

theorem isKept_isIgnored : IsKept fun r : Recognizer κ (NoCustom κ) => r.isIgnored := by
  apply isKept_of_congr
  · intro kind pattern c?
    exact ⟨rfl, rfl⟩
  · intro pattern c?
    exact ⟨rfl, rfl⟩
  · intro isActive inner inner' h
    exact h
  · intro transform inner inner' h
    exact h

end Recognizer

end ShiftReduce
