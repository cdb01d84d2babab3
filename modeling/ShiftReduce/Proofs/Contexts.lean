import ShiftReduce.Proofs.Lineups

/-!
Scans without contexts. If no recognizer is limited to some contexts, a scan finds the
same in every context, and none is limited afterwards. So a tokenizer without such
recognizers gives one sequence of tokens and errors, in whatever contexts they are asked
for.
-/
namespace ShiftReduce

variable {κ υ : Type}

namespace Recognizer

/-- The recognizer is not limited to some contexts. -/
def IsUnconditional : Recognizer κ υ → Prop
  | .active _ _ => False
  | .mapped _ inner => inner.IsUnconditional
  | .lexeme _ _ => True
  | .trivia _ => True
  | .custom _ _ => True

theorem IsUnconditional.renew {r : Recognizer κ υ} (h : r.IsUnconditional) :
    r.renew.IsUnconditional := by
  induction r with
  | active isActive inner => exact h.elim
  | mapped transform inner ih => exact ih h
  | _ => trivial

variable {r : Recognizer κ (NoCustom κ)}

theorem IsUnconditional.test_eq (h : r.IsUnconditional) (c? : Option Char)
    (context context' : Context) : r.test c? context = r.test c? context' := by
  induction r with
  | active isActive inner => exact h.elim
  | mapped transform inner ih => simp only [test, ih h]
  | custom fresh current => cases fresh
  | _ => rfl

/-- A recognizer stays limited or not, whatever it is fed. -/
theorem isKept_isUnconditional :
    IsKept (IsUnconditional : Recognizer κ (NoCustom κ) → Prop) := by
  apply isKept_of_congr
  · intro kind pattern c?
    exact ⟨rfl, rfl⟩
  · intro pattern c?
    exact ⟨rfl, rfl⟩
  · intro isActive inner inner' h
    rfl
  · intro transform inner inner' h
    exact h

end Recognizer

namespace Contender

variable {k : Contender (Recognizer κ (NoCustom κ))}

theorem feed_eq (h : k.recognizer.IsUnconditional) (c? : Option Char) (context context' : Context) :
    k.feed context c? = k.feed context' c? := by
  unfold feed
  simp only [Recognizes.test, h.test_eq c? context context']

end Contender

namespace Race

/-- No recognizer in the race is limited to some contexts. -/
def IsUnconditional (r : Race (Recognizer κ (NoCustom κ))) : Prop :=
  ∀ k ∈ r.contenders, k.recognizer.IsUnconditional

variable {r : Race (Recognizer κ (NoCustom κ))}

theorem map_feed_eq (h : r.IsUnconditional) (c? : Option Char) (context context' : Context) :
    r.contenders.map (Contender.feed context c?) = r.contenders.map (Contender.feed context' c?) :=
  List.map_congr_left fun k hk => Contender.feed_eq (h k hk) c? context context'

theorem isUnconditional_map_feed (h : r.IsUnconditional) (c? : Option Char) (context : Context) :
    ∀ k ∈ r.contenders.map (Contender.feed context c?), k.recognizer.IsUnconditional :=
  forall_of_map_eq (Recognizer.isKept_isUnconditional.map_feed context r.contenders c?) h

theorem run_congr (h : r.IsUnconditional) (context context' : Context) :
    r.run context = r.run context' := by
  fun_induction run context r with
  | case1 r hlive error rest hread => rw [run_eq_of_read hlive hread]
  | case2 r hlive rest hread =>
    rw [run_eq_of_read hlive hread]
    simp only [close, map_feed_eq h none context context']
  | case3 r hlive c rest hread _ ih =>
    rw [run_eq_of_read hlive hread, ih (isUnconditional_map_feed h (some c) context)]
    simp only [feed, map_feed_eq h (some c) context context']
  | case4 r hlive => rw [run, if_neg hlive]

theorem start_congr {recognizers : List (Recognizer κ (NoCustom κ))}
    (h : ∀ r ∈ recognizers, r.IsUnconditional) (context context' : Context) (c : Char)
    (rest : Input) : start context recognizers c rest = start context' recognizers c rest := by
  have hfeed : ∀ r ∈ recognizers, (Contender.enter r).feed context (some c) =
      (Contender.enter r).feed context' (some c) := by
    intro r hr
    have hreset : (Recognizes.reset r).IsUnconditional :=
      (Recognizer.isKept_isUnconditional.reset r).mpr (h r hr)
    exact Contender.feed_eq hreset (some c) context context'
  simp only [start, List.map_congr_left hfeed]

theorem isUnconditional_start {recognizers : List (Recognizer κ (NoCustom κ))}
    (h : ∀ r ∈ recognizers, r.IsUnconditional) (context : Context) (c : Char) (rest : Input) :
    (start context recognizers c rest).IsUnconditional :=
  forall_of_map_eq (Recognizer.isKept_isUnconditional.map_start context recognizers c rest) h

end Race

namespace Tokenizer

/-- No recognizer of the tokenizer is limited to some contexts. -/
def IsUnconditional (t : Tokenizer (Recognizer κ (NoCustom κ)) κ) : Prop :=
  ∀ r ∈ t.recognizers, r.IsUnconditional

variable {t : Tokenizer (Recognizer κ (NoCustom κ)) κ}

theorem round_congr (h : t.IsUnconditional) (context context' : Context) :
    t.round context = t.round context' := by
  unfold round Round.play
  cases hread : t.input.read with
  | mk result rest =>
    cases result with
    | error error => rfl
    | ok c? =>
      cases c? with
      | none => rfl
      | some c =>
        dsimp only
        rw [Race.start_congr h context context' c rest,
          Race.run_congr (Race.isUnconditional_start h context' c rest) context context']

theorem isUnconditional_round (h : t.IsUnconditional) (context : Context) :
    (t.round context).2.IsUnconditional :=
  forall_of_map_eq (Recognizer.isKept_isUnconditional.map_round context t) h

theorem isUnconditional_scan (h : t.IsUnconditional) (context : Context) :
    (t.scan context).2.IsUnconditional :=
  forall_of_map_eq (Recognizer.isKept_isUnconditional.map_scan context t) h

/-- A scan finds the same in every context. -/
theorem scan_congr (h : t.IsUnconditional) (context context' : Context) :
    t.scan context = t.scan context' := by
  have hround := isUnconditional_round h context
  fun_induction scan context t with
  | case1 t t' heq => rw [scan_eq_of_round ((round_congr h context' context).trans heq)]
  | case2 t text token t' heq =>
    rw [scan_eq_of_round ((round_congr h context' context).trans heq)]
  | case3 t text t' heq _ ih =>
    rw [heq] at hround
    rw [scan_eq_of_round ((round_congr h context' context).trans heq)]
    exact ih hround (isUnconditional_round hround context)
  | case4 t text reason? discarded t' heq =>
    rw [scan_eq_of_round ((round_congr h context' context).trans heq)]
  | case5 t error t' heq => rw [scan_eq_of_round ((round_congr h context' context).trans heq)]

end Tokenizer

theorem Blueprint.isUnconditional_build {b : Blueprint κ (NoCustom κ)}
    (h : ∀ r ∈ b.recognizers, r.IsUnconditional) (source : Source) :
    (b.build source).IsUnconditional := by
  intro r hr
  rcases List.mem_append.mp hr with hr | hr
  · obtain ⟨before, hbefore, rfl⟩ := List.mem_map.mp hr
    exact (h before hbefore).renew
  · split at hr
    · obtain rfl := List.mem_singleton.mp hr
      trivial
    · exact absurd hr List.not_mem_nil

end ShiftReduce
