import ShiftReduce.Proofs.Interruptions
import ShiftReduce.Proofs.Lineups

/-!
Scans do not remember. A race resets its recognizers before they see a character, and a
reset clears all that feeding has changed. So tokenizers answer alike if their recognizers
are the same after a reset and their inputs are read alike, and a tokenizer that has no
token to keep answers like a new one over what is left of its input.
-/
namespace ShiftReduce

variable {ρ κ : Type} [Recognizes ρ κ]

namespace Race

/-- Races that differ only in their inputs, which are read alike. -/
structure Alike (r r' : Race ρ) : Prop where
  contenders_eq : r.contenders = r'.contenders
  read_eq : r.read = r'.read
  input : r.input.Alike r'.input

theorem Alike.text_eq {r r' : Race ρ} (h : r.Alike r') : r.text = r'.text := by
  rw [text, text, h.read_eq]

theorem Alike.run {r r' : Race ρ} (h : r.Alike r') (context : Context) :
    (r.run context).1 = (r'.run context).1 ∧ (r.run context).2.Alike (r'.run context).2 := by
  -- Both races go on or stop together, and each read of one is a read of the other.
  have hlive_eq : r'.contenders.any Contender.isLive = r.contenders.any Contender.isLive := by
    rw [h.contenders_eq]
  fun_induction Race.run context r generalizing r' with
  | case1 r hlive error rest hread =>
    obtain ⟨rest', hread', hrest⟩ := h.input.exists_read hread
    rw [run_eq_of_read (hlive_eq.trans hlive) hread']
    exact ⟨rfl, h.contenders_eq, h.read_eq, hrest⟩
  | case2 r hlive rest hread =>
    obtain ⟨rest', hread', hrest⟩ := h.input.exists_read hread
    rw [run_eq_of_read (hlive_eq.trans hlive) hread']
    exact ⟨rfl, congrArg (List.map _) h.contenders_eq, h.read_eq, hrest⟩
  | case3 r hlive c rest hread _ ih =>
    obtain ⟨rest', hread', hrest⟩ := h.input.exists_read hread
    rw [run_eq_of_read (hlive_eq.trans hlive) hread']
    have hfeed : (r.feed context c rest).Alike (r'.feed context c rest') :=
      ⟨congrArg (List.map _) h.contenders_eq, congrArg (List.cons c) h.read_eq, hrest⟩
    exact ih hfeed (by rw [hfeed.contenders_eq])
  | case4 r hlive =>
    rw [Race.run, if_neg (by rwa [hlive_eq])]
    exact ⟨rfl, h⟩

/-- Racing, the recognizers see none of what they were before their reset. -/
theorem alike_start {recognizers recognizers' : List ρ}
    (h : recognizers.map Recognizes.reset = recognizers'.map Recognizes.reset)
    (context : Context) (c : Char) {rest rest' : Input} (hrest : rest.Alike rest') :
    (start context recognizers c rest).Alike (start context recognizers' c rest') := by
  have henter : ∀ lineup : List ρ, (start context lineup c rest).contenders =
      (lineup.map Recognizes.reset).map fun recognizer =>
        ({ recognizer } : Contender ρ).feed context (some c) := by
    intro lineup
    rw [List.map_map]
    rfl
  refine ⟨?_, rfl, hrest⟩
  rw [henter, h]
  exact (henter recognizers').symm

end Race

/-- What becomes of a race does not depend on what is behind it. -/
theorem Round.settle_of_alike {r r' : Race ρ} (h : r.Alike r') :
    (settle r).1 = (settle r').1 ∧ (settle r).2.Alike (settle r').2 := by
  obtain ⟨rest, htext, hrest⟩ := exists_giveBack_of_settle r
  obtain ⟨rest', htext', hrest'⟩ := exists_giveBack_of_settle r'
  have hfinding : (settle r).1 = (settle r').1 := by
    unfold settle
    rw [h.contenders_eq, h.text_eq]
    split
    · dsimp only
      split
      · rfl
      · rfl
    · rfl
  rw [h.text_eq, htext', hfinding] at htext
  obtain rfl := List.append_cancel_left htext
  rw [hrest, hrest']
  exact ⟨hfinding, h.input.giveBack rest'⟩

namespace Tokenizer

/-- Tokenizers that differ only in what their recognizers have seen since a reset, and in
their inputs, which are read alike. -/
structure Alike (t t' : Tokenizer ρ κ) : Prop where
  reset_eq : t.recognizers.map Recognizes.reset = t'.recognizers.map Recognizes.reset
  endKind_eq : t.endKind = t'.endKind
  peeked_eq : t.peeked? = t'.peeked?
  isFinished_eq : t.isFinished = t'.isFinished
  input : t.input.Alike t'.input

variable {t t' : Tokenizer ρ κ}

theorem Alike.round (h : t.Alike t') (context : Context) :
    (t.round context).1 = (t'.round context).1 ∧ (t.round context).2.Alike (t'.round context).2 := by
  unfold Tokenizer.round Round.play
  cases hread : t.input.read with
  | mk result rest =>
    obtain ⟨rest', hread', hrest⟩ := h.input.exists_read hread
    rw [hread']
    rcases result with error | _ | c
    · exact ⟨rfl, congrArg _ h.reset_eq, h.endKind_eq, h.peeked_eq, h.isFinished_eq, hrest⟩
    · exact ⟨rfl, congrArg _ h.reset_eq, h.endKind_eq, h.peeked_eq, h.isFinished_eq, hrest⟩
    · obtain ⟨herror, hrace⟩ := (Race.alike_start h.reset_eq context c hrest).run context
      dsimp only
      generalize (Race.start context t.recognizers c rest).run context = outcome at herror hrace ⊢
      generalize (Race.start context t'.recognizers c rest').run context = outcome' at herror hrace ⊢
      obtain ⟨error?, race⟩ := outcome
      obtain ⟨error?', race'⟩ := outcome'
      obtain rfl : error? = error?' := herror
      -- The recognizers of the two races have become the same, not only after a reset.
      have hafter : (race.contenders.map Contender.recognizer).map Recognizes.reset =
          (race'.contenders.map Contender.recognizer).map Recognizes.reset := by
        rw [show race.contenders = race'.contenders from hrace.contenders_eq]
      cases error? with
      | some error =>
        exact ⟨rfl, hafter, h.endKind_eq, h.peeked_eq, h.isFinished_eq, hrace.input⟩
      | none =>
        obtain ⟨hfinding, hinput⟩ := Round.settle_of_alike hrace
        exact ⟨hfinding, hafter, h.endKind_eq, h.peeked_eq, h.isFinished_eq, hinput⟩

theorem Alike.exists_round (h : t.Alike t') {context : Context} {finding : Round κ}
    {after : Tokenizer ρ κ} (hround : t.round context = (finding, after)) :
    ∃ after', t'.round context = (finding, after') ∧ after.Alike after' := by
  obtain ⟨hfinding, hafter⟩ := h.round context
  rw [hround] at hfinding hafter
  exact ⟨(t'.round context).2, Prod.ext hfinding.symm rfl, hafter⟩

theorem Alike.scan (h : t.Alike t') (context : Context) :
    (t.scan context).1 = (t'.scan context).1 ∧ (t.scan context).2.Alike (t'.scan context).2 := by
  fun_induction Tokenizer.scan context t generalizing t' with
  | case1 t after hround =>
    obtain ⟨after', hround', hafter⟩ := h.exists_round hround
    rw [scan_eq_of_round hround', h.endKind_eq]
    exact ⟨rfl, hafter⟩
  | case2 t text token after hround =>
    obtain ⟨after', hround', hafter⟩ := h.exists_round hround
    rw [scan_eq_of_round hround']
    exact ⟨rfl, hafter⟩
  | case3 t text after hround _ ih =>
    obtain ⟨after', hround', hafter⟩ := h.exists_round hround
    rw [scan_eq_of_round hround']
    exact ih hafter
  | case4 t text reason? discarded after hround =>
    obtain ⟨after', hround', hafter⟩ := h.exists_round hround
    rw [scan_eq_of_round hround']
    exact ⟨rfl, hafter⟩
  | case5 t error after hround =>
    obtain ⟨after', hround', hafter⟩ := h.exists_round hround
    rw [scan_eq_of_round hround']
    exact ⟨rfl, hafter⟩

theorem Alike.next (h : t.Alike t') (context : Context) :
    (t.next context).1 = (t'.next context).1 ∧ (t.next context).2.Alike (t'.next context).2 := by
  unfold Tokenizer.next
  rw [← h.peeked_eq]
  cases t.peeked? with
  | some token => exact ⟨rfl, h.reset_eq, h.endKind_eq, rfl, h.isFinished_eq, h.input⟩
  | none => exact h.scan context

theorem Alike.peek (h : t.Alike t') (context : Context) :
    (t.peek context).1 = (t'.peek context).1 ∧ (t.peek context).2.Alike (t'.peek context).2 := by
  obtain ⟨hresult, hafter⟩ := h.next context
  rw [peek_eq_next, peek_eq_next]
  generalize t.next context = taken at hresult hafter ⊢
  generalize t'.next context = taken' at hresult hafter ⊢
  obtain ⟨result, after⟩ := taken
  obtain ⟨result', after'⟩ := taken'
  obtain rfl : result = result' := hresult
  cases result with
  | ok token =>
    exact ⟨rfl, hafter.reset_eq, hafter.endKind_eq, rfl, hafter.isFinished_eq, hafter.input⟩
  | error error => exact ⟨rfl, hafter⟩

theorem Alike.nextItem? (h : t.Alike t') :
    t.nextItem?.1 = t'.nextItem?.1 ∧ t.nextItem?.2.Alike t'.nextItem?.2 := by
  obtain ⟨hresult, hafter⟩ := h.next {}
  unfold Tokenizer.nextItem?
  rw [← h.isFinished_eq]
  split
  · exact ⟨rfl, h⟩
  · refine ⟨congrArg some hresult, ?_⟩
    exact ⟨hafter.reset_eq, hafter.endKind_eq, hafter.peeked_eq, congrArg isLast hresult,
      hafter.input⟩

end Tokenizer

namespace Lossless

/-- The answers to some requests. -/
def answers : List Call → Tokenizer ρ κ → List (Option (Lexed κ))
  | [], _ => []
  | call :: calls, t => (call.perform t).1 :: answers calls (call.perform t).2

variable {t t' : Tokenizer ρ κ}

theorem perform_of_alike (h : t.Alike t') (call : Call) :
    (call.perform t).1 = (call.perform t').1 ∧ (call.perform t).2.Alike (call.perform t').2 := by
  cases call with
  | next context =>
    obtain ⟨hresult, hafter⟩ := h.next context
    exact ⟨congrArg some hresult, hafter⟩
  | peek context =>
    obtain ⟨hresult, hafter⟩ := h.peek context
    exact ⟨congrArg some hresult, hafter⟩
  | item => exact h.nextItem?

/-- Tokenizers that are alike answer alike, however many requests there are. -/
theorem answers_of_alike (h : t.Alike t') (calls : List Call) :
    answers calls t = answers calls t' := by
  induction calls generalizing t t' with
  | nil => rfl
  | cons call calls ih =>
    obtain ⟨hanswer, hafter⟩ := perform_of_alike h call
    rw [answers, answers, hanswer, ih hafter]

end Lossless

section Builtin

variable {κ : Type}

theorem Lexeme.reset_test (l : Lexeme) (c? : Option Char) : (l.test c?).2.reset = l.reset := by
  cases l with
  | _ pattern => rfl

theorem Trivia.reset_test (t : Trivia) (c? : Option Char) : (t.test c?).2.reset = t.reset := by
  cases t with
  | _ pattern => rfl

/-- A reset clears all that the pattern of a recognizer has changed. -/
theorem Recognizer.isKept_reset :
    IsKept (Recognizer.reset : Recognizer κ (NoCustom κ) → Recognizer κ (NoCustom κ)) where
  reset r := by
    induction r with
    | lexeme kind pattern => cases pattern <;> rfl
    | trivia pattern => cases pattern <;> rfl
    | active isActive inner ih => exact congrArg (Recognizer.active isActive) ih
    | mapped transform inner ih => exact congrArg (Recognizer.mapped transform) ih
    | custom fresh current => cases fresh
  test r c? context := by
    induction r with
    | lexeme kind pattern => exact congrArg (Recognizer.lexeme kind) (pattern.reset_test c?)
    | trivia pattern => exact congrArg Recognizer.trivia (pattern.reset_test c?)
    | active isActive inner ih =>
      simp only [Recognizes.test, Recognizer.test]
      split
      · exact congrArg (Recognizer.active isActive) ih
      · rfl
    | mapped transform inner ih => exact congrArg (Recognizer.mapped transform) ih
    | custom fresh current => cases fresh

namespace Tokenizer

/-- A tokenizer made from a blueprint, whatever it has done since, with more to come. -/
structure StemsFrom (b : Blueprint κ (NoCustom κ))
    (t : Tokenizer (Recognizer κ (NoCustom κ)) κ) : Prop where
  reset_eq : t.recognizers.map Recognizer.reset = b.lineup.map Recognizer.reset
  endKind_eq : t.endKind = b.endKind
  isFinished_eq : t.isFinished = false

variable {b : Blueprint κ (NoCustom κ)} {t : Tokenizer (Recognizer κ (NoCustom κ)) κ}

theorem stemsFrom_build (b : Blueprint κ (NoCustom κ)) (source : Source) :
    (b.build source).StemsFrom b := ⟨rfl, rfl, rfl⟩

theorem StemsFrom.next (h : t.StemsFrom b) (context : Context) :
    (t.next context).2.StemsFrom b := by
  obtain ⟨hfinished, hend⟩ := next_frame context t
  have hreset := (Recognizer.isKept_reset.map_next context t).trans h.reset_eq
  exact ⟨hreset, hend.trans h.endKind_eq, hfinished.trans h.isFinished_eq⟩

theorem StemsFrom.peek (h : t.StemsFrom b) (context : Context) :
    (t.peek context).2.StemsFrom b := by
  have hnext := h.next context
  rw [peek_eq_next]
  split
  · next heq =>
    rw [heq] at hnext
    exact ⟨hnext.reset_eq, hnext.endKind_eq, hnext.isFinished_eq⟩
  · next heq =>
    rw [heq] at hnext
    exact hnext

/-- Without a token to keep, the tokenizer is like a new one over what is left. -/
theorem StemsFrom.alike_build (h : t.StemsFrom b) (hpeeked : t.peeked? = none) :
    t.Alike (b.build (t.input.source.behind t.input.pushback)) where
  reset_eq := h.reset_eq
  endKind_eq := h.endKind_eq
  peeked_eq := hpeeked
  isFinished_eq := h.isFinished_eq
  input := (Input.alike_behind t.input.pushback t.input.source).symm

end Tokenizer

namespace Lossless

theorem stemsFrom_after {b : Blueprint κ (NoCustom κ)} {calls : List Call}
    (hcalls : ∀ call ∈ calls, call ≠ .item) {t : Tokenizer (Recognizer κ (NoCustom κ)) κ}
    (h : t.StemsFrom b) : (after calls t).StemsFrom b := by
  induction calls generalizing t with
  | nil => exact h
  | cons call calls ih =>
    have hrest : ∀ call ∈ calls, call ≠ .item := by
      intro call hmem
      exact hcalls call (List.mem_cons_of_mem _ hmem)
    apply ih hrest
    cases call with
    | next context => exact h.next context
    | peek context => exact h.peek context
    | item => exact absurd rfl (hcalls .item List.mem_cons_self)

/-- After any requests and looks that leave no token to keep, all further answers are those
of a new tokenizer over the characters given back and what the source has not yet given.
A read that fails leaves no such token and nothing given back, and of the input only the
characters read in the same round are lost. -/
theorem answers_forget_history (b : Blueprint κ (NoCustom κ)) (source : Source)
    {calls : List Call} (hcalls : ∀ call ∈ calls, call ≠ .item) :
    let t := after calls (b.build source)
    (t.peeked? = none → ∀ further,
        answers further t = answers further (b.build (t.input.source.behind t.input.pushback))) ∧
      ∀ context error t',
        t.next context = (.error (.unreadable error), t') ∨
            t.peek context = (.error (.unreadable error), t') →
          t.IsBrokenOff context error t' := by
  intro t
  have hstems : t.StemsFrom b := stemsFrom_after hcalls (Tokenizer.stemsFrom_build b source)
  constructor
  · intro hpeeked further
    exact answers_of_alike (hstems.alike_build hpeeked) further
  · rintro context error t' (hnext | hpeek)
    · exact Tokenizer.isBrokenOff_of_next hnext
    · exact Tokenizer.isBrokenOff_of_next (Tokenizer.next_eq_of_peek_error hpeek)

/-- Numbers, with blanks between them. -/
def spacedNumbers : Blueprint String (NoCustom String) :=
  { recognizers := [.number "num"], endKind := "$" }

/-- Three numbers; the stream fails behind the second. -/
def failingStream : Source :=
  .bytes ⟨[.chunk [0x31, 0x20, 0x32], .failure (.timedOut "late"), .chunk [0x20, 0x33]]⟩

/-- Behind the first number the blank is given back. The second number is lost when the
stream fails, and a new tokenizer over the rest of the stream goes on as this one does. -/
theorem answers_forget_failingStream :
    (∀ call ∈ [Call.next {}], call ≠ .item) ∧
      answers [.next {}, .next {}] (after [.next {}] (spacedNumbers.build failingStream)) =
        answers [.next {}, .next {}] (spacedNumbers.build
          (.bytes ⟨[.chunk [0x20], .chunk [0x32], .failure (.timedOut "late"),
            .chunk [0x20, 0x33]]⟩)) ∧
      ∃ t', (after [.next {}] (spacedNumbers.build failingStream)).IsBrokenOff {}
          (.timedOut "late") t' ∧
        t'.input.source = .bytes ⟨[.chunk [0x20, 0x33]]⟩ := by
  have hcalls : ∀ call ∈ [Call.next {}], call ≠ .item := by simp
  obtain ⟨hanswers, hbroken⟩ := answers_forget_history spacedNumbers failingStream hcalls
  have hnone : (after [.next {}] (spacedNumbers.build failingStream)).peeked? = none := by
    with_unfolding_all rfl
  have hleft : (after [.next {}] (spacedNumbers.build failingStream)).input = ⟨[' '],
      .bytes ⟨[.chunk [0x32], .failure (.timedOut "late"), .chunk [0x20, 0x33]]⟩⟩ := by
    with_unfolding_all rfl
  have hfurther := hanswers hnone [.next {}, .next {}]
  rw [hleft] at hfurther
  have hfails : ((after [.next {}] (spacedNumbers.build failingStream)).next {}).1 =
      .error (.unreadable (.timedOut "late")) := by
    with_unfolding_all rfl
  have hlost : ((after [.next {}] (spacedNumbers.build failingStream)).next {}).2.input.source =
      .bytes ⟨[.chunk [0x20, 0x33]]⟩ := by
    with_unfolding_all rfl
  exact ⟨hcalls, hfurther, _, hbroken {} (.timedOut "late") _ (Or.inl (Prod.ext hfails rfl)), hlost⟩

end Lossless

end Builtin

end ShiftReduce
