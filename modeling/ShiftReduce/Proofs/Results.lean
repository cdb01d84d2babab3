import ShiftReduce.Proofs.Contexts

/-!
The results of a tokenizer. Taken one after the other, its tokens and errors are a
sequence, in which the end of the input is repeated. If no recognizer is limited to some
contexts, the sequence does not depend on the contexts they are taken in.
-/
namespace ShiftReduce

namespace Tokenizer

variable {ρ κ : Type} [Recognizes ρ κ]

/-- The tokenizer after so many results, each of them taken in its context. -/
def afterResults (contexts : Nat → Context) (t : Tokenizer ρ κ) : Nat → Tokenizer ρ κ
  | 0 => t
  | k + 1 => ((t.afterResults contexts k).next (contexts k)).2

/-- The result with a number. -/
def resultAt (contexts : Nat → Context) (t : Tokenizer ρ κ) (k : Nat) : Lexed κ :=
  ((t.afterResults contexts k).next (contexts k)).1

variable (contexts : Nat → Context)

theorem peeked?_afterResults {t : Tokenizer ρ κ} (h : t.peeked? = none) (k : Nat) :
    (t.afterResults contexts k).peeked? = none := by
  induction k with
  | zero => exact h
  | succ k ih => rw [afterResults, next_of_peeked?_eq_none ih, peeked?_scan, ih]

theorem scan_afterResults {t : Tokenizer ρ κ} (h : t.peeked? = none) (k : Nat) :
    (t.afterResults contexts k).scan (contexts k) =
      (t.resultAt contexts k, t.afterResults contexts (k + 1)) := by
  rw [resultAt, afterResults, next_of_peeked?_eq_none (peeked?_afterResults contexts h k)]

theorem endKind_afterResults (t : Tokenizer ρ κ) (k : Nat) :
    (t.afterResults contexts k).endKind = t.endKind := by
  induction k with
  | zero => rfl
  | succ k ih => exact (next_frame (contexts k) (t.afterResults contexts k)).2.trans ih

theorem isText_afterResults {t : Tokenizer ρ κ} (h : t.input.IsText) (k : Nat) :
    (t.afterResults contexts k).input.IsText := by
  induction k with
  | zero => exact h
  | succ k ih => exact isText_next ih (contexts k)

section Builtin

variable {t : Tokenizer (Recognizer κ (NoCustom κ)) κ}

theorem isUnconditional_afterResults (h : t.IsUnconditional) (hpeeked : t.peeked? = none)
    (k : Nat) :
    (t.afterResults contexts k).IsUnconditional := by
  induction k with
  | zero => exact h
  | succ k ih =>
    rw [afterResults, next_of_peeked?_eq_none (peeked?_afterResults contexts hpeeked k)]
    exact isUnconditional_scan ih (contexts k)

theorem scan_of_spells_nil (h : t.input.Spells []) (context : Context) :
    (t.scan context).1 = .ok (Token.endOfInput t.endKind) := by
  obtain ⟨rest, hread⟩ := h
  have hround : t.round context = (.endOfInput, { t with
      recognizers := t.recognizers.map Recognizes.reset
      input := rest }) := by
    simp only [round, Round.play, hread]
  rw [scan_eq_of_round hround]

/-- A scan that finds the end of the input leaves nothing to be read. -/
theorem spells_nil_of_scan {text : List Char} (h : t.input.Spells text) (context : Context)
    (hscan : (t.scan context).1 = .ok (Token.endOfInput t.endKind)) :
    (t.scan context).2.input.Spells [] := by
  fun_induction scan context t generalizing text with
  | case1 t t' hround => exact spells_nil_of_round hround
  | case2 t matched token t' hround =>
    obtain ⟨rest, -, -, hfaithful⟩ := exists_round_of_spells h context
    rw [hround] at hfaithful
    simp only [Except.ok.injEq] at hscan
    rw [hscan] at hfaithful
    simp [Round.IsFaithful, Token.endOfInput] at hfaithful
  | case3 t skipped t' hround _ ih =>
    obtain ⟨rest, -, hrest, -⟩ := exists_round_of_spells h context
    rw [hround] at hrest
    exact ih hrest (by rw [hscan, endKind_of_round hround])
  | case4 => simp at hscan
  | case5 => simp at hscan

/-- The end of the input is repeated. -/
theorem resultAt_succ_of_end (htext : t.input.IsText) (hpeeked : t.peeked? = none) {k : Nat}
    (h : t.resultAt contexts k = .ok (Token.endOfInput t.endKind)) :
    t.resultAt contexts (k + 1) = .ok (Token.endOfInput t.endKind) := by
  have hkind := endKind_afterResults contexts t
  have hscan := scan_afterResults contexts hpeeked
  obtain ⟨rest, hsource⟩ := isText_afterResults contexts htext k
  have hend : (t.afterResults contexts (k + 1)).input.Spells [] := by
    have hnothing := spells_nil_of_scan (Input.spells_of_source_eq hsource) (contexts k)
      (by rw [hscan, h, hkind])
    rwa [hscan] at hnothing
  have hnext := scan_of_spells_nil hend (contexts (k + 1))
  rwa [hscan, hkind] at hnext

theorem drain_of_isFinished (h : t.isFinished = true) : t.drain.1 = [] := by
  have hnext : t.nextItem? = (none, t) := by rw [nextItem?, if_pos h]
  rw [drain]
  split
  · rfl
  · next heq =>
    rw [hnext] at heq
    cases heq

theorem drain_of_nextItem? {t' : Tokenizer (Recognizer κ (NoCustom κ)) κ} {item : Lexed κ}
    (h : t.nextItem? = (some item, t')) : t.drain.1 = item :: t'.drain.1 := by
  rw [drain]
  split
  · next heq =>
    rw [h] at heq
    cases heq
  · next heq =>
    rw [h] at heq
    cases heq
    rfl

/-- What a scan finds is yielded, and what follows it, unless it is the last. -/
theorem drain_of_scan {t' : Tokenizer (Recognizer κ (NoCustom κ)) κ} {item : Lexed κ}
    (h : t.scan {} = (item, t')) (hpeeked : t.peeked? = none) (hrunning : t.isFinished = false) :
    t.drain.1 = item :: ({ t' with isFinished := isLast item } : Tokenizer _ κ).drain.1 := by
  apply drain_of_nextItem?
  rw [nextItem?, if_neg (by simp [hrunning]), next_of_peeked?_eq_none hpeeked, h]

/-- Nothing is yielded behind the token for the end of the input. -/
theorem drain_of_scan_end {kind : κ} (h : (t.scan {}).1 = .ok (Token.endOfInput kind))
    (hpeeked : t.peeked? = none) (hrunning : t.isFinished = false) :
    t.drain.1 = [.ok (Token.endOfInput kind)] := by
  rw [drain_of_scan (Prod.ext h rfl) hpeeked hrunning, drain_of_isFinished rfl]

/-- At the end of the input nothing is yielded but the token for it. -/
theorem drain_of_spells_nil (h : t.input.Spells []) (hpeeked : t.peeked? = none)
    (hrunning : t.isFinished = false) : t.drain.1 = [.ok (Token.endOfInput t.endKind)] :=
  drain_of_scan_end (scan_of_spells_nil h {}) hpeeked hrunning

/-- If the first round makes a token of the whole text, the token and the end of the input are
all that is yielded. -/
theorem drain_of_round {t' : Tokenizer (Recognizer κ (NoCustom κ)) κ} {text : List Char}
    {token : Token κ} (hround : t.round {} = (.found text token, t')) (hrest : t'.input.Spells [])
    (htoken : token.isEndOfInput = false) (hpeeked : t.peeked? = none)
    (hrunning : t.isFinished = false) :
    t.drain.1 = [.ok token, .ok (Token.endOfInput t.endKind)] := by
  have hscan : t.scan {} = (.ok token, t') := scan_eq_of_round hround
  obtain ⟨hpeeked', -, hend⟩ := scan_frame hscan
  have hlast := drain_of_spells_nil (t := { t' with isFinished := false }) hrest
    (hpeeked'.trans hpeeked) rfl
  rw [drain_of_scan hscan hpeeked hrunning, isLast, htoken, hlast, hend]

end Builtin

end Tokenizer

end ShiftReduce
