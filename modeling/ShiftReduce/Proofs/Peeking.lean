import ShiftReduce.Proofs.Lossless
import ShiftReduce.Proofs.Results

/-!
Looking at the next token. A look finds what a request would find, and keeps it if it is
a token; so the next request gives what was seen and leaves the tokenizer as if nobody
had looked, and a look that fails has taken what a failed request takes. In a run of
requests in one context the looks that succeed can be left out: what else is answered are
the results of the tokenizer one after the other, and every look is answered by the
result whose turn it is.
-/
namespace ShiftReduce

variable {ρ κ : Type} [Recognizes ρ κ]

namespace Tokenizer

/-- The second tokenizer is the first one, or the first one after a look at its next
token. -/
def Looked (context : Context) (t t' : Tokenizer ρ κ) : Prop :=
  t' = t ∨ ∃ token, t.peek context = (.ok token, t')

theorem peeked?_next (context : Context) (t : Tokenizer ρ κ) :
    (t.next context).2.peeked? = none := by
  unfold next
  split
  · rfl
  · next hnone => rw [peeked?_scan, hnone]

/-- To look is to take the next token and to keep it. -/
theorem peek_eq_next (context : Context) (t : Tokenizer ρ κ) :
    t.peek context = match t.next context with
      | (.ok token, t') => (.ok token, { t' with peeked? := some token })
      | (.error error, t') => (.error error, t') := by
  unfold peek next
  cases hpeeked : t.peeked? with
  | some token =>
    dsimp only
    rw [← hpeeked]
  | none => rfl

theorem fst_peek (context : Context) (t : Tokenizer ρ κ) :
    (t.peek context).1 = (t.next context).1 := by
  rw [peek_eq_next]
  split
  · next heq => rw [heq]
  · next heq => rw [heq]

/-- What was seen is kept, so every later look sees it again. -/
theorem peek_of_peek {context : Context} {t t' : Tokenizer ρ κ} {token : Token κ}
    (h : t.peek context = (.ok token, t')) (context' : Context) :
    t'.peek context' = (.ok token, t') := by
  have hkept : t'.peeked? = some token := by
    rw [peek_eq_next] at h
    split at h
    · cases h
      rfl
    · simp at h
  simp only [peek, hkept]

/-- After a look a request in any context gives what it would have given in the context
of the look. -/
theorem next_of_peek {context : Context} {t t' : Tokenizer ρ κ} {token : Token κ}
    (h : t.peek context = (.ok token, t')) (context' : Context) :
    t'.next context' = t.next context := by
  have hnone := peeked?_next context t
  rw [peek_eq_next] at h
  split at h
  · next found after heq =>
    cases h
    rw [heq] at hnone ⊢
    rw [next]
    dsimp only at hnone ⊢
    rw [← hnone]
  · simp at h

variable {context : Context} {t t' : Tokenizer ρ κ}

theorem Looked.next_eq (h : t.Looked context t') : t'.next context = t.next context := by
  rcases h with rfl | ⟨token, hpeek⟩
  · rfl
  · exact next_of_peek hpeek context

/-- A look sees the next result. It leaves the tokenizer looked at if that is a token, and
as a request would leave it if not. -/
theorem Looked.peek_cases (h : t.Looked context t') :
    (∃ token, (t.next context).1 = .ok token ∧ (t'.peek context).1 = .ok token ∧
      t.Looked context (t'.peek context).2) ∨
    ∃ error, (t.next context).1 = .error error ∧
      t'.peek context = (.error error, (t.next context).2) := by
  rcases h with rfl | ⟨token, hpeek⟩
  · cases hresult : (t'.next context).1 with
    | ok token =>
      have hseen : (t'.peek context).1 = .ok token := (fst_peek context t').trans hresult
      exact Or.inl ⟨token, rfl, hseen, Or.inr ⟨token, Prod.ext hseen rfl⟩⟩
    | error error =>
      have hnext : t'.next context = (.error error, (t'.next context).2) := Prod.ext hresult rfl
      refine Or.inr ⟨error, rfl, ?_⟩
      rw [peek_eq_next, hnext]
  · have hresult : (t.next context).1 = .ok token := by rw [← fst_peek, hpeek]
    rw [peek_of_peek hpeek]
    exact Or.inl ⟨token, hresult, rfl, Or.inr ⟨token, hpeek⟩⟩

end Tokenizer

namespace Lossless

/-- A request for the next token, or for a look at it, gives the next result. Only a look
at a token is no delivery. -/
theorem perform_of_looked {context : Context} {t t' : Tokenizer ρ κ} {call : Call}
    (hcall : call = .next context ∨ call = .peek context) (h : t.Looked context t') :
    (call.perform t').1 = some (t.next context).1 ∧
      (call.delivered? (call.perform t').1 = some (t.next context).1 ∧
          (call.perform t').2 = (t.next context).2 ∨
        call.delivered? (call.perform t').1 = none ∧
          t.Looked context (call.perform t').2) := by
  rcases hcall with rfl | rfl
  · rw [Call.perform, h.next_eq]
    exact ⟨rfl, Or.inl ⟨rfl, rfl⟩⟩
  · rcases h.peek_cases with ⟨token, hresult, hseen, hlooked⟩ | ⟨error, hresult, hpeek⟩
    · rw [Call.perform, hresult]
      dsimp only
      rw [hseen]
      exact ⟨rfl, Or.inr ⟨rfl, hlooked⟩⟩
    · rw [Call.perform, hpeek, hresult]
      exact ⟨rfl, Or.inl ⟨rfl, rfl⟩⟩

theorem after_append (calls calls' : List Call) (t : Tokenizer ρ κ) :
    after (calls ++ calls') t = after calls' (after calls t) := by
  simp only [after, List.foldl_append]

/-- From a result on, the deliveries of a run in one context are the results that
follow. -/
theorem deliveries_of_looked {context : Context} {calls : List Call}
    (hcalls : ∀ call ∈ calls, call = .next context ∨ call = .peek context)
    {t t' : Tokenizer ρ κ} {k : Nat}
    (h : (t.afterResults (fun _ => context) k).Looked context t') :
    deliveries calls t' =
        (List.range' k (deliveries calls t').length).map (t.resultAt fun _ => context) ∧
      (t.afterResults (fun _ => context) (k + (deliveries calls t').length)).Looked context
        (after calls t') := by
  induction calls generalizing k t' with
  | nil => exact ⟨rfl, h⟩
  | cons call calls ih =>
    have hrest : ∀ call ∈ calls, call = .next context ∨ call = .peek context := by
      intro call hmem
      exact hcalls call (List.mem_cons_of_mem _ hmem)
    obtain ⟨-, ⟨hgiven, hafter⟩ | ⟨hnone, hlooked⟩⟩ :=
      perform_of_looked (hcalls call List.mem_cons_self) h
    · -- The result with number k is delivered, and the run goes on behind it.
      have hnext : (t.afterResults (fun _ => context) (k + 1)).Looked context
          (call.perform t').2 := Or.inl hafter
      obtain ⟨hresults, hstate⟩ := ih hrest hnext
      rw [deliveries, hgiven, Option.toList_some, List.singleton_append]
      constructor
      · rw [List.length_cons, List.range'_succ, List.map_cons, ← hresults]
        rfl
      · rw [List.length_cons, show k + ((deliveries calls (call.perform t').2).length + 1) =
          k + 1 + (deliveries calls (call.perform t').2).length by omega]
        exact hstate
    · -- A token was seen; it is still the one whose turn it is.
      rw [deliveries, hnone, Option.toList_none, List.nil_append]
      exact ih hrest hlooked

/-- In a run of requests and looks in one context, from any state on: without the looks
that saw a token, the answers are the first results of the tokenizer, each of them once,
and it is where these results leave it, except for a look. Every look is answered by the
result whose turn it is, and one that fails leaves the tokenizer behind that result. -/
theorem looks_leave_no_trace {context : Context} {calls : List Call}
    (hcalls : ∀ call ∈ calls, call = .next context ∨ call = .peek context)
    (t : Tokenizer ρ κ) :
    deliveries calls t =
        (List.range (deliveries calls t).length).map (t.resultAt fun _ => context) ∧
      (t.afterResults (fun _ => context) (deliveries calls t).length).Looked context
        (after calls t) ∧
      ∀ earlier later, calls = earlier ++ .peek context :: later →
        let turn := (deliveries earlier t).length
        ((Call.peek context).perform (after earlier t)).1 =
            some (t.resultAt (fun _ => context) turn) ∧
          ∀ error, t.resultAt (fun _ => context) turn = .error error →
            after (earlier ++ [.peek context]) t =
              t.afterResults (fun _ => context) (turn + 1) := by
  have hstart : (t.afterResults (fun _ => context) 0).Looked context t := Or.inl rfl
  have hrun := deliveries_of_looked hcalls hstart
  rw [Nat.zero_add, ← List.range_eq_range'] at hrun
  refine ⟨hrun.1, hrun.2, ?_⟩
  rintro earlier later rfl turn
  have hearlier : ∀ call ∈ earlier, call = .next context ∨ call = .peek context := by
    intro call hmem
    exact hcalls call (List.mem_append_left _ hmem)
  have hlooked := (deliveries_of_looked hearlier hstart).2
  rw [Nat.zero_add] at hlooked
  obtain ⟨hanswer, -⟩ := perform_of_looked (Or.inr rfl) hlooked
  refine ⟨hanswer, ?_⟩
  intro error herror
  rcases hlooked.peek_cases with ⟨token, hresult, -, -⟩ | ⟨error', hresult, hpeek⟩
  · have htoken : t.resultAt (fun _ => context) turn = .ok token := hresult
    simp [herror] at htoken
  · rw [after_append]
    exact congrArg Prod.snd hpeek

/-- Two numbers with a character between them that belongs to neither. -/
def twoNumbers : Tokenizer (Recognizer String (NoCustom String)) String :=
  Tokenizer.ofSource [.number "num"] "$" (.text ['1', '?', '2'])

/-- Each number is looked at before it is taken, and the error is found by a look. -/
def attentive : List Call := [.peek {}, .next {}, .peek {}, .peek {}, .next {}]

theorem looks_leave_no_trace_attentive :
    (∀ call ∈ attentive, call = .next {} ∨ call = .peek {}) ∧
      [.ok (Token.ofText "num" "1" (some (.int 1))), .error (.unrecognized "?" none),
          .ok (Token.ofText "num" "2" (some (.int 2)))] =
        (List.range 3).map (twoNumbers.resultAt fun _ => {}) := by
  have hcalls : ∀ call ∈ attentive, call = .next {} ∨ call = .peek {} := by
    simp [attentive]
  have hgiven : deliveries attentive twoNumbers =
      [.ok (Token.ofText "num" "1" (some (.int 1))), .error (.unrecognized "?" none),
        .ok (Token.ofText "num" "2" (some (.int 2)))] := by
    with_unfolding_all rfl
  obtain ⟨hresults, -, -⟩ := looks_leave_no_trace hcalls twoNumbers
  rw [hgiven] at hresults
  exact ⟨hcalls, hresults⟩

end Lossless

end ShiftReduce
