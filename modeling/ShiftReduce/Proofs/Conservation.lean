import ShiftReduce.Language
import ShiftReduce.Proofs.Peeking
import ShiftReduce.Proofs.Soundness

/-!
Tokens are conserved. A tokenizer that is asked for one token after the other hands out
some tokens, in whatever contexts they are asked for. In a parse that builds syntax trees
these are, at any time, the leaves on the stack of values from the bottom to the top, then
the leaves of the pending tree, and then the current token. The looks that branches take
make no difference, and nothing is asked of the table but that it was built.
-/
namespace ShiftReduce

namespace Tokenizer

variable {ρ κ : Type} [Recognizes ρ κ]

/-- Requests for one token after the other, each in some context, are answered with these
tokens and lead to the second tokenizer. -/
inductive Hands (t : Tokenizer ρ κ) : List (Token κ) → Tokenizer ρ κ → Prop
  | nil : Hands t [] t
  | next {tokens : List (Token κ)} {t' t'' : Tokenizer ρ κ} {context : Context} {token : Token κ}
      (h : Hands t tokens t') (hnext : t'.next context = (.ok token, t'')) :
      Hands t (tokens ++ [token]) t''

/-- Looks in any number and contexts come to the same as one look. -/
theorem exists_looked_of_peeks {t s s' : Tokenizer ρ κ} {context : Context}
    (h : ∃ context, t.Looked context s) (hpeeks : Peeks context s s') :
    ∃ context, t.Looked context s' := by
  induction hpeeks with
  | refl => exact h
  | @peek s s' s'' token hpeek _ ih =>
    apply ih
    obtain ⟨context', rfl | ⟨seen, hseen⟩⟩ := h
    · exact ⟨context, Or.inr ⟨token, hpeek⟩⟩
    · have hagain := peek_of_peek hseen context
      have hsame : s = s' := congrArg Prod.snd (hagain.symm.trans hpeek)
      exact ⟨context', Or.inr ⟨seen, hsame ▸ hseen⟩⟩

/-- What is handed out after a look would have been handed out without it. -/
theorem Hands.next_of_looked {t t' s s' : Tokenizer ρ κ} {tokens : List (Token κ)}
    {token : Token κ} {context : Context} (h : t.Hands tokens t')
    (hlooked : ∃ context, t'.Looked context s) (hnext : s.next context = (.ok token, s')) :
    t.Hands (tokens ++ [token]) s' := by
  obtain ⟨context', rfl | ⟨seen, hseen⟩⟩ := hlooked
  · exact h.next hnext
  · rw [next_of_peek hseen] at hnext
    exact h.next hnext

end Tokenizer

namespace Machine

variable {ρ : Type} [Recognizes ρ String] {table : Table String String}

/-- The tokenizer has handed out the leaves and then the current token, and since then
the parse may have looked at the next one. -/
def ConservesTokens {σ : Type} (t : Tokenizer ρ String)
    (m : Machine (Tokenizer ρ String) σ String String SyntaxTree) : Prop :=
  ∃ shifted t', t.Hands (shifted ++ [m.token]) t' ∧
    (∃ context, t'.Looked context m.supply) ∧ m.frontier = shifted.map leafOf

theorem conservesTokens_of_start {σ : Type} {t : Tokenizer ρ String} {memory : σ}
    {m : Machine (Tokenizer ρ String) σ String String SyntaxTree}
    (h : Machine.start t memory = .ok m) : m.ConservesTokens t := by
  unfold Machine.start at h
  split at h
  · simp at h
  · next token t' hnext =>
    cases h
    have hfirst : t.Hands ([] ++ [token]) t' := Tokenizer.Hands.nil.next hnext
    exact ⟨[], t', hfirst, ⟨{}, Or.inl rfl⟩, rfl⟩

theorem ConservesTokens.of_move {t : Tokenizer ρ String}
    {m m' : Machine (Tokenizer ρ String) (List (Production String String)) String String SyntaxTree}
    (h : m.ConservesTokens t) (hmove : Move table SyntaxTree.builder m m') :
    m'.ConservesTokens t := by
  obtain ⟨shifted, t', hhands, hlooked, hfrontier⟩ := h
  rcases frontier_of_move hmove with ⟨hpeeks, htoken, hsame⟩ | ⟨target, supply, hpeeks, hnext, hgrown⟩
  · refine ⟨shifted, t', ?_, Tokenizer.exists_looked_of_peeks hlooked hpeeks, ?_⟩
    · rwa [htoken]
    · rw [hsame, hfrontier]
  · have hlooked' := Tokenizer.exists_looked_of_peeks hlooked hpeeks
    refine ⟨shifted ++ [m.token], m'.supply, ?_, ⟨{}, Or.inl rfl⟩, ?_⟩
    · exact hhands.next_of_looked hlooked' hnext
    · rw [hgrown, hfrontier, List.map_append]
      rfl

/-- Whenever a turn begins, the leaves on the stack and in the pending tree are in kind
and text the tokens that the tokenizer has handed out before the current one, in their
order, however the parse goes on. -/
theorem leaves_are_tokens_handed_out (htable : table.IsBuilt) {t : Tokenizer ρ String}
    {record : List (Production String String)}
    {m : Machine (Tokenizer ρ String) (List (Production String String)) String String SyntaxTree}
    (h : Reached table SyntaxTree.builder t record m) :
    ∃ shifted t', t.Hands (shifted ++ [m.token]) t' ∧
      (∃ context, t'.Looked context m.supply) ∧ m.frontier = shifted.map leafOf := by
  apply h.invariant htable
  · intro m hstart
    exact conservesTokens_of_start hstart
  · intro m m' hm hmove
    exact ConservesTokens.of_move hm hmove

/-- After two turns the first of two terminals has been reduced and waits to be entered,
and the end of the input has been looked at. -/
theorem leaves_are_tokens_of_repetition :
    repetitionTable.IsBuilt ∧
      ∃ m, Reached repetitionTable SyntaxTree.builder
          (repetitionTable.blueprint.build (.text ['a', ' ', 'a'])) [] m ∧
        m.frontier = [("a", "a")] ∧
        ∃ token t', (repetitionTable.blueprint.build (.text ['a', ' ', 'a'])).Hands
          [token, m.token] t' ∧ leafOf token = ("a", "a") := by
  have hbuilt : repetitionTable.IsBuilt := ⟨repetition, rfl⟩
  obtain ⟨m, hreached, hfrontier⟩ : ∃ m, Reached repetitionTable SyntaxTree.builder
      (repetitionTable.blueprint.build (.text ['a', ' ', 'a'])) [] m ∧
        m.frontier = [("a", "a")] := by
    exact ⟨_, .step (.step (.start (by with_unfolding_all rfl)) (by with_unfolding_all rfl))
      (by with_unfolding_all rfl), by with_unfolding_all rfl⟩
  refine ⟨hbuilt, m, hreached, hfrontier, ?_⟩
  obtain ⟨shifted, t', hhands, -, hleaves⟩ := leaves_are_tokens_handed_out hbuilt hreached
  rw [hfrontier] at hleaves
  obtain ⟨token, rfl⟩ : ∃ token, shifted = [token] := by
    have hlength := congrArg List.length hleaves
    rw [List.length_map] at hlength
    exact List.length_eq_one_iff.mp hlength.symm
  simp only [List.map_cons, List.map_nil, List.cons.injEq, and_true] at hleaves
  exact ⟨token, t', hhands, hleaves.symm⟩

end Machine

end ShiftReduce
