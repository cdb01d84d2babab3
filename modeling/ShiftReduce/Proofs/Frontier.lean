import ShiftReduce.Language.SyntaxTree
import ShiftReduce.Proofs.Supplies
import ShiftReduce.Proofs.Turns

/-!
The leaves on the stack. While syntax trees are built, the leaves of the values from the
bottom of the stack to its top, followed by those of a pending tree, are the tokens taken
before the current one. Every table keeps this, whatever its rows do, and it holds of
parses that fail later as well.
-/
namespace ShiftReduce

variable {ι : Type}

namespace SyntaxTree

mutual

/-- The kinds and texts of the leaves from left to right. -/
def leaves : SyntaxTree → List (String × String)
  | .leaf kind text => [(kind, text)]
  | .node _ children => leavesAll children

/-- The leaves of trees, one tree after the other. -/
def leavesAll : List SyntaxTree → List (String × String)
  | [] => []
  | child :: rest => child.leaves ++ leavesAll rest

end

/-- The leaves of what was found for a symbol. -/
def leavesOf (value : StackValue String SyntaxTree) : List (String × String) :=
  leavesAll (ofValue? value).toList

theorem leavesAll_filterMap (values : List (StackValue String SyntaxTree)) :
    leavesAll (values.filterMap ofValue?) = values.flatMap leavesOf := by
  induction values with
  | nil => rfl
  | cons value rest ih =>
    rw [List.flatMap_cons, ← ih, leavesOf]
    cases htree : ofValue? value with
    | none => simp [htree, leavesAll]
    | some tree => simp [htree, leavesAll]

end SyntaxTree

open SyntaxTree

namespace Recorder

variable {τ : Type} [TokenSupply ι τ]

theorem taken_of_next {context : Context} {r r' : Recorder ι τ} {token : Token τ}
    (h : TokenSupply.next context r = (.ok token, r')) : r'.taken = r.taken ++ [token] := by
  simp only [TokenSupply.next, next] at h
  split at h
  · cases h
    rfl
  · simp at h

theorem taken_of_peeks {context : Context} {r r' : Recorder ι τ} (h : Peeks context r r') :
    r'.taken = r.taken := by
  induction h with
  | refl r => rfl
  | peek hpeek _ ih =>
    simp only [TokenSupply.peek, peek, Prod.mk.injEq] at hpeek
    rw [ih, ← hpeek.2]

end Recorder

namespace Machine

/-- The leaves on the stack of values from the bottom to the top, and then those of
the pending tree. -/
def frontier {σ : Type} (m : Machine ι σ String String SyntaxTree) : List (String × String) :=
  m.values.reverse.flatMap leavesOf ++ leavesAll (m.pending?.bind Prod.snd).toList

/-- The kind and the text of a token, as in a leaf. -/
def leafOf (token : Token String) : String × String := (token.kind, token.text)

/-- The tokens taken are the leaves, and then the current token. -/
def KeepsTokens {σ : Type} (m : Machine (Recorder ι String) σ String String SyntaxTree) : Prop :=
  ∃ shifted, m.supply.taken = shifted ++ [m.token] ∧ m.frontier = shifted.map leafOf

variable [TokenSupply ι String] {table : Table String String}

/-- A move leaves the leaves and the current token as they are, or it takes the next token
and puts the current one behind the leaves. -/
theorem frontier_of_move
    {m m' : Machine ι (List (Production String String)) String String SyntaxTree}
    (hmove : Move table SyntaxTree.builder m m') :
    (Peeks (Context.ofState m.current) m.supply m'.supply ∧ m'.token = m.token ∧
      m'.frontier = m.frontier) ∨
    ∃ target supply, Peeks (Context.ofState m.current) m.supply supply ∧
      TokenSupply.next (Context.ofState target) supply = (.ok m'.token, m'.supply) ∧
      m'.frontier = m.frontier ++ [leafOf m.token] := by
  cases hmove with
  | @shift target token supply supply' hpending hoccurs hpeeks hnext =>
    refine Or.inr ⟨target, supply, hpeeks, hnext, ?_⟩
    simp [frontier, hpending, leavesOf, ofValue?, leavesAll, leaves, leafOf]
  | @reduce index production value? memory supply hpending hoccurs hpeeks hproduction hvalues
      hstates hreducer =>
    refine Or.inl ⟨hpeeks, rfl, ?_⟩
    cases hreducer
    -- The node has the leaves of the values that it takes from the top of the stack.
    have hsplit : m.values.reverse.flatMap leavesOf =
        (m.values.drop production.rhs.length).reverse.flatMap leavesOf ++
          (m.values.take production.rhs.length).reverse.flatMap leavesOf := by
      rw [← List.flatMap_append, ← List.reverse_append, List.take_append_drop]
    simp only [frontier, hpending, hsplit, Option.bind_some, Option.bind_none, Option.toList_some,
      Option.toList_none, leavesAll, leaves, leavesAll_filterMap, List.append_nil]
  | goto hpending hgoto =>
    refine Or.inl ⟨.refl _, rfl, ?_⟩
    simp [frontier, hpending, leavesOf, ofValue?, leavesAll]
  | jump hpending hoccurs hpeeks =>
    refine Or.inl ⟨hpeeks, rfl, ?_⟩
    simp [frontier, hpending, leavesOf, ofValue?, leavesAll]

theorem KeepsTokens.of_move
    {m m' : Machine (Recorder ι String) (List (Production String String)) String String SyntaxTree}
    (h : m.KeepsTokens) (hmove : Move table SyntaxTree.builder m m') : m'.KeepsTokens := by
  obtain ⟨shifted, htaken, hfrontier⟩ := h
  rcases frontier_of_move hmove with ⟨hpeeks, htoken, hsame⟩ | ⟨target, supply, hpeeks, hnext, hgrown⟩
  · refine ⟨shifted, ?_, hsame.trans hfrontier⟩
    rw [Recorder.taken_of_peeks hpeeks, htaken, htoken]
  · refine ⟨shifted ++ [m.token], ?_, ?_⟩
    · rw [Recorder.taken_of_next hnext, Recorder.taken_of_peeks hpeeks, htaken]
    · rw [hgrown, hfrontier, List.map_append]
      rfl

/-- No token is lost, repeated or moved on its way into the trees. -/
theorem Reached.keepsTokens {supply : ι} {memory : List (Production String String)}
    {m : Machine (Recorder ι String) (List (Production String String)) String String SyntaxTree}
    (h : Reached table SyntaxTree.builder ⟨supply, []⟩ memory m) (htable : table.IsBuilt) :
    m.KeepsTokens := by
  apply h.invariant htable
  · intro m hstart
    unfold Machine.start at hstart
    split at hstart
    · simp at hstart
    · next token rest hnext =>
      cases hstart
      exact ⟨[], Recorder.taken_of_next hnext, rfl⟩
  · intro m m' hm hmove
    exact hm.of_move hmove

end Machine

end ShiftReduce
