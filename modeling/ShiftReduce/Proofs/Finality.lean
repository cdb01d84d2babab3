import ShiftReduce.Proofs.Answers

/-!
Negative answers are final. Once a recognizer has said that the text does not fit, or that
it holds an error, it says of everything it is fed before the next reset that it does not
fit, the end of the input included, and the reason it gives stays the one it had then. The
failed state of each pattern sees to that, and no limit to contexts and no change of
values comes between.
-/
namespace ShiftReduce

open Answers

variable {κ : Type}

namespace Recognizer

/-- After a negative answer to something it was fed, the recognizer answers all that
follows with no match and gives the same reason. -/
theorem negative_answers_are_final (context : Context) (r : Recognizer κ (NoCustom κ))
    (earlier later : List (Option Char)) {answer : Answer}
    (hmem : answer ∈ answers context (Recognizes.reset r) earlier)
    (hnegative : answer = .noMatch ∨ answer = .failure) :
    (∀ next ∈ answers context (after context (Recognizes.reset r) earlier) later,
        next = .noMatch) ∧
      Recognizes.reason? (after context (Recognizes.reset r) (earlier ++ later)) =
        Recognizes.reason? (after context (Recognizes.reset r) earlier) := by
  have hstays : ∀ (s : Recognizer κ (NoCustom κ)) (c? : Option Char), s.IsSpent context →
      Recognizes.test s c? context = (.noMatch, s) := fun s c? h => test_of_isSpent h c?
  have hisNegative : answer.isNegative = true := by
    rcases hnegative with rfl | rfl
    · rfl
    · rfl
  have hspent : (after context (Recognizes.reset r) earlier).IsSpent context :=
    spent_of_mem_answers (fun s c? h => isSpent_of_test h) hstays hmem hisNegative
  obtain ⟨hsame, hanswers⟩ := answers_of_spent hstays hspent later
  rw [after_append, hsame]
  exact ⟨hanswers, rfl⟩

/-- Numbers whose values are dropped, in one state only. -/
def guardedNumber : Recognizer String (NoCustom String) :=
  ((number "num").mapValue fun _ => none).when fun context => context.state? = some 3

/-- An exponent without digits is refused for good, though a digit follows. -/
theorem negative_answers_are_final_exponent :
    .noMatch ∈ answers (Context.ofState 3) (Recognizes.reset guardedNumber) ['1', 'e', 'x'] ∧
      (∀ next ∈ answers (Context.ofState 3)
          (after (Context.ofState 3) (Recognizes.reset guardedNumber) ['1', 'e', 'x']) [none, '5'],
        next = .noMatch) ∧
      Recognizes.reason? (after (Context.ofState 3) (Recognizes.reset guardedNumber)
        ['1', 'e', 'x', none, '5']) = some "Malformed floating point literal" := by
  have hmem : .noMatch ∈ answers (Context.ofState 3) (Recognizes.reset guardedNumber)
      ['1', 'e', 'x'] := by decide
  obtain ⟨hlater, hreason⟩ :=
    negative_answers_are_final (Context.ofState 3) guardedNumber _ [none, '5'] hmem (Or.inl rfl)
  exact ⟨hmem, hlater, hreason.trans (by decide)⟩

end Recognizer

end ShiftReduce
