import ShiftReduce.Recognizer

/-!
A recognizer by itself. It is fed some characters, or the end of the input, and its
answers are listed. A recognizer is well behaved in a context if an answer that the
text does not fit is final and the end of the input is never a match. All patterns
are, because their failed state absorbs everything that follows, and so is every
recognizer made from them by limiting it to contexts or by changing its values.
-/
namespace ShiftReduce

variable {ρ κ υ : Type}

/-- The text does not fit, or holds an error. -/
def Answer.isNegative : Answer → Bool
  | .noMatch | .failure => true
  | .partialMatch | .fullMatch => false

namespace Answers

section Feeding

variable [Recognizes ρ κ]

/-- The recognizer after some characters or ends of the input. -/
def after (context : Context) (recognizer : ρ) : List (Option Char) → ρ
  | [] => recognizer
  | c? :: rest => after context (Recognizes.test recognizer c? context).2 rest

/-- Its answers to them. -/
def answers (context : Context) (recognizer : ρ) : List (Option Char) → List Answer
  | [] => []
  | c? :: rest =>
    (Recognizes.test recognizer c? context).1 ::
      answers context (Recognizes.test recognizer c? context).2 rest

/-- The recognizer after a text that it is fed from a reset on. -/
def afterText (context : Context) (recognizer : ρ) (text : List Char) : ρ :=
  after context (Recognizes.reset recognizer) (text.map some)

/-- Its answers to the characters of the text. -/
def answersTo (context : Context) (recognizer : ρ) (text : List Char) : List Answer :=
  answers context (Recognizes.reset recognizer) (text.map some)

/-- Once the text does not fit, it never does again, and no match is found at the
end of the input. -/
structure WellBehaved (context : Context) (recognizer : ρ) : Prop where
  fades : ∀ feed, (answers context (Recognizes.reset recognizer) feed).Pairwise fun earlier later =>
    earlier.isNegative = true → later = .noMatch
  silent : ∀ text,
    (Recognizes.test (afterText context recognizer text) none context).1 ≠ .fullMatch

theorem after_append (context : Context) (recognizer : ρ) (left right : List (Option Char)) :
    after context recognizer (left ++ right) =
      after context (after context recognizer left) right := by
  induction left generalizing recognizer with
  | nil => rfl
  | cons c? left ih => exact ih _

theorem answers_append (context : Context) (recognizer : ρ) (left right : List (Option Char)) :
    answers context recognizer (left ++ right) =
      answers context recognizer left ++ answers context (after context recognizer left) right := by
  induction left generalizing recognizer with
  | nil => rfl
  | cons c? left ih => simp only [List.cons_append, answers, after, ih]

theorem length_answers (context : Context) (recognizer : ρ) (feed : List (Option Char)) :
    (answers context recognizer feed).length = feed.length := by
  induction feed generalizing recognizer with
  | nil => rfl
  | cons c? feed ih => simp only [answers, List.length_cons, ih]

@[simp]
theorem length_answersTo (context : Context) (recognizer : ρ) (text : List Char) :
    (answersTo context recognizer text).length = text.length := by
  rw [answersTo, length_answers, List.length_map]

theorem afterText_append_singleton (context : Context) (recognizer : ρ) (text : List Char)
    (c : Char) :
    afterText context recognizer (text ++ [c]) =
      (Recognizes.test (afterText context recognizer text) (some c) context).2 := by
  simp only [afterText, List.map_append, after_append]
  rfl

theorem answersTo_append_singleton (context : Context) (recognizer : ρ) (text : List Char)
    (c : Char) :
    answersTo context recognizer (text ++ [c]) = answersTo context recognizer text ++
      [(Recognizes.test (afterText context recognizer text) (some c) context).1] := by
  simp only [answersTo, List.map_append, answers_append]
  rfl

/-- After a negative answer the next character does not fit. -/
theorem WellBehaved.eq_noMatch {context : Context} {recognizer : ρ} {text : List Char}
    (h : WellBehaved context recognizer) {answer : Answer}
    (hmem : answer ∈ answersTo context recognizer text) (hnegative : answer.isNegative = true)
    (c : Char) :
    (Recognizes.test (afterText context recognizer text) (some c) context).1 = .noMatch := by
  have hfades := h.fades ((text ++ [c]).map some)
  change (answersTo context recognizer (text ++ [c])).Pairwise _ at hfades
  rw [answersTo_append_singleton, List.pairwise_append] at hfades
  exact hfades.2.2 answer hmem _ (List.mem_singleton_self _) hnegative

/-- A state in which nothing fits any more keeps its recognizer as it is. -/
theorem answers_of_spent {context : Context} {Spent : ρ → Prop}
    (hstays : ∀ r c?, Spent r → Recognizes.test r c? context = (.noMatch, r)) {recognizer : ρ}
    (h : Spent recognizer) (feed : List (Option Char)) :
    after context recognizer feed = recognizer ∧
      ∀ answer ∈ answers context recognizer feed, answer = .noMatch := by
  induction feed with
  | nil => simp [after, answers]
  | cons c? feed ih => simpa [after, answers, hstays recognizer c? h] using ih

/-- A negative answer leads to such a state, and the recognizer is still in it after
whatever it is fed then. -/
theorem spent_of_mem_answers {context : Context} {Spent : ρ → Prop}
    (hspends : ∀ r c?, (Recognizes.test r c? context).1.isNegative = true →
      Spent (Recognizes.test r c? context).2)
    (hstays : ∀ r c?, Spent r → Recognizes.test r c? context = (.noMatch, r)) {recognizer : ρ}
    {feed : List (Option Char)} {answer : Answer} (hmem : answer ∈ answers context recognizer feed)
    (hnegative : answer.isNegative = true) : Spent (after context recognizer feed) := by
  induction feed generalizing recognizer with
  | nil => simp [answers] at hmem
  | cons c? feed ih =>
    rcases List.mem_cons.mp hmem with rfl | hmem
    · have hspent := hspends recognizer c? hnegative
      rw [after, (answers_of_spent hstays hspent feed).1]
      exact hspent
    · exact ih hmem

/-- A recognizer fades if its negative answers lead to such states. -/
theorem fades_of_spent {context : Context} {Spent : ρ → Prop}
    (hspends : ∀ r c?, (Recognizes.test r c? context).1.isNegative = true →
      Spent (Recognizes.test r c? context).2)
    (hstays : ∀ r c?, Spent r → Recognizes.test r c? context = (.noMatch, r)) (recognizer : ρ)
    (feed : List (Option Char)) :
    (answers context recognizer feed).Pairwise fun earlier later =>
      earlier.isNegative = true → later = .noMatch := by
  induction feed generalizing recognizer with
  | nil => exact List.Pairwise.nil
  | cons c? feed ih =>
    refine List.Pairwise.cons ?_ (ih _)
    intro later hlater hnegative
    exact (answers_of_spent hstays (hspends recognizer c? hnegative) feed).2 later hlater

end Feeding

end Answers

open Pattern

namespace Pattern

theorem Identifier.eq_over_of_test {p : Identifier} {c? : Option Char}
    (h : (p.test c?).1.isNegative = true) : (p.test c?).2 = .over := by
  fun_cases Identifier.test p c? <;> simp_all [Identifier.test, Answer.isNegative]

theorem Blanks.eq_over_of_test {p : Blanks} {c? : Option Char}
    (h : (p.test c?).1.isNegative = true) : (p.test c?).2 = .over := by
  fun_cases Blanks.test p c? <;> simp_all [Blanks.test, Answer.isNegative]

theorem Phrase.eq_over_of_test {p : Phrase.Progress} {c? : Option Char}
    (h : (p.test c?).1.isNegative = true) : (p.test c?).2 = .over := by
  fun_cases Phrase.Progress.test p c? with
  | case1 rest c =>
    simp only [Phrase.Progress.test, if_true] at h
    split at h <;> simp [Answer.isNegative] at h
  | case2 => rfl
  | case3 => rfl

theorem Truth.eq_over_of_test {t : Truth} {c? : Option Char}
    (h : (t.test c?).1.isNegative = true) : (t.test c?).2 = .inside .over := by
  unfold Truth.test at h ⊢
  split
  · simp [Answer.isNegative] at h
  · simp [Answer.isNegative] at h
  · rfl
  · dsimp only at h ⊢
    rw [Phrase.eq_over_of_test h]

theorem LineComment.eq_over_of_test {p : LineComment.Progress} {c? : Option Char}
    (h : (p.test c?).1.isNegative = true) : (p.test c?).2 = .over := by
  fun_cases LineComment.Progress.test p c? <;>
    simp_all [LineComment.Progress.test, Answer.isNegative]

theorem BlockComment.exists_over_of_step {b : BlockComment} {c? : Option Char}
    (h : (b.step c?).1.isNegative = true) : ∃ flaw?, (b.step c?).2 = .over flaw? := by
  unfold BlockComment.step at h ⊢
  split
  · split
    · simp_all [Answer.isNegative]
    · exact ⟨none, rfl⟩
  · exact ⟨none, rfl⟩
  · dsimp only at h ⊢
    split
    · exact ⟨none, rfl⟩
    · simp_all [Answer.isNegative]
  · exact ⟨_, rfl⟩
  · exact ⟨_, rfl⟩

theorem Numeral.exists_over_of_test {n : Numeral} {c? : Option Char}
    (h : (n.test c?).1.isNegative = true) : ∃ flaw?, (n.test c?).2 = .over flaw? := by
  unfold Numeral.test at h ⊢
  split
  · exact ⟨_, rfl⟩
  · split
    · next hnext =>
      simp only [hnext] at h
      split at h <;> simp [Answer.isNegative] at h
    · exact ⟨_, rfl⟩

theorem StringLiteral.exists_over_of_step {s : StringLiteral} {c? : Option Char}
    (h : (s.step c?).1.isNegative = true) : ∃ flaw?, (s.step c?).2 = .over flaw? := by
  unfold StringLiteral.step at h ⊢
  split
  all_goals repeat' split
  all_goals simp_all [Answer.isNegative]

theorem CharLiteral.exists_over_of_test {l : CharLiteral} {c? : Option Char}
    (h : (l.test c?).1.isNegative = true) : ∃ flaw?, (l.test c?).2 = .over flaw? := by
  fun_cases CharLiteral.test l c? <;> simp_all [CharLiteral.test, Answer.isNegative]

end Pattern

namespace Lexeme

/-- A pattern in its failed state. -/
def IsSpent : Lexeme → Prop
  | .identifier pattern => pattern = .over
  | .numeral pattern => ∃ flaw?, pattern = .over flaw?
  | .string pattern => ∃ flaw?, pattern.progress = .over flaw?
  | .char pattern => ∃ flaw?, pattern = .over flaw?
  | .truth pattern => pattern = .inside .over
  | .phrase pattern => pattern.progress = .over

theorem isSpent_of_test {l : Lexeme} {c? : Option Char}
    (h : (l.test c?).1.isNegative = true) : (l.test c?).2.IsSpent := by
  cases l with
  | identifier pattern => exact Identifier.eq_over_of_test h
  | numeral pattern => exact Numeral.exists_over_of_test h
  | string pattern => exact StringLiteral.exists_over_of_step h
  | char pattern => exact CharLiteral.exists_over_of_test h
  | truth pattern => exact Truth.eq_over_of_test h
  | phrase pattern => exact Phrase.eq_over_of_test h

theorem test_of_isSpent {l : Lexeme} (h : l.IsSpent) (c? : Option Char) :
    l.test c? = (.noMatch, l) := by
  cases l with
  | identifier pattern =>
    subst h
    cases c? <;> rfl
  | numeral pattern =>
    obtain ⟨flaw?, rfl⟩ := h
    rfl
  | string pattern =>
    obtain ⟨delimiter, escape, escapes, progress⟩ := pattern
    obtain ⟨flaw?, rfl⟩ := h
    rfl
  | char pattern =>
    obtain ⟨flaw?, rfl⟩ := h
    rfl
  | truth pattern =>
    subst h
    cases c? <;> rfl
  | phrase pattern =>
    obtain ⟨text, progress⟩ := pattern
    obtain rfl : progress = .over := h
    cases c? <;> rfl

/-- No pattern matches at the end of the input. -/
theorem test_none_ne (l : Lexeme) : (l.test none).1 ≠ .fullMatch := by
  cases l with
  | identifier pattern => cases pattern <;> decide
  | numeral pattern => cases pattern <;> simp [test, Numeral.test]
  | string pattern =>
    obtain ⟨delimiter, escape, escapes, progress⟩ := pattern
    cases progress <;> simp [test, StringLiteral.test, StringLiteral.step]
  | char pattern => cases pattern <;> simp [test, CharLiteral.test]
  | truth pattern =>
    cases pattern with
    | start => decide
    | inside progress => simp [test, Truth.test, Phrase.Progress.test]
  | phrase pattern => simp [test, Phrase.test, Phrase.Progress.test]

end Lexeme

namespace Trivia

/-- A pattern in its failed state. -/
def IsSpent : Trivia → Prop
  | .lineComment pattern => pattern.progress = .over
  | .blockComment pattern => ∃ flaw?, pattern.progress = .over flaw?
  | .blanks pattern => pattern = .over

theorem isSpent_of_test {t : Trivia} {c? : Option Char}
    (h : (t.test c?).1.isNegative = true) : (t.test c?).2.IsSpent := by
  cases t with
  | lineComment pattern => exact LineComment.eq_over_of_test h
  | blockComment pattern => exact BlockComment.exists_over_of_step h
  | blanks pattern => exact Blanks.eq_over_of_test h

theorem test_of_isSpent {t : Trivia} (h : t.IsSpent) (c? : Option Char) :
    t.test c? = (.noMatch, t) := by
  cases t with
  | lineComment pattern =>
    obtain ⟨opening, progress⟩ := pattern
    obtain rfl : progress = .over := h
    cases c? <;> rfl
  | blockComment pattern =>
    obtain ⟨opening, closing, progress⟩ := pattern
    obtain ⟨flaw?, rfl⟩ := h
    rfl
  | blanks pattern =>
    subst h
    cases c? <;> rfl

theorem test_none_ne (t : Trivia) : (t.test none).1 ≠ .fullMatch := by
  cases t with
  | lineComment pattern =>
    obtain ⟨opening, progress⟩ := pattern
    cases progress <;> simp [test, LineComment.test, LineComment.Progress.test]
  | blockComment pattern =>
    obtain ⟨opening, closing, progress⟩ := pattern
    cases progress <;> simp [test, BlockComment.test, BlockComment.step]
  | blanks pattern => cases pattern <;> decide

end Trivia

namespace Recognizer

/-- A recognizer that fits no continuation in a context: it is not active there, or
its pattern has failed. -/
def IsSpent (context : Context) : Recognizer κ (NoCustom κ) → Prop
  | .lexeme _ pattern => pattern.IsSpent
  | .trivia pattern => pattern.IsSpent
  | .active isActive inner => isActive context = true → inner.IsSpent context
  | .mapped _ inner => inner.IsSpent context
  | .custom _ current => nomatch current

variable {context : Context} {r : Recognizer κ (NoCustom κ)}

theorem isSpent_of_test {c? : Option Char} (h : (r.test c? context).1.isNegative = true) :
    (r.test c? context).2.IsSpent context := by
  induction r with
  | lexeme kind pattern => exact Lexeme.isSpent_of_test h
  | trivia pattern => exact Trivia.isSpent_of_test h
  | active isActive inner ih =>
    unfold test at h ⊢
    split
    · next hactive =>
      simp only [hactive, if_true] at h
      exact fun _ => ih h
    · next hactive => exact fun h => absurd h hactive
  | mapped transform inner ih => exact ih h
  | custom fresh current => cases current

theorem test_of_isSpent (h : r.IsSpent context) (c? : Option Char) :
    r.test c? context = (.noMatch, r) := by
  induction r with
  | lexeme kind pattern => simp [test, Lexeme.test_of_isSpent h]
  | trivia pattern => simp [test, Trivia.test_of_isSpent h]
  | active isActive inner ih =>
    unfold test
    split
    · next hactive => simp [ih (h hactive)]
    · rfl
  | mapped transform inner ih => simp [test, ih h]
  | custom fresh current => cases current

theorem test_none_ne (context : Context) (r : Recognizer κ (NoCustom κ)) :
    (r.test none context).1 ≠ .fullMatch := by
  induction r with
  | lexeme kind pattern => exact Lexeme.test_none_ne pattern
  | trivia pattern => exact Trivia.test_none_ne pattern
  | active isActive inner ih =>
    unfold test
    split
    · exact ih
    · simp
  | mapped transform inner ih => exact ih
  | custom fresh current => cases current

/-- The patterns, limited to contexts or with changed values, are well behaved. -/
theorem wellBehaved (context : Context) (r : Recognizer κ (NoCustom κ)) :
    Answers.WellBehaved context r where
  fades feed :=
    Answers.fades_of_spent (fun _ _ => isSpent_of_test) (fun _ c? h => test_of_isSpent h c?) _ feed
  silent _ := test_none_ne context _

end Recognizer

end ShiftReduce
