import ShiftReduce.Proofs.Comments

/-!
Where block comments end. The opening and the closing that a recognizer of block comments is
made with are never empty. So its answer to a character depends on the text alone: the text is
the opening and a body that has just been closed, or it may still become a comment, because it
is a front part of the opening or its body is open, or it is neither. The end of the input is
an error in an open body and nowhere else.
-/
namespace ShiftReduce

open Answers

variable {κ υ : Type}

namespace Pattern

theorem unlessBlank_ne_nil {text default : List Char} (h : default ≠ []) :
    unlessBlank text default ≠ [] := by
  unfold unlessBlank
  split
  · exact h
  · next hblank =>
    rintro rfl
    exact hblank rfl

namespace BlockComment

theorem opening_ofDelimiters_ne_nil (opening : String) (closing? : Option String) :
    (ofDelimiters opening closing?).opening ≠ [] := unlessBlank_ne_nil (by decide)

theorem closing_ofDelimiters_ne_nil (opening : String) (closing? : Option String) :
    (ofDelimiters opening closing?).closing ≠ [] := by
  apply unlessBlank_ne_nil
  rw [Ne, List.reverse_eq_nil_iff]
  exact opening_ofDelimiters_ne_nil opening closing?

/-- The text is the opening and a body in which the closing has not been read. -/
def IsOpen (b : BlockComment) (text : List Char) : Prop :=
  ∃ body, text = b.opening ++ body ∧ IsOpenBody b.closing body

/-- The text is the opening and a body that ends where the closing has been read first. -/
def IsClosed (b : BlockComment) (text : List Char) : Prop :=
  ∃ body, text = b.opening ++ body ∧ IsClosedBody b.closing body

/-- The text is the beginning of a comment: more of it is to come. -/
def IsBegun (b : BlockComment) (text : List Char) : Prop := text <+: b.opening ∨ b.IsOpen text

variable {b : BlockComment} {text : List Char}

/-- A comment goes on as long as the recognizer has not come to its end. -/
theorem Reflects.isBegun_iff (h : b.Reflects text) :
    b.IsBegun text ↔ ∀ flaw?, b.progress ≠ .over flaw? := by
  obtain ⟨opening, closing, progress⟩ := b
  cases progress with
  | opening rest =>
    obtain ⟨-, rfl⟩ : rest ≠ [] ∧ text ++ rest = opening := h
    simp [IsBegun]
  | body window =>
    obtain ⟨body, rfl, hopen, -⟩ := h
    have hbegun : IsBegun ⟨opening, closing, .body window⟩ (opening ++ body) :=
      Or.inr ⟨body, rfl, hopen⟩
    simpa using hbegun
  | _ flaw? =>
    obtain ⟨hopening, hbody⟩ := h
    simpa [IsBegun, hopening, IsOpen] using hbody

/-- The end of the input is an error in an open body only. -/
theorem Reflects.answer_none (h : b.Reflects text) :
    ((b.test none).1 = .failure ↔ b.IsOpen text) ∧
      ((b.test none).1 = .noMatch ↔ ¬ b.IsOpen text) := by
  obtain ⟨opening, closing, progress⟩ := b
  unfold BlockComment.test step
  cases progress with
  | opening rest =>
    obtain ⟨hne, rfl⟩ : rest ≠ [] ∧ text ++ rest = opening := h
    have hnot : ¬ IsOpen ⟨text ++ rest, closing, .opening rest⟩ text := by
      rintro ⟨body, heq, -⟩
      simp [hne] at heq
    simp [hnot]
  | body window =>
    obtain ⟨body, rfl, hopen, -⟩ := h
    have hisOpen : IsOpen ⟨opening, closing, .body window⟩ (opening ++ body) := ⟨body, rfl, hopen⟩
    simp [hisOpen]
  | _ flaw? =>
    have hnot : ¬ IsOpen ⟨opening, closing, .over flaw?⟩ text := by
      rintro ⟨body, heq, hopen⟩
      exact h.2 body heq hopen
    simp [hnot]

/-- A character is answered with a partial match if it does not end the comment, and is never
an error. -/
theorem test_some (b : BlockComment) (c : Char) :
    ((b.test (some c)).1 = .partialMatch ↔ ∀ flaw?, (b.test (some c)).2.progress ≠ .over flaw?) ∧
      (b.test (some c)).1 ≠ .failure := by
  obtain ⟨opening, closing, progress⟩ := b
  unfold test step
  cases progress with
  | opening rest =>
    cases rest with
    | nil => simp
    | cons d rest =>
      by_cases hc : c = d
      · cases rest <;> simp [hc]
      · simp [hc]
  | body window =>
    by_cases hcloses : slide closing.length window c = closing
    · simp [hcloses]
    · simp [hcloses]
  | _ flaw? => simp

/-- What the answer to a character says about the text that ends with it. -/
theorem Reflects.answer (h : b.Reflects text) (hclosing : b.closing ≠ []) (c : Char) :
    ((b.test (some c)).1 = .fullMatch ↔ b.IsClosed (text ++ [c])) ∧
      ((b.test (some c)).1 = .partialMatch ↔ b.IsBegun (text ++ [c])) ∧
      ((b.test (some c)).1 = .noMatch ↔
        ¬ b.IsClosed (text ++ [c]) ∧ ¬ b.IsBegun (text ++ [c])) := by
  obtain ⟨hafter, hfull⟩ := h.test hclosing c
  obtain ⟨hpartial, hfailure⟩ := b.test_some c
  have hbegun : (b.test (some c)).1 = .partialMatch ↔ b.IsBegun (text ++ [c]) :=
    hpartial.trans hafter.isBegun_iff.symm
  have hclosed : (b.test (some c)).1 = .fullMatch ↔ b.IsClosed (text ++ [c]) := hfull
  refine ⟨hclosed, hbegun, ?_⟩
  rw [← hclosed, ← hbegun]
  cases hanswer : (b.test (some c)).1 with
  | failure => exact absurd hanswer hfailure
  | _ => simp

end BlockComment
end Pattern

namespace Recognizer

open Pattern Pattern.BlockComment

variable [Recognizes υ κ] (context : Context)

/-- Fed a text, a recognizer of block comments knows how far the comment has been read. -/
theorem exists_afterText_blockComment {b : BlockComment} (hopening : b.opening ≠ [])
    (hclosing : b.closing ≠ []) (text : List Char) :
    ∃ progress, afterText context (.trivia (.blockComment b) : Recognizer κ υ) text =
        .trivia (.blockComment { b with progress }) ∧
      BlockComment.Reflects { b with progress } text := by
  refine afterText_induct (P := fun text (r : Recognizer κ υ) =>
    ∃ progress, r = .trivia (.blockComment { b with progress }) ∧
      BlockComment.Reflects { b with progress } text)
    ⟨.opening b.opening, rfl, hopening, rfl⟩ ?_ text
  rintro text _ c ⟨progress, rfl, h⟩
  exact ⟨_, rfl, (h.test hclosing c).1⟩

/-- The last answer to a text tells whether it is a block comment that has just been closed for
the first time, the beginning of one, or neither. Behind the text the end of the input is an
error exactly if the body of the comment is open. -/
theorem last_answer_tells_block_comments (opening : String) (closing? : Option String)
    {text : List Char} (h : text ≠ []) :
    (∃ answer,
      (answersTo context (.blockComment opening closing? : Recognizer κ υ) text).getLast? =
        some answer ∧
      (answer = .fullMatch ↔ (ofDelimiters opening closing?).IsClosed text) ∧
      (answer = .partialMatch ↔ (ofDelimiters opening closing?).IsBegun text) ∧
      (answer = .noMatch ↔ ¬ (ofDelimiters opening closing?).IsClosed text ∧
        ¬ (ofDelimiters opening closing?).IsBegun text)) ∧
    ∃ last,
      (Recognizes.test (afterText context (.blockComment opening closing? : Recognizer κ υ) text)
        none context).1 = last ∧
      (last = .failure ↔ (ofDelimiters opening closing?).IsOpen text) ∧
      (last = .noMatch ↔ ¬ (ofDelimiters opening closing?).IsOpen text) := by
  have hopening := opening_ofDelimiters_ne_nil opening closing?
  have hclosing := closing_ofDelimiters_ne_nil opening closing?
  have hafterText := exists_afterText_blockComment (κ := κ) (υ := υ) context hopening hclosing
  constructor
  · obtain ⟨front, c, rfl⟩ : ∃ front c, text = front ++ [c] :=
      ⟨text.dropLast, text.getLast h, (List.dropLast_concat_getLast h).symm⟩
    obtain ⟨progress, hafter, hreflects⟩ := hafterText front
    refine ⟨_, ?_, hreflects.answer hclosing c⟩
    rw [answersTo_append_singleton, List.getLast?_concat]
    exact congrArg (fun r => some (Recognizes.test r (some c) context).1) hafter
  · obtain ⟨progress, hafter, hreflects⟩ := hafterText text
    exact ⟨_, congrArg (fun r => (Recognizes.test r none context).1) hafter,
      hreflects.answer_none⟩

/-- The end of an opening is no part of a closing, though it could begin one. -/
theorem last_answer_tells_block_comments_overlap :
    "<!-->".toList ≠ [] ∧
      (answersTo {} (.blockComment "<!--" (some "-->") : Recognizer Unit (NoCustom Unit))
        "<!-->".toList).getLast? = some .partialMatch ∧
      (ofDelimiters "<!--" (some "-->")).IsBegun "<!-->".toList ∧
      ¬ (ofDelimiters "<!--" (some "-->")).IsClosed "<!-->".toList ∧
      (ofDelimiters "<!--" (some "-->")).IsOpen "<!-->".toList := by
  have htext : "<!-->".toList ≠ [] := by decide
  obtain ⟨⟨answer, hlast, hclosed, hbegun, -⟩, last, hend, hopen, -⟩ :=
    last_answer_tells_block_comments (κ := Unit) (υ := NoCustom Unit) {} "<!--" (some "-->") htext
  have hanswer : (answersTo {} (.blockComment "<!--" (some "-->") : Recognizer Unit (NoCustom Unit))
      "<!-->".toList).getLast? = some .partialMatch := by
    decide
  obtain rfl : answer = .partialMatch := Option.some.inj (hlast.symm.trans hanswer)
  refine ⟨htext, hanswer, hbegun.mp rfl, ?_, hopen.mp ?_⟩
  · rw [← hclosed]
    decide
  · rw [← hend]
    decide

end Recognizer
end ShiftReduce
