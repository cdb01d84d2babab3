import ShiftReduce.Proofs.MaximalMunch

/-!
Comments and fixed texts. Fed a text, a fixed text knows what of it is still expected, and
a comment whether its opening has been read, whether it goes on, and for a comment with a
closing which characters were read last. So a fixed text matches itself as a whole and no
other text. A line comment is a whole match if it starts with its opening and has no line
feed behind it, and a block comment if its closing is at the end and nowhere before.
-/
namespace ShiftReduce

open Answers MaximalMunch

variable {ρ κ υ : Type}

section Whole

variable [Recognizes ρ κ] {context : Context} {r : ρ}

/-- Fed the text, the recognizer answers its last character with a match. -/
def MatchesWhole (context : Context) (r : ρ) (text : List Char) : Prop :=
  MatchesAt context r text text.length

theorem ne_nil_of_matchesWhole {text : List Char} (h : MatchesWhole context r text) : text ≠ [] :=
  List.ne_nil_of_length_pos h.1

/-- Whether so many characters are matched does not depend on those behind them. -/
theorem matchesAt_append {front back : List Char} {length : Nat} (h : length ≤ front.length) :
    MatchesAt context r (front ++ back) length ↔ MatchesAt context r front length := by
  have hanswers : answersTo context r (front ++ back) = answersTo context r front ++
      answers context (afterText context r front) (back.map some) := by
    rw [answersTo, List.map_append, answers_append]
    rfl
  refine and_congr_right fun hpos => ?_
  have hlt : length - 1 < (answersTo context r front).length := by
    rw [length_answersTo]
    omega
  rw [hanswers, List.getElem?_append_left hlt]

/-- What is matched is matched as a whole when nothing stands behind it. -/
theorem matchesWhole_take {text : List Char} {length : Nat} (h : MatchesAt context r text length) :
    MatchesWhole context r (text.take length) := by
  have hlength : (text.take length).length = length := List.length_take_of_le (matchesAt_le h)
  rw [MatchesWhole, hlength]
  rw [← List.take_append_drop length text] at h
  exact (matchesAt_append (Nat.le_of_eq hlength.symm)).mp h

/-- What a character keeps true of a text and a recognizer is true after any text. -/
theorem after_induct {P : List Char → ρ → Prop}
    (hstep : ∀ text s c, P text s → P (text ++ [c]) (Recognizes.test s (some c) context).2)
    {done : List Char} {s : ρ} (h : P done s) (text : List Char) :
    P (done ++ text) (after context s (text.map some)) := by
  induction text generalizing done s with
  | nil => rwa [List.append_nil]
  | cons c text ih => simpa [after] using ih (hstep done s c h)

/-- What is true of a recognizer before any text, and kept so by each character, is true of it
after a text. -/
theorem afterText_induct {P : List Char → ρ → Prop} (hstart : P [] (Recognizes.reset r))
    (hstep : ∀ text s c, P text s → P (text ++ [c]) (Recognizes.test s (some c) context).2)
    (text : List Char) : P text (afterText context r text) :=
  after_induct hstep hstart text

/-- Which texts are matched as a whole is known if each character keeps something true of the
text and the recognizer that tells whether its answer is a match. -/
theorem matchesWhole_iff_of_step {P : List Char → ρ → Prop} {M : List Char → Prop}
    (hstart : P [] (Recognizes.reset r))
    (hstep : ∀ text s c, P text s → P (text ++ [c]) (Recognizes.test s (some c) context).2 ∧
      ((Recognizes.test s (some c) context).1 = .fullMatch ↔ M (text ++ [c])))
    (text : List Char) : MatchesWhole context r text ↔ text ≠ [] ∧ M text := by
  rcases List.eq_nil_or_concat text with rfl | ⟨front, c, rfl⟩
  · simp [MatchesWhole, MatchesAt]
  · have hfront : P front (afterText context r front) :=
      afterText_induct hstart (fun text s c h => (hstep text s c h).1) front
    have hshort : ¬ MatchesAt context r front (front.length + 1) := by
      intro h
      have := matchesAt_le h
      omega
    rw [List.concat_eq_append, ← (hstep front _ c hfront).2, MatchesWhole, List.length_append,
      List.length_singleton, matchesAt_append_singleton]
    simp [hshort]

/-- Which texts are matched as a whole is known if for each state of the recognizer it is known
which texts complete a match from there on: a character is answered with a match if it completes
one by itself, and leads to a state that is completed by what completed the one before with the
character in front of it. -/
theorem matchesWhole_iff_of_completes {σ : Type} {step : σ → Char → Answer × σ}
    (embed : σ → ρ) (Completes : σ → List Char → Prop) (start : σ)
    (hreset : Recognizes.reset r = embed start)
    (htest : ∀ s c, Recognizes.test (embed s) (some c) context =
      ((step s c).1, embed (step s c).2))
    (hstep : ∀ s c, ((step s c).1 = .fullMatch ↔ Completes s [c]) ∧
      ∀ d more, Completes (step s c).2 (d :: more) ↔ Completes s (c :: d :: more))
    (text : List Char) : MatchesWhole context r text ↔ text ≠ [] ∧ Completes start text := by
  refine matchesWhole_iff_of_step (P := fun text (r : ρ) => ∃ s, r = embed s ∧
    ∀ d more, Completes s (d :: more) ↔ Completes start (text ++ d :: more))
    ⟨start, hreset, fun d more => Iff.rfl⟩ ?_ text
  rintro text _ c ⟨s, rfl, hcompletes⟩
  obtain ⟨hanswer, hafter⟩ := hstep s c
  rw [htest]
  refine ⟨⟨(step s c).2, rfl, ?_⟩, hanswer.trans (hcompletes c [])⟩
  intro d more
  rw [hafter, hcompletes, List.append_assoc, List.singleton_append]

/-- If a recognizer matches the whole front of a text, none before it does and nobody matches
more, it is the first of those with the longest match. -/
theorem isLongestFirst_of_matchesWhole {front back : List ρ} {text rest : List Char}
    (hmatch : MatchesWhole context r text) (hfront : ∀ s ∈ front, ¬ MatchesWhole context s text)
    (hlongest : ∀ s ∈ front ++ r :: back, ∀ longer, text.length < longer →
      ¬ MatchesAt context s (text ++ rest) longer) :
    IsLongestFirst context (front ++ r :: back) (text ++ rest) front.length text.length := by
  refine ⟨⟨r, by simp, (matchesAt_append (Nat.le_refl _)).mpr hmatch⟩, hlongest, ?_⟩
  intro place hplace s hs hmatches
  rw [List.getElem?_append_left hplace] at hs
  exact hfront s (List.mem_of_getElem? hs) ((matchesAt_append (Nat.le_refl _)).mp hmatches)

end Whole

/-- With more characters behind it a text is no prefix of what it starts with. -/
theorem not_append_singleton_prefix (front back : List Char) (c : Char) :
    ¬ front ++ back ++ [c] <+: front := by
  intro h
  have := h.length_le
  rw [List.length_append, List.length_append, List.length_singleton] at this
  omega

/-- The last character of a text is the last one of any front part or stands behind it. -/
theorem cases_of_append_singleton_eq {text front back : List Char} {c : Char}
    (h : text ++ [c] = front ++ back) :
    back = [] ∧ front = text ++ [c] ∨ ∃ between, back = between ++ [c] ∧ text = front ++ between := by
  rcases List.eq_nil_or_concat back with rfl | ⟨between, d, rfl⟩
  · exact Or.inl ⟨rfl, by simpa using h.symm⟩
  · rw [List.concat_eq_append, ← List.append_assoc] at h
    obtain ⟨htext, hlast⟩ := List.append_inj' h rfl
    obtain ⟨rfl, -⟩ := List.cons.inj hlast
    exact Or.inr ⟨between, List.concat_eq_append, htext⟩

namespace Pattern

/-- What is still expected of a fixed text completes what has been read of it. -/
def Phrase.Progress.Reflects (phrase text : List Char) : Phrase.Progress → Prop
  | .expecting rest => text ++ rest = phrase
  | .over => ¬ text <+: phrase

theorem Phrase.Progress.Reflects.test {phrase text : List Char} {p : Phrase.Progress}
    (h : p.Reflects phrase text) (c : Char) :
    (p.test (some c)).2.Reflects phrase (text ++ [c]) ∧
      ((p.test (some c)).1 = .fullMatch ↔ text ++ [c] = phrase) := by
  cases p with
  | expecting rest =>
    subst h
    cases rest with
    | nil => simpa [Progress.test, Reflects] using not_append_singleton_prefix text [] c
    | cons d rest =>
      by_cases hc : c = d
      · subst hc
        refine ⟨by simp [Progress.test, Reflects], ?_⟩
        cases rest with
        | nil => simp [Progress.test]
        | cons e rest => simp [Progress.test]
      · simp [Progress.test, Reflects, hc]
  | _ =>
    have hlonger : ¬ text ++ [c] <+: phrase := fun hprefix =>
      h ((List.prefix_append text [c]).trans hprefix)
    refine ⟨hlonger, ?_⟩
    simp only [Progress.test, reduceCtorEq, false_iff]
    rintro rfl
    exact hlonger (List.prefix_refl _)

/-- Of the opening of a line comment the rest is to come, or no line feed was read behind it. -/
def LineComment.Progress.Reflects (opening text : List Char) : LineComment.Progress → Prop
  | .opening rest => rest ≠ [] ∧ text ++ rest = opening
  | .body => ∃ body, text = opening ++ body ∧ '\n' ∉ body
  | .over => ¬ text <+: opening ∧ ∀ body, text = opening ++ body → '\n' ∈ body

theorem LineComment.Progress.Reflects.test {opening text : List Char} {p : LineComment.Progress}
    (h : p.Reflects opening text) (c : Char) :
    (p.test (some c)).2.Reflects opening (text ++ [c]) ∧
      ((p.test (some c)).1 = .fullMatch ↔ ∃ body, text ++ [c] = opening ++ body ∧ '\n' ∉ body) := by
  cases p with
  | opening rest =>
    obtain ⟨hne, rfl⟩ := h
    cases rest with
    | nil => exact absurd rfl hne
    | cons d rest =>
      by_cases hc : c = d
      · subst hc
        cases rest with
        | nil => simp [Progress.test, Reflects]
        | cons e rest => simp [Progress.test, Reflects]
      · simp [Progress.test, Reflects, hc]
  | body =>
    obtain ⟨body, rfl, hfeed⟩ := h
    by_cases hc : c = '\n'
    · subst hc
      have hlonger := not_append_singleton_prefix opening body '\n'
      simpa [Progress.test, Reflects] using hlonger
    · simpa [Progress.test, Reflects, hc, Ne.symm hc] using hfeed
  | _ =>
    obtain ⟨hopening, hbody⟩ := h
    have hstays : ∀ body, text ++ [c] = opening ++ body → '\n' ∈ body := by
      intro body heq
      rcases cases_of_append_singleton_eq heq with ⟨-, rfl⟩ | ⟨between, rfl, htext⟩
      · exact absurd (List.prefix_append text [c]) hopening
      · exact List.mem_append_left _ (hbody between htext)
    refine ⟨⟨fun hprefix => hopening ((List.prefix_append text [c]).trans hprefix), hstays⟩, ?_⟩
    simp only [Progress.test, reduceCtorEq, false_iff]
    rintro ⟨body, heq, hfeed⟩
    exact hfeed (hstays body heq)

/-- The closing has not been read anywhere in the body. -/
def BlockComment.IsOpenBody (closing body : List Char) : Prop :=
  ∀ front, front <+: body → ¬ closing <:+ front

/-- The closing has been read at the end of the body and nowhere before. -/
def BlockComment.IsClosedBody (closing body : List Char) : Prop :=
  closing <:+ body ∧ ∀ front, front <+: body → front ≠ body → ¬ closing <:+ front

/-- Of the opening of a block comment the rest is to come, or the closing was not read behind
it, and the window holds the last characters of the body. -/
def BlockComment.Reflects (b : BlockComment) (text : List Char) : Prop :=
  match b.progress with
  | .opening rest => rest ≠ [] ∧ text ++ rest = b.opening
  | .body window => ∃ body, text = b.opening ++ body ∧ IsOpenBody b.closing body ∧
      window = body.drop (body.length - b.closing.length)
  | .over _ => ¬ text <+: b.opening ∧ ∀ body, text = b.opening ++ body → ¬ IsOpenBody b.closing body

theorem BlockComment.slide_drop {width : Nat} (hwidth : 0 < width) (body : List Char) (c : Char) :
    slide width (body.drop (body.length - width)) c =
      (body ++ [c]).drop ((body ++ [c]).length - width) := by
  unfold slide
  rw [List.length_drop, List.length_append, List.length_singleton]
  split
  · rw [List.tail_drop, List.drop_append_of_le_length (by omega)]
    congr 2
    omega
  · rw [List.drop_append_of_le_length (by omega)]
    congr 2
    omega

theorem BlockComment.isOpenBody_append_singleton {closing body : List Char} {c : Char} :
    IsOpenBody closing (body ++ [c]) ↔ IsOpenBody closing body ∧ ¬ closing <:+ body ++ [c] := by
  simp only [IsOpenBody, List.prefix_concat_iff, forall_eq_or_imp, and_comm]

theorem BlockComment.isClosedBody_append_singleton {closing body : List Char} {c : Char} :
    IsClosedBody closing (body ++ [c]) ↔ IsOpenBody closing body ∧ closing <:+ body ++ [c] := by
  rw [IsClosedBody, and_comm, and_congr_left_iff]
  intro _
  constructor
  · intro h front hfront
    apply h front (List.prefix_concat_iff.mpr (Or.inr hfront))
    rintro rfl
    exact not_append_singleton_prefix body [] c (by simpa using hfront)
  · intro h front hfront hne
    rcases List.prefix_concat_iff.mp hfront with heq | hfront
    · exact absurd heq hne
    · exact h front hfront

theorem BlockComment.isOpenBody_nil {closing : List Char} (h : closing ≠ []) :
    IsOpenBody closing [] := by
  intro front hfront hsuffix
  rw [List.prefix_nil.mp hfront, List.suffix_nil] at hsuffix
  exact h hsuffix

theorem BlockComment.not_isClosedBody_nil {closing : List Char} (h : closing ≠ []) :
    ¬ IsClosedBody closing [] := fun hclosed => h (List.suffix_nil.mp hclosed.1)

/-- Each character is answered with a match if it is the last one of a comment that has just
been closed. -/
theorem BlockComment.Reflects.test {b : BlockComment} {text : List Char} (h : b.Reflects text)
    (hclosing : b.closing ≠ []) (c : Char) :
    (b.test (some c)).2.Reflects (text ++ [c]) ∧
      ((b.test (some c)).1 = .fullMatch ↔
        ∃ body, text ++ [c] = b.opening ++ body ∧ IsClosedBody b.closing body) := by
  obtain ⟨opening, closing, progress⟩ := b
  cases progress with
  | opening rest =>
    obtain ⟨hne, rfl⟩ : rest ≠ [] ∧ text ++ rest = opening := h
    cases rest with
    | nil => exact absurd rfl hne
    | cons d rest =>
      by_cases hc : c = d
      · subst hc
        cases rest with
        | nil =>
          simp [BlockComment.test, step, Reflects, isOpenBody_nil hclosing,
            not_isClosedBody_nil hclosing]
        | cons e rest => simp [BlockComment.test, step, Reflects]
      · simp [BlockComment.test, step, Reflects, hc]
  | body window =>
    obtain ⟨body, rfl, hopen, hwindow⟩ : ∃ body, text = opening ++ body ∧
        IsOpenBody closing body ∧ window = body.drop (body.length - closing.length) := h
    have hslide := slide_drop (List.length_pos_iff.mpr hclosing) body c
    dsimp only at hslide hclosing
    rw [← hwindow] at hslide
    by_cases hends : closing <:+ body ++ [c]
    · have hmoved : slide closing.length window c = closing :=
        hslide.trans (List.suffix_iff_eq_drop.mp hends).symm
      have hlonger := not_append_singleton_prefix opening body c
      simpa [BlockComment.test, step, Reflects, hmoved, isClosedBody_append_singleton,
        isOpenBody_append_singleton, hopen, hends] using hlonger
    · have hmoved : slide closing.length window c ≠ closing := by
        rw [hslide]
        exact fun heq => hends (List.suffix_iff_eq_drop.mpr heq.symm)
      simpa [BlockComment.test, step, Reflects, hmoved, isClosedBody_append_singleton,
        isOpenBody_append_singleton, hopen, hends] using hslide
  | _ =>
    obtain ⟨hopening, hbody⟩ := h
    have hstays : ∀ body, text ++ [c] = opening ++ body → ¬ IsOpenBody closing body ∧
        ¬ IsClosedBody closing body := by
      intro body heq
      rcases cases_of_append_singleton_eq heq with ⟨-, rfl⟩ | ⟨between, rfl, htext⟩
      · exact absurd (List.prefix_append text [c]) hopening
      · have hbetween := hbody between htext
        rw [isOpenBody_append_singleton, isClosedBody_append_singleton]
        exact ⟨fun hboth => hbetween hboth.1, fun hboth => hbetween hboth.1⟩
    refine ⟨⟨fun hprefix => hopening ((List.prefix_append text [c]).trans hprefix),
      fun body heq => (hstays body heq).1⟩, ?_⟩
    simp only [BlockComment.test, step, reduceCtorEq, false_iff]
    rintro ⟨body, heq, hclosed⟩
    exact (hstays body heq).2 hclosed

end Pattern

namespace Recognizer

open Pattern

variable [Recognizes υ κ] (context : Context)

/-- A fixed text matches itself, and no other text as a whole. -/
theorem matchesWhole_symbol_iff (word : String) (kind : κ) (text : List Char) :
    MatchesWhole context (.symbol word kind : Recognizer κ υ) text ↔
      text ≠ [] ∧ text = word.toList := by
  refine matchesWhole_iff_of_step (P := fun text (r : Recognizer κ υ) =>
    ∃ progress : Phrase.Progress, r = .lexeme kind (.phrase ⟨word.toList, progress⟩) ∧
      progress.Reflects word.toList text) (M := (· = word.toList))
    ⟨.expecting word.toList, rfl, rfl⟩ ?_ text
  rintro text _ c ⟨progress, rfl, h⟩
  obtain ⟨hafter, hanswer⟩ := h.test c
  exact ⟨⟨_, rfl, hafter⟩, hanswer⟩

theorem matchesWhole_lineComment_iff {l : LineComment} (hopening : l.opening ≠ [])
    (text : List Char) : MatchesWhole context (.trivia (.lineComment l) : Recognizer κ υ) text ↔
      text ≠ [] ∧ ∃ body, text = l.opening ++ body ∧ '\n' ∉ body := by
  refine matchesWhole_iff_of_step (P := fun text (r : Recognizer κ υ) =>
    ∃ progress : LineComment.Progress, r = .trivia (.lineComment ⟨l.opening, progress⟩) ∧
      progress.Reflects l.opening text)
    (M := fun text => ∃ body, text = l.opening ++ body ∧ '\n' ∉ body)
    ⟨.opening l.opening, rfl, hopening, rfl⟩ ?_ text
  rintro text _ c ⟨progress, rfl, h⟩
  obtain ⟨hafter, hanswer⟩ := h.test c
  exact ⟨⟨_, rfl, hafter⟩, hanswer⟩

theorem matchesWhole_blockComment_iff {b : BlockComment} (hopening : b.opening ≠ [])
    (hclosing : b.closing ≠ []) (text : List Char) :
    MatchesWhole context (.trivia (.blockComment b) : Recognizer κ υ) text ↔
      text ≠ [] ∧ ∃ body, text = b.opening ++ body ∧ BlockComment.IsClosedBody b.closing body := by
  refine matchesWhole_iff_of_step (P := fun text (r : Recognizer κ υ) =>
    ∃ progress, r = .trivia (.blockComment ⟨b.opening, b.closing, progress⟩) ∧
      BlockComment.Reflects ⟨b.opening, b.closing, progress⟩ text)
    (M := fun text => ∃ body, text = b.opening ++ body ∧ BlockComment.IsClosedBody b.closing body)
    ⟨.opening b.opening, rfl, hopening, rfl⟩ ?_ text
  rintro text _ c ⟨progress, rfl, h⟩
  obtain ⟨hafter, hanswer⟩ := h.test hclosing c
  exact ⟨⟨_, rfl, hafter⟩, hanswer⟩

end Recognizer

end ShiftReduce
