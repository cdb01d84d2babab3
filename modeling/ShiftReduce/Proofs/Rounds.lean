import ShiftReduce.Proofs.Racing
import ShiftReduce.Tokenizer

/-!
What a round does to the input. A finding takes some characters from the front of
the text that the input spells, and the round leaves the others. The token that a
pattern makes keeps the text it was made from, and what is discarded of a text that
was not recognized is never nothing. A scan is unrolled round by round.
-/
namespace ShiftReduce

variable {ρ κ : Type}

/-- The token for a match has the text of the match. -/
theorem Recognizer.text?_of_token? {r : Recognizer κ (NoCustom κ)} {text : List Char}
    {token : Token κ} (h : r.token? text = some token) :
    token.text? = some (String.ofList text) := by
  induction r generalizing token with
  | lexeme kind pattern =>
    cases h
    rfl
  | trivia pattern => simp [token?] at h
  | active isActive inner ih => exact ih h
  | mapped transform inner ih =>
    simp only [token?, Option.map_eq_some_iff] at h
    obtain ⟨before, hbefore, rfl⟩ := h
    have htext := ih hbefore
    exact htext
  | custom fresh current => cases fresh

section Text

variable [Recognizes ρ κ]

theorem Race.isText_run {r : Race ρ} (h : r.input.IsText) (context : Context) :
    (r.run context).2.input.IsText := by
  fun_induction Race.run context r with
  | case1 r _ error rest hread =>
    have hrest := h.read
    rwa [hread] at hrest
  | case2 r _ rest hread =>
    have hrest := h.read
    rwa [hread] at hrest
  | case3 r _ c rest hread _ ih =>
    have hrest := h.read
    rw [hread] at hrest
    exact ih hrest
  | case4 r _ => exact h

theorem Round.isText_settle {r : Race ρ} (h : r.input.IsText) : (settle r).2.IsText := by
  unfold settle
  split
  · dsimp only
    split
    · exact h.giveBack _
    · exact h.giveBack _
  · exact h.giveBack _

/-- A race that comes to its end finds some text. -/
theorem Round.takesText_settle (r : Race ρ) : (settle r).1.takesText = true := by
  unfold settle
  split
  · dsimp only
    split
    · simp only [takesText]
    · simp only [takesText]
  · simp only [takesText]

namespace Tokenizer

/-- How a round ends: a read fails or finds the end at once, or there is a race, which is
broken off by a failed read or settled. -/
theorem round_cases (context : Context) (t : Tokenizer ρ κ) :
    (∃ error rest, t.input.read = (.error error, rest) ∧ t.round context = (.broken error,
        { t with recognizers := t.recognizers.map Recognizes.reset, input := rest })) ∨
      (∃ rest, t.input.read = (.ok none, rest) ∧ t.round context = (.endOfInput,
        { t with recognizers := t.recognizers.map Recognizes.reset, input := rest })) ∨
      (∃ c rest error race, t.input.read = (.ok (some c), rest) ∧
        (Race.start context t.recognizers c rest).run context = (some error, race) ∧
        t.round context = (.broken error, { t with
          recognizers := race.contenders.map Contender.recognizer
          input := race.input })) ∨
      ∃ c rest race, t.input.read = (.ok (some c), rest) ∧
        (Race.start context t.recognizers c rest).run context = (none, race) ∧
        t.round context = ((Round.settle race).1, { t with
          recognizers := race.contenders.map Contender.recognizer
          input := (Round.settle race).2 }) := by
  unfold round Round.play
  cases hread : t.input.read with
  | mk result rest =>
    rcases result with error | _ | c
    · exact Or.inl ⟨error, rest, rfl, rfl⟩
    · exact Or.inr (Or.inl ⟨rest, rfl, rfl⟩)
    · dsimp only
      cases hrun : (Race.start context t.recognizers c rest).run context with
      | mk error? race =>
        cases error? with
        | some error => exact Or.inr (Or.inr (Or.inl ⟨c, rest, error, race, rfl, hrun, rfl⟩))
        | none => exact Or.inr (Or.inr (Or.inr ⟨c, rest, race, rfl, hrun, rfl⟩))

theorem endKind_of_round {context : Context} {t t' : Tokenizer ρ κ} {finding : Round κ}
    (h : t.round context = (finding, t')) : t'.endKind = t.endKind := by
  simp only [round, Prod.mk.injEq] at h
  rw [← h.2]

theorem isText_round {t : Tokenizer ρ κ} (h : t.input.IsText) (context : Context) :
    (t.round context).2.input.IsText := by
  have hafter := h.read
  rcases round_cases context t with ⟨error, rest, hread, hround⟩ | ⟨rest, hread, hround⟩ |
    ⟨c, rest, error, race, hread, hrun, hround⟩ | ⟨c, rest, race, hread, hrun, hround⟩
  · rw [hround]
    rwa [hread] at hafter
  · rw [hround]
    rwa [hread] at hafter
  · rw [hread] at hafter
    have hrace := Race.isText_run (r := Race.start context t.recognizers c rest) hafter context
    rw [hrun] at hrace
    rw [hround]
    exact hrace
  · rw [hread] at hafter
    have hrace := Race.isText_run (r := Race.start context t.recognizers c rest) hafter context
    rw [hrun] at hrace
    rw [hround]
    exact Round.isText_settle hrace

/-- A scan goes on after a round that skips its text, and is over after any other. -/
theorem scan_eq_of_round {context : Context} {t t' : Tokenizer ρ κ} {finding : Round κ}
    (h : t.round context = (finding, t')) :
    t.scan context = match finding with
      | .endOfInput => (.ok (Token.endOfInput t.endKind), t')
      | .found _ token => (.ok token, t')
      | .skipped _ => t'.scan context
      | .unrecognized text reason? _ =>
        (.error (.unrecognized (String.ofList text) reason?), t')
      | .broken error => (.error (.unreadable error), t') := by
  rw [scan]
  split
  all_goals
    next heq =>
      rw [h] at heq
      cases heq
      rfl

theorem peeked?_scan (context : Context) (t : Tokenizer ρ κ) :
    (t.scan context).2.peeked? = t.peeked? :=
  (scan_frame rfl).1

theorem isText_scan {t : Tokenizer ρ κ} (h : t.input.IsText) (context : Context) :
    (t.scan context).2.input.IsText := by
  have hround := isText_round h context
  fun_induction scan context t with
  | case1 t t' heq => rwa [heq] at hround
  | case2 t text token t' heq => rwa [heq] at hround
  | case3 t text t' heq _ ih =>
    rw [heq] at hround
    exact ih hround (isText_round hround context)
  | case4 t text reason? discarded t' heq => rwa [heq] at hround
  | case5 t error t' heq => rwa [heq] at hround

theorem next_of_peeked?_eq_none {t : Tokenizer ρ κ} (h : t.peeked? = none) (context : Context) :
    t.next context = t.scan context := by
  simp only [next, h]

/-- To take a token does not end the sequence. -/
theorem next_frame (context : Context) (t : Tokenizer ρ κ) :
    (t.next context).2.isFinished = t.isFinished ∧ (t.next context).2.endKind = t.endKind := by
  unfold next
  split
  · exact ⟨rfl, rfl⟩
  · exact (scan_frame rfl).2

theorem isText_next {t : Tokenizer ρ κ} (h : t.input.IsText) (context : Context) :
    (t.next context).2.input.IsText := by
  unfold next
  split
  · exact h
  · exact isText_scan h context

/-- The end of the input is found only where it is, and it stays there. -/
theorem spells_nil_of_round {context : Context} {t t' : Tokenizer ρ κ}
    (h : t.round context = (.endOfInput, t')) : t'.input.Spells [] := by
  rcases round_cases context t with ⟨error, rest, -, hround⟩ | ⟨rest, hread, hround⟩ |
    ⟨c, rest, error, race, -, -, hround⟩ | ⟨c, rest, race, -, -, hround⟩
  · simp [hround] at h
  · rw [hround] at h
    cases h
    exact Input.spells_nil_of_read_end hread
  · simp [hround] at h
  · rw [hround] at h
    have hfinding : (Round.settle race).1 = .endOfInput := congrArg Prod.fst h
    have htakes := Round.takesText_settle race
    simp [hfinding, Round.takesText] at htakes

end Tokenizer

end Text

namespace Round

/-- The characters that a finding takes from the input. -/
def taken : Round κ → List Char
  | .found text _ => text
  | .skipped text => text
  | .unrecognized _ _ discarded => discarded
  | .endOfInput => []
  | .broken _ => []

/-- The token found has the text that was matched, something is discarded of a text
that was not recognized, from its front, and no read has failed. -/
def IsFaithful : Round κ → Prop
  | .found text token => token.text? = some (String.ofList text)
  | .unrecognized text _ discarded => discarded ≠ [] ∧ discarded <+: text
  | .broken _ => False
  | .endOfInput => True
  | .skipped _ => True

/-- Of what the race has read, the finding takes the front, and the rest is given
back. -/
theorem exists_giveBack_of_settle [Recognizes ρ κ] (r : Race ρ) :
    ∃ rest, r.text = (settle r).1.taken ++ rest ∧ (settle r).2 = r.input.giveBack rest := by
  unfold settle
  split
  · next k mark hwinner =>
    refine ⟨r.text.drop mark.length, ?_⟩
    dsimp only
    split
    · exact ⟨(List.take_append_drop _ _).symm, rfl⟩
    · exact ⟨(List.take_append_drop _ _).symm, rfl⟩
  · exact ⟨_, (List.take_append_drop _ _).symm, rfl⟩

theorem isFaithful_settle {r : Race (Recognizer κ (NoCustom κ))} (h : r.text ≠ []) :
    (settle r).1.IsFaithful := by
  unfold settle
  split
  · dsimp only
    split
    · next htoken => exact Recognizer.text?_of_token? htoken
    · trivial
  · refine ⟨?_, List.take_prefix _ _⟩
    have hpos := List.length_pos_iff.mpr h
    rw [ne_eq, List.take_eq_nil_iff]
    rintro (hcount | hempty)
    · split at hcount
      · omega
      · omega
    · exact h hempty

end Round

/-- A round takes the front of the text that the input spells and leaves the rest. -/
theorem Tokenizer.exists_round_of_spells {t : Tokenizer (Recognizer κ (NoCustom κ)) κ}
    {text : List Char} (h : t.input.Spells text) (context : Context) :
    ∃ rest, text = (t.round context).1.taken ++ rest ∧
      (t.round context).2.input.Spells rest ∧ (t.round context).1.IsFaithful := by
  simp only [round, Round.play]
  cases text with
  | nil =>
    obtain ⟨left, hread⟩ := h
    rw [hread]
    exact ⟨[], rfl, Input.spells_nil_of_read_end hread, trivial⟩
  | cons c text =>
    obtain ⟨first, next, race, read, rest, hread, hrun, htext, hne, hrace, hrest, -⟩ :=
      Race.exists_start_of_spells (List.cons_ne_nil c text) h context t.recognizers
    obtain ⟨back, htaken, hback⟩ := Round.exists_giveBack_of_settle race
    simp only [hread, hrun]
    refine ⟨back ++ rest, ?_, ?_, Round.isFaithful_settle (by rwa [hrace])⟩
    · rw [htext, ← hrace, htaken, List.append_assoc]
    · rw [hback]
      exact hrest.giveBack back

end ShiftReduce
