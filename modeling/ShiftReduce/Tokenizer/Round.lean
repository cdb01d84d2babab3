import ShiftReduce.Tokenizer.Race

/-!
One round of tokenizing: a race from the next character on, and what becomes of
the characters it read. The winner's match becomes a token or is skipped, and the
characters behind it are given back. Without a winner the characters are reported;
a failure discards all of them, anything else only the first, and the others are
given back. A round that does not find the end of the input takes at least one
character from it, unless a read fails.
-/
namespace ShiftReduce

variable {ρ κ : Type}

/-- What a round finds. A found token comes with the text that was matched, and a
text that was not recognized with the part of it that was discarded. -/
inductive Round (κ : Type) where
  | endOfInput
  | found (text : List Char) (token : Token κ)
  | skipped (text : List Char)
  | unrecognized (text : List Char) (reason? : Option String) (discarded : List Char)
  | broken (error : ReadError)

namespace Round

variable [Recognizes ρ κ]

/-- What becomes of a race that is over: the finding and the remaining input. -/
def settle (r : Race ρ) : Round κ × Input :=
  match Contender.winner? r.contenders with
  | some (k, mark) =>
    let matched := r.text.take mark.length
    let rest := r.input.giveBack (r.text.drop mark.length)
    match Recognizes.isIgnored k.recognizer, Recognizes.token? k.recognizer matched with
    | false, some token => (.found matched token, rest)
    | _, _ => (.skipped matched, rest)
  | none =>
    let spokesman? := Contender.spokesman? r.contenders
    let reason? := spokesman?.bind fun (k, _) => Recognizes.reason? k.recognizer
    let isHard := spokesman?.any fun (_, remark) => remark.isHard
    let count := if isHard then r.text.length else 1
    (.unrecognized r.text reason? (r.text.take count), r.input.giveBack (r.text.drop count))

/-- A round of some recognizers over an input: the finding, the recognizers after
it and the remaining input. -/
def play (context : Context) (recognizers : List ρ) (input : Input) : Round κ × List ρ × Input :=
  match input.read with
  | (.error error, rest) => (.broken error, recognizers.map Recognizes.reset, rest)
  | (.ok none, rest) => (.endOfInput, recognizers.map Recognizes.reset, rest)
  | (.ok (some c), rest) =>
    let (error?, race) := (Race.start context recognizers c rest).run context
    let after := race.contenders.map Contender.recognizer
    match error? with
    | some error => (.broken error, after, race.input)
    | none =>
      let (finding, rest) := settle race
      (finding, after, rest)

/-- Whether a finding takes characters from the input. -/
def takesText : Round κ → Bool
  | .found _ _ | .skipped _ | .unrecognized _ _ _ => true
  | .endOfInput | .broken _ => false

/-- Settling a race leaves less than it had and had read. -/
theorem size_lt_of_settle {r : Race ρ} (h : r.Started) {finding : Round κ} {rest : Input}
    (hsettle : settle r = (finding, rest)) : rest.size < r.input.size + r.read.length := by
  have hread : 0 < r.read.length := List.length_pos_iff.mpr h.1
  have hdrop : ∀ count, 0 < count →
      (r.input.giveBack (r.text.drop count)).size < r.input.size + r.read.length := by
    intro count hcount
    rw [Input.size_giveBack, List.length_drop, Race.text, List.length_reverse]
    omega
  unfold settle at hsettle
  split at hsettle
  · next k mark hwinner =>
    obtain ⟨hmem, hmark⟩ := Contender.mem_of_winner? hwinner
    have hpos := (h.2 k hmem).2 mark hmark
    dsimp only at hsettle
    split at hsettle
    all_goals
      cases hsettle
      exact hdrop _ hpos
  · cases hsettle
    apply hdrop
    split
    · simpa [Race.text] using hread
    · exact Nat.one_pos

/-- A round that takes text leaves less input. -/
theorem size_lt_of_play {context : Context} {recognizers after : List ρ} {input rest : Input}
    {finding : Round κ} (h : play context recognizers input = (finding, after, rest))
    (htakes : finding.takesText = true) : rest.size < input.size := by
  unfold play at h
  split at h
  · cases h
    simp [takesText] at htakes
  · cases h
    simp [takesText] at htakes
  · next c first hread =>
    generalize hrun : (Race.start context recognizers c first).run context = result at h
    obtain ⟨error?, race⟩ := result
    dsimp only at h
    cases error? with
    | some error =>
      cases h
      simp [takesText] at htakes
    | none =>
      dsimp only at h
      generalize hsettle : settle race = settled at h
      obtain ⟨settledFinding, settledRest⟩ := settled
      simp only [Prod.mk.injEq] at h
      obtain ⟨rfl, -, rfl⟩ := h
      have hstarted := (Race.started_start context recognizers c first).run context hrun
      have hsettled := size_lt_of_settle hstarted hsettle
      have hsize := Race.size_of_run hrun
      have hfirst := Input.size_lt_of_read hread
      simp only [Race.start, List.length_singleton] at hsize
      omega

end Round

end ShiftReduce
