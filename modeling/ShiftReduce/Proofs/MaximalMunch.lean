import ShiftReduce.Proofs.Answers
import ShiftReduce.Proofs.Racing
import ShiftReduce.Tokenizer

/-!
The longest match wins. What a contender remembers at the end of a race is the last
match among the answers that its recognizer gives when it is fed the whole text by
itself. A round therefore decides for the recognizer whose match is longest, and
among equally long matches for the first in the list, although it drops recognizers
on the way and may stop before the end of the text.
-/
namespace ShiftReduce

open Answers

variable {ρ κ : Type} [Recognizes ρ κ]

namespace MaximalMunch

/-- Fed the text by itself, the recognizer answers the character with this number
with a match; the first character has the number one. -/
def MatchesAt (context : Context) (recognizer : ρ) (text : List Char) (length : Nat) : Prop :=
  0 < length ∧ (answersTo context recognizer text)[length - 1]? = some .fullMatch

/-- The last match of a recognizer that is fed the text. -/
def IsLastMatch (context : Context) (recognizer : ρ) (text : List Char) (length : Nat) : Prop :=
  MatchesAt context recognizer text length ∧
    ∀ longer, length < longer → ¬ MatchesAt context recognizer text longer

/-- The recognizer at the place matches so many characters, none matches more, and
none before it as many. -/
structure IsLongestFirst (context : Context) (recognizers : List ρ) (text : List Char)
    (place length : Nat) : Prop where
  isMatch : ∃ r, recognizers[place]? = some r ∧ MatchesAt context r text length
  longest : ∀ r ∈ recognizers, ∀ longer, length < longer → ¬ MatchesAt context r text longer
  first : ∀ j < place, ∀ r, recognizers[j]? = some r → ¬ MatchesAt context r text length

theorem matchesAt_le {context : Context} {r : ρ} {text : List Char} {length : Nat}
    (h : MatchesAt context r text length) : length ≤ text.length := by
  obtain ⟨hpos, hanswer⟩ := h
  have := (List.getElem?_eq_some_iff.mp hanswer).1
  rw [length_answersTo] at this
  omega

/-- One more character can only add a match of the whole text. -/
theorem matchesAt_append_singleton {context : Context} {r : ρ} {text : List Char} {c : Char}
    {length : Nat} : MatchesAt context r (text ++ [c]) length ↔
      MatchesAt context r text length ∨ length = text.length + 1 ∧
        (Recognizes.test (afterText context r text) (some c) context).1 = .fullMatch := by
  by_cases hlast : length = text.length + 1
  · have hnew : ¬ MatchesAt context r text length := by
      intro h
      have := matchesAt_le h
      omega
    subst hlast
    simp [MatchesAt, answersTo_append_singleton] at hnew ⊢
  · by_cases hle : length ≤ text.length
    · by_cases hpos : 0 < length
      · have hlt : length - 1 < (answersTo context r text).length := by
          rw [length_answersTo]
          omega
        simp [MatchesAt, answersTo_append_singleton, List.getElem?_append_left hlt, hlast]
      · simp [MatchesAt, hpos, hlast]
    · constructor
      · intro h
        have := matchesAt_le h
        simp only [List.length_append, List.length_singleton] at this
        omega
      · rintro (h | h)
        · exact absurd (matchesAt_le h) hle
        · exact absurd h.1 hlast

theorem isLastMatch_append_singleton_of_eq {context : Context} {r : ρ} {text : List Char} {c : Char}
    (h : (Recognizes.test (afterText context r text) (some c) context).1 = .fullMatch)
    {length : Nat} : IsLastMatch context r (text ++ [c]) length ↔ length = text.length + 1 := by
  have hwhole : MatchesAt context r (text ++ [c]) (text.length + 1) :=
    matchesAt_append_singleton.mpr (Or.inr ⟨rfl, h⟩)
  constructor
  · rintro ⟨hmatch, hlast⟩
    have hle := matchesAt_le hmatch
    simp only [List.length_append, List.length_singleton] at hle
    rcases Nat.lt_or_eq_of_le hle with hlt | heq
    · exact absurd hwhole (hlast _ hlt)
    · exact heq
  · rintro rfl
    refine ⟨hwhole, ?_⟩
    intro longer hlonger hmatch
    have hle := matchesAt_le hmatch
    simp only [List.length_append, List.length_singleton] at hle
    omega

theorem isLastMatch_append_singleton_of_ne {context : Context} {r : ρ} {text : List Char} {c : Char}
    (h : (Recognizes.test (afterText context r text) (some c) context).1 ≠ .fullMatch)
    {length : Nat} :
    IsLastMatch context r (text ++ [c]) length ↔ IsLastMatch context r text length := by
  simp [IsLastMatch, matchesAt_append_singleton, h]

/-- What ties a contender to its recognizer: while it is live it is in the state that
the text leads to, once it is not the text has been answered negatively, and it always
remembers the last match. -/
structure Follows (context : Context) (r : ρ) (text : List Char) (k : Contender ρ) : Prop where
  live : k.isLive = true → k.recognizer = afterText context r text ∧ k.fed = text.length
  dropped : k.isLive = false → ∃ answer ∈ answersTo context r text, answer.isNegative = true
  match?_eq : ∀ mark, k.match? = some mark ↔
    mark.moment = mark.length ∧ IsLastMatch context r text mark.length

theorem follows_enter (context : Context) (r : ρ) : Follows context r [] (Contender.enter r) where
  live _ := ⟨rfl, rfl⟩
  dropped h := by simp [Contender.enter] at h
  match?_eq mark := by
    have : ¬ IsLastMatch context r [] mark.length := by
      rintro ⟨⟨hpos, hanswer⟩, -⟩
      simp [answersTo, answers] at hanswer
    simp [Contender.enter, this]

theorem Follows.feed_of_not_live {context : Context} {r : ρ} {text : List Char} {k : Contender ρ}
    (h : Follows context r text k) (hwell : WellBehaved context r) (hlive : k.isLive = false)
    (c : Char) : Follows context r (text ++ [c]) (k.feed context (some c)) := by
  obtain ⟨answer, hmem, hnegative⟩ := h.dropped hlive
  have hnext := hwell.eq_noMatch hmem hnegative c
  rw [Contender.feed_of_not_live hlive]
  refine ⟨fun h => by simp [hlive] at h, fun _ => ⟨answer, ?_, hnegative⟩, ?_⟩
  · rw [answersTo_append_singleton]
    exact List.mem_append_left _ hmem
  · intro mark
    rw [isLastMatch_append_singleton_of_ne (by simp [hnext])]
    exact h.match?_eq mark

/-- A match of the whole text is longer than what is remembered. -/
theorem Follows.longer_eq {context : Context} {r : ρ} {text : List Char} {k : Contender ρ}
    (h : Follows context r text k) (moment : Nat) :
    Contender.longer k.match? ⟨text.length + 1, moment⟩ = ⟨text.length + 1, moment⟩ := by
  unfold Contender.longer
  cases hmatch : k.match? with
  | none => rfl
  | some old =>
    have hle := matchesAt_le ((h.match?_eq old).mp hmatch).2.1
    simp only [ite_eq_left_iff]
    omega

theorem Follows.feed_of_live {context : Context} {r : ρ} {text : List Char} {k : Contender ρ}
    (h : Follows context r text k) (hlive : k.isLive = true) (c : Char) :
    Follows context r (text ++ [c]) (k.feed context (some c)) := by
  obtain ⟨hrecognizer, hfed⟩ := h.live hlive
  have hmem : (Recognizes.test (afterText context r text) (some c) context).1 ∈
      answersTo context r (text ++ [c]) := by
    rw [answersTo_append_singleton]
    exact List.mem_append_right _ (List.mem_singleton_self _)
  have hafter := afterText_append_singleton context r text c
  have hold := @isLastMatch_append_singleton_of_ne _ _ _ context r text c
  have hnew := @isLastMatch_append_singleton_of_eq _ _ _ context r text c
  unfold Contender.feed
  simp only [hlive, if_true, hrecognizer, hfed, Option.isSome_some]
  generalize Recognizes.test (afterText context r text) (some c) context = result at *
  obtain ⟨answer, recognizer⟩ := result
  dsimp only at hmem hafter hold hnew ⊢
  cases answer with
  -- Only a match of the whole text changes what is remembered.
  | noMatch =>
    refine ⟨by simp, fun _ => ⟨.noMatch, hmem, rfl⟩, ?_⟩
    intro mark
    rw [hold (by simp)]
    exact h.match?_eq mark
  | partialMatch =>
    refine ⟨fun _ => ⟨hafter.symm, by simp⟩, by simp, ?_⟩
    intro mark
    rw [hold (by simp)]
    exact h.match?_eq mark
  | fullMatch =>
    refine ⟨fun _ => ⟨hafter.symm, by simp⟩, by simp, ?_⟩
    intro mark
    rw [hnew rfl, h.longer_eq]
    constructor
    · rintro ⟨⟩
      exact ⟨rfl, rfl⟩
    · rintro ⟨hmoment, hlength⟩
      obtain ⟨length, moment⟩ := mark
      simp only at hmoment hlength
      rw [hmoment, hlength]
  | failure =>
    refine ⟨by simp, fun _ => ⟨.failure, hmem, rfl⟩, ?_⟩
    intro mark
    rw [hold (by simp)]
    exact h.match?_eq mark

/-- A contender goes on following its recognizer; the contract is what covers the
characters that it no longer sees. -/
theorem Follows.feed {context : Context} {r : ρ} {text : List Char} {k : Contender ρ}
    (h : Follows context r text k) (hwell : WellBehaved context r) (c : Char) :
    Follows context r (text ++ [c]) (k.feed context (some c)) := by
  cases hlive : k.isLive with
  | true => exact h.feed_of_live hlive c
  | false => exact h.feed_of_not_live hwell hlive c

theorem Follows.feedAll {context : Context} {r : ρ} {done : List Char} {k : Contender ρ}
    (h : Follows context r done k) (hwell : WellBehaved context r) (text : List Char) :
    Follows context r (done ++ text) (k.feedAll context text) := by
  induction text generalizing done k with
  | nil =>
    rw [List.append_nil]
    exact h
  | cons c text ih => simpa [Contender.feedAll_cons] using ih (h.feed hwell c)

/-- The end of the input is no match, so it changes nothing in what is remembered. -/
theorem Follows.match?_feed_end {context : Context} {r : ρ} {text : List Char} {k : Contender ρ}
    (h : Follows context r text k) (hwell : WellBehaved context r) :
    (k.feed context none).match? = k.match? := by
  cases hlive : k.isLive with
  | false => rw [Contender.feed_of_not_live hlive]
  | true =>
    have hsilent := hwell.silent text
    rw [← (h.live hlive).1] at hsilent
    unfold Contender.feed
    simp only [hlive, if_true]
    generalize Recognizes.test k.recognizer none context = result at hsilent
    obtain ⟨answer, recognizer⟩ := result
    cases answer with
    | fullMatch => exact absurd rfl hsilent
    | noMatch => rfl
    | partialMatch => rfl
    | failure => rfl

/-- At the end a contender remembers the last match of its recognizer. -/
theorem match?_finish_enter {context : Context} {r : ρ} (hwell : WellBehaved context r)
    (text : List Char) (mark : Mark) :
    ((Contender.enter r).finish context text).match? = some mark ↔
      mark.moment = mark.length ∧ IsLastMatch context r text mark.length := by
  have hfollows := (follows_enter context r).feedAll hwell text
  rw [Contender.finish, hfollows.match?_feed_end hwell]
  exact hfollows.match?_eq mark

theorem exists_isLastMatch {context : Context} {r : ρ} {text : List Char} {length : Nat}
    (h : MatchesAt context r text length) :
    ∃ last, length ≤ last ∧ IsLastMatch context r text last := by
  by_cases hlast : ∃ longer, length < longer ∧ MatchesAt context r text longer
  · obtain ⟨longer, hlt, hlonger⟩ := hlast
    have hle := matchesAt_le hlonger
    obtain ⟨last, hlongest, hlast⟩ := exists_isLastMatch hlonger
    exact ⟨last, by omega, hlast⟩
  · refine ⟨length, Nat.le_refl _, h, ?_⟩
    intro longer hlt hlonger
    exact hlast ⟨longer, hlt, hlonger⟩
termination_by text.length - length

theorem IsLongestFirst.unique {context : Context} {recognizers : List ρ} {text : List Char}
    {place length place' length' : Nat}
    (h : IsLongestFirst context recognizers text place length)
    (h' : IsLongestFirst context recognizers text place' length') :
    place = place' ∧ length = length' := by
  obtain ⟨r, hr, hmatch⟩ := h.isMatch
  obtain ⟨r', hr', hmatch'⟩ := h'.isMatch
  have hle : ¬ length < length' := fun hlt =>
    h.longest r' (List.mem_of_getElem? hr') length' hlt hmatch'
  have hge : ¬ length' < length := fun hlt =>
    h'.longest r (List.mem_of_getElem? hr) length hlt hmatch
  obtain rfl : length = length' := by omega
  refine ⟨?_, rfl⟩
  rcases Nat.lt_trichotomy place place' with hlt | heq | hgt
  · exact absurd hmatch (h'.first place hlt r hr)
  · exact heq
  · exact absurd hmatch' (h.first place' hgt r' hr')

/-- The contenders at the end of a race of some recognizers over a text. -/
def finishers (context : Context) (recognizers : List ρ) (text : List Char) : List (Contender ρ) :=
  recognizers.map fun r => (Contender.enter r).finish context text

theorem isLongestFirst_of_winnerPlace? {context : Context} {recognizers : List ρ} {text : List Char}
    (hwell : ∀ r ∈ recognizers, WellBehaved context r) {place : Nat} {mark : Mark}
    (h : Contender.winnerPlace? (finishers context recognizers text) = some (place, mark)) :
    IsLongestFirst context recognizers text place mark.length := by
  obtain ⟨hplace, hlongest, hfirst⟩ := Contender.isWinner_of_winnerPlace? h
  obtain ⟨k, hk, hmatch⟩ := hplace
  simp only [finishers, List.getElem?_map, Option.map_eq_some_iff] at hk
  obtain ⟨r, hr, rfl⟩ := hk
  obtain ⟨hmoment, hlast⟩ :=
    (match?_finish_enter (hwell r (List.mem_of_getElem? hr)) text mark).mp hmatch
  -- A match of any recognizer is no longer than its last one, which is in the race.
  have hbound : ∀ r' ∈ recognizers, ∀ length, MatchesAt context r' text length →
      ∃ last, length ≤ last ∧ last ≤ mark.length ∧
        ((Contender.enter r').finish context text).match? = some ⟨last, last⟩ := by
    intro r' hr' length hmatch'
    obtain ⟨last, hle, hlast'⟩ := exists_isLastMatch hmatch'
    have hmark := (match?_finish_enter (hwell r' hr') text ⟨last, last⟩).mpr ⟨rfl, hlast'⟩
    exact ⟨last, hle, hlongest _ (List.mem_map_of_mem hr') _ hmark, hmark⟩
  refine ⟨⟨r, hr, hlast.1⟩, ?_, ?_⟩
  · intro r' hr' longer hlonger hmatch'
    obtain ⟨last, hle, hle', -⟩ := hbound r' hr' longer hmatch'
    omega
  · intro j hj r' hr' hmatch'
    -- As long as the winner's match it would be found at the same moment, not later.
    obtain ⟨last, hle, hle', hmark⟩ := hbound r' (List.mem_of_getElem? hr') mark.length hmatch'
    have hlater := hfirst j hj _ (by simp [finishers, hr']) _ hmark (by simp only; omega)
    simp only at hlater
    omega

theorem winnerPlace?_finishers_eq_none_iff {context : Context} {recognizers : List ρ}
    {text : List Char} (hwell : ∀ r ∈ recognizers, WellBehaved context r) :
    Contender.winnerPlace? (finishers context recognizers text) = none ↔
      ∀ r ∈ recognizers, ∀ length, ¬ MatchesAt context r text length := by
  rw [Contender.winnerPlace?_eq_none_iff]
  constructor
  · intro h r hr length hmatch
    obtain ⟨last, -, hlast⟩ := exists_isLastMatch hmatch
    have hmark := (match?_finish_enter (hwell r hr) text ⟨last, last⟩).mpr ⟨rfl, hlast⟩
    simp [h _ (List.mem_map_of_mem hr)] at hmark
  · intro h k hk
    obtain ⟨r, hr, rfl⟩ := List.mem_map.mp hk
    cases hmatch : ((Contender.enter r).finish context text).match? with
    | none => rfl
    | some mark =>
      have hlast := ((match?_finish_enter (hwell r hr) text mark).mp hmatch).2
      exact absurd hlast.1 (h r hr _)

end MaximalMunch

namespace Round

/-- The place of the recognizer that a round over the input decides for, and the
length of its match. -/
def choice? (context : Context) (recognizers : List ρ) (input : Input) : Option (Nat × Nat) :=
  match input.read with
  | (.ok (some c), rest) =>
    match (Race.start context recognizers c rest).run context with
    | (none, race) =>
      (Contender.winnerPlace? race.contenders).map fun (place, mark) => (place, mark.length)
    | (some _, _) => none
  | _ => none

/-- What a round finds when a recognizer has matched a text. -/
def ofMatch (recognizer : ρ) (text : List Char) : Round κ :=
  match Recognizes.isIgnored recognizer, Recognizes.token? recognizer text with
  | false, some token => .found text token
  | _, _ => .skipped text

theorem settle_of_winner? {r : Race ρ} {k : Contender ρ} {mark : Mark}
    (h : Contender.winner? r.contenders = some (k, mark)) :
    settle r = (ofMatch k.recognizer (r.text.take mark.length),
      r.input.giveBack (r.text.drop mark.length)) := by
  unfold settle ofMatch
  rw [h]
  dsimp only
  generalize Recognizes.token? k.recognizer (r.text.take mark.length) = token?
  cases Recognizes.isIgnored k.recognizer <;> cases token? <;> rfl

theorem exists_settle_of_winner?_eq_none {r : Race ρ}
    (h : Contender.winner? r.contenders = none) :
    ∃ reason? discarded, (settle r).1 = .unrecognized r.text reason? discarded := by
  unfold settle
  rw [h]
  exact ⟨_, _, rfl⟩

end Round

namespace MaximalMunch

/-- What a round over an input that spells a text finds and leaves, by the contenders
at the end of its race. -/
theorem exists_round_of_spells {t : Tokenizer ρ κ} {text : List Char} (hne : text ≠ [])
    (h : t.input.Spells text) (context : Context) :
    ∃ race read rest, text = read ++ rest ∧ race.text = read ∧ race.input.Spells rest ∧
      race.contenders = finishers context t.recognizers read ∧
      finishers context t.recognizers text = finishers context t.recognizers read ∧
      Round.choice? context t.recognizers t.input =
        (Contender.winnerPlace? race.contenders).map (fun (place, mark) => (place, mark.length)) ∧
      t.round context = ((Round.settle race).1, { t with
        recognizers := race.contenders.map Contender.recognizer
        input := (Round.settle race).2 }) := by
  obtain ⟨c, next, race, read, rest, hread, hrun, htext, -, hrace, hrest, hcontenders, hsettled⟩ :=
    Race.exists_start_of_spells hne h context t.recognizers
  refine ⟨race, read, rest, htext, hrace, hrest, hcontenders, List.map_congr_left hsettled, ?_, ?_⟩
  · simp only [Round.choice?, hread, hrun]
  · simp only [Tokenizer.round, Round.play, hread, hrun]

theorem choice?_eq_some_iff {context : Context} {t : Tokenizer ρ κ} {text : List Char}
    (hwell : ∀ r ∈ t.recognizers, WellBehaved context r) (hne : text ≠ [])
    (h : t.input.Spells text) {place length : Nat} :
    Round.choice? context t.recognizers t.input = some (place, length) ↔
      IsLongestFirst context t.recognizers text place length := by
  obtain ⟨race, read, rest, -, -, -, hcontenders, hsettled, hchoice, -⟩ :=
    exists_round_of_spells hne h context
  rw [hchoice, hcontenders, ← hsettled]
  cases hplace : Contender.winnerPlace? (finishers context t.recognizers text) with
  | none =>
    have hnone := (winnerPlace?_finishers_eq_none_iff hwell).mp hplace
    simp only [Option.map_none, reduceCtorEq, false_iff]
    intro hlongest
    obtain ⟨r, hr, hmatch⟩ := hlongest.isMatch
    exact hnone r (List.mem_of_getElem? hr) length hmatch
  | some found =>
    obtain ⟨winner, mark⟩ := found
    have hwinner := isLongestFirst_of_winnerPlace? hwell hplace
    simp only [Option.map_some, Option.some.injEq, Prod.mk.injEq]
    constructor
    · rintro ⟨rfl, rfl⟩
      exact hwinner
    · intro hlongest
      exact hwinner.unique hlongest

theorem exists_round_of_choice? {context : Context} {t : Tokenizer ρ κ} {text : List Char}
    (hwell : ∀ r ∈ t.recognizers, WellBehaved context r) (hne : text ≠ [])
    (h : t.input.Spells text) {place length : Nat}
    (hchoice : Round.choice? context t.recognizers t.input = some (place, length)) :
    ∃ r, (t.round context).2.recognizers[place]? = some r ∧
      (t.round context).1 = Round.ofMatch r (text.take length) ∧
      (t.round context).2.input.Spells (text.drop length) := by
  obtain ⟨race, read, rest, htext, hrace, hrest, hcontenders, -, hround⟩ :=
    exists_round_of_spells hne h context
  obtain ⟨hchoice', hround⟩ := hround
  rw [hchoice', Option.map_eq_some_iff] at hchoice
  obtain ⟨⟨place', mark⟩, hplace, heq⟩ := hchoice
  simp only [Prod.mk.injEq] at heq
  obtain ⟨rfl, rfl⟩ := heq
  obtain ⟨k, hk, -⟩ := (Contender.isWinner_of_winnerPlace? hplace).isPlace
  have hwinner : Contender.winner? race.contenders = some (k, mark) := by
    rw [Contender.winner?_eq, hplace]
    simp [hk]
  -- The match lies within what the race has read, so cutting either text gives it.
  have hle : mark.length ≤ read.length := by
    rw [hcontenders] at hplace
    obtain ⟨r, -, hmatch⟩ := (isLongestFirst_of_winnerPlace? hwell hplace).isMatch
    exact matchesAt_le hmatch
  rw [hround, Round.settle_of_winner? hwinner, hrace, htext]
  refine ⟨k.recognizer, by simp [hk], ?_, ?_⟩
  · rw [List.take_append_of_le_length hle]
  · rw [List.drop_append_of_le_length hle]
    exact hrest.giveBack _

theorem round_unrecognized_iff {context : Context} {t : Tokenizer ρ κ} {text : List Char}
    (hwell : ∀ r ∈ t.recognizers, WellBehaved context r) (hne : text ≠ [])
    (h : t.input.Spells text) :
    (∃ read reason? discarded, (t.round context).1 = .unrecognized read reason? discarded) ↔
      ∀ r ∈ t.recognizers, ∀ length, ¬ MatchesAt context r text length := by
  obtain ⟨race, read, rest, -, -, -, hcontenders, hsettled, -, hround⟩ :=
    exists_round_of_spells hne h context
  rw [← winnerPlace?_finishers_eq_none_iff hwell, hsettled, ← hcontenders, hround]
  cases hplace : Contender.winnerPlace? race.contenders with
  | none =>
    have hwinner : Contender.winner? race.contenders = none := by
      rw [Contender.winner?_eq, hplace]
      rfl
    obtain ⟨reason?, discarded, hfinding⟩ := Round.exists_settle_of_winner?_eq_none hwinner
    simp only [iff_true]
    exact ⟨_, _, _, hfinding⟩
  | some found =>
    obtain ⟨place, mark⟩ := found
    obtain ⟨k, hk, -⟩ := (Contender.isWinner_of_winnerPlace? hplace).isPlace
    have hwinner : Contender.winner? race.contenders = some (k, mark) := by
      rw [Contender.winner?_eq, hplace]
      simp [hk]
    rw [Round.settle_of_winner? hwinner]
    simp only [reduceCtorEq, iff_false, not_exists]
    intro read reason? discarded hfinding
    unfold Round.ofMatch at hfinding
    split at hfinding
    · simp at hfinding
    · simp at hfinding

/-- A round decides for the recognizer with the longest match of what is left, the
first of those with equally long ones, leaves what is behind the match, and finds the
text unrecognized exactly when nobody matches any of it. The patterns are well
behaved, limited to contexts or with changed values. -/
theorem round_decides_for_longest_first :
    (∀ (context : Context) (r : Recognizer κ (NoCustom κ)), WellBehaved context r) ∧
      ∀ (context : Context) (t : Tokenizer ρ κ) (text : List Char),
        (∀ r ∈ t.recognizers, WellBehaved context r) → text ≠ [] → t.input.Spells text →
        (∀ place length,
          Round.choice? context t.recognizers t.input = some (place, length) ↔
            IsLongestFirst context t.recognizers text place length) ∧
        (∀ place length,
          Round.choice? context t.recognizers t.input = some (place, length) →
            ∃ r, (t.round context).2.recognizers[place]? = some r ∧
              (t.round context).1 = Round.ofMatch r (text.take length) ∧
              (t.round context).2.input.Spells (text.drop length)) ∧
        ((∃ read reason? discarded,
            (t.round context).1 = .unrecognized read reason? discarded) ↔
          ∀ r ∈ t.recognizers, ∀ length, ¬ MatchesAt context r text length) := by
  refine ⟨fun context r => r.wellBehaved context, ?_⟩
  intro context t text hwell hne hspells
  refine ⟨?_, ?_, round_unrecognized_iff hwell hne hspells⟩
  · intro place length
    exact choice?_eq_some_iff hwell hne hspells
  · intro place length hchoice
    exact exists_round_of_choice? hwell hne hspells hchoice

/-- A keyword, a longer keyword and identifiers, over a text that starts with the
first keyword. -/
def keywordTokenizer : Tokenizer (Recognizer String (NoCustom String)) String :=
  Tokenizer.ofSource [.symbol "if" "if", .symbol "iffy" "iffy", .identifier "id"] "$"
    (.text ['i', 'f', '('])

theorem isLongestFirst_keyword :
    IsLongestFirst {} keywordTokenizer.recognizers ['i', 'f', '('] 0 2 := by
  have hanswers : keywordTokenizer.recognizers.map (answersTo {} · ['i', 'f', '(']) =
      [[.partialMatch, .fullMatch, .noMatch], [.partialMatch, .partialMatch, .noMatch],
        [.fullMatch, .fullMatch, .noMatch]] := by decide
  refine ⟨⟨_, rfl, by decide, by decide⟩, ?_, by simp⟩
  intro r hr longer hlonger hmatch
  have hle := matchesAt_le hmatch
  simp only [List.length_cons, List.length_nil] at hle
  obtain rfl : longer = 3 := by omega
  have hmem := List.mem_map_of_mem (f := (answersTo {} · ['i', 'f', '('])) hr
  rw [hanswers] at hmem
  have hthird : (answersTo {} r ['i', 'f', '('])[2]? = some .noMatch := by
    simp only [List.mem_cons, List.not_mem_nil, or_false] at hmem
    rcases hmem with h | h | h <;> rw [h] <;> rfl
  have hmatched := hmatch.2
  rw [hthird] at hmatched
  simp at hmatched

/-- The keyword beats the identifier of the same length. -/
theorem round_decides_for_keyword :
    (∀ r ∈ keywordTokenizer.recognizers, WellBehaved {} r) ∧ ['i', 'f', '('] ≠ [] ∧
      keywordTokenizer.input.Spells ['i', 'f', '('] ∧
      Round.choice? {} keywordTokenizer.recognizers keywordTokenizer.input = some (0, 2) ∧
      (keywordTokenizer.round {}).2.input.Spells ['('] := by
  have hwell : ∀ r ∈ keywordTokenizer.recognizers, WellBehaved {} r := fun r _ => r.wellBehaved {}
  have hspells : keywordTokenizer.input.Spells ['i', 'f', '('] := Input.spells_of_source_eq rfl
  obtain ⟨hchoice, hround, -⟩ :=
    round_decides_for_longest_first.2 {} keywordTokenizer _ hwell (by simp) hspells
  have hkeyword := (hchoice 0 2).mpr isLongestFirst_keyword
  obtain ⟨r, -, -, hrest⟩ := hround 0 2 hkeyword
  exact ⟨hwell, by simp, hspells, hkeyword, hrest⟩

end MaximalMunch

end ShiftReduce
