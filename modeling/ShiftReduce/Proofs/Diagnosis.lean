import ShiftReduce.Proofs.Hearings
import ShiftReduce.Proofs.MaximalMunch
import ShiftReduce.Proofs.Rounds

/-!
The diagnosis of a text that nobody matches. The text of the error ends with the first
character after which no recognizer is asked any more, and is the whole text if there is
none. The reason is that of the recognizer that was the last to find the text incomplete
or wrong. If it found the text incomplete, or if nobody said anything, only the first
character is discarded.

If it found an error, everything that was read is discarded. That can be more than what
it was fed, because the others are asked on: it is not more only if they were not, or if
the text was at its end.
-/
namespace ShiftReduce

open Answers

variable {ρ κ : Type} [Recognizes ρ κ]

namespace Diagnosis

/-- At the feeding with this number the recognizer is heard to give this answer about the
text. The first character has the number one, and the end of the text comes after the
last. -/
def Says (context : Context) (recognizer : ρ) (text : List Char) (moment : Nat)
    (answer : Answer) : Prop :=
  ∃ i, moment = i + 1 ∧ (hearing context recognizer text)[i]? = some answer

/-- At the feeding with this number the recognizer is heard to find the text incomplete or
wrong. -/
def Remarks (context : Context) (recognizer : ρ) (text : List Char) (moment : Nat) : Prop :=
  ∃ answer, Says context recognizer text moment answer ∧ answer.isRemark = true

/-- The recognizer at the place makes the latest remark about the text, and those behind it
in the list make none as late. -/
structure Explains (context : Context) (recognizers : List ρ) (text : List Char)
    (place moment : Nat) (answer : Answer) : Prop where
  isRemark : answer.isRemark = true
  said : ∃ r, recognizers[place]? = some r ∧ Says context r text moment answer
  latest : ∀ r ∈ recognizers, ∀ later, moment < later → ¬ Remarks context r text later
  last : ∀ j, place < j → ∀ r, recognizers[j]? = some r → ¬ Remarks context r text moment

/-- The front of a text that is read: some recognizer is asked on before its last character,
and none after it unless the text is at its end. -/
structure IsReadOff (context : Context) (recognizers : List ρ) (text read : List Char) :
    Prop where
  isPrefix : read <+: text
  nonempty : read ≠ []
  asked : ∀ front, front ≠ [] → front <+: read → front ≠ read →
    ∃ r ∈ recognizers, Stays context r front
  stopped : read = text ∨ ∀ r ∈ recognizers, ¬ Stays context r read

section Recognizer

variable {context : Context} {r : ρ} {text : List Char}

theorem Says.unique {moment : Nat} {answer answer' : Answer}
    (h : Says context r text moment answer) (h' : Says context r text moment answer') :
    answer = answer' := by
  obtain ⟨i, rfl, hanswer⟩ := h
  obtain ⟨j, hj, hanswer'⟩ := h'
  obtain rfl : i = j := by omega
  rw [hanswer] at hanswer'
  exact Option.some.inj hanswer'

/-- Before it says something a recognizer has been asked on. -/
theorem Says.stays {i : Nat} {answer : Answer} (h : Says context r text (i + 1) answer) :
    Stays context r (text.take i) := by
  obtain ⟨j, hj, hanswer⟩ := h
  obtain rfl : i = j := by omega
  have hlt : i < (hearing context r text).length := (List.getElem?_eq_some_iff.mp hanswer).1
  intro negative hmem
  cases hnegative : negative.isNegative with
  | false => rfl
  | true =>
    -- The negative answer would have been the last one heard.
    have hsplit : feedOf text = (text.take i).map some ++ ((text.drop i).map some ++ [none]) := by
      rw [feedOf, ← List.append_assoc, ← List.map_append, List.take_append_drop]
    have hheard := heard_append_of_exists (r := Recognizes.reset r)
      ⟨negative, hmem, hnegative⟩ ((text.drop i).map some ++ [none])
    have hle := length_heard_le context (Recognizes.reset r) ((text.take i).map some)
    rw [hearing, hsplit, hheard] at hlt
    simp only [List.length_map, List.length_take] at hle
    omega

/-- At the end of a race a contender remembers the last remark of its recognizer. -/
theorem remark?_finish_enter_eq_some_iff {remark : Remark} :
    ((Contender.enter r).finish context text).remark? = some remark ↔
      Says context r text remark.moment remark.answer ∧
        ∀ later, remark.moment < later → ¬ Remarks context r text later := by
  have hremembers := Contender.remembers_feeds (k := Contender.enter r) rfl context (feedOf text)
  rw [Contender.finish_eq_feeds, hremembers.remark?_eq,
    show (Contender.enter r).remark? = none from rfl, Option.or_none, Remark.last?_eq_some_iff]
  constructor
  · rintro ⟨i, hmoment, hanswer, hlast⟩
    have hmoment' : remark.moment = i + 1 := by
      simpa [Contender.enter] using hmoment
    refine ⟨⟨i, hmoment', hanswer⟩, ?_⟩
    rintro later hlater ⟨answer, ⟨j, rfl, hj⟩, hisRemark⟩
    simp [hlast j (by omega) answer hj] at hisRemark
  · rintro ⟨⟨i, hmoment, hanswer⟩, hlast⟩
    refine ⟨i, by simpa [Contender.enter] using hmoment, hanswer, ?_⟩
    intro j hj later hlater
    cases hisRemark : later.isRemark with
    | false => rfl
    | true => exact absurd ⟨later, ⟨j, rfl, hlater⟩, hisRemark⟩ (hlast (j + 1) (by omega))

/-- Whoever makes a remark has one in the end, which is not earlier. -/
theorem exists_remark_of_remarks {moment : Nat} (h : Remarks context r text moment) :
    ∃ remark, ((Contender.enter r).finish context text).remark? = some remark ∧
      moment ≤ remark.moment := by
  cases hremark : ((Contender.enter r).finish context text).remark? with
  | none =>
    have hremembers :=
      Contender.remembers_feeds (k := Contender.enter r) rfl context (feedOf text)
    rw [Contender.finish_eq_feeds, hremembers.remark?_eq,
      show (Contender.enter r).remark? = none from rfl, Option.or_none,
      Remark.last?_eq_none_iff] at hremark
    obtain ⟨answer, ⟨i, -, hanswer⟩, hisRemark⟩ := h
    have hno := hremark answer (List.mem_of_getElem? hanswer)
    simp [hno] at hisRemark
  | some remark =>
    refine ⟨remark, rfl, ?_⟩
    have hlast := (remark?_finish_enter_eq_some_iff.mp hremark).2 moment
    by_cases hle : moment ≤ remark.moment
    · exact hle
    · exact absurd h (hlast (by omega))

theorem match?_finish_enter_eq_none_iff :
    ((Contender.enter r).finish context text).match? = none ↔
      ∀ moment, ¬ Says context r text moment .fullMatch := by
  have hremembers := Contender.remembers_feeds (k := Contender.enter r) rfl context (feedOf text)
  rw [Contender.finish_eq_feeds, hremembers.match?_eq_none_iff]
  constructor
  · rintro ⟨-, hno⟩ moment ⟨i, -, hanswer⟩
    exact hno (List.mem_of_getElem? hanswer)
  · intro hno
    refine ⟨rfl, fun hmem => ?_⟩
    obtain ⟨i, hi⟩ := List.getElem?_of_mem hmem
    exact hno (i + 1) ⟨i, rfl, hi⟩

end Recognizer

section Recognizers

variable {context : Context} {recognizers : List ρ} {text read : List Char}

/-- A text has at most one explanation. -/
theorem Explains.unique {place moment place' moment' : Nat} {answer answer' : Answer}
    (h : Explains context recognizers text place moment answer)
    (h' : Explains context recognizers text place' moment' answer') :
    place = place' ∧ moment = moment' ∧ answer = answer' := by
  obtain ⟨r, hr, hsaid⟩ := h.said
  obtain ⟨r', hr', hsaid'⟩ := h'.said
  have hremarks : Remarks context r text moment := ⟨answer, hsaid, h.isRemark⟩
  have hremarks' : Remarks context r' text moment' := ⟨answer', hsaid', h'.isRemark⟩
  have hle : ¬ moment < moment' := fun hlt =>
    h.latest r' (List.mem_of_getElem? hr') moment' hlt hremarks'
  have hge : ¬ moment' < moment := fun hlt =>
    h'.latest r (List.mem_of_getElem? hr) moment hlt hremarks
  obtain rfl : moment = moment' := by omega
  obtain rfl : place = place' := by
    rcases Nat.lt_trichotomy place place' with hlt | heq | hgt
    · exact absurd hremarks' (h.last place' hlt r' hr')
    · exact heq
    · exact absurd hremarks (h'.last place hgt r hr)
  obtain rfl : r = r' := Option.some.inj (hr.symm.trans hr')
  exact ⟨rfl, rfl, hsaid.unique hsaid'⟩

/-- The spokesman of a race over the text explains it. -/
theorem explains_of_isSpokesman {place : Nat} {remark : Remark}
    (h : Contender.IsSpokesman
      (recognizers.map fun r => (Contender.enter r).finish context text) place remark) :
    Explains context recognizers text place remark.moment remark.answer := by
  obtain ⟨⟨k, hk, hremark⟩, hlatest, hlast⟩ := h
  rw [List.getElem?_map, Option.map_eq_some_iff] at hk
  obtain ⟨r, hr, rfl⟩ := hk
  refine ⟨remark.isRemark_answer,
    ⟨r, hr, (remark?_finish_enter_eq_some_iff.mp hremark).1⟩, ?_, ?_⟩
  · intro r' hr' later hlater hremarks
    obtain ⟨other, hother, hle⟩ := exists_remark_of_remarks hremarks
    have := hlatest _ (List.mem_map_of_mem hr') other hother
    omega
  · intro j hj r' hr' hremarks
    obtain ⟨other, hother, hle⟩ := exists_remark_of_remarks hremarks
    have := hlast j hj _ (by rw [List.getElem?_map, hr']; rfl) other hother
    omega

/-- A text is read at least as far as the last of its recognizers to say something was
fed. -/
theorem IsReadOff.take_prefix (h : IsReadOff context recognizers text read) {r : ρ}
    (hr : r ∈ recognizers) {moment : Nat} {answer : Answer}
    (hsaid : Says context r text moment answer) : text.take moment <+: read := by
  obtain ⟨i, rfl, -⟩ := id hsaid
  rcases h.stopped with rfl | hnobody
  · exact List.take_prefix _ _
  · have hlong : i < read.length := by
      by_cases hlt : i < read.length
      · exact hlt
      · refine absurd (hsaid.stays.of_prefix ?_) (hnobody r hr)
        exact List.prefix_of_prefix_length_le h.isPrefix (List.take_prefix _ _) (by
          have := h.isPrefix.length_le
          rw [List.length_take]
          omega)
    exact List.prefix_of_prefix_length_le (List.take_prefix _ _) h.isPrefix (by
      rw [List.length_take]
      omega)

/-- A text is read no further than the explanation was fed if it is at its end there, or if
nobody is asked on. -/
theorem IsReadOff.eq_take_iff (h : IsReadOff context recognizers text read) {r : ρ}
    (hr : r ∈ recognizers) {moment : Nat} {answer : Answer}
    (hsaid : Says context r text moment answer) :
    read = text.take moment ↔
      text.length ≤ moment ∨ ∀ r ∈ recognizers, ¬ Stays context r (text.take moment) := by
  have hfront := h.take_prefix hr hsaid
  constructor
  · intro hread
    rcases h.stopped with heq | hnobody
    · left
      have hlength := congrArg List.length (heq.symm.trans hread)
      rw [List.length_take] at hlength
      omega
    · right
      rwa [← hread]
  · rintro (hend | hnobody)
    · rw [List.take_of_length_le hend] at hfront ⊢
      exact h.isPrefix.eq_of_length_le hfront.length_le
    · by_cases heq : text.take moment = read
      · exact heq.symm
      · have hne : text.take moment ≠ [] := by
          obtain ⟨i, rfl, -⟩ := hsaid
          intro hnil
          rcases List.take_eq_nil_iff.mp hnil with hzero | hempty
          · omega
          · exact h.nonempty (List.prefix_nil.mp (hempty ▸ h.isPrefix))
        obtain ⟨r', hr', hstays⟩ := h.asked _ hne hfront heq
        exact absurd hstays (hnobody r' hr')

end Recognizers

end Diagnosis

namespace Round

/-- Without a winner the spokesman's remark decides how much is discarded. -/
theorem settle_of_winner?_eq_none {race : Race ρ}
    (hwinner : Contender.winner? race.contenders = none) :
    let spokesman? := Contender.spokesman? race.contenders
    let count := if spokesman?.any (·.2.isHard) then race.text.length else 1
    settle race =
      (.unrecognized race.text (spokesman?.bind fun (k, _) => Recognizes.reason? k.recognizer)
        (race.text.take count), race.input.giveBack (race.text.drop count)) := by
  unfold settle
  rw [hwinner]

theorem ofMatch_ne_unrecognized (recognizer : ρ) (matched text : List Char)
    (reason? : Option String) (discarded : List Char) :
    ofMatch recognizer matched ≠ .unrecognized text reason? discarded := by
  unfold ofMatch
  split <;> simp

end Round

namespace Diagnosis

variable {context : Context} {t t' : Tokenizer ρ κ} {text read discarded : List Char}
  {reason? : Option String}

/-- A round over an input that spells a text settles a race that has read off the text. -/
theorem exists_race_of_spells (hne : text ≠ []) (hspells : t.input.Spells text)
    (context : Context) :
    ∃ race rest, text = race.text ++ rest ∧ race.input.Spells rest ∧
      IsReadOff context t.recognizers text race.text ∧
      race.contenders = t.recognizers.map (fun r => (Contender.enter r).finish context text) ∧
      t.round context = ((Round.settle race).1, { t with
        recognizers := race.contenders.map Contender.recognizer
        input := (Round.settle race).2 }) := by
  obtain ⟨c, next, race, read, rest, hread, hrun, htext, hsome, hrace, hrest, hcontenders,
    hsettled⟩ := Race.exists_start_of_spells hne hspells context t.recognizers
  refine ⟨race, rest, by rw [hrace, htext], hrest, ?_, ?_, ?_⟩
  · obtain ⟨d, tail, rfl⟩ : ∃ d tail, read = d :: tail := List.exists_cons_of_ne_nil hsome
    rw [List.cons_append] at htext
    subst htext
    obtain ⟨next', hread', hnext⟩ := hspells
    simp only [hread, Prod.mk.injEq, Except.ok.injEq, Option.some.injEq] at hread'
    obtain ⟨rfl, rfl⟩ := hread'
    have hstarted : (Race.start context t.recognizers c next).input.Spells (tail ++ rest) := hnext
    obtain ⟨hasked, hstop⟩ := Race.live_of_run hstarted hrun rfl hrace
    rw [hrace]
    refine ⟨List.prefix_append _ _, hsome, ?_, ?_⟩
    · intro front hfront hpart hproper
      obtain ⟨back, hsplit⟩ := hpart
      cases front with
      | nil => exact absurd rfl hfront
      | cons e front =>
        obtain ⟨rfl, rfl⟩ := List.cons.inj hsplit
        have hback : back ≠ [] := by
          rintro rfl
          simp at hproper
        obtain ⟨k, hk, hlive⟩ := hasked front back rfl hback
        obtain ⟨r, hr, rfl⟩ := List.mem_map.mp hk
        exact ⟨r, hr, Contender.isLive_feedAll_enter_iff.mp hlive⟩
    · cases rest with
      | nil => exact Or.inl (by simp)
      | cons e rest =>
        refine Or.inr fun r hr hstays => ?_
        have hlive := Contender.isLive_feedAll_enter_iff.mpr hstays
        have hdead := hstop (List.cons_ne_nil e rest) _ (List.mem_map_of_mem hr)
        rw [← Contender.feedAll_cons, hlive] at hdead
        simp at hdead
  · rw [hcontenders]
    exact List.map_congr_left fun r hr => (hsettled r hr).symm
  · simp only [Tokenizer.round, Round.play, hread, hrun]

/-- A round finds a text unrecognized exactly if nobody is heard to match any of it. -/
theorem round_unrecognized_iff_unmatched (hne : text ≠ []) (hspells : t.input.Spells text) :
    (∃ read reason? discarded, (t.round context).1 = .unrecognized read reason? discarded) ↔
      ∀ r ∈ t.recognizers, ∀ moment, ¬ Says context r text moment .fullMatch := by
  obtain ⟨race, rest, -, -, -, hcontenders, hround⟩ := exists_race_of_spells hne hspells context
  have hwinner : Contender.winner? race.contenders = none ↔
      ∀ r ∈ t.recognizers, ∀ moment, ¬ Says context r text moment .fullMatch := by
    rw [Contender.winner?_eq_none_iff, hcontenders]
    simp only [List.forall_mem_map, match?_finish_enter_eq_none_iff]
  rw [← hwinner, hround]
  cases hwon : Contender.winner? race.contenders with
  | none =>
    rw [Round.settle_of_winner?_eq_none hwon]
    exact iff_of_true ⟨_, _, _, rfl⟩ rfl
  | some won =>
    obtain ⟨k, mark⟩ := won
    rw [Round.settle_of_winner? hwon]
    refine iff_of_false ?_ (by simp)
    rintro ⟨read, reason?, discarded, hfinding⟩
    exact Round.ofMatch_ne_unrecognized _ _ _ _ _ hfinding

/-- What a round discards of a text that nobody matches, and the reason it reports: they
follow from the explanation, if there is one. -/
theorem exists_count_of_round (hne : text ≠ []) (hspells : t.input.Spells text)
    (h : t.round context = (.unrecognized read reason? discarded, t')) :
    IsReadOff context t.recognizers text read ∧
      ∃ count, discarded = text.take count ∧ t'.input.Spells (text.drop count) ∧
        ((∀ r ∈ t.recognizers, ∀ moment, ¬ Remarks context r text moment) ∧ reason? = none ∧
            count = 1 ∨
          ∃ place r moment answer, t.recognizers[place]? = some r ∧
            Explains context t.recognizers text place moment answer ∧
            reason? = Recognizes.reason? (afterHearing context r text) ∧
            count = if answer = .failure then read.length else 1) := by
  obtain ⟨race, rest, htext, hrest, hreadOff, hcontenders, hround⟩ :=
    exists_race_of_spells hne hspells context
  have hwinner : Contender.winner? race.contenders = none := by
    rw [Contender.winner?_eq_none_iff, hcontenders]
    have hnobody := (round_unrecognized_iff_unmatched hne hspells).mp ⟨_, _, _, congrArg Prod.fst h⟩
    simpa only [List.forall_mem_map, match?_finish_enter_eq_none_iff] using hnobody
  rw [Round.settle_of_winner?_eq_none hwinner] at hround
  rw [hround] at h
  simp only [Prod.mk.injEq, Round.unrecognized.injEq] at h
  obtain ⟨⟨rfl, rfl, rfl⟩, rfl⟩ := h
  -- What is discarded lies within what was read, so cutting either text gives it.
  have hcut : ∀ count, count ≤ race.text.length → race.text.take count = text.take count ∧
      (race.input.giveBack (race.text.drop count)).Spells (text.drop count) := by
    intro count hle
    rw [htext, List.take_append_of_le_length hle, List.drop_append_of_le_length hle]
    exact ⟨rfl, hrest.giveBack _⟩
  have hpos : 1 ≤ race.text.length := List.length_pos_iff.mpr hreadOff.nonempty
  refine ⟨hreadOff, ?_⟩
  cases hspokesman : Contender.spokesman? race.contenders with
  | none =>
    refine ⟨1, (hcut 1 hpos).1, (hcut 1 hpos).2, Or.inl ⟨?_, rfl, rfl⟩⟩
    intro r hr moment hremarks
    obtain ⟨remark, hremark, -⟩ := exists_remark_of_remarks hremarks
    have hnone := Contender.spokesman?_eq_none_iff.mp hspokesman _
      (hcontenders ▸ List.mem_map_of_mem hr)
    simp [hremark] at hnone
  | some found =>
    obtain ⟨k, remark⟩ := found
    obtain ⟨place, hplace, hisSpokesman⟩ := Contender.exists_place_of_spokesman? hspokesman
    rw [hcontenders] at hplace hisSpokesman
    have hexplains := explains_of_isSpokesman hisSpokesman
    rw [List.getElem?_map, Option.map_eq_some_iff] at hplace
    obtain ⟨r, hr, rfl⟩ := hplace
    have hrecognizer : ((Contender.enter r).finish context text).recognizer =
        afterHearing context r text := by
      rw [Contender.finish_eq_feeds]
      exact (Contender.remembers_feeds rfl context (feedOf text)).recognizer_eq
    have hcount : (if remark.isHard then race.text.length else 1) ≤ race.text.length := by
      split <;> omega
    refine ⟨_, (hcut _ hcount).1, (hcut _ hcount).2,
      Or.inr ⟨place, r, remark.moment, remark.answer, hr, hexplains, ?_, ?_⟩⟩
    · rw [← hrecognizer]
      rfl
    · cases hhard : remark.isHard <;> simp [Remark.answer, hhard]

/-- A round over a text finds it unrecognized exactly if nobody is heard to match any of it.
The error has the text up to the first character after which nobody is asked on, or all of
it. Either nobody says anything else about the text, and there is no reason, or the reason is
that of the recognizer which explains the text. Without an explanation, or if it says that the
text is incomplete, the first character is discarded and the next scan starts behind it. -/
theorem unmatched_text_is_diagnosed (hne : text ≠ []) (hspells : t.input.Spells text) :
    ((∃ read reason? discarded,
        (t.round context).1 = .unrecognized read reason? discarded) ↔
        ∀ r ∈ t.recognizers, ∀ moment, ¬ Says context r text moment .fullMatch) ∧
      ∀ read reason? discarded t',
        t.round context = (.unrecognized read reason? discarded, t') →
          t.scan context = (.error (.unrecognized (String.ofList read) reason?), t') ∧
          IsReadOff context t.recognizers text read ∧
          ((∀ r ∈ t.recognizers, ∀ moment, ¬ Remarks context r text moment) ∧
              reason? = none ∧ discarded = text.take 1 ∧ t'.input.Spells (text.drop 1) ∨
            ∃ place r moment answer, t.recognizers[place]? = some r ∧
              Explains context t.recognizers text place moment answer ∧
              reason? = Recognizes.reason? (afterHearing context r text) ∧
              (answer = .partialMatch →
                discarded = text.take 1 ∧ t'.input.Spells (text.drop 1))) := by
  refine ⟨round_unrecognized_iff_unmatched hne hspells, ?_⟩
  intro read reason? discarded t' h
  obtain ⟨hreadOff, count, hdiscarded, hrest, hcases⟩ := exists_count_of_round hne hspells h
  refine ⟨Tokenizer.scan_eq_of_round h, hreadOff, ?_⟩
  rcases hcases with ⟨hnobody, hreason, rfl⟩ |
    ⟨place, r, moment, answer, hr, hexplains, hreason, hcount⟩
  · exact Or.inl ⟨hnobody, hreason, hdiscarded, hrest⟩
  · refine Or.inr ⟨place, r, moment, answer, hr, hexplains, hreason, ?_⟩
    rintro rfl
    obtain rfl : count = 1 := by simpa using hcount
    exact ⟨hdiscarded, hrest⟩

/-- Numbers and identifiers, over a point in front of a letter. -/
def pointTokenizer : Tokenizer (Recognizer String (NoCustom String)) String :=
  Tokenizer.ofSource [.symbol ".+" ".+", .number "num", .identifier "id"] "$" (.text ['.', 'x'])

theorem unmatched_text_is_diagnosed_point :
    ['.', 'x'] ≠ [] ∧ pointTokenizer.input.Spells ['.', 'x'] ∧
      (pointTokenizer.scan {}).1 = .error (.unrecognized ".x"
        (some "Floating point number missing decimal value")) ∧
      (∃ place moment answer,
        Explains {} pointTokenizer.recognizers ['.', 'x'] place moment answer) ∧
      IsReadOff {} pointTokenizer.recognizers ['.', 'x'] ['.', 'x'] := by
  have hspells : pointTokenizer.input.Spells ['.', 'x'] := Input.spells_of_source_eq rfl
  have hround : (pointTokenizer.round {}).1 = .unrecognized ['.', 'x']
      (some "Floating point number missing decimal value") ['.'] := by
    with_unfolding_all rfl
  obtain ⟨hscan, hreadOff, hcases⟩ :=
    (unmatched_text_is_diagnosed (by simp) hspells).2 _ _ _ _ (Prod.ext hround rfl)
  refine ⟨by simp, hspells, by rw [hscan], ?_, hreadOff⟩
  rcases hcases with ⟨-, hreason, -⟩ | ⟨place, r, moment, answer, -, hexplains, -⟩
  · simp at hreason
  · exact ⟨place, moment, answer, hexplains⟩

/-- If a text is explained by an error that a recognizer found, all that was read is discarded
and the next scan starts behind it. What the recognizer was fed is the front of it, and all of
it exactly if the text is at its end there or nobody is asked on. -/
theorem hard_failure_discards_what_was_read (hne : text ≠ []) (hspells : t.input.Spells text)
    (h : t.round context = (.unrecognized read reason? discarded, t')) {place moment : Nat}
    (hexplains : Explains context t.recognizers text place moment .failure) :
    discarded = read ∧ t'.input.Spells (text.drop read.length) ∧
      text.take moment <+: discarded ∧
      (discarded = text.take moment ↔
        text.length ≤ moment ∨
          ∀ r ∈ t.recognizers, ¬ Stays context r (text.take moment)) := by
  obtain ⟨hreadOff, count, hdiscarded, hrest, hcases⟩ := exists_count_of_round hne hspells h
  obtain ⟨r, hr, hsaid⟩ := hexplains.said
  have hmem := List.mem_of_getElem? hr
  rcases hcases with ⟨hnobody, -, -⟩ | ⟨place', -, moment', answer, -, hexplains', -, hcount⟩
  · exact absurd ⟨_, hsaid, rfl⟩ (hnobody r hmem moment)
  · obtain ⟨rfl, rfl, rfl⟩ := hexplains.unique hexplains'
    obtain rfl : count = read.length := by simpa using hcount
    have hall : discarded = read := by
      rw [hdiscarded]
      exact (List.prefix_iff_eq_take.mp hreadOff.isPrefix).symm
    subst hall
    exact ⟨rfl, hrest, hreadOff.take_prefix hmem hsaid, hreadOff.eq_take_iff hmem hsaid⟩

/-- A symbol that goes on where strings must have ended, over a text in which neither
comes to its end. -/
def gapTokenizer : Tokenizer (Recognizer String (NoCustom String)) String :=
  Tokenizer.ofSource [.symbol "\"\n\"" "gap", .string "str", .identifier "id"] "$"
    (.text ['"', '\n', 'x'])

theorem round_gap :
    (gapTokenizer.round {}).1 = .unrecognized ['"', '\n', 'x']
      (some "Unterminated string literal") ['"', '\n', 'x'] := by
  with_unfolding_all rfl

/-- The string fails at the second character, while the symbol goes on. -/
theorem explains_gap :
    Explains {} gapTokenizer.recognizers ['"', '\n', 'x'] 1 2 .failure := by
  have hlate : ∀ r ∈ gapTokenizer.recognizers,
      ∀ answer ∈ (hearing {} r ['"', '\n', 'x']).drop 2, answer.isRemark = false := by decide
  refine ⟨rfl, ⟨_, rfl, 1, rfl, by decide⟩, ?_, ?_⟩
  · rintro r hr later hlater ⟨answer, ⟨i, rfl, hanswer⟩, hisRemark⟩
    have hdropped : ((hearing {} r ['"', '\n', 'x']).drop 2)[i - 2]? = some answer := by
      rwa [List.getElem?_drop, show 2 + (i - 2) = i by omega]
    simp [hlate r hr answer (List.mem_of_getElem? hdropped)] at hisRemark
  · rintro j hj r hr ⟨answer, ⟨i, hi, hanswer⟩, -⟩
    have hlt : j < 3 := (List.getElem?_eq_some_iff.mp hr).1
    obtain rfl : j = 2 := by omega
    obtain rfl : i = 1 := by omega
    cases hr
    have hsilent : (hearing {} (.identifier "id" : Recognizer String (NoCustom String))
        ['"', '\n', 'x'])[1]? = none := by decide
    simp [hsilent] at hanswer

theorem hard_failure_discards_what_was_read_gap :
    ['"', '\n', 'x'] ≠ [] ∧ gapTokenizer.input.Spells ['"', '\n', 'x'] ∧
      Explains {} gapTokenizer.recognizers ['"', '\n', 'x'] 1 2 .failure ∧
      (gapTokenizer.round {}).2.input.Spells [] := by
  have hspells : gapTokenizer.input.Spells ['"', '\n', 'x'] := Input.spells_of_source_eq rfl
  obtain ⟨-, hrest, -⟩ :=
    hard_failure_discards_what_was_read (by simp) hspells (Prod.ext round_gap rfl)
      explains_gap
  exact ⟨by simp, hspells, explains_gap, hrest⟩

/-- More is discarded than what the recognizer that failed was fed. -/
theorem hard_failure_discards_more :
    ¬ ∀ (t t' : Tokenizer (Recognizer String (NoCustom String)) String) (context : Context)
        (text read discarded : List Char) (reason? : Option String) (place moment : Nat),
        text ≠ [] → t.input.Spells text →
        t.round context = (.unrecognized read reason? discarded, t') →
        Explains context t.recognizers text place moment .failure →
          discarded = text.take moment := by
  intro h
  have hdiscarded := h gapTokenizer _ {} ['"', '\n', 'x'] _ _ _ 1 2 (by simp)
    (Input.spells_of_source_eq rfl) (Prod.ext round_gap rfl) explains_gap
  simp at hdiscarded

end Diagnosis

end ShiftReduce
