import ShiftReduce.Proofs.Answers
import ShiftReduce.Proofs.Racing

/-!
What is heard of the recognizers in a race. A recognizer is asked until it gives a
negative answer, and the end of the input is the last thing it can be asked. What a
contender remembers at the end of a race is the last of the answers heard of its
recognizer that say something about a text without a match. The spokesman of a race is
the contender whose remark is the latest, the last in the list among equally late ones.
A race reads on as long as some recognizer is still asked.

Nothing here supposes that the recognizers are well behaved: a recognizer that was
dropped is not asked again, whatever it would say.
-/
namespace ShiftReduce

variable {ρ κ : Type}

/-- Whether an answer explains why there is no match. -/
def Answer.isRemark : Answer → Bool
  | .partialMatch | .failure => true
  | .noMatch | .fullMatch => false

namespace Answers

variable [Recognizes ρ κ]

/-- The answers of a recognizer that is asked until the first negative one. -/
def heard (context : Context) (recognizer : ρ) : List (Option Char) → List Answer
  | [] => []
  | c? :: feed =>
    let answer := (Recognizes.test recognizer c? context).1
    if answer.isNegative then [answer]
    else answer :: heard context (Recognizes.test recognizer c? context).2 feed

/-- The characters of a text and its end, as they are fed. -/
def feedOf (text : List Char) : List (Option Char) := text.map some ++ [none]

/-- What is heard of a recognizer about a text and its end. -/
def hearing (context : Context) (recognizer : ρ) (text : List Char) : List Answer :=
  heard context (Recognizes.reset recognizer) (feedOf text)

/-- The recognizer after the last answer that is heard of it. -/
def afterHearing (context : Context) (recognizer : ρ) (text : List Char) : ρ :=
  after context (Recognizes.reset recognizer)
    ((feedOf text).take (hearing context recognizer text).length)

/-- After the text the recognizer is still asked: none of its answers was negative. -/
def Stays (context : Context) (recognizer : ρ) (text : List Char) : Prop :=
  ∀ answer ∈ answersTo context recognizer text, answer.isNegative = false

theorem Stays.of_prefix {context : Context} {r : ρ} {front text : List Char}
    (h : Stays context r text) (hfront : front <+: text) : Stays context r front := by
  obtain ⟨back, rfl⟩ := hfront
  intro answer hmem
  apply h
  rw [answersTo, List.map_append, answers_append]
  exact List.mem_append_left _ hmem

/-- Nothing negative is heard exactly if nothing negative is answered. -/
theorem forall_mem_heard_iff {context : Context} {r : ρ} {feed : List (Option Char)} :
    (∀ answer ∈ heard context r feed, answer.isNegative = false) ↔
      ∀ answer ∈ answers context r feed, answer.isNegative = false := by
  induction feed generalizing r with
  | nil => simp [heard, answers]
  | cons c? feed ih =>
    rw [heard, answers]
    cases hfirst : (Recognizes.test r c? context).1.isNegative with
    | true => simp [hfirst]
    | false => simp [hfirst, ih]

/-- A negative answer is the last that is heard. -/
theorem heard_append_of_exists {context : Context} {r : ρ} {front : List (Option Char)}
    (h : ∃ answer ∈ answers context r front, answer.isNegative = true)
    (back : List (Option Char)) : heard context r (front ++ back) = heard context r front := by
  induction front generalizing r with
  | nil =>
    obtain ⟨answer, hmem, -⟩ := h
    simp [answers] at hmem
  | cons c? front ih =>
    cases hfirst : (Recognizes.test r c? context).1.isNegative with
    | true => simp [heard, hfirst]
    | false =>
      obtain ⟨answer, hmem, hnegative⟩ := h
      rcases List.mem_cons.mp hmem with rfl | hmem
      · simp [hfirst] at hnegative
      · simp [heard, hfirst, ih ⟨answer, hmem, hnegative⟩]

theorem length_heard_le (context : Context) (r : ρ) (feed : List (Option Char)) :
    (heard context r feed).length ≤ feed.length := by
  induction feed generalizing r with
  | nil => simp [heard]
  | cons c? feed ih =>
    rw [heard]
    split
    · simp
    · simpa using ih _

end Answers

open Answers

namespace Remark

/-- The answer that was given with a remark. -/
def answer (remark : Remark) : Answer := if remark.isHard then .failure else .partialMatch

/-- The remark that an answer at some feeding makes, if it makes one. -/
def ofAnswer? (moment : Nat) : Answer → Option Remark
  | .partialMatch => some ⟨moment, false⟩
  | .failure => some ⟨moment, true⟩
  | .noMatch | .fullMatch => none

/-- The last remark among answers that were given one after the other, behind so many
earlier ones. -/
def last? (fed : Nat) : List Answer → Option Remark
  | [] => none
  | answer :: rest => (last? (fed + 1) rest).or (ofAnswer? (fed + 1) answer)

theorem isRemark_answer (remark : Remark) : remark.answer.isRemark = true := by
  unfold answer
  split <;> rfl

theorem ofAnswer?_eq_some_iff {moment : Nat} {answer : Answer} {remark : Remark} :
    ofAnswer? moment answer = some remark ↔
      remark.moment = moment ∧ answer = remark.answer := by
  obtain ⟨moment', isHard⟩ := remark
  cases answer <;> cases isHard <;> simp [ofAnswer?, Remark.answer, eq_comm]

theorem ofAnswer?_eq_none_iff {moment : Nat} {answer : Answer} :
    ofAnswer? moment answer = none ↔ answer.isRemark = false := by
  cases answer <;> simp [ofAnswer?, Answer.isRemark]

theorem last?_eq_none_iff {fed : Nat} {answers : List Answer} :
    last? fed answers = none ↔ ∀ answer ∈ answers, answer.isRemark = false := by
  induction answers generalizing fed with
  | nil => simp [last?]
  | cons answer rest ih => simp [last?, ih, ofAnswer?_eq_none_iff, and_comm]

/-- The last remark is an answer behind which no other is a remark. -/
theorem last?_eq_some_iff {fed : Nat} {answers : List Answer} {remark : Remark} :
    last? fed answers = some remark ↔
      ∃ i, remark.moment = fed + i + 1 ∧ answers[i]? = some remark.answer ∧
        ∀ j, i < j → ∀ later, answers[j]? = some later → later.isRemark = false := by
  induction answers generalizing fed with
  | nil => simp [last?]
  | cons answer rest ih =>
    rw [last?, Option.or_eq_some_iff, ih, last?_eq_none_iff, ofAnswer?_eq_some_iff]
    constructor
    · rintro (⟨i, hmoment, hanswer, hlast⟩ | ⟨hnone, hmoment, hanswer⟩)
      · refine ⟨i + 1, by omega, by simpa using hanswer, ?_⟩
        intro j hj later hlater
        obtain ⟨j, rfl⟩ : ∃ j', j = j' + 1 := ⟨j - 1, by omega⟩
        exact hlast j (by omega) later (by simpa using hlater)
      · refine ⟨0, by omega, by simp [hanswer], ?_⟩
        intro j hj later hlater
        obtain ⟨j, rfl⟩ : ∃ j', j = j' + 1 := ⟨j - 1, by omega⟩
        exact hnone later (List.mem_of_getElem? (by simpa using hlater))
    · rintro ⟨i, hmoment, hanswer, hlast⟩
      cases i with
      | zero =>
        refine Or.inr ⟨?_, by omega, by simpa using hanswer⟩
        intro later hmem
        obtain ⟨j, hj⟩ := List.getElem?_of_mem hmem
        exact hlast (j + 1) (by omega) later (by simpa using hj)
      | succ i =>
        refine Or.inl ⟨i, by omega, by simpa using hanswer, ?_⟩
        intro j hj later hlater
        exact hlast (j + 1) (by omega) later (by simpa using hlater)

end Remark

namespace Contender

section Feeding

variable [Recognizes ρ κ]

/-- The contender after some feeding. -/
def feeds (context : Context) (k : Contender ρ) (feed : List (Option Char)) : Contender ρ :=
  feed.foldl (fun k c? => k.feed context c?) k

theorem feedAll_eq_feeds (context : Context) (k : Contender ρ) (text : List Char) :
    k.feedAll context text = k.feeds context (text.map some) := by
  rw [feedAll, feeds, List.foldl_map]

theorem finish_eq_feeds (context : Context) (k : Contender ρ) (text : List Char) :
    k.finish context text = k.feeds context (feedOf text) := by
  rw [finish, feedAll_eq_feeds, feedOf, feeds, feeds, List.foldl_append]
  rfl

theorem feeds_of_not_live {k : Contender ρ} (h : k.isLive = false) (context : Context)
    (feed : List (Option Char)) : k.feeds context feed = k := by
  induction feed with
  | nil => rfl
  | cons c? feed ih => rwa [feeds, List.foldl_cons, feed_of_not_live h]

/-- What a live contender remembers after some answers of its recognizer: it is live
unless one was negative, and its last remark is the last of theirs. -/
structure Remembers (k : Contender ρ) (said : List Answer) (recognizer : ρ) (k' : Contender ρ) :
    Prop where
  recognizer_eq : k'.recognizer = recognizer
  fed_eq : k'.fed = k.fed + said.length
  isLive_iff : k'.isLive = true ↔ ∀ answer ∈ said, answer.isNegative = false
  match?_eq_none_iff : k'.match? = none ↔ k.match? = none ∧ .fullMatch ∉ said
  remark?_eq : k'.remark? = (Remark.last? k.fed said).or k.remark?

theorem remembers_feed {k : Contender ρ} (hlive : k.isLive = true) (context : Context)
    (c? : Option Char) :
    Remembers k [(Recognizes.test k.recognizer c? context).1]
      (Recognizes.test k.recognizer c? context).2 (k.feed context c?) := by
  unfold feed
  simp only [hlive, if_true]
  generalize Recognizes.test k.recognizer c? context = result
  obtain ⟨answer, recognizer⟩ := result
  cases answer with
  | noMatch => exact ⟨rfl, rfl, by simp [Answer.isNegative], by simp, rfl⟩
  | partialMatch => exact ⟨rfl, rfl, by simp [Answer.isNegative], by simp, rfl⟩
  | fullMatch => exact ⟨rfl, rfl, by simp [Answer.isNegative], by simp, rfl⟩
  | failure => exact ⟨rfl, rfl, by simp [Answer.isNegative], by simp, rfl⟩

/-- A live contender remembers what is heard of its recognizer. -/
theorem remembers_feeds {k : Contender ρ} (hlive : k.isLive = true) (context : Context)
    (feed : List (Option Char)) :
    Remembers k (heard context k.recognizer feed)
      (after context k.recognizer (feed.take (heard context k.recognizer feed).length))
      (k.feeds context feed) := by
  induction feed generalizing k with
  | nil => exact ⟨rfl, rfl, by simp [heard, feeds, hlive], by simp [heard, feeds], rfl⟩
  | cons c? feed ih =>
    obtain ⟨hrecognizer, hfed, hstays, hmatch, hremark⟩ := remembers_feed hlive context c?
    cases hnegative : (Recognizes.test k.recognizer c? context).1.isNegative with
    | true =>
      have hdropped : (k.feed context c?).isLive = false := by
        simpa [hnegative] using hstays
      have hafter : k.feeds context (c? :: feed) = k.feed context c? :=
        feeds_of_not_live hdropped context feed
      simp only [heard, hnegative, if_true, hafter]
      exact ⟨hrecognizer, hfed, hstays, hmatch, hremark⟩
    | false =>
      have hlive' : (k.feed context c?).isLive = true := by
        simpa [hnegative] using hstays
      obtain ⟨hrecognizer', hfed', hstays', hmatch', hremark'⟩ := ih hlive'
      rw [hrecognizer] at hrecognizer' hfed' hstays' hmatch' hremark'
      have hafter : k.feeds context (c? :: feed) = (k.feed context c?).feeds context feed := rfl
      simp only [heard, hnegative, Bool.false_eq_true, if_false, hafter]
      refine ⟨hrecognizer', ?_, ?_, ?_, ?_⟩
      · rw [hfed', hfed]
        simp only [List.length_cons, List.length_nil]
        omega
      · rw [hstays']
        simp [hnegative]
      · rw [hmatch', hmatch]
        simp [and_assoc]
      · rw [hremark', hremark, hfed]
        simp [Remark.last?, Option.or_assoc]

/-- A contender of a race is live after a text if its recognizer is still asked. -/
theorem isLive_feedAll_enter_iff {context : Context} {r : ρ} {text : List Char} :
    ((enter r).feedAll context text).isLive = true ↔ Stays context r text := by
  rw [feedAll_eq_feeds, (remembers_feeds rfl context (text.map some)).isLive_iff]
  exact forall_mem_heard_iff

end Feeding

theorem winner?_eq_none_iff {contenders : List (Contender ρ)} :
    winner? contenders = none ↔ ∀ k ∈ contenders, k.match? = none := by
  induction contenders with
  | nil => simp [winner?]
  | cons k rest ih =>
    unfold winner?
    cases hmatch : k.match? with
    | none => simp [hmatch, ih]
    | some mark =>
      cases hwinner : winner? rest with
      | none => simp [hmatch]
      | some best =>
        dsimp only
        split <;> simp [hmatch]

/-- The contender at a place has a latest remark. Those behind it in the list have made
their last one before. -/
structure IsSpokesman (contenders : List (Contender ρ)) (place : Nat) (remark : Remark) :
    Prop where
  isPlace : ∃ k, contenders[place]? = some k ∧ k.remark? = some remark
  latest : ∀ k ∈ contenders, ∀ other, k.remark? = some other → other.moment ≤ remark.moment
  last : ∀ j, place < j → ∀ k, contenders[j]? = some k → ∀ other, k.remark? = some other →
    other.moment < remark.moment

theorem isSpokesman_head {k : Contender ρ} {rest : List (Contender ρ)} {remark : Remark}
    (hremark : k.remark? = some remark)
    (hrest : ∀ k ∈ rest, ∀ other, k.remark? = some other → other.moment < remark.moment) :
    IsSpokesman (k :: rest) 0 remark where
  isPlace := ⟨k, rfl, hremark⟩
  latest k' hk' other hother := by
    rcases List.mem_cons.mp hk' with rfl | hk'
    · rw [hremark, Option.some.injEq] at hother
      exact Nat.le_of_eq (by rw [hother])
    · exact Nat.le_of_lt (hrest k' hk' other hother)
  last j hj k' hk' other hother := by
    obtain ⟨j, rfl⟩ : ∃ j', j = j' + 1 := ⟨j - 1, by omega⟩
    exact hrest k' (List.mem_of_getElem? (by simpa using hk')) other hother

theorem IsSpokesman.cons {k : Contender ρ} {rest : List (Contender ρ)} {place : Nat}
    {remark : Remark} (h : IsSpokesman rest place remark)
    (hearlier : ∀ own, k.remark? = some own → own.moment ≤ remark.moment) :
    IsSpokesman (k :: rest) (place + 1) remark where
  isPlace := h.isPlace
  latest k' hk' other hother := by
    rcases List.mem_cons.mp hk' with rfl | hk'
    · exact hearlier other hother
    · exact h.latest k' hk' other hother
  last j hj k' hk' other hother := by
    obtain ⟨j, rfl⟩ : ∃ j', j = j' + 1 := ⟨j - 1, by omega⟩
    exact h.last j (by omega) k' (by simpa using hk') other hother

theorem spokesman?_eq_none_iff {contenders : List (Contender ρ)} :
    spokesman? contenders = none ↔ ∀ k ∈ contenders, k.remark? = none := by
  induction contenders with
  | nil => simp [spokesman?]
  | cons k rest ih =>
    unfold spokesman?
    cases hremark : k.remark? with
    | none => simp [hremark, ih]
    | some remark =>
      cases hspokesman : spokesman? rest with
      | none => simp [hremark]
      | some found =>
        dsimp only
        split <;> simp [hremark]

/-- The contender that explains a race is its spokesman. -/
theorem exists_place_of_spokesman? {contenders : List (Contender ρ)} {k : Contender ρ}
    {remark : Remark} (h : spokesman? contenders = some (k, remark)) :
    ∃ place, contenders[place]? = some k ∧ IsSpokesman contenders place remark := by
  induction contenders generalizing k remark with
  | nil => simp [spokesman?] at h
  | cons first rest ih =>
    unfold spokesman? at h
    cases hfirst : first.remark? with
    | none =>
      rw [hfirst] at h
      obtain ⟨place, hplace, hspokesman⟩ := ih h
      exact ⟨place + 1, hplace, hspokesman.cons (by simp [hfirst])⟩
    | some own =>
      rw [hfirst] at h
      cases hrest : spokesman? rest with
      | none =>
        rw [hrest] at h
        cases h
        refine ⟨0, rfl, isSpokesman_head hfirst ?_⟩
        intro k' hk' other hother
        simp [spokesman?_eq_none_iff.mp hrest k' hk'] at hother
      | some found =>
        obtain ⟨k', last⟩ := found
        obtain ⟨place, hplace, hspokesman⟩ := ih hrest
        rw [hrest] at h
        dsimp only at h
        split at h
        · next hlater =>
          cases h
          refine ⟨0, rfl, isSpokesman_head hfirst ?_⟩
          intro other hother remark hremark
          have := hspokesman.latest other hother remark hremark
          omega
        · next hnot =>
          cases h
          refine ⟨place + 1, hplace, hspokesman.cons ?_⟩
          intro own' hown'
          rw [hfirst, Option.some.injEq] at hown'
          subst hown'
          omega

end Contender

namespace Race

variable [Recognizes ρ κ]

/-- A race reads a character only while somebody is live, and stops before the end of
its input only when nobody is. -/
theorem live_of_run {r race : Race ρ} {text read rest : List Char} {context : Context}
    (hspells : r.input.Spells text) (hrun : r.run context = (none, race))
    (htext : text = read ++ rest) (hread : race.text = r.text ++ read) :
    (∀ front back, read = front ++ back → back ≠ [] →
        ∃ k ∈ r.contenders, (k.feedAll context front).isLive = true) ∧
      (rest ≠ [] → ∀ k ∈ r.contenders, (k.feedAll context read).isLive = false) := by
  fun_induction Race.run context r generalizing text read with
  | case1 => simp at hrun
  | case2 r _ next hnext =>
    -- The end of the input was read, so the race has read all there was.
    cases hrun
    have hnothing : read = [] := by simpa [Race.text, close] using hread
    have hend : text = [] := by
      cases text with
      | nil => rfl
      | cons c text => simp [Input.Spells, hnext] at hspells
    simp_all
  | case3 r hlive c next hnext _ ih =>
    cases text with
    | nil => simp [Input.Spells, hnext] at hspells
    | cons d text =>
      obtain ⟨next', hnext', hspells'⟩ := hspells
      simp only [hnext, Prod.mk.injEq, Except.ok.injEq, Option.some.injEq] at hnext'
      obtain ⟨rfl, rfl⟩ := hnext'
      obtain ⟨race', read', rest', hrun', htext', hread', -⟩ :=
        exists_run_of_spells (r := r.feed context c next) hspells' context
      obtain rfl : race = race' := by simpa [hrun'] using hrun.symm
      obtain rfl : read = c :: read' := by
        rw [hread] at hread'
        simpa [Race.text, feed] using hread'
      obtain rfl : rest' = rest := by simpa [htext'] using htext
      obtain ⟨hasked, hstop⟩ := ih hspells' hrun htext' hread'
      constructor
      · intro front back hsplit hback
        cases front with
        | nil => exact List.any_eq_true.mp hlive
        | cons e front =>
          obtain ⟨rfl, rfl⟩ := List.cons.inj hsplit
          obtain ⟨k, hk, hlive'⟩ := hasked front back rfl hback
          obtain ⟨before, hbefore, rfl⟩ := List.mem_map.mp hk
          exact ⟨before, hbefore, hlive'⟩
      · intro hrest k hk
        exact hstop hrest _ (List.mem_map_of_mem hk)
  | case4 r hnobody =>
    -- Nobody was live, so nothing was read.
    cases hrun
    obtain rfl : read = [] := by simpa using hread
    refine ⟨?_, ?_⟩
    · intro front back hsplit hback
      exact absurd (List.append_eq_nil_iff.mp hsplit.symm).2 hback
    · intro _ k hk
      cases hlive : k.isLive with
      | false => exact hlive
      | true => exact absurd (List.any_eq_true.mpr ⟨k, hk, hlive⟩) hnobody

end Race

end ShiftReduce
