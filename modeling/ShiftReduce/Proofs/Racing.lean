import ShiftReduce.Proofs.Spelling
import ShiftReduce.Tokenizer.Race

/-!
The course of a race. Over an input that spells a text every contender ends where
the whole text and the end of the input take it by itself: the race stops early only
when nobody is live, and then the rest would change nothing. What the race has read
and what is left in the input make up the text. The contender that wins is given by
its place, so that contenders which are alike can be told apart.
-/
namespace ShiftReduce

variable {ρ κ : Type}

namespace Contender

section Feeding

variable [Recognizes ρ κ]

/-- The contender after a text. -/
def feedAll (context : Context) (k : Contender ρ) (text : List Char) : Contender ρ :=
  text.foldl (fun k c => k.feed context (some c)) k

/-- The contender after a text and the end of the input. -/
def finish (context : Context) (k : Contender ρ) (text : List Char) : Contender ρ :=
  (k.feedAll context text).feed context none

theorem feed_of_not_live {k : Contender ρ} (h : k.isLive = false) (context : Context)
    (c? : Option Char) : k.feed context c? = k := by
  simp [feed, h]

theorem feedAll_cons (context : Context) (k : Contender ρ) (c : Char) (text : List Char) :
    k.feedAll context (c :: text) = (k.feed context (some c)).feedAll context text := rfl

theorem finish_of_not_live {k : Contender ρ} (h : k.isLive = false) (context : Context)
    (text : List Char) : k.finish context text = k := by
  induction text with
  | nil => exact feed_of_not_live h context none
  | cons c text ih => rwa [finish, feedAll_cons, feed_of_not_live h]

end Feeding

/-- The place of the contender that wins, and its match. -/
def winnerPlace? : List (Contender ρ) → Option (Nat × Mark)
  | [] => none
  | k :: rest =>
    match k.match?, winnerPlace? rest with
    | none, other? => other?.map fun (place, mark) => (place + 1, mark)
    | some mark, none => some (0, mark)
    | some mark, some (place, best) =>
      if mark.length < best.length ∨ mark.length = best.length ∧ best.moment < mark.moment then
        some (place + 1, best)
      else some (0, mark)

theorem winnerPlace?_eq_none_iff {contenders : List (Contender ρ)} :
    winnerPlace? contenders = none ↔ ∀ k ∈ contenders, k.match? = none := by
  induction contenders with
  | nil => simp [winnerPlace?]
  | cons k rest ih =>
    unfold winnerPlace?
    cases hmatch : k.match? with
    | none => simp [hmatch, ih]
    | some mark =>
      cases hplace : winnerPlace? rest with
      | none => simp [hmatch]
      | some best =>
        dsimp only
        split <;> simp [hmatch]

/-- The contender at a place has a longest match. Those before it that have a match
of this length found it later. -/
structure IsWinner (contenders : List (Contender ρ)) (place : Nat) (mark : Mark) : Prop where
  isPlace : ∃ k, contenders[place]? = some k ∧ k.match? = some mark
  longest : ∀ k ∈ contenders, ∀ other, k.match? = some other → other.length ≤ mark.length
  first : ∀ j < place, ∀ k, contenders[j]? = some k → ∀ other, k.match? = some other →
    other.length = mark.length → mark.moment < other.moment

theorem isWinner_head {k : Contender ρ} {rest : List (Contender ρ)} {mark : Mark}
    (hmatch : k.match? = some mark)
    (hrest : ∀ k ∈ rest, ∀ other, k.match? = some other → other.length ≤ mark.length) :
    IsWinner (k :: rest) 0 mark where
  isPlace := ⟨k, rfl, hmatch⟩
  longest k' hk' other hother := by
    rcases List.mem_cons.mp hk' with rfl | hk'
    · rw [hmatch, Option.some.injEq] at hother
      exact Nat.le_of_eq (by rw [hother])
    · exact hrest k' hk' other hother
  first j hj := absurd hj (Nat.not_lt_zero j)

theorem IsWinner.cons {k : Contender ρ} {rest : List (Contender ρ)} {place : Nat} {mark : Mark}
    (h : IsWinner rest place mark)
    (hworse : ∀ own, k.match? = some own →
      own.length < mark.length ∨ own.length = mark.length ∧ mark.moment < own.moment) :
    IsWinner (k :: rest) (place + 1) mark where
  isPlace := h.isPlace
  longest k' hk' other hother := by
    rcases List.mem_cons.mp hk' with rfl | hk'
    · have := hworse other hother
      omega
    · exact h.longest k' hk' other hother
  first j hj k' hk' other hother hlength := by
    cases j with
    | zero =>
      obtain rfl : k = k' := by simpa using hk'
      have := hworse other hother
      omega
    | succ j => exact h.first j (by omega) k' (by simpa using hk') other hother hlength

theorem isWinner_of_winnerPlace? {contenders : List (Contender ρ)} {place : Nat} {mark : Mark}
    (h : winnerPlace? contenders = some (place, mark)) : IsWinner contenders place mark := by
  induction contenders generalizing place mark with
  | nil => simp [winnerPlace?] at h
  | cons k rest ih =>
    unfold winnerPlace? at h
    cases hmatch : k.match? with
    | none =>
      simp only [hmatch, Option.map_eq_some_iff, Prod.mk.injEq] at h
      obtain ⟨⟨before, best⟩, hplace, rfl, rfl⟩ := h
      exact (ih hplace).cons (by simp [hmatch])
    | some own =>
      cases hplace : winnerPlace? rest with
      | none =>
        simp only [hmatch, hplace, Option.some.injEq, Prod.mk.injEq] at h
        obtain ⟨rfl, rfl⟩ := h
        apply isWinner_head hmatch
        intro k' hk' other hother
        simp [winnerPlace?_eq_none_iff.mp hplace k' hk'] at hother
      | some found =>
        obtain ⟨before, best⟩ := found
        have hbest := ih hplace
        simp only [hmatch, hplace] at h
        split at h
        · next hbetter =>
          simp only [Option.some.injEq, Prod.mk.injEq] at h
          obtain ⟨rfl, rfl⟩ := h
          apply hbest.cons
          intro own' hown'
          rw [hmatch, Option.some.injEq] at hown'
          rwa [← hown']
        · next hworse =>
          simp only [Option.some.injEq, Prod.mk.injEq] at h
          obtain ⟨rfl, rfl⟩ := h
          apply isWinner_head hmatch
          intro k' hk' other hother
          have := hbest.longest k' hk' other hother
          omega

/-- The contender at the winning place is the one that wins. -/
theorem winner?_eq (contenders : List (Contender ρ)) :
    winner? contenders =
      (winnerPlace? contenders).bind fun (place, mark) => contenders[place]?.map (·, mark) := by
  induction contenders with
  | nil => rfl
  | cons k rest ih =>
    unfold winner? winnerPlace?
    rw [ih]
    cases hmatch : k.match? with
    | none =>
      cases winnerPlace? rest with
      | none => rfl
      | some best => simp
    | some mark =>
      cases hplace : winnerPlace? rest with
      | none => simp
      | some found =>
        obtain ⟨place, best⟩ := found
        rw [hplace] at ih
        obtain ⟨other, hother, -⟩ := (isWinner_of_winnerPlace? hplace).isPlace
        by_cases hbetter : mark.length < best.length ∨
            mark.length = best.length ∧ best.moment < mark.moment
        · simp [hother, hbetter]
        · simp [hother, hbetter]

/-- The contender that wins has its place. -/
theorem exists_place_of_winner? {contenders : List (Contender ρ)} {k : Contender ρ} {mark : Mark}
    (h : winner? contenders = some (k, mark)) :
    ∃ place, winnerPlace? contenders = some (place, mark) ∧ contenders[place]? = some k ∧
      k.match? = some mark := by
  obtain ⟨-, hmatch⟩ := mem_of_winner? h
  simp only [winner?_eq, Option.bind_eq_some_iff, Option.map_eq_some_iff, Prod.mk.injEq] at h
  obtain ⟨⟨place, other⟩, hplace, _, hk, rfl, rfl⟩ := h
  exact ⟨place, hplace, hk, hmatch⟩

end Contender

namespace Race

variable [Recognizes ρ κ]

/-- A race goes on after a read by what was read. -/
theorem run_eq_of_read {r : Race ρ} (hlive : r.contenders.any Contender.isLive = true)
    {result : Except ReadError (Option Char)} {rest : Input} (h : r.input.read = (result, rest))
    (context : Context) :
    r.run context = match result with
      | .error error => (some error, { r with input := rest })
      | .ok none => (none, r.close context rest)
      | .ok (some c) => (r.feed context c rest).run context := by
  rw [run, if_pos hlive]
  split
  all_goals
    next heq =>
      rw [h] at heq
      cases heq
      rfl

/-- A race over an input that spells a text runs to its end. It reads some of the
text, and what it does not read would change nothing. -/
theorem exists_run_of_spells {r : Race ρ} {text : List Char} (h : r.input.Spells text)
    (context : Context) :
    ∃ race read rest, r.run context = (none, race) ∧ text = read ++ rest ∧
      race.text = r.text ++ read ∧ race.input.Spells rest ∧
      race.contenders = r.contenders.map (·.finish context read) ∧
      ∀ k ∈ r.contenders, k.finish context text = k.finish context read := by
  fun_induction Race.run context r generalizing text with
  | case1 r _ error rest hread =>
    cases text <;> simp [Input.Spells, hread] at h
  | case2 r _ rest hread =>
    cases text with
    | nil =>
      exact ⟨_, [], [], rfl, rfl, by simp [text, close], Input.spells_nil_of_read_end hread, rfl,
        fun _ _ => rfl⟩
    | cons c text => simp [Input.Spells, hread] at h
  | case3 r _ c rest hread _ ih =>
    cases text with
    | nil => simp [Input.Spells, hread] at h
    | cons d text =>
      obtain ⟨rest', hread', hrest'⟩ := h
      simp only [hread, Prod.mk.injEq, Except.ok.injEq, Option.some.injEq] at hread'
      obtain ⟨rfl, rfl⟩ := hread'
      obtain ⟨race, read, left, hrun, rfl, htext, hleft, hcontenders, hsettled⟩ := ih hrest'
      refine ⟨race, c :: read, left, hrun, rfl, ?_, hleft, ?_, ?_⟩
      · simpa [Race.text, feed] using htext
      · rw [hcontenders, feed, List.map_map]
        rfl
      · intro k hk
        exact hsettled _ (List.mem_map_of_mem hk)
  | case4 r hlive =>
    -- Nobody is live, so neither the rest of the text nor its end changes a contender.
    have hdead : ∀ k ∈ r.contenders, k.isLive = false := by
      intro k hk
      simpa using List.any_eq_false.mp (by simpa using hlive) k hk
    refine ⟨r, [], text, rfl, rfl, by simp, h, ?_, ?_⟩
    · have hsame : ∀ k ∈ r.contenders, k.finish context [] = id k := by
        intro k hk
        exact Contender.finish_of_not_live (hdead k hk) context []
      rw [List.map_congr_left hsame, List.map_id]
    · intro k hk
      rw [Contender.finish_of_not_live (hdead k hk), Contender.finish_of_not_live (hdead k hk)]

/-- The race of some recognizers from the first character of a text on. -/
theorem exists_start_of_spells {input : Input} {text : List Char} (hne : text ≠ [])
    (h : input.Spells text) (context : Context) (recognizers : List ρ) :
    ∃ c next race read rest, input.read = (.ok (some c), next) ∧
      (start context recognizers c next).run context = (none, race) ∧
      text = read ++ rest ∧ read ≠ [] ∧ race.text = read ∧ race.input.Spells rest ∧
      race.contenders = recognizers.map (fun r => (Contender.enter r).finish context read) ∧
      ∀ r ∈ recognizers, (Contender.enter r).finish context text =
        (Contender.enter r).finish context read := by
  cases text with
  | nil => exact absurd rfl hne
  | cons c text =>
    obtain ⟨next, hread, hnext⟩ := h
    have hstart : (start context recognizers c next).input.Spells text := hnext
    obtain ⟨race, read, rest, hrun, rfl, htext, hrest, hcontenders, hsettled⟩ :=
      exists_run_of_spells hstart context
    refine ⟨c, next, race, c :: read, rest, hread, hrun, rfl, by simp, htext, hrest, ?_, ?_⟩
    · rw [hcontenders, start, List.map_map]
      rfl
    · intro r hr
      exact hsettled _ (List.mem_map_of_mem hr)

end Race

end ShiftReduce
