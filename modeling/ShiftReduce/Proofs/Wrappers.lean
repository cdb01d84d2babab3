import ShiftReduce.Proofs.Lineups
import ShiftReduce.Proofs.Lossless

/-!
What limits to contexts and changes of values do to a scan. A recognizer that is not active in
the context is out of every race at the first character, without a match and without a remark, so
it is as good as not there. Any other one answers as the pattern inside it does. So a scan goes as
with the bare patterns of the active recognizers, and only the value of the token it finds is
changed, by the recognizer that found it.
-/
namespace ShiftReduce

variable {κ : Type}

/-- Two ways to go from one list to another: to pick before each step or behind it. -/
theorem map_filter_map {α β γ δ : Type} {f : α → β} {f' : γ → δ} {g : α → γ} {g' : β → δ}
    {p : α → Bool} {p' : β → Bool} {xs : List α} (hp : ∀ x ∈ xs, p' (f x) = p x)
    (hg : ∀ x ∈ xs, p x = true → g' (f x) = f' (g x)) :
    ((xs.map f).filter p').map g' = ((xs.filter p).map g).map f' := by
  have hpick : xs.filter (p' ∘ f) = xs.filter p := List.filter_congr hp
  rw [List.filter_map, hpick, List.map_map, List.map_map]
  apply List.map_congr_left
  intro x hx
  obtain ⟨hmem, hpicked⟩ := List.mem_filter.mp hx
  exact hg x hmem hpicked

namespace Recognizer

section Definitions

variable {υ : Type}

/-- Every limit of the recognizer lets it take part in the context. -/
def isActiveIn (context : Context) : Recognizer κ υ → Bool
  | .active isActive inner => isActive context && inner.isActiveIn context
  | .mapped _ inner => inner.isActiveIn context
  | .lexeme _ _ => true
  | .trivia _ => true
  | .custom _ _ => true

/-- The recognizer without limits and changes. -/
def bare : Recognizer κ υ → Recognizer κ υ
  | .active _ inner => inner.bare
  | .mapped _ inner => inner.bare
  | .lexeme kind pattern => .lexeme kind pattern
  | .trivia pattern => .trivia pattern
  | .custom fresh current => .custom fresh current

/-- All changes of values, from the innermost to the outermost. -/
def change : Recognizer κ υ → Option Value → Option Value
  | .active _ inner => inner.change
  | .mapped transform inner => transform ∘ inner.change
  | .lexeme _ _ => id
  | .trivia _ => id
  | .custom _ _ => id

/-- The bare recognizers of those that are active in the context. -/
def unwrap (context : Context) (recognizers : List (Recognizer κ υ)) : List (Recognizer κ υ) :=
  (recognizers.filter (isActiveIn context)).map bare

end Definitions

variable {r : Recognizer κ (NoCustom κ)} {context : Context}

theorem isKept_isActiveIn (context : Context) :
    IsKept (isActiveIn context : Recognizer κ (NoCustom κ) → Bool) := by
  apply isKept_of_congr
  · intro kind pattern c?
    exact ⟨rfl, rfl⟩
  · intro pattern c?
    exact ⟨rfl, rfl⟩
  · intro isActive inner inner' h
    simp only [isActiveIn, h]
  · intro transform inner inner' h
    exact h

theorem isKept_change : IsKept (change : Recognizer κ (NoCustom κ) → _) := by
  apply isKept_of_congr
  · intro kind pattern c?
    exact ⟨rfl, rfl⟩
  · intro pattern c?
    exact ⟨rfl, rfl⟩
  · intro isActive inner inner' h
    exact h
  · intro transform inner inner' h
    simp only [change, h]

theorem bare_reset (r : Recognizer κ (NoCustom κ)) : r.reset.bare = r.bare.reset := by
  induction r with
  | lexeme kind pattern => rfl
  | trivia pattern => rfl
  | active isActive inner ih => exact ih
  | mapped transform inner ih => exact ih
  | custom fresh current => cases fresh

/-- An active recognizer answers as the bare one and stays wrapped as it is. -/
theorem test_bare (h : r.isActiveIn context = true) (c? : Option Char) :
    r.bare.test c? context = ((r.test c? context).1, (r.test c? context).2.bare) := by
  induction r with
  | lexeme kind pattern => rfl
  | trivia pattern => rfl
  | active isActive inner ih =>
    obtain ⟨hactive, hinner⟩ := Bool.and_eq_true_iff.mp h
    rw [test, if_pos hactive]
    exact ih hinner
  | mapped transform inner ih => exact ih h
  | custom fresh current => cases fresh

theorem test_of_not_active (h : r.isActiveIn context = false) (c? : Option Char) :
    (r.test c? context).1 = .noMatch := by
  induction r with
  | lexeme kind pattern => cases h
  | trivia pattern => cases h
  | active isActive inner ih =>
    rw [test]
    split
    · next hactive =>
      rw [isActiveIn, hactive, Bool.true_and] at h
      exact ih h
    · rfl
  | mapped transform inner ih => exact ih h
  | custom fresh current => cases fresh

theorem isIgnored_bare (r : Recognizer κ (NoCustom κ)) : r.bare.isIgnored = r.isIgnored := by
  induction r with
  | lexeme kind pattern => rfl
  | trivia pattern => rfl
  | active isActive inner ih => exact ih
  | mapped transform inner ih => exact ih
  | custom fresh current => cases fresh

theorem reason?_bare (r : Recognizer κ (NoCustom κ)) : r.bare.reason? = r.reason? := by
  induction r with
  | lexeme kind pattern => rfl
  | trivia pattern => rfl
  | active isActive inner ih => exact ih
  | mapped transform inner ih => exact ih
  | custom fresh current => cases fresh

/-- A token has the value that the bare recognizer gives it, with all changes. -/
theorem token?_eq (r : Recognizer κ (NoCustom κ)) (text : List Char) :
    r.token? text =
      (r.bare.token? text).map fun token => { token with value? := r.change token.value? } := by
  induction r with
  | lexeme kind pattern => rfl
  | trivia pattern => rfl
  | active isActive inner ih => exact ih
  | mapped transform inner ih =>
    rw [token?, ih, Option.map_map]
    rfl
  | custom fresh current => cases fresh

/-- Whatever a recognizer was fed, inside it is a pattern that makes the same token of a text. -/
theorem isKept_bare_token? (text : List Char) :
    IsKept fun r : Recognizer κ (NoCustom κ) => r.bare.token? text := by
  apply isKept_of_congr
  · intro kind pattern c?
    cases pattern <;> exact ⟨rfl, rfl⟩
  · intro pattern c?
    exact ⟨rfl, rfl⟩
  · intro isActive inner inner' h
    exact h
  · intro transform inner inner' h
    exact h

/-- The recognizer at a place of the list is active in the context. Without its wrappers it makes
the one token of a text, and its changes of the value make the other token of it. -/
def Finds (context : Context) (recognizers : List (Recognizer κ (NoCustom κ))) (place : Nat)
    (token token' : Token κ) : Prop :=
  ∃ r, recognizers[place]? = some r ∧ r.isActiveIn context = true ∧
    r.bare.token? token.text.toList = some token ∧
    token' = { token with value? := r.change token.value? }

/-- Whatever the recognizers of the list were fed, the one at the place makes the same tokens. -/
theorem Finds.of_kept {recognizers recognizers' : List (Recognizer κ (NoCustom κ))} {place : Nat}
    {token token' : Token κ} (h : Finds context recognizers place token token')
    (hkept : ∀ {β : Type} {f : Recognizer κ (NoCustom κ) → β}, IsKept f →
      recognizers.map f = recognizers'.map f) :
    Finds context recognizers' place token token' := by
  obtain ⟨r, hr, hactive, htoken, rfl⟩ := h
  obtain ⟨r', hr', hlike⟩ := exists_getElem?_of_kept hkept hr
  have hactive' : r.isActiveIn context = r'.isActiveIn context := hlike (isKept_isActiveIn context)
  have htoken' : r.bare.token? token.text.toList = r'.bare.token? token.text.toList :=
    hlike (isKept_bare_token? token.text.toList)
  have hchange : r.change = r'.change := hlike isKept_change
  exact ⟨r', hr', hactive' ▸ hactive, htoken' ▸ htoken, by rw [hchange]⟩

theorem unwrap_map_reset (context : Context) (recognizers : List (Recognizer κ (NoCustom κ))) :
    unwrap context (recognizers.map Recognizes.reset) =
      (unwrap context recognizers).map Recognizes.reset :=
  map_filter_map (fun r _ => (isKept_isActiveIn context).reset r) fun r _ _ => bare_reset r

end Recognizer

namespace Contender

section Picking

variable {ρ ρ' : Type} {contenders : List (Contender ρ)}

/-- Contenders without a match can be left out, and of the others only the match matters. -/
theorem winner?_map_filter {p : Contender ρ → Bool} {f : Contender ρ → Contender ρ'}
    (hp : ∀ k ∈ contenders, p k = false → k.match? = none) (hf : ∀ k, (f k).match? = k.match?) :
    winner? ((contenders.filter p).map f) =
      (winner? contenders).map fun (k, mark) => (f k, mark) := by
  induction contenders with
  | nil => rfl
  | cons k rest ih =>
    obtain ⟨hk, hrest⟩ := List.forall_mem_cons.mp hp
    cases hpicked : p k with
    | true =>
      rw [List.filter_cons_of_pos hpicked, List.map_cons, winner?, winner?, ih hrest, hf]
      cases k.match? with
      | none => rfl
      | some mark =>
        cases winner? rest with
        | none => rfl
        | some best =>
          dsimp only [Option.map_some]
          split <;> rfl
    | false =>
      rw [List.filter_cons_of_neg (by simp [hpicked]), ih hrest]
      simp only [winner?, hk hpicked]

/-- Contenders without a remark can be left out, and of the others only the remark matters. -/
theorem spokesman?_map_filter {p : Contender ρ → Bool} {f : Contender ρ → Contender ρ'}
    (hp : ∀ k ∈ contenders, p k = false → k.remark? = none)
    (hf : ∀ k, (f k).remark? = k.remark?) :
    spokesman? ((contenders.filter p).map f) =
      (spokesman? contenders).map fun (k, remark) => (f k, remark) := by
  induction contenders with
  | nil => rfl
  | cons k rest ih =>
    obtain ⟨hk, hrest⟩ := List.forall_mem_cons.mp hp
    cases hpicked : p k with
    | true =>
      rw [List.filter_cons_of_pos hpicked, List.map_cons, spokesman?, spokesman?, ih hrest, hf]
      cases k.remark? with
      | none => rfl
      | some remark =>
        cases spokesman? rest with
        | none => rfl
        | some last =>
          dsimp only [Option.map_some]
          split <;> rfl
    | false =>
      rw [List.filter_cons_of_neg (by simp [hpicked]), ih hrest]
      simp only [spokesman?, hk hpicked]

end Picking

/-- The contender with the bare recognizer. -/
def bare (k : Contender (Recognizer κ (NoCustom κ))) : Contender (Recognizer κ (NoCustom κ)) :=
  { k with recognizer := k.recognizer.bare }

/-- The contenders with the bare recognizers of those that are active in the context. -/
def unwrap (context : Context) (contenders : List (Contender (Recognizer κ (NoCustom κ)))) :
    List (Contender (Recognizer κ (NoCustom κ))) :=
  (contenders.filter fun k => k.recognizer.isActiveIn context).map bare

/-- If its recognizer is not active in the context, the contender is out, and nothing is
remembered of it. -/
def IsHushed (context : Context) (k : Contender (Recognizer κ (NoCustom κ))) : Prop :=
  k.recognizer.isActiveIn context = false →
    k.isLive = false ∧ k.match? = none ∧ k.remark? = none

variable {k : Contender (Recognizer κ (NoCustom κ))} {context : Context}
  {contenders : List (Contender (Recognizer κ (NoCustom κ)))}

theorem isActiveIn_feed (context : Context) (c? : Option Char)
    (k : Contender (Recognizer κ (NoCustom κ))) :
    (k.feed context c?).recognizer.isActiveIn context = k.recognizer.isActiveIn context :=
  (Recognizer.isKept_isActiveIn context).feed context k c?

theorem bare_feed (h : k.recognizer.isActiveIn context = true) (c? : Option Char) :
    (k.feed context c?).bare = k.bare.feed context c? := by
  have htest := Recognizer.test_bare h c?
  unfold feed bare
  simp only [Recognizes.test, htest]
  split
  · cases (k.recognizer.test c? context).1 <;> rfl
  · rfl

theorem IsHushed.feed (h : k.IsHushed context) (c? : Option Char) :
    (k.feed context c?).IsHushed context := by
  intro hinactive
  rw [isActiveIn_feed] at hinactive
  rw [feed_of_not_live (h hinactive).1]
  exact h hinactive

/-- The first character puts the recognizers out that are not active. -/
theorem isHushed_feed_enter (context : Context) (r : Recognizer κ (NoCustom κ)) (c? : Option Char) :
    ((enter r).feed context c?).IsHushed context := by
  intro hinactive
  rw [isActiveIn_feed] at hinactive
  have htest : (Recognizes.test (enter r).recognizer c? context).1 = .noMatch :=
    Recognizer.test_of_not_active hinactive c?
  have hlive : (enter r).isLive = true := rfl
  simp only [Contender.feed, hlive, if_true, htest]
  exact ⟨trivial, rfl, rfl⟩

theorem unwrap_map_feed (context : Context) (c? : Option Char)
    (contenders : List (Contender (Recognizer κ (NoCustom κ)))) :
    unwrap context (contenders.map (feed context c?)) =
      (unwrap context contenders).map (feed context c?) :=
  map_filter_map (fun k _ => isActiveIn_feed context c? k) fun _ _ h => bare_feed h c?

theorem any_isLive_unwrap (h : ∀ k ∈ contenders, k.IsHushed context) :
    (unwrap context contenders).any isLive = contenders.any isLive := by
  rw [Bool.eq_iff_iff, List.any_eq_true, List.any_eq_true]
  constructor
  · rintro ⟨_, hmem, hlive⟩
    obtain ⟨k, hpicked, rfl⟩ := List.mem_map.mp hmem
    exact ⟨k, (List.mem_filter.mp hpicked).1, hlive⟩
  · rintro ⟨k, hmem, hlive⟩
    cases hactive : k.recognizer.isActiveIn context with
    | true => exact ⟨k.bare, List.mem_map_of_mem (List.mem_filter.mpr ⟨hmem, hactive⟩), hlive⟩
    | false => exact absurd hlive (Bool.eq_false_iff.mp (h k hmem hactive).1)

theorem winner?_unwrap (h : ∀ k ∈ contenders, k.IsHushed context) :
    winner? (unwrap context contenders) =
      (winner? contenders).map fun (k, mark) => (k.bare, mark) :=
  winner?_map_filter (fun k hk hinactive => (h k hk hinactive).2.1) fun _ => rfl

theorem spokesman?_unwrap (h : ∀ k ∈ contenders, k.IsHushed context) :
    spokesman? (unwrap context contenders) =
      (spokesman? contenders).map fun (k, remark) => (k.bare, remark) :=
  spokesman?_map_filter (fun k hk hinactive => (h k hk hinactive).2.2) fun _ => rfl

theorem map_recognizer_unwrap (context : Context)
    (contenders : List (Contender (Recognizer κ (NoCustom κ)))) :
    Recognizer.unwrap context (contenders.map recognizer) =
      (unwrap context contenders).map recognizer :=
  map_filter_map (fun _ _ => rfl) fun _ _ _ => rfl

end Contender

namespace Race

/-- The race of the bare recognizers of those that are active in the context. -/
def unwrapped (context : Context) (r : Race (Recognizer κ (NoCustom κ))) :
    Race (Recognizer κ (NoCustom κ)) :=
  { r with contenders := Contender.unwrap context r.contenders }

/-- Nothing is heard of the contenders that are not active in the context. -/
def IsHushed (context : Context) (r : Race (Recognizer κ (NoCustom κ))) : Prop :=
  ∀ k ∈ r.contenders, k.IsHushed context

variable {r : Race (Recognizer κ (NoCustom κ))} {context : Context}

theorem any_isLive_unwrapped (h : r.IsHushed context) :
    (r.unwrapped context).contenders.any Contender.isLive = r.contenders.any Contender.isLive :=
  Contender.any_isLive_unwrap h

theorem isHushed_start (context : Context) (recognizers : List (Recognizer κ (NoCustom κ)))
    (c : Char) (rest : Input) : (start context recognizers c rest).IsHushed context := by
  intro k hk
  obtain ⟨r, -, rfl⟩ := List.mem_map.mp hk
  exact Contender.isHushed_feed_enter context r (some c)

theorem unwrapped_start (context : Context) (recognizers : List (Recognizer κ (NoCustom κ)))
    (c : Char) (rest : Input) : (start context recognizers c rest).unwrapped context =
      start context (Recognizer.unwrap context recognizers) c rest := by
  have hcontenders : Contender.unwrap context (start context recognizers c rest).contenders =
      (Recognizer.unwrap context recognizers).map fun r =>
        (Contender.enter r).feed context (some c) := by
    apply map_filter_map
    · intro r _
      rw [Contender.isActiveIn_feed]
      exact (Recognizer.isKept_isActiveIn context).reset r
    · intro r _ hactive
      have hreset : (Contender.enter r).recognizer.isActiveIn context = true :=
        ((Recognizer.isKept_isActiveIn context).reset r).trans hactive
      rw [Contender.bare_feed hreset, Contender.bare, Contender.enter, Contender.enter]
      congr 2
      exact Recognizer.bare_reset r
  rw [unwrapped, hcontenders]
  rfl

theorem IsHushed.map_feed (h : r.IsHushed context) (c? : Option Char) :
    ∀ k ∈ r.contenders.map (Contender.feed context c?), k.IsHushed context := by
  intro k hk
  obtain ⟨before, hbefore, rfl⟩ := List.mem_map.mp hk
  exact (h before hbefore).feed c?

/-- The bare recognizers are fed as many characters. -/
theorem run_unwrapped (h : r.IsHushed context) :
    (r.unwrapped context).run context =
        ((r.run context).1, (r.run context).2.unwrapped context) ∧
      (r.run context).2.IsHushed context := by
  fun_induction run context r with
  | case1 r hlive error rest hread =>
    rw [run_eq_of_read ((any_isLive_unwrapped h).trans hlive) hread]
    exact ⟨rfl, h⟩
  | case2 r hlive rest hread =>
    rw [run_eq_of_read ((any_isLive_unwrapped h).trans hlive) hread]
    refine ⟨?_, h.map_feed none⟩
    simp only [close, unwrapped, Contender.unwrap_map_feed]
  | case3 r hlive c rest hread _ ih =>
    have hfeed : (r.unwrapped context).feed context c rest =
        (r.feed context c rest).unwrapped context := by
      simp only [feed, unwrapped, Contender.unwrap_map_feed]
    rw [run_eq_of_read ((any_isLive_unwrapped h).trans hlive) hread]
    dsimp only
    rw [hfeed]
    exact ih (h.map_feed (some c))
  | case4 r hlive =>
    rw [run, any_isLive_unwrapped h, if_neg hlive]
    exact ⟨rfl, h⟩

end Race

namespace Round

variable {r : Race (Recognizer κ (NoCustom κ))} {context : Context}

/-- Without a winner nothing shows that the recognizers are bare. -/
theorem settle_unwrapped_of_no_winner (h : r.IsHushed context)
    (hwinner : Contender.winner? r.contenders = none) :
    settle (r.unwrapped context) = settle r ∧ ∀ text token, (settle r).1 ≠ .found text token := by
  have hbare : Contender.winner? (r.unwrapped context).contenders = none := by
    rw [Race.unwrapped, Contender.winner?_unwrap h, hwinner]
    rfl
  have hspokesman : Contender.spokesman? (r.unwrapped context).contenders =
      (Contender.spokesman? r.contenders).map fun (k, remark) => (k.bare, remark) :=
    Contender.spokesman?_unwrap h
  unfold settle
  rw [hbare, hwinner, hspokesman]
  refine ⟨?_, by simp⟩
  cases Contender.spokesman? r.contenders with
  | none => rfl
  | some found =>
    obtain ⟨k, remark⟩ := found
    have hreason : Recognizes.reason? k.bare.recognizer = Recognizes.reason? k.recognizer :=
      Recognizer.reason?_bare k.recognizer
    simp only [Option.map_some, Option.bind_some, Option.any_some, hreason]
    rfl

/-- A race of bare recognizers is settled in the same way, but what the winner makes of the value
of its token is missing. -/
theorem settle_unwrapped_cases (h : r.IsHushed context) :
    (∃ place text token token' rest,
        (Contender.winnerPlace? r.contenders).map Prod.fst = some place ∧
        Recognizer.Finds context (r.contenders.map Contender.recognizer) place token token' ∧
        settle (r.unwrapped context) = (.found text token, rest) ∧
        settle r = (.found text token', rest)) ∨
      settle (r.unwrapped context) = settle r ∧ ∀ text token, (settle r).1 ≠ .found text token := by
  cases hwinner : Contender.winner? r.contenders with
  | none => exact Or.inr (settle_unwrapped_of_no_winner h hwinner)
  | some found =>
    obtain ⟨k, mark⟩ := found
    have hbare : Contender.winner? (r.unwrapped context).contenders = some (k.bare, mark) := by
      rw [Race.unwrapped, Contender.winner?_unwrap h, hwinner]
      rfl
    have hignored : Recognizes.isIgnored k.bare.recognizer = Recognizes.isIgnored k.recognizer :=
      Recognizer.isIgnored_bare k.recognizer
    have htoken : Recognizes.token? k.recognizer (r.text.take mark.length) =
        (Recognizes.token? k.bare.recognizer (r.text.take mark.length)).map
          fun token => { token with value? := k.recognizer.change token.value? } :=
      Recognizer.token?_eq k.recognizer _
    unfold settle
    rw [hbare, hwinner]
    dsimp only
    rw [show (r.unwrapped context).text = r.text from rfl, hignored, htoken]
    cases Recognizes.isIgnored k.recognizer with
    | true => exact Or.inr ⟨rfl, by simp⟩
    | false =>
      cases hfound : Recognizes.token? k.bare.recognizer (r.text.take mark.length) with
      | none => exact Or.inr ⟨rfl, by simp⟩
      | some token =>
        obtain ⟨place, hplace, hk, hmark⟩ := Contender.exists_place_of_winner? hwinner
        have hactive : k.recognizer.isActiveIn context = true := by
          cases hactive : k.recognizer.isActiveIn context with
          | true => rfl
          | false => simp [(h k (List.mem_of_getElem? hk) hactive).2.1] at hmark
        have htext : token.text.toList = r.text.take mark.length := by
          rw [Token.text, Recognizer.text?_of_token? hfound, Option.getD_some,
            String.toList_ofList]
        refine Or.inl ⟨place, _, token, _, _, by rw [hplace]; rfl,
          ⟨k.recognizer, ?_, hactive, ?_, rfl⟩, rfl, rfl⟩
        · rw [List.getElem?_map, hk, Option.map_some]
        · rw [htext]
          exact hfound

end Round

namespace Tokenizer

/-- The tokenizer with the bare recognizers of those that are active in the context. -/
def unwrapped (context : Context) (t : Tokenizer (Recognizer κ (NoCustom κ)) κ) :
    Tokenizer (Recognizer κ (NoCustom κ)) κ :=
  { t with recognizers := Recognizer.unwrap context t.recognizers }

section Finder

variable {ρ : Type} [Recognizes ρ κ]

/-- The place of the recognizer that wins the race of a round. -/
def winningPlace? (context : Context) (t : Tokenizer ρ κ) : Option Nat :=
  match t.input.read with
  | (.ok (some c), rest) =>
    (Contender.winnerPlace?
      ((Race.start context t.recognizers c rest).run context).2.contenders).map Prod.fst
  | (.ok none, _) => none
  | (.error _, _) => none

/-- The place of the recognizer that finds the token of a scan. -/
def finderPlace? (context : Context) (t : Tokenizer ρ κ) : Option Nat :=
  match h : t.round context with
  | (.found _ _, _) => t.winningPlace? context
  | (.skipped _, t') =>
    have : t'.input.size < t.input.size := size_lt_of_round h rfl
    finderPlace? context t'
  | (.endOfInput, _) => none
  | (.unrecognized _ _ _, _) => none
  | (.broken _, _) => none
termination_by t.input.size

theorem finderPlace?_eq_of_round {context : Context} {t t' : Tokenizer ρ κ} {finding : Round κ}
    (h : t.round context = (finding, t')) :
    t.finderPlace? context = match finding with
      | .found _ _ => t.winningPlace? context
      | .skipped _ => t'.finderPlace? context
      | .endOfInput => none
      | .unrecognized _ _ _ => none
      | .broken _ => none := by
  rw [finderPlace?]
  split
  all_goals
    next heq =>
      rw [h] at heq
      cases heq
      rfl

end Finder

/-- A round of bare recognizers finds the same, but what the winner makes of the value of its
token is missing. -/
theorem round_unwrapped_cases (context : Context) (t : Tokenizer (Recognizer κ (NoCustom κ)) κ) :
    (∃ place text token token' t', t.winningPlace? context = some place ∧
        Recognizer.Finds context t.recognizers place token token' ∧
        (t.unwrapped context).round context = (.found text token, t'.unwrapped context) ∧
        t.round context = (.found text token', t')) ∨
      ∃ finding t', (∀ text token, finding ≠ .found text token) ∧
        (t.unwrapped context).round context = (finding, t'.unwrapped context) ∧
        t.round context = (finding, t') := by
  unfold round Round.play winningPlace? unwrapped
  dsimp only
  cases hread : t.input.read with
  | mk result rest =>
    rcases result with error | _ | c
    · refine Or.inr ⟨.broken error, { t with
        recognizers := t.recognizers.map Recognizes.reset
        input := rest }, by simp, ?_, rfl⟩
      rw [Recognizer.unwrap_map_reset]
    · refine Or.inr ⟨.endOfInput, { t with
        recognizers := t.recognizers.map Recognizes.reset
        input := rest }, by simp, ?_, rfl⟩
      rw [Recognizer.unwrap_map_reset]
    · have hstart := Race.unwrapped_start context t.recognizers c rest
      obtain ⟨hrun, hhushed⟩ :=
        Race.run_unwrapped (Race.isHushed_start context t.recognizers c rest)
      have hkept : ∀ {β : Type} {f : Recognizer κ (NoCustom κ) → β}, IsKept f →
          (((Race.start context t.recognizers c rest).run context).2.contenders.map
            Contender.recognizer).map f = t.recognizers.map f := by
        intro β f hf
        exact hf.map_race context t.recognizers c rest
      rw [hstart] at hrun
      dsimp only
      rw [hrun]
      generalize (Race.start context t.recognizers c rest).run context = outcome at hhushed hkept ⊢
      obtain ⟨error?, race⟩ := outcome
      have hafter := Contender.map_recognizer_unwrap context race.contenders
      cases error? with
      | some error =>
        refine Or.inr ⟨.broken error, { t with
          recognizers := race.contenders.map Contender.recognizer
          input := race.input }, by simp, ?_, rfl⟩
        rw [hafter]
        rfl
      | none =>
        rcases Round.settle_unwrapped_cases hhushed with
          ⟨place, text, token, token', left, hplace, hfinds, hbare, hsettle⟩ | ⟨hsame, hnot⟩
        · refine Or.inl ⟨place, text, token, token', { t with
            recognizers := race.contenders.map Contender.recognizer
            input := left }, hplace, hfinds.of_kept hkept, ?_, ?_⟩
          · rw [hbare, hafter]
            rfl
          · rw [hsettle]
        · refine Or.inr ⟨(Round.settle race).1, { t with
            recognizers := race.contenders.map Contender.recognizer
            input := (Round.settle race).2 }, hnot, ?_, rfl⟩
          rw [hsame, hafter]
          rfl

/-- The bare recognizers skip and discard the same. -/
theorem losses_unwrapped (context : Context) (t : Tokenizer (Recognizer κ (NoCustom κ)) κ) :
    Lossless.losses context (t.unwrapped context) = Lossless.losses context t := by
  rcases round_unwrapped_cases context t with
    ⟨_, text, token, token', t', -, -, hbare, hround⟩ | ⟨finding, t', -, hbare, hround⟩
  · rw [Lossless.losses_eq_of_round hbare, Lossless.losses_eq_of_round hround]
  · rw [Lossless.losses_eq_of_round hbare, Lossless.losses_eq_of_round hround]
    cases finding with
    | skipped text =>
      have := size_lt_of_round hround rfl
      exact congrArg _ (losses_unwrapped context t')
    | endOfInput => rfl
    | found text token => rfl
    | unrecognized text reason? part => rfl
    | broken error => rfl
termination_by t.input.size

/-- A scan of bare recognizers has the same result, but what the finder makes of the value of its
token is missing. -/
theorem scan_unwrapped_cases (context : Context) (t : Tokenizer (Recognizer κ (NoCustom κ)) κ) :
    (∃ place token token' t', t.finderPlace? context = some place ∧
        Recognizer.Finds context t.recognizers place token token' ∧
        (t.unwrapped context).scan context = (.ok token, t'.unwrapped context) ∧
        t.scan context = (.ok token', t')) ∨
      ∃ result t', t.finderPlace? context = none ∧
        (t.unwrapped context).scan context = (result, t'.unwrapped context) ∧
        t.scan context = (result, t') := by
  rcases round_unwrapped_cases context t with
    ⟨place, text, token, token', t', hplace, hfinds, hbare, hround⟩ |
    ⟨finding, t', hnot, hbare, hround⟩
  · rw [scan_eq_of_round hbare, scan_eq_of_round hround, finderPlace?_eq_of_round hround]
    exact Or.inl ⟨place, token, token', t', hplace, hfinds, rfl, rfl⟩
  · rw [scan_eq_of_round hbare, scan_eq_of_round hround, finderPlace?_eq_of_round hround]
    cases finding with
    | skipped text =>
      have := size_lt_of_round hround rfl
      rcases scan_unwrapped_cases context t' with
        ⟨place, token, token', after, hplace, hfinds, hscan⟩ | hscan
      · have hkept : ∀ {β : Type} {f : Recognizer κ (NoCustom κ) → β}, IsKept f →
            t'.recognizers.map f = t.recognizers.map f := by
          intro β f hf
          have hmap := hf.map_round context t
          rwa [hround] at hmap
        exact Or.inl ⟨place, token, token', after, hplace, hfinds.of_kept hkept, hscan⟩
      · exact Or.inr hscan
    | found text token => exact absurd rfl (hnot text token)
    | endOfInput => exact Or.inr ⟨_, t', rfl, rfl, rfl⟩
    | unrecognized text reason? part => exact Or.inr ⟨_, t', rfl, rfl, rfl⟩
    | broken error => exact Or.inr ⟨_, t', rfl, rfl, rfl⟩
termination_by t.input.size

/-- In a context a scan goes as it does with the bare recognizers of those that are active in it:
it skips and discards the same, leaves the same input and has the same result. Only the value of
a token it finds is what the recognizer that found it makes of the value of the bare one. -/
theorem scan_sees_through_wrappers (context : Context)
    (t : Tokenizer (Recognizer κ (NoCustom κ)) κ) :
    ((t.unwrapped context).scan context).2 = (t.scan context).2.unwrapped context ∧
      Lossless.losses context (t.unwrapped context) = Lossless.losses context t ∧
      match t.finderPlace? context with
      | none => ((t.unwrapped context).scan context).1 = (t.scan context).1
      | some place => ∃ r token, t.recognizers[place]? = some r ∧
          r.isActiveIn context = true ∧ r.bare.token? token.text.toList = some token ∧
          ((t.unwrapped context).scan context).1 = .ok token ∧
          (t.scan context).1 = .ok { token with value? := r.change token.value? } := by
  rcases scan_unwrapped_cases context t with
    ⟨place, token, token', t', hplace, ⟨r, hr, hactive, htoken, rfl⟩, hbare, hscan⟩ |
    ⟨result, t', hplace, hbare, hscan⟩
  · rw [hbare, hscan, hplace]
    exact ⟨rfl, losses_unwrapped context t, r, token, hr, hactive, htoken, rfl, rfl⟩
  · rw [hbare, hscan, hplace]
    exact ⟨rfl, losses_unwrapped context t, rfl⟩

end Tokenizer
end ShiftReduce
