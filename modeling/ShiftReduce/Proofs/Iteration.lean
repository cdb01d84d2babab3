import ShiftReduce.Proofs.Interruptions
import ShiftReduce.Proofs.Stepwise

/-!
The sequence of all tokens and errors of a text. Nothing is asked of the recognizers but
that a token they make has a text: they may answer as they like, match again what they
have refused, and make no token of a match. A round that does not find the end of a text
still takes a character from it, so the sequence ends, with the token for the end of the
input, after at most as many items as the text has characters.
-/
namespace ShiftReduce

variable {ρ κ υ : Type}

/-- Whatever token is made for a match has a text. -/
def TokensHaveText (ρ κ : Type) [Recognizes ρ κ] : Prop :=
  ∀ (r : ρ) (text : List Char) (token : Token κ),
    Recognizes.token? r text = some token → token.text?.isSome

/-- If one's own recognizers make tokens with a text, all recognizers do. -/
theorem Recognizer.tokensHaveText [Recognizes υ κ] (h : TokensHaveText υ κ) :
    TokensHaveText (Recognizer κ υ) κ := by
  intro r text token htoken
  induction r generalizing token with
  | lexeme kind pattern =>
    cases htoken
    rfl
  | trivia pattern => cases htoken
  | active isActive inner ih => exact ih token htoken
  | mapped transform inner ih =>
    obtain ⟨before, hbefore, rfl⟩ := Option.map_eq_some_iff.mp htoken
    have htext := ih before hbefore
    exact htext
  | custom fresh current => exact h current text token htoken

section Rounds

variable [Recognizes ρ κ]

/-- A race with a first character finds something that takes a character. -/
theorem Round.taken_ne_nil_of_settle {r : Race ρ} (h : r.Started) : (settle r).1.taken ≠ [] := by
  have htext : 0 < r.text.length := by
    rw [Race.text, List.length_reverse]
    exact List.length_pos_iff.mpr h.1
  have htake : ∀ count, 0 < count → r.text.take count ≠ [] := by
    intro count hcount
    apply List.ne_nil_of_length_pos
    rw [List.length_take]
    omega
  unfold settle
  split
  · next k mark hwinner =>
    obtain ⟨hmem, hmark⟩ := Contender.mem_of_winner? hwinner
    have hpos : 0 < mark.length := (h.2 k hmem).2 mark hmark
    dsimp only
    split
    · exact htake _ hpos
    · exact htake _ hpos
  · apply htake
    split
    · exact htext
    · exact Nat.one_pos

/-- A token that a race finds was made by one of the contenders. -/
theorem Round.exists_token?_of_settle {r : Race ρ} {text : List Char} {token : Token κ}
    (h : (settle r).1 = .found text token) :
    ∃ k ∈ r.contenders, Recognizes.token? k.recognizer text = some token := by
  unfold settle at h
  split at h
  · next k mark hwinner =>
    dsimp only at h
    split at h
    · next htoken =>
      cases h
      exact ⟨k, (Contender.mem_of_winner? hwinner).1, htoken⟩
    · cases h
  · cases h

namespace Tokenizer

variable {context : Context} {t t' : Tokenizer ρ κ} {text : List Char} {finding : Round κ}

/-- A round over a text takes its front and leaves the rest, and no read fails. -/
theorem exists_rest_of_round (h : t.input.Spells text)
    (hround : t.round context = (finding, t')) :
    (∀ error, finding ≠ .broken error) ∧
      ∃ rest, text = finding.taken ++ rest ∧ t'.input.Spells rest := by
  have hwhole : ∀ error, finding ≠ .broken error := by
    rintro error rfl
    obtain ⟨front, last, hyields, hlast⟩ := exists_yields_of_round hround
    exact h.read_ne_error hyields hlast
  have halike := alike_giveBack_of_round hround hwhole
  exact ⟨hwhole, Input.exists_of_spells_giveBack (halike.spells h)⟩

/-- A round that takes text settles a race with a first character, which leaves the
recognizers behind. -/
theorem exists_race_of_round (hround : t.round context = (finding, t'))
    (htakes : finding.takesText = true) :
    ∃ race : Race ρ, race.Started ∧ (Round.settle race).1 = finding ∧
      t'.recognizers = race.contenders.map Contender.recognizer := by
  rcases round_cases context t with ⟨error, rest, -, hcase⟩ | ⟨rest, -, hcase⟩ |
    ⟨c, rest, error, race, -, -, hcase⟩ | ⟨c, rest, race, -, hrun, hcase⟩
  · rw [hcase] at hround
    cases hround
    cases htakes
  · rw [hcase] at hround
    cases hround
    cases htakes
  · rw [hcase] at hround
    cases hround
    cases htakes
  · rw [hcase] at hround
    have hstarted := Race.started_start context t.recognizers c rest
    obtain ⟨hfinding, rfl⟩ := Prod.mk.inj hround
    exact ⟨race, hstarted.run context hrun, hfinding, rfl⟩

theorem taken_ne_nil_of_round (hround : t.round context = (finding, t'))
    (htakes : finding.takesText = true) : finding.taken ≠ [] := by
  obtain ⟨race, hstarted, rfl, -⟩ := exists_race_of_round hround htakes
  exact Round.taken_ne_nil_of_settle hstarted

theorem exists_token?_of_round {matched : List Char} {token : Token κ}
    (hround : t.round context = (.found matched token, t')) :
    ∃ r ∈ t'.recognizers, Recognizes.token? r matched = some token := by
  obtain ⟨race, -, hfinding, hrecognizers⟩ := exists_race_of_round hround rfl
  obtain ⟨k, hk, htoken⟩ := Round.exists_token?_of_settle hfinding
  exact ⟨k.recognizer, hrecognizers ▸ List.mem_map_of_mem hk, htoken⟩

theorem isSome_text?_of_round (hhave : TokensHaveText ρ κ) {matched : List Char} {token : Token κ}
    (hround : t.round context = (.found matched token, t')) : token.text?.isSome := by
  obtain ⟨recognizer, -, htoken⟩ := exists_token?_of_round hround
  exact hhave recognizer matched token htoken

/-- A token that a scan finds stands for the end of the input, or a recognizer made it. -/
theorem token_cases_of_scan {token : Token κ} (h : t.scan context = (.ok token, t')) :
    token = Token.endOfInput t.endKind ∨
      ∃ r ∈ t'.recognizers, ∃ text, Recognizes.token? r text = some token := by
  fun_induction scan context t with
  | case1 t after hround =>
    cases h
    exact Or.inl rfl
  | case2 t matched found after hround =>
    cases h
    obtain ⟨r, hr, hmade⟩ := exists_token?_of_round hround
    exact Or.inr ⟨r, hr, matched, hmade⟩
  | case3 t skipped after hround _ ih => exact endKind_of_round hround ▸ ih h
  | case4 t text reason? discarded after hround => cases h
  | case5 t error after hround => cases h

/-- A token that a scan finds was made by one of the recognizers, unless it stands for the end
of the input. -/
theorem exists_token?_of_scan {token : Token κ} (h : t.scan context = (.ok token, t'))
    (htoken : token.isEndOfInput = false) :
    ∃ r ∈ t'.recognizers, ∃ text, Recognizes.token? r text = some token := by
  rcases token_cases_of_scan h with rfl | hmade
  · cases htoken
  · exact hmade

/-- A scan over a text takes its front. Either it finds the end of the input and nothing is
left, or it takes a character and its result is not the last. -/
theorem exists_rest_of_scan (hhave : TokensHaveText ρ κ) (h : t.input.Spells text)
    {item : Lexed κ} (hscan : t.scan context = (item, t')) :
    ∃ taken rest, text = taken ++ rest ∧ t'.input.Spells rest ∧
      (item = .ok (Token.endOfInput t.endKind) ∧ rest = [] ∨
        isLast item = false ∧ taken ≠ []) := by
  fun_induction scan context t generalizing text with
  | case1 t after hround =>
    cases hscan
    obtain ⟨-, rest, htext, hrest⟩ := exists_rest_of_round h hround
    have hnothing : rest = [] := hrest.unique (spells_nil_of_round hround)
    exact ⟨_, rest, htext, hrest, Or.inl ⟨rfl, hnothing⟩⟩
  | case2 t matched token after hround =>
    cases hscan
    obtain ⟨-, rest, htext, hrest⟩ := exists_rest_of_round h hround
    have hsome := isSome_text?_of_round hhave hround
    refine ⟨_, rest, htext, hrest, Or.inr ⟨?_, taken_ne_nil_of_round hround rfl⟩⟩
    rw [isLast, Token.isEndOfInput, Option.isNone_eq_false_iff]
    exact hsome
  | case3 t skipped after hround _ ih =>
    obtain ⟨-, left, htext, hleft⟩ := exists_rest_of_round h hround
    obtain ⟨taken, rest, rfl, hrest, hitem⟩ := ih hleft hscan
    refine ⟨skipped ++ taken, rest, ?_, hrest, ?_⟩
    · rw [htext, Round.taken, List.append_assoc]
    · rcases hitem with ⟨hlast, hnothing⟩ | ⟨hnext, hne⟩
      · exact Or.inl ⟨endKind_of_round hround ▸ hlast, hnothing⟩
      · exact Or.inr ⟨hnext, List.append_ne_nil_of_right_ne_nil _ hne⟩
  | case4 t found reason? discarded after hround =>
    cases hscan
    obtain ⟨-, rest, htext, hrest⟩ := exists_rest_of_round h hround
    exact ⟨_, rest, htext, hrest, Or.inr ⟨rfl, taken_ne_nil_of_round hround rfl⟩⟩
  | case5 t error after hround =>
    exact absurd rfl ((exists_rest_of_round h hround).1 error)

end Tokenizer

end Rounds

namespace Tokenizer

section Items

variable [Recognizes ρ κ]

/-- The tokenizer after so many items of its sequence. -/
def afterItems : Nat → Tokenizer ρ κ → Tokenizer ρ κ
  | 0, t => t
  | count + 1, t => afterItems count t.nextItem?.2

/-- The item with a number, counted from zero. -/
def itemAt? (place : Nat) (t : Tokenizer ρ κ) : Option (Lexed κ) :=
  (t.afterItems place).nextItem?.1

variable {t t' : Tokenizer ρ κ}

theorem itemAt?_of_isFinished (h : t.isFinished = true) (place : Nat) :
    t.itemAt? place = none := by
  have hnext : t.nextItem? = (none, t) := by rw [nextItem?, if_pos h]
  have hsame : t.afterItems place = t := by
    induction place with
    | zero => rfl
    | succ place ih => rwa [afterItems, hnext]
  rw [itemAt?, hsame, hnext]

/-- The items of a text in their order: so many that take a character each, the token for
the end of the input when nothing is left of the text, and nothing more. -/
structure EndsAfter (t : Tokenizer ρ κ) (count : Nat) : Prop where
  takes : ∀ place < count, ∃ item taken rest, t.itemAt? place = some item ∧
    isLast item = false ∧ (t.afterItems place).input.Spells (taken ++ rest) ∧
    (t.afterItems (place + 1)).input.Spells rest ∧ taken ≠ []
  ends : t.itemAt? count = some (.ok (Token.endOfInput t.endKind))
  exhausts : (t.afterItems (count + 1)).input.Spells []
  stays : ∀ place, count < place → t.itemAt? place = none

section Next

variable {item : Lexed κ} (hnext : t.nextItem? = (some item, t'))

include hnext

/-- Behind the first item the sequence is that of the tokenizer after it. -/
theorem afterItems_succ (place : Nat) : t.afterItems (place + 1) = t'.afterItems place := by
  rw [afterItems, hnext]

theorem itemAt?_succ (place : Nat) : t.itemAt? (place + 1) = t'.itemAt? place := by
  rw [itemAt?, afterItems_succ hnext, itemAt?]

/-- When the end of the input is found, it is the only item. -/
theorem endsAfter_zero (hitem : item = .ok (Token.endOfInput t.endKind))
    (hfinished : t'.isFinished = true) (hrest : t'.input.Spells []) : t.EndsAfter 0 := by
  refine ⟨?_, ?_, ?_, ?_⟩
  · intro place hplace
    omega
  · rw [← hitem]
    exact congrArg Prod.fst hnext
  · rw [afterItems_succ hnext]
    exact hrest
  · intro place hplace
    cases place with
    | zero => omega
    | succ place => rw [itemAt?_succ hnext, itemAt?_of_isFinished hfinished]

/-- An item that takes a character is put before the others. -/
theorem EndsAfter.cons {count : Nat} {taken rest : List Char} (h : t'.EndsAfter count)
    (hend : t'.endKind = t.endKind) (hlast : isLast item = false)
    (htext : t.input.Spells (taken ++ rest)) (hrest : t'.input.Spells rest) (htaken : taken ≠ []) :
    t.EndsAfter (count + 1) := by
  refine ⟨?_, ?_, ?_, ?_⟩
  · intro place hplace
    cases place with
    | zero =>
      refine ⟨item, taken, rest, congrArg Prod.fst hnext, hlast, htext, ?_, htaken⟩
      rw [afterItems_succ hnext]
      exact hrest
    | succ place =>
      rw [itemAt?_succ hnext, afterItems_succ hnext, afterItems_succ hnext]
      exact h.takes place (by omega)
  · rw [itemAt?_succ hnext, h.ends, hend]
  · rw [afterItems_succ hnext]
    exact h.exhausts
  · intro place hplace
    cases place with
    | zero => omega
    | succ place =>
      rw [itemAt?_succ hnext]
      exact h.stays place (by omega)

end Next

theorem exists_endsAfter (hhave : TokensHaveText ρ κ) {text : List Char}
    (h : t.input.Spells text) (hpeeked : t.peeked? = none) (hrunning : t.isFinished = false) :
    ∃ count ≤ text.length, t.EndsAfter count := by
  -- An item that is not the last takes a character, so the rest of the text is shorter.
  generalize hbound : text.length = bound
  induction bound using Nat.strongRecOn generalizing t text with
  | ind bound ih =>
    obtain ⟨item, t', hscan⟩ : ∃ item t', t.scan {} = (item, t') := ⟨_, _, rfl⟩
    have hnext : t.nextItem? = (some item, { t' with isFinished := isLast item }) := by
      rw [nextItem?, if_neg (by simp [hrunning]), next_of_peeked?_eq_none hpeeked, hscan]
    obtain ⟨hpeeked', -, hend⟩ := scan_frame hscan
    obtain ⟨taken, rest, rfl, hrest, ⟨hitem, rfl⟩ | ⟨hlast, htaken⟩⟩ :=
      exists_rest_of_scan hhave h hscan
    · have hfinished : isLast item = true := by rw [hitem]; rfl
      exact ⟨0, Nat.zero_le _, endsAfter_zero hnext hitem hfinished hrest⟩
    · have hpos : 0 < taken.length := List.length_pos_iff.mpr htaken
      rw [List.length_append] at hbound
      obtain ⟨count, hcount, hends⟩ := ih rest.length (by omega)
        (t := { t' with isFinished := isLast item }) hrest (hpeeked'.trans hpeeked) hlast rfl
      exact ⟨count + 1, by omega, hends.cons hnext hend hlast h hrest htaken⟩

end Items

/-- Every scan returns, whatever its recognizers answer, and a match that is skipped takes
a character. Over a text the items are at most one more than the characters: the token for
the end of the input comes last and only there, when nothing is left of the text, nothing
follows it, and every item before it takes a character. -/
theorem items_end_with_endOfInput [Recognizes υ κ]
    (hhave : ∀ (r : υ) (text : List Char) (token : Token κ),
      Recognizes.token? r text = some token → token.text?.isSome)
    (recognizers : List (Recognizer κ υ)) (endKind : κ) (text : List Char) :
    (∀ (context : Context) (s : Tokenizer (Recognizer κ υ) κ),
      ∃ steps ≤ (s.input.size + 1) * (s.input.size + 2),
        (Scan.round s).after context steps = .finished (s.scan context).1 (s.scan context).2) ∧
    (∀ (context : Context) (s s' : Tokenizer (Recognizer κ υ) κ) (left skipped : List Char),
      s.input.Spells left → s.round context = (.skipped skipped, s') →
      ∃ rest, left = skipped ++ rest ∧ s'.input.Spells rest ∧ skipped ≠ []) ∧
    let t := ofSource recognizers endKind (.text text)
    ∃ count ≤ text.length,
      (∀ place < count, ∃ item taken rest, t.itemAt? place = some item ∧
        (∀ token, item = .ok token → token.isEndOfInput = false) ∧
        (t.afterItems place).input.Spells (taken ++ rest) ∧
        (t.afterItems (place + 1)).input.Spells rest ∧ taken ≠ []) ∧
      t.itemAt? count = some (.ok (Token.endOfInput endKind)) ∧
      (t.afterItems (count + 1)).input.Spells [] ∧
      ∀ place, count < place → t.itemAt? place = none := by
  refine ⟨exists_steps_of_scan, ?_, ?_⟩
  · intro context s s' left skipped hleft hround
    obtain ⟨-, rest, htext, hrest⟩ := exists_rest_of_round hleft hround
    exact ⟨rest, htext, hrest, taken_ne_nil_of_round hround rfl⟩
  · intro t
    have htext : t.input.Spells text := Input.spells_of_source_eq rfl
    obtain ⟨count, hcount, hends⟩ :=
      exists_endsAfter (Recognizer.tokensHaveText hhave) htext rfl rfl
    refine ⟨count, hcount, ?_, hends.ends, hends.exhausts, hends.stays⟩
    intro place hplace
    obtain ⟨item, taken, rest, hitem, hlast, hbefore, hafter, htaken⟩ := hends.takes place hplace
    refine ⟨item, taken, rest, hitem, ?_, hbefore, hafter, htaken⟩
    rintro token rfl
    exact hlast

/-- A recognizer that counts what it is fed and keeps the count when it is reset. It matches
again after it has failed, also the end of the input, and makes a token of some matches. -/
structure Fickle where
  fed : Nat := 0

instance : Recognizes Fickle String where
  reset r := r
  test r _ _ := (if r.fed % 3 = 0 then .fullMatch else if r.fed % 3 = 1 then .failure else .noMatch,
    ⟨r.fed + 1⟩)
  isIgnored _ := false
  reason? _ := none
  token? r text :=
    if r.fed % 2 = 1 then some (Token.ofText "fickle" (String.ofList text) none) else none

/-- It skips the first of three characters, and there are no more than four items. -/
theorem items_end_with_endOfInput_fickle :
    (∀ (r : Fickle) (text : List Char) (token : Token String),
      Recognizes.token? r text = some token → token.text?.isSome) ∧
    let t := ofSource [Recognizer.ofCustom (κ := String) (⟨0⟩ : Fickle)] "$"
      (.text ['a', 'b', 'c'])
    (∃ steps ≤ 20, (Scan.round t).after {} steps = .finished (t.scan {}).1 (t.scan {}).2) ∧
      (∃ s, t.round {} = (.skipped ['a'], s) ∧ s.input.Spells ['b', 'c']) ∧
      t.itemAt? 4 = none := by
  have hhave : ∀ (r : Fickle) (text : List Char) (token : Token String),
      Recognizes.token? r text = some token → token.text?.isSome := by
    intro r text token htoken
    simp only [Recognizes.token?] at htoken
    split at htoken
    · cases htoken
      rfl
    · cases htoken
  refine ⟨hhave, ?_⟩
  intro t
  obtain ⟨hreturns, hskips, count, hcount, -, -, -, hnothing⟩ :=
    items_end_with_endOfInput hhave [Recognizer.ofCustom ⟨0⟩] "$" ['a', 'b', 'c']
  obtain ⟨s, hround⟩ : ∃ s, t.round {} = (.skipped ['a'], s) := ⟨_, by with_unfolding_all rfl⟩
  have hspells : t.input.Spells ['a', 'b', 'c'] := Input.spells_of_source_eq rfl
  obtain ⟨rest, htext, hrest, -⟩ := hskips {} t s _ _ hspells hround
  have hleft : rest = ['b', 'c'] := by simpa using htext.symm
  exact ⟨hreturns {} t, ⟨s, hround, hleft ▸ hrest⟩, hnothing 4 (Nat.lt_succ_of_le hcount)⟩

end Tokenizer

end ShiftReduce
