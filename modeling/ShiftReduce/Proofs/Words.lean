import ShiftReduce.Proofs.NumeralValues

/-!
The texts that are matched as a whole: an identifier by its first character and the others, a
truth value by its two phrases, and a run of blanks by every character in it. No blank is part
of an identifier, a number or a truth value, so a word that is recognized, even as a fixed text
without blanks, ends in front of the next blank.
-/
namespace ShiftReduce

open Pattern Unicode

namespace Unicode

/-- The code points in some runs. -/
def codePoints (runs : List Run) : List Nat :=
  runs.flatMap fun run => List.range' run.1 (run.2 + 1 - run.1)

theorem mem_codePoints_of_covers {n : Nat} {runs : List Run} (h : covers n runs = true) :
    n ∈ codePoints runs := by
  obtain ⟨run, hrun, hfirst, hlast⟩ := exists_of_covers h
  rw [codePoints, List.mem_flatMap]
  refine ⟨run, hrun, List.mem_range'_1.mpr ?_⟩
  omega

theorem isAlphabetic_of_isBlank {c : Char} (h : isBlank c = true) : isAlphabetic c = false := by
  have hnone : ∀ n ∈ codePoints blankRuns, covers n alphabeticRuns = false := by decide +kernel
  exact hnone _ (mem_codePoints_of_covers h)

theorem isNumeric_of_isBlank {c : Char} (h : isBlank c = true) : isNumeric c = false := by
  have hnone : ∀ n ∈ codePoints blankRuns, covers n numericRuns = false := by decide +kernel
  exact hnone _ (mem_codePoints_of_covers h)

end Unicode

namespace Pattern

theorem isIdentifierPart_of_isBlank {c : Char} (h : isBlank c = true) :
    isIdentifierPart c = false := by
  have hother : c ≠ '_' ∧ c ≠ '$' := by
    constructor
    · rintro rfl
      exact absurd h (by decide)
    · rintro rfl
      exact absurd h (by decide)
  simp [isIdentifierPart, isAlphabetic_of_isBlank h, isNumeric_of_isBlank h, hother]

theorem isIdentifierPart_of_isIdentifierStart {c : Char} (h : isIdentifierStart c = true) :
    isIdentifierPart c = true := by
  simp only [isIdentifierStart, isIdentifierPart, Bool.or_eq_true] at h ⊢
  tauto

/-- The texts that complete an identifier from a state on. -/
def Identifier.Completes : Identifier → List Char → Prop
  | .start, text => (∀ c ∈ text.head?, isIdentifierStart c = true) ∧
      ∀ c ∈ text, isIdentifierPart c = true
  | .inside, text => ∀ c ∈ text, isIdentifierPart c = true
  | .over, _ => False

theorem Identifier.completes_test (i : Identifier) (c : Char) :
    ((i.test (some c)).1 = .fullMatch ↔ i.Completes [c]) ∧
      ∀ d more, (i.test (some c)).2.Completes (d :: more) ↔ i.Completes (c :: d :: more) := by
  cases i with
  | start =>
    have hpart := @isIdentifierPart_of_isIdentifierStart c
    by_cases hc : isIdentifierStart c = true
    · simp [Identifier.test, Completes, hc, hpart hc]
    · simp [Identifier.test, Completes, hc]
  | inside =>
    by_cases hc : isIdentifierPart c = true
    · simp [Identifier.test, Completes, hc]
    · simp [Identifier.test, Completes, hc]
  | _ => simp [Identifier.test, Completes]

/-- The texts that go on with a run of blanks. -/
def Blanks.Completes : Blanks → List Char → Prop
  | .running, text => ∀ c ∈ text, isBlank c = true
  | .over, _ => False

theorem Blanks.completes_test (b : Blanks) (c : Char) :
    ((b.test (some c)).1 = .fullMatch ↔ b.Completes [c]) ∧
      ∀ d more, (b.test (some c)).2.Completes (d :: more) ↔ b.Completes (c :: d :: more) := by
  cases b with
  | running =>
    by_cases hc : isBlank c = true
    · simp [Blanks.test, Completes, hc]
    · simp [Blanks.test, Completes, hc]
  | _ => simp [Blanks.test, Completes]

/-- The texts that complete a truth value: from the first character on one of the two phrases,
and later what is still expected of the phrase. -/
def Truth.Completes : Truth → List Char → Prop
  | .start, text => text = "true".toList ∨ text = "false".toList
  | .inside (.expecting rest), text => text = rest
  | .inside .over, _ => False

theorem Truth.completes_test (t : Truth) (c : Char) :
    ((t.test (some c)).1 = .fullMatch ↔ t.Completes [c]) ∧
      ∀ d more, (t.test (some c)).2.Completes (d :: more) ↔ t.Completes (c :: d :: more) := by
  cases t with
  | start =>
    by_cases htrue : c = 't'
    · subst htrue
      simp [Truth.test, Completes]
    · by_cases hfalse : c = 'f'
      · subst hfalse
        simp [Truth.test, Completes]
      · simp [Truth.test, Completes, htrue, hfalse]
  | inside progress =>
    cases progress with
    | expecting rest =>
      cases rest with
      | nil => simp [Truth.test, Phrase.Progress.test, Completes]
      | cons d rest =>
        by_cases hc : c = d
        · cases rest with
          | nil => simp [Truth.test, Phrase.Progress.test, Completes, hc]
          | cons e rest => simp [Truth.test, Phrase.Progress.test, Completes, hc]
        · simp [Truth.test, Phrase.Progress.test, Completes, hc]
    | _ => simp [Truth.test, Phrase.Progress.test, Completes]

/-- What completes a numeric literal holds no blank. -/
theorem Numeral.isBlank_of_mem_completion {n : Numeral} {text : List Char}
    (h : text ∈ n.completion.matches') : ∀ c ∈ text, isBlank c = false := by
  induction text generalizing n with
  | nil => simp
  | cons c text ih =>
    have hbranches : ∀ b ∈ n.branches, ∀ c ∈ b.1, isBlank c = false := by
      simp only [← List.all_eq_true, ← Bool.not_eq_true']
      cases n with
      | _ => rfl
    obtain ⟨b, hb, hc, hrest⟩ := cons_mem_completion.mp h
    exact List.forall_mem_cons.mpr ⟨hbranches b hb c hc, ih hrest⟩

end Pattern

namespace Recognizer

variable {κ υ : Type} [Recognizes υ κ] {context : Context} {kind : κ} {text : List Char}

theorem matchesWhole_identifier_iff :
    MatchesWhole context (.identifier kind : Recognizer κ υ) text ↔
      text ≠ [] ∧ (∀ c ∈ text.head?, isIdentifierStart c = true) ∧
        ∀ c ∈ text, isIdentifierPart c = true :=
  matchesWhole_iff_of_completes (fun i => .lexeme kind (.identifier i)) Identifier.Completes .start
    rfl (fun _ _ => rfl) Identifier.completes_test text

theorem matchesWhole_boolean_iff :
    MatchesWhole context (.boolean kind : Recognizer κ υ) text ↔
      text = "true".toList ∨ text = "false".toList := by
  have hiff : MatchesWhole context (.boolean kind : Recognizer κ υ) text ↔
      text ≠ [] ∧ Truth.start.Completes text :=
    matchesWhole_iff_of_completes (fun t => .lexeme kind (.truth t)) Truth.Completes .start
      rfl (fun _ _ => rfl) Truth.completes_test text
  refine hiff.trans (and_iff_right_of_imp ?_)
  rintro (rfl | rfl) <;> simp

theorem matchesWhole_blanks_iff :
    MatchesWhole context (.blanks : Recognizer κ υ) text ↔
      text ≠ [] ∧ ∀ c ∈ text, isBlank c = true :=
  matchesWhole_iff_of_completes (fun b => .trivia (.blanks b)) Blanks.Completes .running
    rfl (fun _ _ => rfl) Blanks.completes_test text

/-- The recognizers of words: those of identifiers, of numbers and of truth values, and fixed
texts without blanks. -/
inductive IsOfWords : Recognizer κ υ → Prop
  | identifier (kind : κ) : IsOfWords (.identifier kind)
  | number (kind : κ) : IsOfWords (.number kind)
  | boolean (kind : κ) : IsOfWords (.boolean kind)
  | symbol {word : String} (kind : κ) (hword : ∀ c ∈ word.toList, isBlank c = false) :
      IsOfWords (.symbol word kind)

variable {r : Recognizer κ υ}

omit [Recognizes υ κ] in
theorem IsOfWords.exists_lexeme (h : r.IsOfWords) : ∃ kind pattern, r = .lexeme kind pattern := by
  cases h with
  | _ => exact ⟨_, _, rfl⟩

/-- A word holds no blank. -/
theorem IsOfWords.isBlank_of_matchesWhole (h : r.IsOfWords) (hmatch : MatchesWhole context r text) :
    ∀ c ∈ text, isBlank c = false := by
  cases h with
  | identifier kind =>
    intro c hc
    rw [← Bool.not_eq_true]
    intro hblank
    have hpart := (matchesWhole_identifier_iff.mp hmatch).2.2 c hc
    rw [isIdentifierPart_of_isBlank hblank] at hpart
    cases hpart
  | number kind =>
    have hliteral := ((matchesWhole_number_iff context kind .start text).mp hmatch).2
    exact Numeral.isBlank_of_mem_completion (n := .start) hliteral
  | boolean kind =>
    rcases matchesWhole_boolean_iff.mp hmatch with rfl | rfl
    · exact Letters.forall_mem_of_all (by decide)
    · exact Letters.forall_mem_of_all (by decide)
  | symbol kind hword =>
    obtain ⟨-, rfl⟩ := (matchesWhole_symbol_iff context _ kind text).mp hmatch
    exact hword

end Recognizer

end ShiftReduce
