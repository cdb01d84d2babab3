import Mathlib.Data.Nat.Digits.Defs
import ShiftReduce.Proofs.Numerals

/-!
What written numbers denote. Digits of a base denote the sum of their worths, each times the
power of the base for its place. A decimal is made of digits, at least one of them, with a point
before, among or behind them or without one, and perhaps of an exponent; every binary format
reads it.
-/
namespace ShiftReduce

open Number Pattern Letters

namespace Pattern.Letters

/-- What is checked for each of some letters holds for all of them. The check goes through these
letters, where a decision of the statement could go through all characters. -/
theorem forall_mem_of_all {letters : List Char} {p : Char → Prop} [DecidablePred p]
    (h : (letters.all fun c => decide (p c)) = true) : ∀ c ∈ letters, p c := by
  simpa using h

theorem mem_digits_of_mem_octalDigits {c : Char} (h : c ∈ octalDigits) : c ∈ digits :=
  List.mem_append_left _ h

end Pattern.Letters

namespace Number

/-- The worth of a digit of a base up to sixteen, in either case: its place in their row. -/
def worth (c : Char) : Nat := "0123456789abcdef".toList.idxOf c.toLower

/-- The natural number that digits denote, the most significant first. -/
def positional (base : Nat) (digits : List Char) : Nat := Nat.ofDigits base (digits.map worth).reverse

variable {base : Nat} {word : List Char}

theorem ofDigits_eq (base : Nat) (worths : List Nat) :
    ofDigits base worths = Nat.ofDigits base worths.reverse := by
  rw [ofDigits, Nat.ofDigits_eq_foldr, List.foldr_reverse]
  congr 1
  funext value worth
  rw [Nat.cast_id, Nat.add_comm, Nat.mul_comm]

theorem mapM_digit? {worth : Char → Nat} (h : ∀ c ∈ word, digit? base c = some (worth c)) :
    word.mapM (digit? base) = some (word.map worth) := by
  induction word with
  | nil => rfl
  | cons c word ih =>
    obtain ⟨hc, hword⟩ := List.forall_mem_cons.mp h
    rw [List.mapM_cons, hc, ih hword]
    rfl

/-- Digits are read as the number they denote. -/
theorem natural?_eq (hne : word ≠ []) (h : ∀ c ∈ word, digit? base c = some (worth c)) :
    natural? base word = some (positional base word) := by
  rw [natural?, if_neg (by simpa using hne), mapM_digit? h, Option.map_some, ofDigits_eq]
  rfl

theorem integer?_eq (hne : word ≠ []) (h : ∀ c ∈ word, digit? base c = some (worth c)) :
    integer? base word = some (positional base word : Int) := by
  have hnatural := natural?_eq hne h
  unfold integer?
  split
  · simp [digit?] at h
  · simp [digit?] at h
  · rw [hnatural]
    rfl

theorem digit?_of_mem_octalDigits : ∀ c ∈ octalDigits, digit? 8 c = some (worth c) :=
  forall_mem_of_all (by decide)

theorem digit?_of_mem_digits : ∀ c ∈ digits, digit? 10 c = some (worth c) :=
  forall_mem_of_all (by decide)

theorem digit?_of_mem_hexDigits : ∀ c ∈ hexDigits, digit? 16 c = some (worth c) :=
  forall_mem_of_all (by decide)

/-- Digits, at least one, with a point before, among or behind them or without one. -/
def IsMantissa (text : List Char) : Prop :=
  ∃ whole fraction, (∀ c ∈ whole ++ fraction, c ∈ digits) ∧ whole ++ fraction ≠ [] ∧
    (text = whole ∧ fraction = [] ∨ text = whole ++ '.' :: fraction)

/-- Nothing, or a letter, perhaps a sign, and digits, at least one. -/
def IsExponent (text : List Char) : Prop :=
  text = [] ∨ ∃ mark sign word, mark ∈ exponents ∧ (sign = [] ∨ ∃ c ∈ signs, sign = [c]) ∧
    word ≠ [] ∧ (∀ c ∈ word, c ∈ digits) ∧ text = mark :: (sign ++ word)

/-- A mantissa with an exponent. -/
def IsDecimal (text : List Char) : Prop :=
  ∃ mantissa exponent, IsMantissa mantissa ∧ IsExponent exponent ∧ text = mantissa ++ exponent

theorem IsMantissa.ne_nil {text : List Char} (h : IsMantissa text) : text ≠ [] := by
  obtain ⟨whole, fraction, -, hne, ⟨rfl, rfl⟩ | rfl⟩ := h
  · simpa using hne
  · simp

theorem IsMantissa.mem {text : List Char} (h : IsMantissa text) :
    ∀ c ∈ text, c ∈ digits ++ points := by
  obtain ⟨whole, fraction, hdigits, -, hform⟩ := h
  obtain ⟨hwhole, hfraction⟩ := List.forall_mem_append.mp hdigits
  have hinside : ∀ word : List Char, (∀ c ∈ word, c ∈ digits) →
      ∀ c ∈ word, c ∈ digits ++ points := fun word hword c hc =>
    List.mem_append_left _ (hword c hc)
  rcases hform with ⟨rfl, -⟩ | rfl
  · exact hinside _ hwhole
  · rw [List.forall_mem_append, List.forall_mem_cons]
    exact ⟨hinside whole hwhole, by decide, hinside fraction hfraction⟩

theorem IsExponent.mem {text : List Char} (h : IsExponent text) :
    ∀ c ∈ text, c ∈ exponents ++ signs ++ digits := by
  rcases h with rfl | ⟨mark, sign, word, hmark, hsign, -, hword, rfl⟩
  · simp
  · have hinside : ∀ c ∈ sign, c ∈ signs := by
      rcases hsign with rfl | ⟨c, hc, rfl⟩
      · simp
      · simpa using hc
    simp only [List.mem_cons, List.mem_append]
    rintro c (rfl | hc | hc)
    · exact Or.inl (Or.inl hmark)
    · exact Or.inl (Or.inr (hinside c hc))
    · exact Or.inr (hword c hc)

theorem IsDecimal.mem {text : List Char} (h : IsDecimal text) :
    ∀ c ∈ text, c ∈ digits ++ points ++ exponents ++ signs := by
  obtain ⟨mantissa, exponent, hmantissa, hexponent, rfl⟩ := h
  have hmantissa := hmantissa.mem
  have hexponent := hexponent.mem
  simp only [List.mem_append] at hmantissa hexponent ⊢
  rintro c (hc | hc)
  · exact Or.inl (Or.inl (hmantissa c hc))
  · rcases hexponent c hc with (hmark | hsign) | hdigit
    · exact Or.inl (Or.inr hmark)
    · exact Or.inr hsign
    · exact Or.inl (Or.inl (Or.inl hdigit))

theorem isDigit_of_mem_digits : ∀ c ∈ digits, '0' ≤ c ∧ c ≤ '9' :=
  forall_mem_of_all (by decide)

/-- Digits end where another character follows. -/
theorem spanDigits_append {rest : List Char} (hword : ∀ c ∈ word, c ∈ digits)
    (hrest : ∀ c ∈ rest.head?, ¬ ('0' ≤ c ∧ c ≤ '9')) :
    spanDigits (word ++ rest) = (word, rest) := by
  have hinside : ∀ c ∈ word, decide ('0' ≤ c ∧ c ≤ '9') = true := by
    intro c hc
    exact decide_eq_true (isDigit_of_mem_digits c (hword c hc))
  rw [spanDigits, List.span_eq_takeWhile_dropWhile, List.takeWhile_append_of_pos hinside,
    List.dropWhile_append_of_pos hinside]
  cases rest with
  | nil => simp
  | cons c rest =>
    have hc := hrest c rfl
    simp [hc]

theorem IsExponent.isSome {text : List Char} (h : IsExponent text) :
    (Decimal.exponent? text).isSome := by
  rcases h with rfl | ⟨mark, sign, word, hmark, hsign, hne, hword, rfl⟩
  · rfl
  · have hdigits : ∀ c ∈ word, digit? 10 c = some (worth c) := fun c hc =>
      digit?_of_mem_digits c (hword c hc)
    have hmark' : mark = 'e' ∨ mark = 'E' := by simpa [exponents] using hmark
    rw [Decimal.exponent?, if_pos hmark']
    rcases hsign with rfl | ⟨c, hc, rfl⟩
    · rw [List.nil_append, integer?_eq hne hdigits]
      rfl
    · have hc' : c = '+' ∨ c = '-' := by simpa [signs] using hc
      rcases hc' with rfl | rfl
      · simp [integer?, natural?_eq hne hdigits]
      · simp [integer?, natural?_eq hne hdigits]

/-- An exponent begins neither like a digit nor like a point. -/
theorem IsExponent.head?_of_mem {text : List Char} (h : IsExponent text) :
    ∀ c ∈ text.head?, ¬ ('0' ≤ c ∧ c ≤ '9') ∧ c ≠ '.' := by
  rcases h with rfl | ⟨mark, sign, word, hmark, -, -, -, rfl⟩
  · simp
  · rintro c ⟨⟩
    have hmark' : mark = 'e' ∨ mark = 'E' := by simpa [exponents] using hmark
    rcases hmark' with rfl | rfl
    · decide
    · decide

theorem IsDecimal.isSome {text : List Char} (h : IsDecimal text) :
    (Decimal.ofText? text).isSome := by
  obtain ⟨mantissa, exponent, ⟨whole, fraction, hdigits, hne, hform⟩, hexponent, rfl⟩ := h
  obtain ⟨hwhole, hfraction⟩ := List.forall_mem_append.mp hdigits
  have hcoefficient := natural?_eq hne fun c hc => digit?_of_mem_digits c (hdigits c hc)
  obtain ⟨power, hpower⟩ := Option.isSome_iff_exists.mp hexponent.isSome
  have hhead := hexponent.head?_of_mem
  have hempty : (whole.isEmpty && fraction.isEmpty) = false := by
    simpa [Bool.eq_false_iff] using hne
  unfold Decimal.ofText?
  rcases hform with ⟨rfl, rfl⟩ | rfl
  · rw [spanDigits_append hwhole fun c hc => (hhead c hc).1]
    dsimp only
    split
    · exact absurd rfl (hhead '.' rfl).2
    · rw [hempty, hcoefficient, hpower]
      rfl
  · rw [List.append_assoc, List.cons_append, spanDigits_append hwhole (by simp)]
    have hspan := spanDigits_append hfraction fun c hc => (hhead c hc).1
    simp only [hspan, hempty, hcoefficient, hpower]
    rfl

/-- Every format reads a decimal. -/
theorem IsDecimal.exists_word {text : List Char} (h : IsDecimal text) (f : Format) :
    ∃ word, f.ofText? text = some word := by
  have hmagnitude : ∃ word, f.magnitude? text = some word := by
    dsimp only [Format.magnitude?]
    split
    · exact ⟨_, rfl⟩
    · split
      · exact ⟨_, rfl⟩
      · obtain ⟨d, hd⟩ := Option.isSome_iff_exists.mp h.isSome
        exact ⟨f.ofDecimal d, by rw [hd, Option.map_some]⟩
  have hsigned : ∀ c rest, text = c :: rest → c ≠ '+' ∧ c ≠ '-' := by
    intro c rest heq
    obtain ⟨mantissa, exponent, hmantissa, -, rfl⟩ := h
    obtain ⟨d, others, rfl⟩ := List.exists_cons_of_ne_nil hmantissa.ne_nil
    obtain ⟨rfl, -⟩ := List.cons.inj heq
    have hnosign : ∀ c ∈ digits ++ points, c ≠ '+' ∧ c ≠ '-' := forall_mem_of_all (by decide)
    exact hnosign d (hmantissa.mem d List.mem_cons_self)
  unfold Format.ofText?
  split
  · exact absurd rfl (hsigned _ _ rfl).1
  · exact absurd rfl (hsigned _ _ rfl).2
  · exact hmagnitude

end Number
end ShiftReduce
