import ShiftReduce.Proofs.Comments
import ShiftReduce.Proofs.Expressions

/-!
The language of the numeric literals. It is given by a regular expression, and for each
state of the automaton another one gives the texts that complete a literal from there on.
Read from the front these expressions go from state to state as the automaton does, and the
empty text completes a literal exactly in the accepting states. So what the recognizer has
read is a literal, or can be completed to one, exactly if its last answer says so: from
every state but the failed one there is a way on to a literal.
-/
namespace ShiftReduce

open Answers

variable {κ υ : Type}

namespace Pattern

namespace Letters

def zeros : List Char := ['0']

def octalDigits : List Char := ['0', '1', '2', '3', '4', '5', '6', '7']

/-- The decimal digits that are not octal. -/
def highDigits : List Char := ['8', '9']

def digits : List Char := octalDigits ++ highDigits

/-- The decimal digits but the zero. -/
def leadingDigits : List Char := ['1', '2', '3', '4', '5', '6', '7', '8', '9']

def hexDigits : List Char :=
  digits ++ ['a', 'b', 'c', 'd', 'e', 'f', 'A', 'B', 'C', 'D', 'E', 'F']

def points : List Char := ['.']

def signs : List Char := ['+'] ++ ['-']

/-- The letters in front of an exponent. -/
def exponents : List Char := ['e', 'E']

/-- The letters in front of hexadecimal digits. -/
def hexMarks : List Char := ['x', 'X']

/-- The letters of the types of fractions. -/
def floats : List Char := ['d', 'D'] ++ ['f', 'F']

/-- The letters of the wider type of integers. -/
def longs : List Char := ['l', 'L']

def types : List Char := longs ++ floats

variable {c : Char}

theorem toNat_toLower (c : Char) :
    c.toLower.toNat = if 65 ≤ c.toNat ∧ c.toNat ≤ 90 then c.toNat + 32 else c.toNat := by
  unfold Char.toLower
  split
  · next h =>
    have hrange : 65 ≤ c.toNat ∧ c.toNat ≤ 90 :=
      ⟨UInt32.le_iff_toNat_le.mp h.1, UInt32.le_iff_toNat_le.mp h.2⟩
    rw [if_pos hrange]
    change (c.val + 32).toNat = c.toNat + 32
    rw [UInt32.toNat_add]
    change (c.toNat + 32) % 2 ^ 32 = c.toNat + 32
    omega
  · next h =>
    have hrange : ¬ (65 ≤ c.toNat ∧ c.toNat ≤ 90) :=
      fun h' => h ⟨UInt32.le_iff_toNat_le.mpr h'.1, UInt32.le_iff_toNat_le.mpr h'.2⟩
    rw [if_neg hrange]

theorem isOctalDigit_iff_toNat :
    Numeral.isOctalDigit c = true ↔ 48 ≤ c.toNat ∧ c.toNat ≤ 55 := by
  rw [Numeral.isOctalDigit, decide_eq_true_iff, Char.le_def, Char.le_def,
    UInt32.le_iff_toNat_le, UInt32.le_iff_toNat_le]
  rfl

theorem isHexDigit_iff_toNat :
    Numeral.isHexDigit c = true ↔ c.isDigit = true ∨ 97 ≤ c.toNat ∧ c.toNat ≤ 102 := by
  rw [Numeral.isHexDigit, Bool.or_eq_true, decide_eq_true_iff, Char.le_def, Char.le_def,
    UInt32.le_iff_toNat_le, UInt32.le_iff_toNat_le]
  rfl

/-! Each of the sets is told by the lower case of a character, which is all that the automaton
looks at. -/

/-- A character before the letters is read as it stands. -/
theorem mem_singleton_iff {letter : Char} (hletter : letter.toNat < 65) :
    c ∈ [letter] ↔ c.toLower = letter := by
  simp only [List.mem_singleton, ← Char.toNat_inj, toNat_toLower]
  split <;> omega

/-- A letter is read in both cases. -/
theorem mem_pair_iff {lower upper : Char} (hlower : 97 ≤ lower.toNat ∧ lower.toNat ≤ 122)
    (hupper : upper.toNat + 32 = lower.toNat) : c ∈ [lower, upper] ↔ c.toLower = lower := by
  simp only [List.mem_cons, List.not_mem_nil, or_false, ← Char.toNat_inj, toNat_toLower]
  split <;> omega

theorem mem_zeros : c ∈ zeros ↔ c.toLower = '0' := mem_singleton_iff (by decide)

theorem mem_points : c ∈ points ↔ c.toLower = '.' := mem_singleton_iff (by decide)

theorem mem_signs : c ∈ signs ↔ c.toLower = '+' ∨ c.toLower = '-' := by
  rw [signs, List.mem_append, mem_singleton_iff (by decide), mem_singleton_iff (by decide)]

theorem mem_exponents : c ∈ exponents ↔ c.toLower = 'e' := mem_pair_iff (by decide) (by decide)

theorem mem_hexMarks : c ∈ hexMarks ↔ c.toLower = 'x' := mem_pair_iff (by decide) (by decide)

theorem mem_longs : c ∈ longs ↔ c.toLower = 'l' := mem_pair_iff (by decide) (by decide)

theorem mem_floats : c ∈ floats ↔ c.toLower = 'd' ∨ c.toLower = 'f' := by
  rw [floats, List.mem_append, mem_pair_iff (by decide) (by decide),
    mem_pair_iff (by decide) (by decide)]

theorem mem_types : c ∈ types ↔ c.toLower = 'l' ∨ c.toLower = 'd' ∨ c.toLower = 'f' := by
  rw [types, List.mem_append, mem_longs, mem_floats]

theorem mem_octalDigits : c ∈ octalDigits ↔ Numeral.isOctalDigit c.toLower = true := by
  simp only [octalDigits, List.mem_cons, List.not_mem_nil, or_false, isOctalDigit_iff_toNat,
    ← Char.toNat_inj, toNat_toLower, Char.reduceToNat]
  split <;> omega

theorem mem_highDigits :
    c ∈ highDigits ↔ c.toLower.isDigit = true ∧ ¬ Numeral.isOctalDigit c.toLower = true := by
  simp only [highDigits, List.mem_cons, List.not_mem_nil, or_false, Char.isDigit_iff_toNat,
    isOctalDigit_iff_toNat, ← Char.toNat_inj, toNat_toLower, Char.reduceToNat]
  split <;> omega

theorem isDigit_of_isOctalDigit (h : Numeral.isOctalDigit c = true) : c.isDigit = true := by
  rw [isOctalDigit_iff_toNat] at h
  simp only [Char.isDigit_iff_toNat, Char.reduceToNat]
  omega

theorem mem_digits : c ∈ digits ↔ c.toLower.isDigit = true := by
  rw [digits, List.mem_append, mem_octalDigits, mem_highDigits]
  have hoctal := @isDigit_of_isOctalDigit c.toLower
  tauto

theorem mem_leadingDigits :
    c ∈ leadingDigits ↔ c.toLower.isDigit = true ∧ ¬ c.toLower = '0' := by
  simp only [leadingDigits, List.mem_cons, List.not_mem_nil, or_false, Char.isDigit_iff_toNat,
    ← Char.toNat_inj, toNat_toLower, Char.reduceToNat]
  split <;> omega

theorem mem_hexDigits : c ∈ hexDigits ↔ Numeral.isHexDigit c.toLower = true := by
  rw [hexDigits, List.mem_append, mem_digits, isHexDigit_iff_toNat]
  refine or_congr_right ?_
  simp only [List.mem_cons, List.not_mem_nil, or_false, ← Char.toNat_inj, toNat_toLower,
    Char.reduceToNat]
  split <;> omega

theorem ne_of_isDigit (h : c.isDigit = true) :
    c ≠ '.' ∧ c ≠ '+' ∧ c ≠ '-' ∧ c ≠ 'd' ∧ c ≠ 'e' ∧ c ≠ 'f' ∧ c ≠ 'l' ∧ c ≠ 'x' := by
  refine ⟨?_, ?_, ?_, ?_, ?_, ?_, ?_, ?_⟩ <;> rintro rfl <;> simp at h

end Letters

namespace Numeral

open RegularExpression Computability Expressions Letters

/-- Where the automaton goes from a state: by which characters, and to which state. -/
def branches : Numeral → List (List Char × Numeral)
  | .start => [(leadingDigits, .integer), (zeros, .zero), (points, .point)]
  | .integer =>
    [(digits, .integer), (points, .fraction), (exponents, .exponentMark), (types, .suffix)]
  | .point => [(digits, .fraction)]
  | .zero =>
    [(octalDigits, .octal), (highDigits, .badOctal), (points, .fraction),
      (exponents, .exponentMark), (types, .suffix), (hexMarks, .hexMark)]
  | .octal =>
    [(octalDigits, .octal), (highDigits, .badOctal), (points, .fraction),
      (exponents, .exponentMark), (types, .suffix)]
  | .badOctal =>
    [(digits, .badOctal), (points, .fraction), (exponents, .exponentMark), (floats, .suffix)]
  | .fraction => [(digits, .fraction), (exponents, .exponentMark), (floats, .suffix)]
  | .exponentMark => [(digits, .exponent), (signs, .exponentSign)]
  | .exponentSign => [(digits, .exponent)]
  | .exponent => [(digits, .exponent), (floats, .suffix)]
  | .hexMark => [(hexDigits, .hex)]
  | .hex => [(hexDigits, .hex), (longs, .suffix)]
  | .suffix | .over _ => []

/-- The characters of two branches of a state exclude each other, so the order in which the
automaton asks for them does not matter. -/
theorem next?_eq_some_iff {n n' : Numeral} {c : Char} :
    n.next? c = some n' ↔ ∃ letters, (letters, n') ∈ n.branches ∧ c ∈ letters := by
  have hdigit := @ne_of_isDigit c.toLower
  have hoctal := @isDigit_of_isOctalDigit c.toLower
  have hlong : isHexDigit 'l' = false := by decide
  cases n <;>
    simp only [next?, step?, branches, List.mem_cons, List.not_mem_nil, or_false, Prod.mk.injEq,
      or_and_right, exists_or, and_assoc, exists_eq_left, reduceCtorEq, false_and, if_false,
      true_and, exists_const, mem_zeros, mem_points, mem_signs, mem_exponents, mem_hexMarks,
      mem_longs, mem_floats, mem_types, mem_octalDigits, mem_highDigits, mem_digits,
      mem_leadingDigits, mem_hexDigits] <;>
    grind

/-- The exponent of a fraction. -/
def exponentPart : RegularExpression Char :=
  oneOf exponents * atMostOnce (oneOf signs) * atLeastOnce (oneOf digits)

/-- The numeric literals: decimal and octal integers with or without the letter of a type,
digits that such a letter makes a fraction, fractions with a point, fractions with an
exponent and no point, and hexadecimal integers. -/
def literal : RegularExpression Char :=
  (oneOf leadingDigits * (oneOf digits).star + oneOf zeros * (oneOf octalDigits).star) *
      atMostOnce (oneOf types) +
    atLeastOnce (oneOf digits) * oneOf floats +
    (atLeastOnce (oneOf digits) * oneOf points * (oneOf digits).star +
        oneOf points * atLeastOnce (oneOf digits)) *
      atMostOnce exponentPart * atMostOnce (oneOf floats) +
    atLeastOnce (oneOf digits) * exponentPart * atMostOnce (oneOf floats) +
    oneOf zeros * oneOf hexMarks * atLeastOnce (oneOf hexDigits) * atMostOnce (oneOf longs)

/-- What may follow the digits of an exponent. -/
def exponentTail : RegularExpression Char := (oneOf digits).star * atMostOnce (oneOf floats)

/-- What may follow the letter of an exponent. -/
def markTail : RegularExpression Char :=
  atMostOnce (oneOf signs) * (oneOf digits * exponentTail)

/-- What may follow a point and a digit. -/
def fractionTail : RegularExpression Char :=
  (oneOf digits).star * (atMostOnce (oneOf floats) + oneOf exponents * markTail)

/-- What makes a fraction of an integer without a letter. -/
def integerTail : RegularExpression Char := oneOf points * fractionTail + oneOf exponents * markTail

/-- What makes a fraction of digits that are no integer. -/
def badOctalTail : RegularExpression Char := (oneOf digits).star * (oneOf floats + integerTail)

/-- What may follow octal digits. -/
def octalTail : RegularExpression Char :=
  (oneOf octalDigits).star * atMostOnce (oneOf types) + badOctalTail

/-- What may follow a hexadecimal digit. -/
def hexTail : RegularExpression Char := (oneOf hexDigits).star * atMostOnce (oneOf longs)

/-- The texts that complete a literal that has been read so far. -/
def completion : Numeral → RegularExpression Char
  | .start => literal
  | .integer => (oneOf digits).star * (atMostOnce (oneOf types) + integerTail)
  | .point => oneOf digits * fractionTail
  | .zero => octalTail + oneOf hexMarks * (oneOf hexDigits * hexTail)
  | .octal => octalTail
  | .badOctal => badOctalTail
  | .fraction => fractionTail
  | .exponentMark => markTail
  | .exponentSign => oneOf digits * exponentTail
  | .exponent => exponentTail
  | .hexMark => oneOf hexDigits * hexTail
  | .hex => hexTail
  | .suffix => 1
  | .over _ => 0

/-- The literals by their first characters. Digits behind a first one that is not zero are an
integer and, with a letter, one of the fractions that the literals list once more. -/
theorem matches'_literal :
    literal.matches' = (oneOf leadingDigits * completion .integer +
      oneOf zeros * completion .zero + oneOf points * completion .point).matches' := by
  have hdigits : (oneOf digits).matches' =
      (oneOf zeros).matches' + (oneOf leadingDigits).matches' :=
    matches'_oneOf_append zeros leadingDigits
  have htypes : (oneOf types).matches' = (oneOf longs).matches' + (oneOf floats).matches' :=
    matches'_oneOf_append longs floats
  ext s
  simp only [literal, completion, octalTail, badOctalTail, integerTail, fractionTail, markTail,
    exponentTail, hexTail, exponentPart, atMostOnce, atLeastOnce, matches'_add, matches'_mul,
    matches'_star, matches'_epsilon, htypes]
  -- The digits are split where they come first, not where they are repeated. Then both sides
  -- are unions of the same products, of which the literals list one twice.
  generalize (oneOf digits).matches'∗ = repetition
  simp only [hdigits, add_mul, mul_add, one_mul, mul_one, mul_assoc, Language.mem_add]
  grind

section Heads

variable {c : Char} {s : List Char}

theorem cons_mem_exponentTail :
    c :: s ∈ exponentTail.matches' ↔
      c ∈ digits ∧ s ∈ exponentTail.matches' ∨ c ∈ floats ∧ s = [] := by
  rw [exponentTail, cons_mem_star_mul, cons_mem_atMostOnce, cons_mem_oneOf]

theorem cons_mem_markTail :
    c :: s ∈ markTail.matches' ↔
      c ∈ digits ∧ s ∈ exponentTail.matches' ∨
        c ∈ signs ∧ s ∈ (oneOf digits * exponentTail).matches' := by
  rw [markTail, mem_atMostOnce_mul, cons_mem_oneOf_mul, cons_mem_oneOf_mul]

theorem cons_mem_fractionTail :
    c :: s ∈ fractionTail.matches' ↔
      c ∈ digits ∧ s ∈ fractionTail.matches' ∨ c ∈ exponents ∧ s ∈ markTail.matches' ∨
        c ∈ floats ∧ s = [] := by
  rw [fractionTail, cons_mem_star_mul, mem_matches'_add, cons_mem_atMostOnce, cons_mem_oneOf,
    cons_mem_oneOf_mul, or_comm (a := c ∈ floats ∧ s = [])]

theorem cons_mem_integerTail :
    c :: s ∈ integerTail.matches' ↔
      c ∈ points ∧ s ∈ fractionTail.matches' ∨ c ∈ exponents ∧ s ∈ markTail.matches' := by
  rw [integerTail, mem_matches'_add, cons_mem_oneOf_mul, cons_mem_oneOf_mul]

theorem cons_mem_badOctalTail :
    c :: s ∈ badOctalTail.matches' ↔
      c ∈ digits ∧ s ∈ badOctalTail.matches' ∨ c ∈ points ∧ s ∈ fractionTail.matches' ∨
        c ∈ exponents ∧ s ∈ markTail.matches' ∨ c ∈ floats ∧ s = [] := by
  rw [badOctalTail, cons_mem_star_mul, mem_matches'_add, cons_mem_oneOf, cons_mem_integerTail,
    or_comm (a := c ∈ floats ∧ s = []), or_assoc]

/-- A digit that is not octal leaves no way on but to a fraction. -/
theorem cons_mem_octalTail :
    c :: s ∈ octalTail.matches' ↔
      c ∈ octalDigits ∧ s ∈ octalTail.matches' ∨ c ∈ highDigits ∧ s ∈ badOctalTail.matches' ∨
        c ∈ points ∧ s ∈ fractionTail.matches' ∨ c ∈ exponents ∧ s ∈ markTail.matches' ∨
        c ∈ types ∧ s = [] := by
  have hdigits : c ∈ digits ↔ c ∈ octalDigits ∨ c ∈ highDigits := List.mem_append
  have htypes : c ∈ types ↔ c ∈ longs ∨ c ∈ floats := List.mem_append
  rw [octalTail, mem_matches'_add, mem_matches'_add, cons_mem_star_mul, cons_mem_atMostOnce,
    cons_mem_oneOf, cons_mem_badOctalTail, hdigits, htypes]
  grind

theorem cons_mem_hexTail :
    c :: s ∈ hexTail.matches' ↔ c ∈ hexDigits ∧ s ∈ hexTail.matches' ∨ c ∈ longs ∧ s = [] := by
  rw [hexTail, cons_mem_star_mul, cons_mem_atMostOnce, cons_mem_oneOf]

/-- A text completes a literal if its first character leads to a state where the rest does. -/
theorem cons_mem_completion {n : Numeral} :
    c :: s ∈ n.completion.matches' ↔
      ∃ b ∈ n.branches, c ∈ b.1 ∧ s ∈ b.2.completion.matches' := by
  cases n with
  | start =>
    rw [completion, matches'_literal, mem_matches'_add, mem_matches'_add, cons_mem_oneOf_mul,
      cons_mem_oneOf_mul, cons_mem_oneOf_mul]
    simp [branches, or_assoc]
  | integer =>
    rw [completion, cons_mem_star_mul, mem_matches'_add, cons_mem_atMostOnce, cons_mem_oneOf,
      cons_mem_integerTail, or_comm (a := c ∈ types ∧ s = [])]
    simp [branches, completion, or_assoc]
  | point =>
    rw [completion, cons_mem_oneOf_mul]
    simp [branches, completion]
  | zero =>
    rw [completion, mem_matches'_add, cons_mem_octalTail, cons_mem_oneOf_mul]
    simp [branches, completion, or_assoc]
  | octal =>
    rw [completion, cons_mem_octalTail]
    simp [branches, completion]
  | badOctal =>
    rw [completion, cons_mem_badOctalTail]
    simp [branches, completion]
  | fraction =>
    rw [completion, cons_mem_fractionTail]
    simp [branches, completion]
  | exponentMark =>
    rw [completion, cons_mem_markTail]
    simp [branches, completion]
  | exponentSign =>
    rw [completion, cons_mem_oneOf_mul]
    simp [branches, completion]
  | exponent =>
    rw [completion, cons_mem_exponentTail]
    simp [branches, completion]
  | hexMark =>
    rw [completion, cons_mem_oneOf_mul]
    simp [branches, completion]
  | hex =>
    rw [completion, cons_mem_hexTail]
    simp [branches, completion]
  | _ => simp [branches, completion]

end Heads

theorem nil_mem_completion_iff {n : Numeral} :
    [] ∈ n.completion.matches' ↔ n.isAccepting = true := by
  rw [← rmatch_iff_matches']
  cases n <;> exact Iff.rfl

/-- From every state but the failed one a literal can be completed. -/
theorem exists_mem_completion {n : Numeral} (h : ∀ flaw?, n ≠ .over flaw?) :
    ∃ more, more ∈ n.completion.matches' := by
  simp only [← rmatch_iff_matches']
  cases n with
  | start => exact ⟨['0'], by decide⟩
  | point => exact ⟨['0'], by decide⟩
  | exponentMark => exact ⟨['0'], by decide⟩
  | exponentSign => exact ⟨['0'], by decide⟩
  | badOctal => exact ⟨['.'], by decide⟩
  | hexMark => exact ⟨['0'], by decide⟩
  | _ => first | exact ⟨[], rfl⟩ | exact absurd rfl (h _)

/-- The answer with which a state is reached. -/
def answer : Numeral → Answer
  | .over _ => .noMatch
  | n => if n.isAccepting then .fullMatch else .partialMatch

theorem answer_eq_fullMatch_iff {n : Numeral} :
    n.answer = .fullMatch ↔ [] ∈ n.completion.matches' := by
  rw [nil_mem_completion_iff]
  cases n <;> simp [answer, isAccepting]

theorem answer_eq_noMatch_iff {n : Numeral} :
    n.answer = .noMatch ↔ ∀ more, more ∉ n.completion.matches' := by
  constructor
  · intro h
    cases n <;> simp_all [answer, isAccepting, completion]
  · intro h
    by_contra hanswer
    have hlive : ∀ flaw?, n ≠ .over flaw? := by
      rintro flaw? rfl
      exact hanswer rfl
    obtain ⟨more, hmore⟩ := exists_mem_completion hlive
    exact h more hmore

theorem answer_eq_partialMatch_iff {n : Numeral} :
    n.answer = .partialMatch ↔
      [] ∉ n.completion.matches' ∧ ∃ more, more ∈ n.completion.matches' := by
  have hcases : n.answer = .fullMatch ∨ n.answer = .noMatch ∨ n.answer = .partialMatch := by
    cases n <;> simp [answer, isAccepting]
  rw [← answer_eq_fullMatch_iff, ← not_forall_not, ← answer_eq_noMatch_iff]
  rcases hcases with h | h | h <;> simp [h]

theorem next?_ne_over (n : Numeral) (c : Char) (flaw? : Option Flaw) :
    n.next? c ≠ some (.over flaw?) := by
  rw [Ne, next?_eq_some_iff]
  cases n <;> simp [branches]

theorem test_of_next? {n n' : Numeral} {c : Char} (h : n.next? c = some n') :
    n.test (some c) = (n'.answer, n') := by
  have hlive := next?_ne_over n c
  rw [h] at hlive
  unfold test
  split
  · next flaw? => cases h
  · rw [Option.bind_some, h]
    cases n' <;> first | rfl | exact absurd rfl (hlive _)

theorem test_of_next?_eq_none {n : Numeral} {c : Char} (h : n.next? c = none) :
    ∃ flaw?, n.test (some c) = (.noMatch, .over flaw?) := by
  unfold test
  split
  · exact ⟨_, rfl⟩
  · rw [Option.bind_some, h]
    exact ⟨_, rfl⟩

/-- A character is answered according to the state it leads to, and from there on a text
completes a literal if it does so with the character in front of it. -/
theorem test_some (n : Numeral) (c : Char) :
    (n.test (some c)).1 = (n.test (some c)).2.answer ∧
      ∀ s, s ∈ (n.test (some c)).2.completion.matches' ↔ c :: s ∈ n.completion.matches' := by
  cases hnext : n.next? c with
  | some n' =>
    rw [test_of_next? hnext]
    refine ⟨rfl, ?_⟩
    intro s
    rw [cons_mem_completion]
    constructor
    · intro hs
      obtain ⟨letters, hbranch, hc⟩ := next?_eq_some_iff.mp hnext
      exact ⟨(letters, n'), hbranch, hc, hs⟩
    · rintro ⟨⟨letters, other⟩, hbranch, hc, hs⟩
      have hother : n.next? c = some other := next?_eq_some_iff.mpr ⟨letters, hbranch, hc⟩
      rw [hnext, Option.some.injEq] at hother
      rwa [hother]
  | none =>
    obtain ⟨flaw?, htest⟩ := test_of_next?_eq_none hnext
    rw [htest]
    refine ⟨rfl, ?_⟩
    intro s
    rw [cons_mem_completion]
    constructor
    · intro hs
      exact absurd hs (Language.notMem_zero s)
    · rintro ⟨⟨letters, other⟩, hbranch, hc, -⟩
      have hother : n.next? c = some other := next?_eq_some_iff.mpr ⟨letters, hbranch, hc⟩
      rw [hnext] at hother
      cases hother

theorem test_none (n : Numeral) : (n.test none).1 = .noMatch := by
  cases n <;> rfl

end Numeral
end Pattern

namespace Recognizer

open Pattern

variable [Recognizes υ κ] (context : Context) (kind : κ) (pattern : Numeral)

/-- Whatever it is fed, a recognizer of numeric literals remains one. -/
theorem exists_after_numeral (n : Numeral) (feed : List (Option Char)) :
    ∃ n', after context (.lexeme kind (.numeral n) : Recognizer κ υ) feed =
      .lexeme kind (.numeral n') := by
  induction feed generalizing n with
  | nil => exact ⟨n, rfl⟩
  | cons c? feed ih => exact ih (n.test c?).2

/-- Fed a text, it is in a state whose completions make literals of the text. -/
theorem exists_afterText_numeral (text : List Char) :
    ∃ n, afterText context (.lexeme kind (.numeral pattern) : Recognizer κ υ) text =
        .lexeme kind (.numeral n) ∧
      ∀ more, more ∈ n.completion.matches' ↔ text ++ more ∈ Numeral.literal.matches' := by
  induction text using List.reverseRecOn with
  | nil => exact ⟨.start, rfl, fun more => Iff.rfl⟩
  | append_singleton text c ih =>
    obtain ⟨n, hafter, hcompletion⟩ := ih
    refine ⟨(n.test (some c)).2, ?_, ?_⟩
    · rw [afterText_append_singleton, hafter]
      rfl
    · intro more
      rw [(n.test_some c).2, hcompletion, List.append_assoc, List.singleton_append]

/-- The last answer is that of the state the text leads to. -/
theorem exists_answer_numeral {text : List Char} (h : text ≠ []) :
    ∃ n : Numeral,
      (answersTo context (.lexeme kind (.numeral pattern) : Recognizer κ υ) text).getLast? =
        some n.answer ∧
      ∀ more, more ∈ n.completion.matches' ↔ text ++ more ∈ Numeral.literal.matches' := by
  rcases List.eq_nil_or_concat text with rfl | ⟨front, c, rfl⟩
  · exact absurd rfl h
  · obtain ⟨n, hafter, hcompletion⟩ :=
      exists_afterText_numeral (υ := υ) context kind pattern front
    refine ⟨(n.test (some c)).2, ?_, ?_⟩
    · rw [List.concat_eq_append, answersTo_append_singleton, List.getLast?_concat, hafter,
        ← (n.test_some c).1]
      rfl
    · intro more
      rw [(n.test_some c).2, hcompletion, List.concat_eq_append, List.append_assoc,
        List.singleton_append]

/-- The last answer to a text tells whether the text is a numeric literal, can be completed to
one by some further characters, or neither. The end of the input is never part of a literal. -/
theorem last_answer_tells_numeric_literals {text : List Char} (h : text ≠ []) :
    (∃ answer,
      (answersTo context (.lexeme kind (.numeral pattern) : Recognizer κ υ) text).getLast? =
        some answer ∧
      (answer = .fullMatch ↔ text ∈ Numeral.literal.matches') ∧
      (answer = .partialMatch ↔ text ∉ Numeral.literal.matches' ∧
        ∃ more, more ≠ [] ∧ text ++ more ∈ Numeral.literal.matches') ∧
      (answer = .noMatch ↔ ∀ more, text ++ more ∉ Numeral.literal.matches')) ∧
    ∀ feed : List (Option Char),
      (Recognizes.test (after context
        (Recognizes.reset (.lexeme kind (.numeral pattern) : Recognizer κ υ)) feed)
        none context).1 = .noMatch := by
  constructor
  · obtain ⟨n, hlast, hcompletion⟩ := exists_answer_numeral (υ := υ) context kind pattern h
    have hwhole : [] ∈ n.completion.matches' ↔ text ∈ Numeral.literal.matches' := by
      rw [hcompletion, List.append_nil]
    refine ⟨n.answer, hlast, ?_, ?_, ?_⟩
    · rw [Numeral.answer_eq_fullMatch_iff, hwhole]
    · rw [Numeral.answer_eq_partialMatch_iff, hwhole]
      refine and_congr_right fun hnot => exists_congr fun more => ?_
      rw [hcompletion, iff_and_self]
      rintro hmore rfl
      exact hnot (by rwa [List.append_nil] at hmore)
    · rw [Numeral.answer_eq_noMatch_iff]
      exact forall_congr' fun more => not_congr (hcompletion more)
  · intro feed
    obtain ⟨n, hafter⟩ := exists_after_numeral (υ := υ) context kind .start feed
    have hreset : Recognizes.reset (.lexeme kind (.numeral pattern) : Recognizer κ υ) =
        .lexeme kind (.numeral .start) := rfl
    rw [hreset, hafter]
    exact n.test_none

theorem last_answer_tells_numeric_literals_octal :
    "08".toList ≠ [] ∧
      (answersTo {} (.number () : Recognizer Unit (NoCustom Unit)) "08".toList).getLast? =
        some .partialMatch ∧
      "08".toList ∉ Numeral.literal.matches' ∧
      ∃ more, more ≠ [] ∧ "08".toList ++ more ∈ Numeral.literal.matches' := by
  have htext : "08".toList ≠ [] := by decide
  obtain ⟨⟨answer, hlast, -, hpartial, -⟩, -⟩ :=
    last_answer_tells_numeric_literals (υ := NoCustom Unit) {} () .start htext
  have hanswer :
      (answersTo {} (.number () : Recognizer Unit (NoCustom Unit)) "08".toList).getLast? =
        some .partialMatch := by
    decide
  obtain rfl : answer = .partialMatch := Option.some.inj (hlast.symm.trans hanswer)
  exact ⟨htext, hanswer, hpartial.mp rfl⟩

end Recognizer
end ShiftReduce
