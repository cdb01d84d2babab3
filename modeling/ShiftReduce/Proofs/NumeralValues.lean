import ShiftReduce.Proofs.Denotations

/-!
The values of numeric literals. A literal is an integer, which has a base and digits and perhaps
the letter of the wider type, or it is a fraction, which is a decimal with the letter of a type
or with a point or an exponent. The value is read from the text without the automaton, but it
tells the two apart at the same places: an integer has the value of its digits in the narrowest
type that holds it, or none if no type does, and a fraction always has a value.
-/
namespace ShiftReduce

open MaximalMunch Number Pattern

variable {κ υ : Type}

namespace Pattern.Letters

/-- The letters of the narrower type of fractions. -/
def singles : List Char := ['f', 'F']

theorem mem_singles {c : Char} : c ∈ singles ↔ c.toLower = 'f' :=
  mem_pair_iff (by decide) (by decide)

end Pattern.Letters

namespace Pattern.Numeral

open RegularExpression Expressions Letters

/-- A text is an integer in a base: behind the mark of the base sixteen all is digits, a zero
before other digits means octal, and other digits are decimal. -/
inductive IsInteger : List Char → Nat → List Char → Prop
  | hexadecimal {mark word} : mark ∈ hexMarks → word ≠ [] → (∀ c ∈ word, c ∈ hexDigits) →
      IsInteger ('0' :: mark :: word) 16 word
  | octal {word} : word ≠ [] → (∀ c ∈ word, c ∈ octalDigits) → IsInteger ('0' :: word) 8 word
  | decimal {word} : word ≠ [] → (∀ c ∈ word, c ∈ digits) →
      (word.head? = some '0' → word.length = 1) → IsInteger word 10 word

/-- The text starts with the mark of the base sixteen, or it is digits, perhaps with the letter
of the wider integer type. -/
def LooksInteger (text : List Char) : Prop :=
  (∃ mark ∈ hexMarks, ['0', mark] <+: text) ∨
    ∃ word, (∀ c ∈ word, c ∈ digits) ∧ (text = word ∨ ∃ letter ∈ longs, text = word ++ [letter])

/-- The value of an integer: in the narrower type if it fits and no letter asks for the wider
one, else in the wider one if it fits that, and none beyond. -/
def IsIntegerValue (asksLong : Bool) (value : Nat) : Option Value → Prop
  | some (.int word) => asksLong = false ∧ value < 2 ^ 31 ∧ word.toInt = value
  | some (.long word) => (asksLong = true ∨ 2 ^ 31 ≤ value) ∧ value < 2 ^ 63 ∧ word.toInt = value
  | some _ => False
  | none => 2 ^ 63 ≤ value

/-- The text ends in the letter of the narrower format of fractions. -/
def EndsSingle (text : List Char) : Prop := ∃ c ∈ text.getLast?, c ∈ singles

/-- The text is a decimal with the letter of a type, or with a point or an exponent. -/
def IsFraction (text : List Char) : Prop :=
  ∃ body, IsDecimal body ∧ ((text = body ∧ ∃ c ∈ body, c ∈ points ++ exponents) ∨
    ∃ letter ∈ floats, text = body ++ [letter])

theorem isIntegerValue_longValue? (value : Nat) : IsIntegerValue true value (longValue? value) := by
  unfold longValue?
  cases hword : int64? value with
  | some word =>
    have htoInt := toInt_of_int64?_eq_some hword
    have hlt := word.toInt_lt
    exact ⟨Or.inl rfl, by omega, htoInt⟩
  | none =>
    have hrange : ¬ (Int64.minValue.toInt ≤ value ∧ (value : Int) ≤ Int64.maxValue.toInt) := by
      simpa [int64?] using hword
    rw [Int64.toInt_minValue, Int64.toInt_maxValue] at hrange
    change 2 ^ 63 ≤ value
    omega

theorem isIntegerValue_integerValue? (value : Nat) :
    IsIntegerValue false value (integerValue? value) := by
  unfold integerValue?
  cases hword : int32? value with
  | some word =>
    have htoInt := toInt_of_int32?_eq_some hword
    have hlt := word.toInt_lt
    exact ⟨rfl, by omega, htoInt⟩
  | none =>
    have hrange : ¬ (Int32.minValue.toInt ≤ value ∧ (value : Int) ≤ Int32.maxValue.toInt) := by
      simpa [int32?] using hword
    rw [Int32.toInt_minValue, Int32.toInt_maxValue] at hrange
    have hlarge : 2 ^ 31 ≤ value := by omega
    have hlong := isIntegerValue_longValue? value
    unfold longValue? at hlong
    cases hwide : int64? value with
    | some word =>
      rw [hwide] at hlong
      exact ⟨Or.inr hlarge, hlong.2⟩
    | none =>
      rw [hwide] at hlong
      exact hlong

theorem mem_optional {letters word : List Char} (h : word ∈ (atMostOnce (oneOf letters)).matches') :
    word = [] ∨ ∃ c ∈ letters, word = [c] := by
  rwa [mem_atMostOnce, mem_oneOf] at h

theorem isMantissa_of_digits {word : List Char} (hne : word ≠ []) (h : ∀ c ∈ word, c ∈ digits) :
    IsMantissa word :=
  ⟨word, [], by simpa using h, by simpa using hne, Or.inl ⟨rfl, rfl⟩⟩

theorem isDecimal_of_digits {word : List Char} (hne : word ≠ []) (h : ∀ c ∈ word, c ∈ digits) :
    IsDecimal word :=
  ⟨word, [], isMantissa_of_digits hne h, Or.inl rfl, (List.append_nil word).symm⟩

/-- Digits with a point. -/
theorem isMantissa_of_mem {text : List Char}
    (h : text ∈ (atLeastOnce (oneOf digits) * oneOf points * (oneOf digits).star +
      oneOf points * atLeastOnce (oneOf digits)).matches') :
    IsMantissa text ∧ ∃ c ∈ text, c ∈ points := by
  simp only [mem_matches'_add, mem_matches'_mul, mem_oneOf, mem_star_oneOf,
    mem_atLeastOnce_oneOf] at h
  rcases h with ⟨_, ⟨whole, ⟨hne, hwhole⟩, _, ⟨c, hc, rfl⟩, rfl⟩, fraction, hfraction, rfl⟩ |
    ⟨_, ⟨c, hc, rfl⟩, fraction, ⟨hne, hfraction⟩, rfl⟩
  · obtain rfl : c = '.' := by simpa [points] using hc
    refine ⟨⟨whole, fraction, List.forall_mem_append.mpr ⟨hwhole, hfraction⟩, ?_, Or.inr ?_⟩,
      '.', by simp, hc⟩
    · simp [hne]
    · rw [List.append_assoc, List.singleton_append]
  · obtain rfl : c = '.' := by simpa [points] using hc
    exact ⟨⟨[], fraction, hfraction, hne, Or.inr rfl⟩, '.', by simp, hc⟩

theorem isExponent_of_mem {text : List Char} (h : text ∈ exponentPart.matches') :
    IsExponent text ∧ ∃ c ∈ text, c ∈ exponents := by
  simp only [exponentPart, mem_matches'_mul, mem_oneOf, mem_atLeastOnce_oneOf] at h
  obtain ⟨_, ⟨_, ⟨mark, hmark, rfl⟩, sign, hsign, rfl⟩, word, ⟨hne, hword⟩, rfl⟩ := h
  refine ⟨Or.inr ⟨mark, sign, word, hmark, mem_optional hsign, hne, hword, ?_⟩, mark, ?_, hmark⟩
  · rw [List.append_assoc, List.singleton_append]
  · simp

/-- The integers, with or without the letter of a type. -/
theorem isInteger_of_mem {text : List Char}
    (h : text ∈ (oneOf leadingDigits * (oneOf digits).star +
      oneOf zeros * (oneOf octalDigits).star).matches') :
    ∃ base word, IsInteger text base word ∧ text ≠ [] ∧ ∀ c ∈ text, c ∈ digits := by
  have hleading : ∀ c ∈ leadingDigits, c ∈ digits ∧ c ≠ '0' := forall_mem_of_all (by decide)
  simp only [mem_matches'_add, mem_matches'_mul, mem_oneOf, mem_star_oneOf] at h
  rcases h with ⟨_, ⟨c, hc, rfl⟩, word, hword, rfl⟩ | ⟨_, ⟨c, hc, rfl⟩, word, hword, rfl⟩
  · have hdigits : ∀ d ∈ c :: word, d ∈ digits :=
      List.forall_mem_cons.mpr ⟨(hleading c hc).1, hword⟩
    refine ⟨10, _, .decimal (by simp) hdigits ?_, by simp, hdigits⟩
    intro hhead
    exact absurd (Option.some.inj hhead) (hleading c hc).2
  · obtain rfl : c = '0' := by simpa [zeros] using hc
    have hdigits : ∀ d ∈ '0' :: word, d ∈ digits :=
      List.forall_mem_cons.mpr ⟨by decide, fun d hd => mem_digits_of_mem_octalDigits (hword d hd)⟩
    refine ⟨if word = [] then 10 else 8, if word = [] then ['0'] else word, ?_, by simp, hdigits⟩
    split
    · next hempty =>
      subst hempty
      exact .decimal (by simp) (by simp [digits, octalDigits]) (fun _ => rfl)
    · next hne => exact .octal hne hword

/-- A decimal with a point or an exponent needs no letter to be a fraction. -/
theorem isFraction_append {body letter : List Char} (hdecimal : IsDecimal body)
    (hmark : ∃ c ∈ body, c ∈ points ++ exponents)
    (hletter : letter ∈ (atMostOnce (oneOf floats)).matches') : IsFraction (body ++ letter) := by
  refine ⟨body, hdecimal, ?_⟩
  rcases mem_optional hletter with rfl | ⟨c, hc, rfl⟩
  · exact Or.inl ⟨List.append_nil body, hmark⟩
  · exact Or.inr ⟨c, hc, rfl⟩

/-- The literals are the integers, with or without the letter of the wider type, and the
fractions. -/
theorem literal_cases {text : List Char} (h : text ∈ literal.matches') :
    (∃ body base word, IsInteger body base word ∧
      (text = body ∨ ∃ letter ∈ longs, text = body ++ [letter])) ∨ IsFraction text := by
  rw [literal, mem_matches'_add, mem_matches'_add, mem_matches'_add, mem_matches'_add] at h
  rcases h with (((h | h) | h) | h) | h
  · obtain ⟨body, hbody, letter, hletter, rfl⟩ := mem_matches'_mul.mp h
    obtain ⟨base, word, hinteger, hne, hdigits⟩ := isInteger_of_mem hbody
    rcases mem_optional hletter with rfl | ⟨c, hc, rfl⟩
    · exact Or.inl ⟨body, base, word, hinteger, Or.inl (List.append_nil body)⟩
    · rcases List.mem_append.mp hc with hlong | hfloat
      · exact Or.inl ⟨body, base, word, hinteger, Or.inr ⟨c, hlong, rfl⟩⟩
      · exact Or.inr ⟨body, isDecimal_of_digits hne hdigits, Or.inr ⟨c, hfloat, rfl⟩⟩
  · simp only [mem_matches'_mul, mem_atLeastOnce_oneOf, mem_oneOf] at h
    obtain ⟨body, ⟨hne, hdigits⟩, _, ⟨c, hc, rfl⟩, rfl⟩ := h
    exact Or.inr ⟨body, isDecimal_of_digits hne hdigits, Or.inr ⟨c, hc, rfl⟩⟩
  · obtain ⟨body, hbody, letter, hletter, rfl⟩ := mem_matches'_mul.mp h
    obtain ⟨mantissa, hmantissa, exponent, hexponent, rfl⟩ := mem_matches'_mul.mp hbody
    obtain ⟨hmantissa, c, hc, hpoint⟩ := isMantissa_of_mem hmantissa
    have hexponent : IsExponent exponent := by
      rcases mem_atMostOnce.mp hexponent with hnone | hpart
      · exact Or.inl hnone
      · exact (isExponent_of_mem hpart).1
    exact Or.inr (isFraction_append ⟨mantissa, exponent, hmantissa, hexponent, rfl⟩
      ⟨c, List.mem_append_left _ hc, List.mem_append_left _ hpoint⟩ hletter)
  · obtain ⟨body, hbody, letter, hletter, rfl⟩ := mem_matches'_mul.mp h
    obtain ⟨mantissa, hmantissa, exponent, hexponent, rfl⟩ := mem_matches'_mul.mp hbody
    obtain ⟨hne, hdigits⟩ := mem_atLeastOnce_oneOf.mp hmantissa
    obtain ⟨hexponent, c, hc, hmark⟩ := isExponent_of_mem hexponent
    exact Or.inr (isFraction_append
      ⟨mantissa, exponent, isMantissa_of_digits hne hdigits, hexponent, rfl⟩
      ⟨c, List.mem_append_right _ hc, List.mem_append_right _ hmark⟩ hletter)
  · simp only [mem_matches'_mul, mem_atLeastOnce_oneOf, mem_oneOf] at h
    obtain ⟨_, ⟨_, ⟨_, ⟨zero, hzero, rfl⟩, _, ⟨mark, hmark, rfl⟩, rfl⟩, word, ⟨hne, hword⟩, rfl⟩,
      letter, hletter, rfl⟩ := h
    obtain rfl : zero = '0' := by simpa [zeros] using hzero
    have hinteger : IsInteger ('0' :: mark :: word) 16 word := .hexadecimal hmark hne hword
    rcases mem_optional hletter with rfl | ⟨c, hc, rfl⟩
    · exact Or.inl ⟨_, 16, word, hinteger, Or.inl (by simp)⟩
    · exact Or.inl ⟨_, 16, word, hinteger, Or.inr ⟨c, hc, rfl⟩⟩

theorem looksInteger_of_isInteger {text body word : List Char} {base : Nat}
    (h : IsInteger body base word)
    (htext : text = body ∨ ∃ letter ∈ longs, text = body ++ [letter]) : LooksInteger text := by
  cases h with
  | hexadecimal hmark hne hword =>
    refine Or.inl ⟨_, hmark, ?_⟩
    rcases htext with rfl | ⟨letter, -, rfl⟩
    · simp
    · simp
  | octal hne hword =>
    have hdigits := fun c hc => mem_digits_of_mem_octalDigits (hword c hc)
    exact Or.inr ⟨_, List.forall_mem_cons.mpr ⟨by decide, hdigits⟩, htext⟩
  | decimal hne hword => exact Or.inr ⟨_, hword, htext⟩

/-- No mark of the base sixteen is in a fraction, but a letter or a point that is in no integer. -/
theorem IsFraction.mem {text : List Char} (h : IsFraction text) :
    (∀ c ∈ text, c ∉ hexMarks) ∧ ∃ c ∈ text, c ∈ points ++ exponents ++ floats := by
  have hnomark : ∀ c ∈ digits ++ points ++ exponents ++ signs, c ∉ hexMarks :=
    forall_mem_of_all (by decide)
  have hnomark' : ∀ c ∈ floats, c ∉ hexMarks := forall_mem_of_all (by decide)
  obtain ⟨body, hdecimal, ⟨rfl, c, hc, hmark⟩ | ⟨letter, hletter, rfl⟩⟩ := h
  · exact ⟨fun c hc => hnomark c (hdecimal.mem c hc), c, hc, List.mem_append_left _ hmark⟩
  · refine ⟨List.forall_mem_append.mpr ⟨fun c hc => hnomark c (hdecimal.mem c hc), ?_⟩,
      letter, by simp, List.mem_append_right _ hletter⟩
    simpa using hnomark' letter hletter

theorem IsFraction.not_looksInteger {text : List Char} (h : IsFraction text) :
    ¬ LooksInteger text := by
  have hother : ∀ c ∈ points ++ exponents ++ floats, c ∉ digits ∧ c ∉ longs :=
    forall_mem_of_all (by decide)
  obtain ⟨hnomark, c, hc, hmark⟩ := h.mem
  obtain ⟨hdigit, hlong⟩ := hother c hmark
  rintro (⟨mark, hmark, hfront⟩ | ⟨word, hword, rfl | ⟨letter, hletter, rfl⟩⟩)
  · exact hnomark mark (hfront.subset (by simp)) hmark
  · exact hdigit (hword c hc)
  · rcases List.mem_append.mp hc with hc | hc
    · exact hdigit (hword c hc)
    · exact hlong (List.mem_singleton.mp hc ▸ hletter)

theorem hexDigits?_eq_none {text : List Char} (h : ∀ c ∈ text, c ∉ hexMarks) :
    hexDigits? text = none := by
  unfold hexDigits?
  split
  · next mark word =>
    have hmark := h mark (by simp)
    rw [if_neg (by simpa [hexMarks] using hmark)]
  · rfl

/-- The value of a text without the mark of the base sixteen is told by its last character. -/
theorem value?_append_singleton (front : List Char) (last : Char)
    (h : ∀ c ∈ front ++ [last], c ∉ hexMarks) :
    value? (front ++ [last]) =
      if last.toLower = 'l' then
        (integer? (radixAndDigits front).1 (radixAndDigits front).2).bind longValue?
      else if last.toLower = 'f' then
        (Format.single.ofText? front).map fun word => .float (UInt32.ofNat word)
      else if last.toLower = 'd' then
        (Format.double.ofText? front).map fun word => .double (UInt64.ofNat word)
      else if (front ++ [last]).any fun c => c == '.' || c == 'e' || c == 'E' then
        (Format.double.ofText? (front ++ [last])).map fun word => .double (UInt64.ofNat word)
      else
        (integer? (radixAndDigits (front ++ [last])).1
          (radixAndDigits (front ++ [last])).2).bind integerValue? := by
  rw [value?, List.getLast?_concat]
  dsimp only
  rw [hexDigits?_eq_none h, List.dropLast_concat]

theorem value?_hexadecimal {mark : Char} (hmark : mark ∈ hexMarks) (front : List Char) (last : Char) :
    value? ('0' :: mark :: (front ++ [last])) =
      if last.toLower = 'l' then (integer? 16 front).bind longValue?
      else (integer? 16 (front ++ [last])).bind integerValue? := by
  have hlast : ('0' :: mark :: (front ++ [last])).getLast? = some last :=
    List.getLast?_concat (l := '0' :: mark :: front)
  have hdigits : hexDigits? ('0' :: mark :: (front ++ [last])) = some (front ++ [last]) :=
    if_pos (by simpa [hexMarks] using hmark)
  rw [value?, hlast]
  dsimp only
  rw [hdigits]
  dsimp only
  rw [List.dropLast_concat]

section Integer

variable {body word : List Char} {base : Nat}

theorem IsInteger.integer?_eq (h : IsInteger body base word) :
    integer? base word = some (positional base word : Int) := by
  cases h with
  | hexadecimal _ hne hword =>
    exact Number.integer?_eq hne fun c hc => digit?_of_mem_hexDigits c (hword c hc)
  | octal hne hword =>
    exact Number.integer?_eq hne fun c hc => digit?_of_mem_octalDigits c (hword c hc)
  | decimal hne hword =>
    exact Number.integer?_eq hne fun c hc => digit?_of_mem_digits c (hword c hc)

/-- Without the mark of the base sixteen the base is found as an integer has it. -/
theorem IsInteger.hexadecimal_or_digits (h : IsInteger body base word) :
    (base = 16 ∧ ∃ mark ∈ hexMarks, body = '0' :: mark :: word ∧ word ≠ [] ∧
      ∀ c ∈ word, c ∈ hexDigits) ∨
    (radixAndDigits body = (base, word) ∧ body ≠ [] ∧ ∀ c ∈ body, c ∈ digits) := by
  cases h with
  | hexadecimal hmark hne hword => exact Or.inl ⟨rfl, _, hmark, rfl, hne, hword⟩
  | octal hne hword =>
    obtain ⟨d, others, rfl⟩ := List.exists_cons_of_ne_nil hne
    exact Or.inr ⟨rfl, by simp,
      List.forall_mem_cons.mpr ⟨by decide, fun c hc => mem_digits_of_mem_octalDigits (hword c hc)⟩⟩
  | decimal hne hword hzero =>
    refine Or.inr ⟨?_, hne, hword⟩
    unfold radixAndDigits
    split
    · exact absurd (hzero rfl) (by simp)
    · rfl

/-- Without a letter an integer has the narrowest type it fits. -/
theorem IsInteger.value?_eq (h : IsInteger body base word) :
    value? body = integerValue? (positional base word) := by
  have hinteger := h.integer?_eq
  rcases h.hexadecimal_or_digits with ⟨rfl, mark, hmark, rfl, hne, hword⟩ | ⟨hradix, hne, hbody⟩
  · have hnolong : ∀ c ∈ hexDigits, c.toLower ≠ 'l' := forall_mem_of_all (by decide)
    have hlast := hnolong _ (hword _ (List.getLast_mem hne))
    rw [← List.dropLast_concat_getLast hne, value?_hexadecimal hmark, if_neg hlast,
      List.dropLast_concat_getLast hne, hinteger, Option.bind_some]
  · have hnoletter : ∀ c ∈ digits, c ∉ hexMarks ∧ c.toLower ≠ 'l' ∧ c.toLower ≠ 'f' ∧
        c.toLower ≠ 'd' ∧ ¬ (c == '.' || c == 'e' || c == 'E') := forall_mem_of_all (by decide)
    obtain ⟨-, hlong, hsingle, hdouble, -⟩ := hnoletter _ (hbody _ (List.getLast_mem hne))
    have hnomark : ¬ (body.any fun c => c == '.' || c == 'e' || c == 'E') := by
      rw [List.any_eq_true]
      rintro ⟨c, hc, hmark⟩
      exact (hnoletter c (hbody c hc)).2.2.2.2 hmark
    have hvalue := value?_append_singleton body.dropLast (body.getLast hne)
    rw [List.dropLast_concat_getLast hne] at hvalue
    rw [hvalue fun c hc => (hnoletter c (hbody c hc)).1, if_neg hlong, if_neg hsingle,
      if_neg hdouble, if_neg hnomark, hradix, hinteger, Option.bind_some]

/-- With the letter of the wider type an integer has that type. -/
theorem IsInteger.value?_append_eq (h : IsInteger body base word) {letter : Char}
    (hletter : letter ∈ longs) :
    value? (body ++ [letter]) = longValue? (positional base word) := by
  have hinteger := h.integer?_eq
  have hlong : letter.toLower = 'l' := mem_longs.mp hletter
  rcases h.hexadecimal_or_digits with ⟨rfl, mark, hmark, rfl, -, -⟩ | ⟨hradix, -, hbody⟩
  · rw [List.cons_append, List.cons_append, value?_hexadecimal hmark, if_pos hlong, hinteger,
      Option.bind_some]
  · have hnomark : ∀ c ∈ digits ++ longs, c ∉ hexMarks := forall_mem_of_all (by decide)
    have hinside : ∀ c ∈ body ++ [letter], c ∈ digits ++ longs := by
      rw [List.forall_mem_append]
      exact ⟨fun c hc => List.mem_append_left _ (hbody c hc),
        by simpa using List.mem_append_right _ hletter⟩
    rw [value?_append_singleton _ _ fun c hc => hnomark c (hinside c hc), if_pos hlong, hradix,
      hinteger, Option.bind_some]

end Integer

theorem endsSingle_append_singleton {front : List Char} {last : Char} :
    EndsSingle (front ++ [last]) ↔ last.toLower = 'f' := by
  rw [EndsSingle, List.getLast?_concat]
  simp [mem_singles]

/-- A fraction has a value, in the narrower format if it ends in the letter of that and else in
the wider one. -/
theorem IsFraction.exists_value? {text : List Char} (h : IsFraction text) :
    (EndsSingle text → ∃ word, value? text = some (.float word)) ∧
      (¬ EndsSingle text → ∃ word, value? text = some (.double word)) := by
  have hnomark := h.mem.1
  obtain ⟨body, hdecimal, ⟨rfl, hmark⟩ | ⟨letter, hletter, rfl⟩⟩ := h
  · have hnoletter : ∀ c ∈ digits ++ points ++ exponents ++ signs, c.toLower ≠ 'l' ∧
        c.toLower ≠ 'f' ∧ c.toLower ≠ 'd' := forall_mem_of_all (by decide)
    have hne : text ≠ [] := by
      rintro rfl
      simp at hmark
    obtain ⟨hlong, hsingle, hdouble⟩ := hnoletter _ (hdecimal.mem _ (List.getLast_mem hne))
    have hany : text.any fun c => c == '.' || c == 'e' || c == 'E' := by
      obtain ⟨c, hc, hmark⟩ := hmark
      exact List.any_eq_true.mpr ⟨c, hc, by simpa [points, exponents, or_assoc] using hmark⟩
    have hvalue := value?_append_singleton text.dropLast (text.getLast hne)
    rw [List.dropLast_concat_getLast hne] at hvalue
    obtain ⟨word, hword⟩ := hdecimal.exists_word .double
    have hends : ¬ EndsSingle text := by
      rwa [← List.dropLast_concat_getLast hne, endsSingle_append_singleton]
    rw [hvalue hnomark, if_neg hlong, if_neg hsingle, if_neg hdouble, if_pos hany, hword]
    exact ⟨fun hsingle => absurd hsingle hends, fun _ => ⟨_, rfl⟩⟩
  · rw [value?_append_singleton _ _ hnomark, endsSingle_append_singleton]
    rcases mem_floats.mp hletter with hdouble | hsingle
    · obtain ⟨word, hword⟩ := hdecimal.exists_word .double
      rw [hdouble, hword]
      exact ⟨fun hends => absurd hends (by decide), fun _ => ⟨_, rfl⟩⟩
    · obtain ⟨word, hword⟩ := hdecimal.exists_word .single
      rw [hsingle, hword]
      exact ⟨fun _ => ⟨_, rfl⟩, fun hends => absurd rfl hends⟩

/-- A character is answered with a match if it completes a literal by itself, and leads to where
it is the first of what completes one. -/
theorem answer_test_iff (n : Numeral) (c : Char) :
    ((n.test (some c)).1 = .fullMatch ↔ [c] ∈ n.completion.matches') ∧
      ∀ d more, d :: more ∈ (n.test (some c)).2.completion.matches' ↔
        c :: d :: more ∈ n.completion.matches' := by
  obtain ⟨hanswer, hcompletion⟩ := n.test_some c
  refine ⟨?_, fun d more => hcompletion (d :: more)⟩
  rw [hanswer, answer_eq_fullMatch_iff, hcompletion]

end Pattern.Numeral

namespace Recognizer

open Pattern

variable [Recognizes υ κ] (context : Context) (kind : κ) (pattern : Numeral)

/-- What is matched as a number are the literals. -/
theorem matchesWhole_number_iff (text : List Char) :
    MatchesWhole context (.lexeme kind (.numeral pattern) : Recognizer κ υ) text ↔
      text ≠ [] ∧ text ∈ Numeral.literal.matches' :=
  matchesWhole_iff_of_completes
    (fun n : Numeral => (.lexeme kind (.numeral n) : Recognizer κ υ))
    (fun n more => more ∈ n.completion.matches') .start rfl (fun _ _ => rfl)
    Numeral.answer_test_iff text

/-- The value of a text that is matched as a number is told by the digits if it looks like an
integer, and else it is there, in the narrower format if the text ends in the letter of that. -/
theorem value_agrees_with_meaning {text : List Char}
    (h : MatchesWhole context (.lexeme kind (.numeral pattern) : Recognizer κ υ) text) :
    (Numeral.LooksInteger text → ∃ body base word, Numeral.IsInteger body base word ∧
      (text = body ∧ Numeral.IsIntegerValue false (positional base word)
          ((Lexeme.numeral pattern).value? text) ∨
        ∃ letter ∈ Letters.longs, text = body ++ [letter] ∧
          Numeral.IsIntegerValue true (positional base word)
            ((Lexeme.numeral pattern).value? text))) ∧
    (¬ Numeral.LooksInteger text →
      (Numeral.EndsSingle text →
        ∃ word, (Lexeme.numeral pattern).value? text = some (.float word)) ∧
      (¬ Numeral.EndsSingle text →
        ∃ word, (Lexeme.numeral pattern).value? text = some (.double word))) := by
  obtain ⟨-, hliteral⟩ := (matchesWhole_number_iff context kind pattern text).mp h
  rcases Numeral.literal_cases hliteral with ⟨body, base, word, hinteger, htext⟩ | hfraction
  · have hlooks := Numeral.looksInteger_of_isInteger hinteger htext
    refine ⟨fun _ => ⟨body, base, word, hinteger, ?_⟩, fun hnot => absurd hlooks hnot⟩
    rcases htext with rfl | ⟨letter, hletter, rfl⟩
    · refine Or.inl ⟨rfl, ?_⟩
      rw [Lexeme.value?, hinteger.value?_eq]
      exact Numeral.isIntegerValue_integerValue? _
    · refine Or.inr ⟨letter, hletter, rfl, ?_⟩
      rw [Lexeme.value?, hinteger.value?_append_eq hletter]
      exact Numeral.isIntegerValue_longValue? _
  · exact ⟨fun hlooks => absurd hlooks hfraction.not_looksInteger,
      fun _ => hfraction.exists_value?⟩

/-- Digits of the base sixteen are not taken for the letters of types. -/
theorem value_agrees_with_meaning_hexadecimal :
    MatchesWhole {} (.number () : Recognizer Unit (NoCustom Unit)) "0xffffffff".toList ∧
      Numeral.LooksInteger "0xffffffff".toList ∧
      ∃ body base word, Numeral.IsInteger body base word ∧
        ("0xffffffff".toList = body ∧
            Numeral.IsIntegerValue false (positional base word) (some (.long 4294967295)) ∨
          ∃ letter ∈ Letters.longs, "0xffffffff".toList = body ++ [letter] ∧
            Numeral.IsIntegerValue true (positional base word) (some (.long 4294967295))) := by
  have hmatch :
      MatchesWhole {} (.number () : Recognizer Unit (NoCustom Unit)) "0xffffffff".toList :=
    ⟨by decide, by decide⟩
  have hlooks : Numeral.LooksInteger "0xffffffff".toList :=
    Or.inl ⟨'x', by decide, "ffffffff".toList, rfl⟩
  have hvalue : (Lexeme.numeral .start).value? "0xffffffff".toList = some (.long 4294967295) := by
    decide
  have hmeaning := (value_agrees_with_meaning {} () .start hmatch).1 hlooks
  rw [hvalue] at hmeaning
  exact ⟨hmatch, hlooks, hmeaning⟩

end Recognizer
end ShiftReduce
