import Mathlib.Data.Finset.Card
import ShiftReduce.Messages
import ShiftReduce.Proofs.Cutting
import ShiftReduce.Proofs.Denotations

/-!
Messages in writing. Codes and their messages can be written down and read back: each code in
decimal on a line with its message, an equals sign or a colon between them and blanks around
both, and lines that are left out anywhere between these. The message may hold the separators
itself, or nothing at all, since the first separator of the line is the one behind the code. Of
several messages for a code the last one is read back.
-/
namespace ShiftReduce

open Unicode Text

namespace Number

section Counts

variable {n : Nat}

theorem isDigit_iff_toNat {c : Char} : c.isDigit = true ↔ 48 ≤ c.toNat ∧ c.toNat ≤ 57 := by
  rw [Char.isDigit, Bool.and_eq_true, decide_eq_true_iff, decide_eq_true_iff, ge_iff_le,
    UInt32.le_iff_toNat_le, UInt32.le_iff_toNat_le]
  rfl

theorem digit?_of_isDigit {c : Char} (h : c.isDigit = true) :
    digit? 10 c = some (c.toNat - '0'.toNat) := by
  have hrange : '0' ≤ c ∧ c ≤ '9' := by
    rw [Char.le_def, Char.le_def, UInt32.le_iff_toNat_le, UInt32.le_iff_toNat_le]
    exact isDigit_iff_toNat.mp h
  have hworth : c.toNat - '0'.toNat < 10 := by
    obtain ⟨-, hlast⟩ := isDigit_iff_toNat.mp h
    change c.toNat - 48 < 10
    omega
  rw [digit?]
  simp only [if_pos hrange, Option.filter_some, decide_eq_true hworth, if_true]

/-- The decimal digits of a natural are read as it. -/
theorem natural?_toDigits (n : Nat) : natural? 10 (Nat.toDigits 10 n) = some n := by
  have hdigits : ∀ c ∈ Nat.toDigits 10 n, digit? 10 c = some (c.toNat - '0'.toNat) :=
    fun c hc => digit?_of_isDigit (Nat.isDigit_of_mem_toDigits (by decide) (by decide) hc)
  have hvalue : ofDigits 10 ((Nat.toDigits 10 n).map fun c => c.toNat - '0'.toNat) = n := by
    calc ofDigits 10 ((Nat.toDigits 10 n).map fun c => c.toNat - '0'.toNat)
        = Nat.ofDigitChars 10 (Nat.toDigits 10 n) 0 := by
          simp only [ofDigits, List.foldl_map, Nat.ofDigitChars, Nat.mul_comm]
      _ = n := Nat.ofDigitChars_ten_toDigits
  rw [natural?, if_neg (by simp), mapM_digit? hdigits, Option.map_some, hvalue]

theorem toList_toString (n : Nat) : (toString n).toList = Nat.toDigits 10 n := by
  rw [Nat.toString_eq_ofList_toDigits, String.toList_ofList]

theorem toNat_of_mem_toString {c : Char} (h : c ∈ (toString n).toList) :
    48 ≤ c.toNat ∧ c.toNat ≤ 57 := by
  rw [toList_toString] at h
  exact isDigit_iff_toNat.mp (Nat.isDigit_of_mem_toDigits (by decide) (by decide) h)

theorem count?_toString (h : n < UInt64.size) : count? (toString n).toList = some n := by
  rw [toList_toString]
  unfold count?
  dsimp only
  split
  · next rest heq =>
    -- A plus is no digit.
    have hplus : ('+').isDigit = true :=
      Nat.isDigit_of_mem_toDigits (by decide) (by decide) (heq ▸ List.mem_cons_self)
    cases hplus
  · rw [natural?_toDigits, Option.filter_some, if_pos (decide_eq_true h)]

end Counts

end Number

namespace Messages

/-- A line that is left out: blanks, or a hash or an exclamation mark that nothing but blanks stand
in front of. -/
inductive IsLeftOut : List Char → Prop
  | blank {line : List Char} (hline : ∀ c ∈ line, isBlank c = true) : IsLeftOut line
  | comment {blanks rest : List Char} {mark : Char} (hblanks : ∀ c ∈ blanks, isBlank c = true)
      (hmark : mark = '#' ∨ mark = '!') : IsLeftOut (blanks ++ mark :: rest)

/-- A line that gives a code of 64 bits a message: the code in decimal, a separator and the
message, with blanks around the code and around the message, which has none at its own ends. -/
inductive Gives : List Char → Nat → String → Prop
  | intro {front inner outer back : List Char} {separator : Char} {code : Nat} {message : String}
      (hfront : ∀ c ∈ front, isBlank c = true) (hinner : ∀ c ∈ inner, isBlank c = true)
      (houter : ∀ c ∈ outer, isBlank c = true) (hback : ∀ c ∈ back, isBlank c = true)
      (hseparator : separator = '=' ∨ separator = ':') (hcode : code < UInt64.size)
      (hmessage : IsTrimmed message.toList) :
      Gives (front ++ ((toString code).toList ++ inner ++
        separator :: (outer ++ message.toList ++ back))) code message

/-- Lines that give some codes their messages in this order, each on a line of its own, and
anywhere between them others that are left out. -/
inductive Lists : List (List Char) → List (Nat × String) → Prop
  | nil : Lists [] []
  | leftOut {line : List Char} {lines : List (List Char)} {entries : List (Nat × String)}
      (hline : IsLeftOut line) (hrest : Lists lines entries) : Lists (line :: lines) entries
  | entry {line : List Char} {code : Nat} {message : String} {lines : List (List Char)}
      {entries : List (Nat × String)} (hline : Gives line code message)
      (hrest : Lists lines entries) : Lists (line :: lines) ((code, message) :: entries)

section Entries

variable {line : List Char}

/-- The first separator ends the code, and the message follows it. -/
theorem entryOf?_eq {code message : List Char} {separator : Char}
    (hline : trimStart line = code ++ separator :: message)
    (hcode : ∀ c ∈ code, isSeparator c = false) (hseparator : isSeparator separator = true) :
    entryOf? line =
      (Number.count? (trim code)).map fun number => (number, String.ofList (trim message)) := by
  have htake : (code ++ separator :: message).takeWhile (fun c => !isSeparator c) = code := by
    rw [List.takeWhile_append_of_pos fun c hc => by simp [hcode c hc],
      List.takeWhile_cons_of_neg (by simp [hseparator]), List.append_nil]
  rw [entryOf?, hline, htake, List.drop_left]

/-- A line without a separator has no code. -/
theorem entryOf?_eq_none (h : ∀ c ∈ trimStart line, isSeparator c = false) :
    entryOf? line = none := by
  have htake : (trimStart line).takeWhile (fun c => !isSeparator c) = trimStart line :=
    List.takeWhile_eq_self_iff.mpr fun c hc => by simp [h c hc]
  rw [entryOf?, htake, List.drop_length]

theorem isSeparator_of_isBlank {c : Char} (h : isBlank c = true) : isSeparator c = false := by
  rw [isSeparator, Bool.or_eq_false_iff, beq_eq_false_iff_ne, beq_eq_false_iff_ne]
  constructor
  · rintro rfl
    exact absurd h (by decide)
  · rintro rfl
    exact absurd h (by decide)

theorem of_mem_toString {code : Nat} {c : Char} (h : c ∈ (toString code).toList) :
    isBlank c = false ∧ isSeparator c = false ∧ c ≠ '#' ∧ c ≠ '!' := by
  have hrange := Number.toNat_of_mem_toString h
  have hne : ∀ {other : Char}, ¬(48 ≤ other.toNat ∧ other.toNat ≤ 57) → c ≠ other := by
    rintro other hother rfl
    exact hother hrange
  refine ⟨?_, ?_, hne (by decide), hne (by decide)⟩
  · simp only [isBlank, covers, blankRuns, Bool.and_eq_false_iff, Bool.or_eq_false_iff,
      decide_eq_false_iff_not]
    omega
  · rw [isSeparator, Bool.or_eq_false_iff, beq_eq_false_iff_ne, beq_eq_false_iff_ne]
    exact ⟨hne (by decide), hne (by decide)⟩

theorem exists_first_toString (code : Nat) : ∃ c rest, (toString code).toList = c :: rest := by
  rw [Number.toList_toString]
  exact List.exists_cons_of_ne_nil Nat.toDigits_ne_nil

/-- Blanks at the end of a line change neither its code nor its message. -/
theorem entryOf?_append_blanks (line : List Char) {blanks : List Char}
    (h : ∀ c ∈ blanks, isBlank c = true) : entryOf? (line ++ blanks) = entryOf? line := by
  rcases trimStart_append_blanks_cases line h with ⟨hnil, happend⟩ | ⟨-, happend⟩
  · rw [entryOf?, happend, entryOf?, hnil]
  · cases hfind : (trimStart line).find? isSeparator with
    | none =>
      have hline : ∀ c ∈ trimStart line, isSeparator c = false := by
        simpa using List.find?_eq_none.mp hfind
      rw [entryOf?_eq_none hline, entryOf?_eq_none]
      rw [happend, List.forall_mem_append]
      exact ⟨hline, fun c hc => isSeparator_of_isBlank (h c hc)⟩
    | some separator =>
      obtain ⟨hseparator, code, message, hline, hcode⟩ := List.find?_eq_some_iff_append.mp hfind
      have hcode : ∀ c ∈ code, isSeparator c = false := by simpa using hcode
      have hblanks : trimStart (line ++ blanks) = code ++ separator :: (message ++ blanks) := by
        rw [happend, hline, List.append_assoc, List.cons_append]
      rw [entryOf?_eq hline hcode hseparator, entryOf?_eq hblanks hcode hseparator,
        trim_append_blanks _ h]

theorem isIdle_append_blanks (line : List Char) {blanks : List Char}
    (h : ∀ c ∈ blanks, isBlank c = true) : isIdle (line ++ blanks) = isIdle line := by
  rcases trimStart_append_blanks_cases line h with ⟨hnil, happend⟩ | ⟨hne, happend⟩
  · rw [isIdle, happend, isIdle, hnil]
  · rw [isIdle, happend, isIdle]
    cases hline : trimStart line with
    | nil => exact absurd hline hne
    | cons c rest => rfl

theorem IsLeftOut.isIdle_eq (h : IsLeftOut line) : isIdle line = true := by
  cases h with
  | blank hline =>
    have htrim : trimStart line = [] := List.dropWhile_eq_nil_iff.mpr hline
    rw [isIdle, htrim]
  | @comment blanks rest mark hblanks hmark =>
    have htrim : trimStart (blanks ++ mark :: rest) = mark :: rest := by
      rw [trimStart_blanks_append hblanks]
      apply trimStart_eq_self
      rintro c ⟨⟩
      rcases hmark with rfl | rfl <;> decide
    rw [isIdle, htrim]
    simpa using hmark

variable {code : Nat} {message : String}

/-- The code stands in front of a line that gives it a message, once the line is trimmed there,
and the message behind the separator that comes next. -/
theorem Gives.exists_parts (h : Gives line code message) : ∃ inner separator rest,
    trimStart line = (toString code).toList ++ inner ++ separator :: rest ∧
      (∀ c ∈ inner, isBlank c = true) ∧ isSeparator separator = true ∧
      trim rest = message.toList := by
  cases h with
  | @intro front inner outer back separator code message hfront hinner houter hback hseparator
      hcode hmessage =>
    refine ⟨inner, separator, outer ++ message.toList ++ back, ?_, hinner, ?_, ?_⟩
    · rw [trimStart_blanks_append hfront]
      apply trimStart_eq_self
      obtain ⟨c, rest, hdigits⟩ := exists_first_toString code
      rw [hdigits]
      rintro d ⟨⟩
      exact (of_mem_toString (hdigits ▸ List.mem_cons_self)).1
    · rcases hseparator with rfl | rfl <;> rfl
    · rw [trim_append_blanks _ hback, trim_blanks_append houter, trim_eq_self hmessage]

theorem Gives.entryOf?_eq (h : Gives line code message) : entryOf? line = some (code, message) := by
  obtain ⟨inner, separator, rest, hline, hinner, hseparator, hrest⟩ := h.exists_parts
  have hcode : code < UInt64.size := by
    cases h with
    | intro _ _ _ _ _ hcode _ => exact hcode
  have hkey : ∀ c ∈ (toString code).toList ++ inner, isSeparator c = false := by
    rw [List.forall_mem_append]
    exact ⟨fun c hc => (of_mem_toString hc).2.1, fun c hc => isSeparator_of_isBlank (hinner c hc)⟩
  have hdigits : IsTrimmed (toString code).toList :=
    ⟨fun c hc => (of_mem_toString (List.mem_of_mem_head? hc)).1,
      fun c hc => (of_mem_toString (List.mem_of_mem_getLast? hc)).1⟩
  rw [Messages.entryOf?_eq hline hkey hseparator, trim_append_blanks _ hinner,
    trim_eq_self hdigits, Number.count?_toString hcode, hrest, String.ofList_toList]
  rfl

theorem Gives.isIdle_eq (h : Gives line code message) : isIdle line = false := by
  obtain ⟨inner, separator, rest, hline, -⟩ := h.exists_parts
  obtain ⟨c, others, hdigits⟩ := exists_first_toString code
  obtain ⟨-, -, hhash, hmark⟩ := of_mem_toString (hdigits ▸ List.mem_cons_self)
  rw [isIdle, hline, hdigits]
  simp [hhash, hmark]

end Entries

section Lists

variable {lines : List (List Char)} {entries : List (Nat × String)}

/-- The lines that are not left out hold the codes and the messages. -/
theorem Lists.map_entryOf?_eq (h : Lists lines entries) :
    (lines.filter fun line => !isIdle line).map entryOf? = entries.map some := by
  induction h with
  | nil => rfl
  | leftOut hline hrest ih =>
    rw [List.filter_cons_of_neg (by rw [hline.isIdle_eq]; decide)]
    exact ih
  | entry hline hrest ih =>
    rw [List.filter_cons_of_pos (by rw [hline.isIdle_eq]; rfl), List.map_cons,
      hline.entryOf?_eq, ih]
    rfl

/-- The messages with some more, one after the other. -/
def insertAll (m : Messages) (entries : List (Nat × String)) : Messages :=
  entries.foldl (fun m entry => m.insert entry.1 entry.2) m

theorem insertLines_eq (m : Messages) (h : lines.map entryOf? = entries.map some) :
    m.insertLines lines = .ok (m.insertAll entries) := by
  induction lines generalizing m entries with
  | nil =>
    rw [List.map_nil, eq_comm, List.map_eq_nil_iff] at h
    rw [h]
    rfl
  | cons line lines ih =>
    cases entries with
    | nil => simp at h
    | cons entry entries =>
      obtain ⟨hline, hrest⟩ := List.cons.inj h
      rw [insertLines, hline]
      exact ih _ hrest

/-- The last of some messages for a code is found, or what was there before. -/
theorem get?_insertAll (m : Messages) (entries : List (Nat × String)) (code : Nat) :
    (m.insertAll entries).get? code = (entries.reverse.lookup code).or (m.get? code) := by
  induction entries generalizing m with
  | nil => rfl
  | cons entry entries ih =>
    have hinsert : (m.insert entry.1 entry.2).get? code =
        ([entry].lookup code).or (m.get? code) := by
      obtain ⟨key, message⟩ := entry
      by_cases hcode : code = key
      · subst hcode
        rw [List.lookup_cons_self]
        exact Dictionary.get?_set_self _ _ _
      · rw [List.lookup_cons, beq_false_of_ne hcode]
        exact Dictionary.get?_set_of_ne _ _ hcode
    calc (m.insertAll (entry :: entries)).get? code
        = ((m.insert entry.1 entry.2).insertAll entries).get? code := rfl
      _ = (entries.reverse.lookup code).or (([entry].lookup code).or (m.get? code)) := by
          rw [ih, hinsert]
      _ = ((entry :: entries).reverse.lookup code).or (m.get? code) := by
          rw [List.reverse_cons, List.lookup_append, Option.or_assoc]

theorem nodup_keys_insertAll {m : Messages} (h : m.byCode.keys.Nodup)
    (entries : List (Nat × String)) : (m.insertAll entries).byCode.keys.Nodup := by
  induction entries generalizing m with
  | nil => exact h
  | cons entry entries ih => exact ih (Dictionary.nodup_keys_set h _ _)

/-- There are as many messages as different codes. -/
theorem size_insertAll (entries : List (Nat × String)) :
    (insertAll {} entries).size = (entries.map Prod.fst).toFinset.card := by
  have hkeys : (insertAll {} entries).byCode.keys.Nodup :=
    nodup_keys_insertAll (m := {}) List.nodup_nil _
  have hsame : (insertAll {} entries).byCode.keys.toFinset = (entries.map Prod.fst).toFinset := by
    ext code
    have hget : (insertAll {} entries).byCode.get? code = entries.reverse.lookup code :=
      (get?_insertAll {} entries code).trans (Option.or_none)
    rw [List.mem_toFinset, Dictionary.mem_keys_iff, hget, List.mem_toFinset, List.mem_map,
      ← Option.isSome_iff_exists, ← Option.ne_none_iff_isSome, ne_eq, List.lookup_eq_none_iff]
    simp [@eq_comm _ code]
  rw [← hsame, List.toFinset_card_of_nodup hkeys, Dictionary.keys, List.length_map]
  rfl

theorem Lists.ofText_eq (h : Lists lines entries) (hfeeds : ∀ line ∈ lines, '\n' ∉ line) :
    ofText (joinLines lines) = .ok (insertAll {} entries) := by
  have hread := map_filter_endedLines (fun line => !isIdle line) entryOf?
    (fun line => by rw [apply_dropReturn isIdle_append_blanks])
    (apply_dropReturn entryOf?_append_blanks) rfl lines
  rw [ofText, lines_joinLines hfeeds]
  exact insertLines_eq {} (hread.trans h.map_entryOf?_eq)

end Lists

/-- The messages are read back from any text that lists them, the last one for each code, and no
others. -/
theorem listed_messages_are_read_back {lines : List (List Char)} {entries : List (Nat × String)}
    (h : Lists lines entries) (hfeeds : ∀ line ∈ lines, '\n' ∉ line) :
    ∃ m, ofText (joinLines lines) = .ok m ∧
      (∀ code, m.get? code = entries.reverse.lookup code) ∧
      m.size = (entries.map Prod.fst).toFinset.card :=
  ⟨insertAll {} entries, h.ofText_eq hfeeds,
    fun code => (get?_insertAll {} entries code).trans Option.or_none, size_insertAll entries⟩

/-- Lines with a message that holds both separators, an empty one for the same code, and the
greatest code. -/
def crowdedLines : List (List Char) :=
  ["# codes".toList, "  7 = a=b:c \r".toList, "".toList, "\t! 7=x".toList, "7:".toList,
    "18446744073709551615:x = y".toList]

theorem listed_messages_are_read_back_crowded :
    Lists crowdedLines [(7, "a=b:c"), (7, ""), (18446744073709551615, "x = y")] ∧
      (∀ line ∈ crowdedLines, '\n' ∉ line) ∧
      ∃ m, ofText (joinLines crowdedLines) = .ok m ∧ m.get? 7 = some "" ∧
        m.get? 8 = none ∧ m.size = 2 := by
  have hblanks : ∀ {text : List Char}, text.all isBlank = true → ∀ c ∈ text, isBlank c = true :=
    List.all_eq_true.mp
  have hcode : (18446744073709551615 : Nat) < UInt64.size := by decide
  have hlists : Lists crowdedLines [(7, "a=b:c"), (7, ""), (18446744073709551615, "x = y")] := by
    apply Lists.leftOut (@IsLeftOut.comment [] " codes".toList '#' (hblanks rfl) (.inl rfl))
    apply Lists.entry (@Gives.intro "  ".toList " ".toList " ".toList " \r".toList '=' 7 "a=b:c"
      (hblanks rfl) (hblanks rfl) (hblanks rfl) (hblanks rfl) (.inl rfl) (by decide) (by decide))
    apply Lists.leftOut (.blank (hblanks rfl))
    apply Lists.leftOut (@IsLeftOut.comment "\t".toList " 7=x".toList '!' (hblanks rfl) (.inr rfl))
    apply Lists.entry (@Gives.intro [] [] [] [] ':' 7 "" (hblanks rfl) (hblanks rfl) (hblanks rfl)
      (hblanks rfl) (.inr rfl) (by decide) (by decide))
    exact .entry (@Gives.intro [] [] [] [] ':' _ "x = y" (hblanks rfl) (hblanks rfl) (hblanks rfl)
      (hblanks rfl) (.inr rfl) hcode (by decide)) .nil
  have hfeeds : ∀ line ∈ crowdedLines, '\n' ∉ line := by decide
  obtain ⟨m, hread, hget, hsize⟩ := listed_messages_are_read_back hlists hfeeds
  exact ⟨hlists, hfeeds, m, hread, hget 7, hget 8, hsize⟩

end Messages

end ShiftReduce
