import Mathlib.Data.List.TakeWhile
import ShiftReduce.Grammar.Notation

/-!
Texts that are put together and cut apart again. A cut in a text separates the pieces before
it from the pieces behind it, so the words on both sides of a blank are the words of the
whole, and lines joined by line feeds are found again, except that carriage returns are
dropped and an empty last line is not counted. Nothing is left of a trimmed text exactly if
it held only blanks.
-/
namespace ShiftReduce.Text

open Unicode

/-- A text of the given lines, with a line feed between each two. -/
def joinLines (lines : List (List Char)) : List Char := List.intercalate ['\n'] lines

section Pieces

variable {cut : Char → Bool}

/-- At a cut the pieces of a text fall into those of its two parts. -/
theorem pieces_append_cons (front : List Char) {c : Char} (hcut : cut c = true)
    (back : List Char) : pieces cut (front ++ c :: back) = pieces cut front ++ pieces cut back := by
  induction front with
  | nil => simp [pieces, hcut]
  | cons d front ih =>
    rw [List.cons_append, pieces, pieces, ih]
    by_cases hd : cut d = true
    · rw [if_pos hd, if_pos hd, List.cons_append]
    · rw [if_neg hd, if_neg hd]
      cases hpieces : pieces cut front with
      | nil => exact absurd hpieces (pieces_ne_nil cut front)
      | cons piece rest => rfl

end Pieces

section Words

/-- A blank separates the words before it from those behind it. -/
theorem words_append_cons (front : List Char) {c : Char} (hblank : isBlank c = true)
    (back : List Char) : words (front ++ c :: back) = words front ++ words back := by
  rw [words, pieces_append_cons front hblank back, List.filter_append]
  rfl

/-- A text without blanks is one word. -/
theorem words_eq_singleton {word : List Char} (hne : word ≠ [])
    (hword : ∀ c ∈ word, isBlank c = false) : words word = [word] := by
  rw [words, pieces_eq_singleton hword]
  simpa using hne

theorem words_of_blanks {blanks : List Char} (h : ∀ c ∈ blanks, isBlank c = true) :
    words blanks = [] := by
  induction blanks with
  | nil => rfl
  | cons c blanks ih =>
    have hrest : words blanks = [] := ih fun d hd => h d (List.mem_cons_of_mem _ hd)
    rw [← List.nil_append (c :: blanks), words_append_cons [] (h c List.mem_cons_self), hrest]
    rfl

/-- Blanks at the end of a text do not change its words. -/
theorem words_append_blanks (text : List Char) {blanks : List Char}
    (h : ∀ c ∈ blanks, isBlank c = true) : words (text ++ blanks) = words text := by
  cases blanks with
  | nil => rw [List.append_nil]
  | cons c blanks =>
    have hrest : words blanks = [] := words_of_blanks fun d hd => h d (List.mem_cons_of_mem _ hd)
    rw [words_append_cons text (h c List.mem_cons_self), hrest, List.append_nil]

/-- A word holds no blank. -/
theorem isBlank_of_mem_words {text word : List Char} (h : word ∈ words text) :
    ∀ c ∈ word, isBlank c = false :=
  not_cut_of_mem_pieces (List.mem_filter.mp h).1

end Words

section Trimming

/-- Trimming leaves nothing exactly of a text of blanks. -/
theorem trim_eq_nil_iff {text : List Char} : trim text = [] ↔ ∀ c ∈ text, isBlank c = true := by
  rw [trim, trimEnd, trimStart, List.reverse_eq_nil_iff, List.dropWhile_eq_nil_iff]
  constructor
  · intro h c hc
    -- What is dropped from the front are blanks, and what is left was found to be blanks.
    rw [← List.takeWhile_append_dropWhile (p := isBlank) (l := text)] at hc
    rcases List.mem_append.mp hc with hc | hc
    · exact List.mem_takeWhile_imp hc
    · exact h c (List.mem_reverse.mpr hc)
  · intro h c hc
    exact h c ((List.dropWhile_sublist _).subset (List.mem_reverse.mp hc))

/-- A text with no blank at its ends. -/
def IsTrimmed (text : List Char) : Prop :=
  (∀ c ∈ text.head?, isBlank c = false) ∧ ∀ c ∈ text.getLast?, isBlank c = false

instance (text : List Char) : Decidable (IsTrimmed text) :=
  decidable_of_iff ((text.head?.all fun c => !isBlank c) = true ∧
    (text.getLast?.all fun c => !isBlank c) = true) (by simp [IsTrimmed, Option.all_eq_true])

theorem trimStart_eq_self {text : List Char} (h : ∀ c ∈ text.head?, isBlank c = false) :
    trimStart text = text := by
  cases text with
  | nil => rfl
  | cons c text => exact List.dropWhile_cons_of_neg (by simp [h c rfl])

theorem trimEnd_eq_self {text : List Char} (h : ∀ c ∈ text.getLast?, isBlank c = false) :
    trimEnd text = text := by
  rw [← List.head?_reverse] at h
  calc trimEnd text = (trimStart text.reverse).reverse := rfl
    _ = text.reverse.reverse := by rw [trimStart_eq_self h]
    _ = text := List.reverse_reverse text

theorem trim_eq_self {text : List Char} (h : IsTrimmed text) : trim text = text := by
  rw [trim, trimStart_eq_self h.1, trimEnd_eq_self h.2]

/-- Blanks in front of a text do not change what is left of it. -/
theorem trimStart_blanks_append {blanks : List Char} (h : ∀ c ∈ blanks, isBlank c = true)
    (text : List Char) : trimStart (blanks ++ text) = trimStart text :=
  List.dropWhile_append_of_pos h

/-- Blanks behind a text go with it or stay behind what is left of it. -/
theorem trimStart_append_blanks_cases (text : List Char) {blanks : List Char}
    (h : ∀ c ∈ blanks, isBlank c = true) :
    (trimStart text = [] ∧ trimStart (text ++ blanks) = []) ∨
      (trimStart text ≠ [] ∧ trimStart (text ++ blanks) = trimStart text ++ blanks) := by
  have happend : trimStart (text ++ blanks) =
      if (trimStart text).isEmpty then trimStart blanks else trimStart text ++ blanks :=
    List.dropWhile_append
  by_cases hnil : trimStart text = []
  · refine Or.inl ⟨hnil, ?_⟩
    rw [happend, hnil]
    exact List.dropWhile_eq_nil_iff.mpr h
  · refine Or.inr ⟨hnil, ?_⟩
    rw [happend, if_neg (by simpa using hnil)]

theorem trim_blanks_append {blanks : List Char} (h : ∀ c ∈ blanks, isBlank c = true)
    (text : List Char) : trim (blanks ++ text) = trim text := by
  rw [trim, trimStart_blanks_append h, trim]

theorem trim_append_blanks (text : List Char) {blanks : List Char}
    (h : ∀ c ∈ blanks, isBlank c = true) : trim (text ++ blanks) = trim text := by
  have hend : ∀ front : List Char, trimEnd (front ++ blanks) = trimEnd front := by
    intro front
    rw [trimEnd, List.reverse_append,
      List.dropWhile_append_of_pos fun c hc => h c (List.mem_reverse.mp hc), trimEnd]
  rcases trimStart_append_blanks_cases text h with ⟨hnil, happend⟩ | ⟨-, happend⟩
  · rw [trim, happend, trim, hnil]
  · rw [trim, happend, hend, trim]

end Trimming

section Lines

/-- A line is the one without its carriage return, or that one and the carriage return. -/
theorem dropReturn_cases (line : List Char) :
    dropReturn line = line ∨ line = dropReturn line ++ ['\r'] := by
  unfold dropReturn
  split
  · next hlast =>
    obtain ⟨front, rfl⟩ := List.getLast?_eq_some_iff.mp hlast
    rw [List.dropLast_concat]
    exact Or.inr rfl
  · exact Or.inl rfl

/-- What does not depend on blanks at the end of a line does not depend on its carriage return. -/
theorem apply_dropReturn {β : Type} {f : List Char → β}
    (h : ∀ line {blanks}, (∀ c ∈ blanks, isBlank c = true) → f (line ++ blanks) = f line)
    (line : List Char) : f (dropReturn line) = f line := by
  rcases dropReturn_cases line with hsame | hreturn
  · rw [hsame]
  · calc f (dropReturn line) = f (dropReturn line ++ ['\r']) :=
          (h _ (List.all_eq_true.mp (by decide))).symm
      _ = f line := by rw [← hreturn]

theorem words_dropReturn (line : List Char) : words (dropReturn line) = words line :=
  apply_dropReturn words_append_blanks line

theorem endedLines_cons (line : List Char) {rest : List (List Char)} (h : rest ≠ []) :
    endedLines (line :: rest) = dropReturn line :: endedLines rest := by
  cases rest with
  | nil => exact absurd rfl h
  | cons next rest => rfl

/-- The pieces between the line feeds of joined lines are the lines. -/
theorem pieces_joinLines {lines : List (List Char)} (hne : lines ≠ [])
    (h : ∀ line ∈ lines, '\n' ∉ line) : pieces (· == '\n') (joinLines lines) = lines := by
  induction lines with
  | nil => exact absurd rfl hne
  | cons line rest ih =>
    have hline : ∀ c ∈ line, (c == '\n') = false := by
      intro c hc
      have hfeed := h line List.mem_cons_self
      rw [beq_eq_false_iff_ne]
      rintro rfl
      exact hfeed hc
    by_cases hrest : rest = []
    · rw [hrest, joinLines, List.intercalate_singleton]
      exact pieces_eq_singleton hline
    · have hjoined : joinLines (line :: rest) = line ++ '\n' :: joinLines rest := by
        rw [joinLines, List.intercalate_cons_of_ne_nil hrest, List.append_assoc]
        rfl
      rw [hjoined, pieces_append_cons line rfl, pieces_eq_singleton hline,
        ih hrest fun other hother => h other (List.mem_cons_of_mem _ hother)]
      rfl

theorem lines_joinLines {lines : List (List Char)} (h : ∀ line ∈ lines, '\n' ∉ line) :
    Text.lines (joinLines lines) = endedLines lines := by
  by_cases hne : lines = []
  · rw [hne]
    rfl
  · rw [Text.lines, pieces_joinLines hne h]

/-- What does not depend on carriage returns is found in the ended lines as in all pieces
between line feeds, if nothing is looked for in an empty line. -/
theorem map_filter_endedLines {β : Type} (keep : List Char → Bool) (f : List Char → β)
    (hkeep : ∀ line, keep (dropReturn line) = keep line) (hf : ∀ line, f (dropReturn line) = f line)
    (hempty : keep [] = false) (lines : List (List Char)) :
    ((endedLines lines).filter keep).map f = (lines.filter keep).map f := by
  induction lines with
  | nil => rfl
  | cons line rest ih =>
    by_cases hrest : rest = []
    · rw [hrest, endedLines]
      split
      · next hline => rw [List.isEmpty_iff.mp hline, List.filter_cons_of_neg (by simp [hempty])]
      · rfl
    · rw [endedLines_cons line hrest]
      by_cases hline : keep line = true
      · rw [List.filter_cons_of_pos ((hkeep line).trans hline), List.filter_cons_of_pos hline,
          List.map_cons, List.map_cons, hf, ih]
      · rw [List.filter_cons_of_neg (by rwa [hkeep]), List.filter_cons_of_neg hline, ih]

end Lines

end ShiftReduce.Text
