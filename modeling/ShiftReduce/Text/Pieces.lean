import ShiftReduce.Unicode.Blank

/-!
Cutting a text apart. Lines end at line feeds, cells are separated by tabs and
words by runs of blanks; a text is trimmed by dropping the blanks at its ends.
Joining the pieces with the separators gives the text back, and a piece holds no
separator.
-/
namespace ShiftReduce.Text

open Unicode

/-- The pieces between the characters at which the text is cut: one piece more
than there are cuts. -/
def pieces (cut : Char → Bool) : List Char → List (List Char)
  | [] => [[]]
  | c :: rest => if cut c then [] :: pieces cut rest else (pieces cut rest).modifyHead (c :: ·)

/-- The cells of a row, which tabs separate. -/
def cells (row : List Char) : List (List Char) := pieces (· == '\t') row

/-- The words of a text, which blanks separate and surround. -/
def words (text : List Char) : List (List Char) :=
  (pieces isBlank text).filter fun word => !word.isEmpty

/-- A line without the carriage return that may stand before its line feed. -/
def dropReturn (line : List Char) : List Char :=
  if line.getLast? = some '\r' then line.dropLast else line

/-- The lines among the pieces between line feeds: the last piece was not ended
by a line feed, so it keeps its carriage return and counts only if it holds
something. -/
def endedLines : List (List Char) → List (List Char)
  | [] => []
  | [last] => if last.isEmpty then [] else [last]
  | line :: next :: rest => dropReturn line :: endedLines (next :: rest)

/-- The lines of a text. -/
def lines (text : List Char) : List (List Char) := endedLines (pieces (· == '\n') text)

/-- The text without the blanks at its start. -/
def trimStart (text : List Char) : List Char := text.dropWhile isBlank

/-- The text without the blanks at its end. -/
def trimEnd (text : List Char) : List Char := (text.reverse.dropWhile isBlank).reverse

/-- The text without the blanks at its ends. -/
def trim (text : List Char) : List Char := trimEnd (trimStart text)

/-- The text with spaces before it up to a width. -/
def padStart (width : Nat) (text : String) : String :=
  String.ofList (List.replicate (width - text.length) ' ') ++ text

/-- There is always a first piece. -/
theorem pieces_ne_nil (cut : Char → Bool) (text : List Char) : pieces cut text ≠ [] := by
  cases text with
  | nil => simp [pieces]
  | cons c rest =>
    have ih := pieces_ne_nil cut rest
    unfold pieces
    split
    · simp
    · cases h : pieces cut rest with
      | nil => exact absurd h ih
      | cons piece more => simp

/-- A piece holds no character at which the text is cut. -/
theorem not_cut_of_mem_pieces {cut : Char → Bool} {text piece : List Char}
    (h : piece ∈ pieces cut text) : ∀ c ∈ piece, cut c = false := by
  induction text generalizing piece with
  | nil => simp_all [pieces]
  | cons c rest ih =>
    unfold pieces at h
    split at h
    · rcases List.mem_cons.mp h with rfl | h
      · simp
      · exact ih h
    · rename_i hc
      cases hp : pieces cut rest with
      | nil => exact absurd hp (pieces_ne_nil cut rest)
      | cons first more =>
        rw [hp, List.modifyHead_cons] at h
        rcases List.mem_cons.mp h with rfl | h
        · intro d hd
          rcases List.mem_cons.mp hd with rfl | hd
          · simpa using hc
          · exact ih (by rw [hp]; simp) d hd
        · exact ih (by rw [hp]; simp [h])

/-- A text without a cut is its only piece. -/
theorem pieces_eq_singleton {cut : Char → Bool} {text : List Char}
    (h : ∀ c ∈ text, cut c = false) : pieces cut text = [text] := by
  induction text with
  | nil => rfl
  | cons c rest ih =>
    simp [pieces, h c (by simp), ih fun d hd => h d (by simp [hd])]

/-- A word is not empty. -/
theorem ne_nil_of_mem_words {text word : List Char} (h : word ∈ words text) : word ≠ [] := by
  have := (List.mem_filter.mp h).2
  cases word <;> simp_all

end ShiftReduce.Text
