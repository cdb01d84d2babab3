import ShiftReduce.Proofs.Comments

/-!
Literals between delimiters, as they are written. A literal is written character by character,
each by itself or behind the escape character. The recognizers read such a text to its end and
no other, whatever the delimiter, the escape character and the characters that may follow it
are, though the delimiter may be the escape character and a line feed may be either. Their
values are read from the text once more, without the recognizer, and cut it at the same places.
-/
namespace ShiftReduce

open MaximalMunch

variable {κ υ : Type}

namespace Pattern

/-- A character of a literal as it is written: by itself, or behind the escape character. -/
inductive Glyph where
  | plain (c : Char)
  | escaped (c : Char)

namespace Glyph

def text (escape : Char) : Glyph → List Char
  | .plain c => [c]
  | .escaped c => [escape, c]

/-- The character that is meant. -/
def meaning : Glyph → Char
  | .plain c => c
  | .escaped c => escapeMeaning c

/-- Nothing with a meaning of its own stands by itself, and the escape character has no meaning
of its own if it is the delimiter. -/
def IsAllowed (s : StringLiteral) : Glyph → Prop
  | .plain c => c ≠ s.delimiter ∧ c ≠ s.escape ∧ c ≠ '\n'
  | .escaped c => s.escape ≠ s.delimiter ∧ c ∈ s.escapes

/-- How a character is written in a literal between double quotes. -/
def ofChar (c : Char) : Glyph :=
  if c = '\n' then .escaped 'n'
  else if c = '"' ∨ c = '\\' then .escaped c
  else .plain c

theorem meaning_ofChar (c : Char) : (ofChar c).meaning = c := by
  unfold ofChar
  split
  · next hfeed => rw [hfeed]; rfl
  · split
    · next hspecial =>
      rcases hspecial with rfl | rfl
      · rfl
      · rfl
    · rfl

theorem isAllowed_ofChar (c : Char) : (ofChar c).IsAllowed {} := by
  unfold ofChar
  split
  · exact ⟨by decide, by decide⟩
  · next hfeed =>
    split
    · next hspecial =>
      rcases hspecial with rfl | rfl
      · exact ⟨by decide, by decide⟩
      · exact ⟨by decide, by decide⟩
    · next hspecial =>
      rw [not_or] at hspecial
      exact ⟨hspecial.1, hspecial.2, hfeed⟩

end Glyph

theorem unescape_cons_of_ne {escape c : Char} (h : c ≠ escape) (text : List Char) :
    unescape escape (c :: text) = c :: unescape escape text := by
  cases text with
  | nil => rfl
  | cons d text => rw [unescape, if_neg h]

/-- Reading for the value cuts a text where it was put together. -/
theorem unescape_flatMap {s : StringLiteral} {glyphs : List Glyph}
    (h : ∀ glyph ∈ glyphs, glyph.IsAllowed s) :
    unescape s.escape (glyphs.flatMap (Glyph.text s.escape)) = glyphs.map Glyph.meaning := by
  induction glyphs with
  | nil => rfl
  | cons glyph glyphs ih =>
    obtain ⟨hglyph, hglyphs⟩ := List.forall_mem_cons.mp h
    rw [List.flatMap_cons, List.map_cons, ← ih hglyphs]
    cases glyph with
    | plain c => exact unescape_cons_of_ne hglyph.2.1 _
    | escaped c => simp [Glyph.text, Glyph.meaning, unescape]

theorem between_delimited (first last : Char) (body : List Char) :
    between (first :: (body ++ [last])) = body := by
  rw [between, List.tail_cons, List.dropLast_concat]

namespace StringLiteral

/-- The characters behind the first delimiter of a literal. -/
def Ends (s : StringLiteral) (text : List Char) : Prop :=
  ∃ glyphs : List Glyph, (∀ glyph ∈ glyphs, glyph.IsAllowed s) ∧
    text = glyphs.flatMap (Glyph.text s.escape) ++ [s.delimiter]

/-- The text is written with these characters between two delimiters. -/
def Writes (s : StringLiteral) (glyphs : List Glyph) (text : List Char) : Prop :=
  (∀ glyph ∈ glyphs, glyph.IsAllowed s) ∧
    text = s.delimiter :: (glyphs.flatMap (Glyph.text s.escape) ++ [s.delimiter])

/-- The texts that complete a literal from some progress on. -/
def Completes (s : StringLiteral) : Progress → List Char → Prop
  | .start, c :: text => c = s.delimiter ∧ s.Ends text
  | .body, text => s.Ends text
  | .escaped, c :: text => c ∈ s.escapes ∧ s.Ends text
  | _, _ => False

variable {s : StringLiteral} {c : Char} {text : List Char}

theorem not_ends_nil : ¬ s.Ends [] := by
  rintro ⟨glyphs, -, heq⟩
  simp at heq

/-- A delimiter ends the literal, an escape character belongs to the next one, and any other
character but a line feed stands by itself. -/
theorem ends_cons_iff : s.Ends (c :: text) ↔
    c = s.delimiter ∧ text = [] ∨
      c ≠ s.delimiter ∧ c = s.escape ∧ s.Completes .escaped text ∨
      c ≠ s.delimiter ∧ c ≠ s.escape ∧ c ≠ '\n' ∧ s.Ends text := by
  constructor
  · rintro ⟨glyphs, hglyphs, heq⟩
    cases glyphs with
    | nil =>
      obtain ⟨rfl, rfl⟩ := List.cons.inj heq
      exact Or.inl ⟨rfl, rfl⟩
    | cons glyph glyphs =>
      obtain ⟨hglyph, hrest⟩ := List.forall_mem_cons.mp hglyphs
      cases glyph with
      | plain d =>
        obtain ⟨rfl, rfl⟩ := List.cons.inj heq
        exact Or.inr (Or.inr ⟨hglyph.1, hglyph.2.1, hglyph.2.2, glyphs, hrest, rfl⟩)
      | escaped d =>
        obtain ⟨rfl, rfl⟩ := List.cons.inj heq
        exact Or.inr (Or.inl ⟨hglyph.1, rfl, hglyph.2, glyphs, hrest, rfl⟩)
  · rintro (⟨rfl, rfl⟩ | ⟨hdelimiter, rfl, hescaped⟩ |
      ⟨hdelimiter, hescape, hfeed, glyphs, hglyphs, rfl⟩)
    · exact ⟨[], by simp, rfl⟩
    · cases text with
      | nil => exact hescaped.elim
      | cons d rest =>
        obtain ⟨hd, glyphs, hglyphs, rfl⟩ := hescaped
        exact ⟨.escaped d :: glyphs, List.forall_mem_cons.mpr ⟨⟨hdelimiter, hd⟩, hglyphs⟩, rfl⟩
    · exact ⟨.plain c :: glyphs,
        List.forall_mem_cons.mpr ⟨⟨hdelimiter, hescape, hfeed⟩, hglyphs⟩, rfl⟩

/-- What completes a literal is read character by character. -/
theorem completes_step (s : StringLiteral) (progress : Progress) (c : Char) :
    ((step { s with progress } (some c)).1 = .fullMatch ↔ s.Completes progress [c]) ∧
      ∀ d more, s.Completes (step { s with progress } (some c)).2 (d :: more) ↔
        s.Completes progress (c :: d :: more) := by
  cases progress with
  | start =>
    by_cases hdelimiter : c = s.delimiter
    · simp [step, Completes, hdelimiter, not_ends_nil]
    · simp [step, Completes, hdelimiter]
  | body =>
    simp only [Completes, ends_cons_iff (c := c)]
    by_cases hdelimiter : c = s.delimiter
    · simp [step, hdelimiter]
    · by_cases hescape : c = s.escape
      · have hother : s.escape ≠ s.delimiter := hescape ▸ hdelimiter
        simp [step, hescape, hother]
      · by_cases hfeed : c = '\n'
        · subst hfeed
          simp [step, hdelimiter, hescape]
        · simp [step, hdelimiter, hescape, hfeed, not_ends_nil]
  | escaped =>
    by_cases hc : c ∈ s.escapes
    · simp [step, Completes, hc, not_ends_nil]
    · simp [step, Completes, hc]
  | _ flaw? => simp [step, Completes]

theorem exists_writes_iff : (∃ glyphs, s.Writes glyphs text) ↔ s.Completes .start text := by
  cases text with
  | nil => simp [Writes, Completes]
  | cons c text => simp [Writes, Completes, Ends, and_left_comm]

theorem value_of_writes {glyphs : List Glyph} (h : s.Writes glyphs text) :
    s.value text = .text (String.ofList (glyphs.map Glyph.meaning)) := by
  obtain ⟨hglyphs, rfl⟩ := h
  rw [value, between_delimited, unescape_flatMap hglyphs]

end StringLiteral

/-- How character literals are written: as string literals between single quotes, of one
character. -/
def singleQuoted : StringLiteral := { delimiter := '\'' }

namespace CharLiteral

/-- The characters behind the first quote of a literal. -/
def Ends (text : List Char) : Prop :=
  ∃ glyph : Glyph, glyph.IsAllowed singleQuoted ∧ text = glyph.text '\\' ++ ['\'']

/-- The texts that complete a literal from some progress on. -/
def Completes : CharLiteral → List Char → Prop
  | .start, c :: text => c = '\'' ∧ Ends text
  | .opened, text => Ends text
  | .escaped, c :: text => c ∈ defaultEscapes ∧ text = ['\'']
  | .filled, text => text = ['\'']
  | _, _ => False

variable {c : Char} {text : List Char}

theorem ends_cons_iff : Ends (c :: text) ↔
    c = '\\' ∧ Completes .escaped text ∨
      c ≠ '\'' ∧ c ≠ '\\' ∧ c ≠ '\n' ∧ text = ['\''] := by
  constructor
  · rintro ⟨glyph, hglyph, heq⟩
    cases glyph with
    | plain d =>
      obtain ⟨rfl, rfl⟩ := List.cons.inj heq
      exact Or.inr ⟨hglyph.1, hglyph.2.1, hglyph.2.2, rfl⟩
    | escaped d =>
      obtain ⟨rfl, rfl⟩ := List.cons.inj heq
      exact Or.inl ⟨rfl, hglyph.2, rfl⟩
  · rintro (⟨rfl, hescaped⟩ | ⟨hdelimiter, hescape, hfeed, rfl⟩)
    · cases text with
      | nil => exact hescaped.elim
      | cons d rest =>
        obtain ⟨hd, rfl⟩ := hescaped
        exact ⟨.escaped d, ⟨by decide, hd⟩, rfl⟩
    · exact ⟨.plain c, ⟨hdelimiter, hescape, hfeed⟩, rfl⟩

theorem not_ends_nil : ¬ Ends [] := by
  rintro ⟨glyph, -, heq⟩
  simp at heq

theorem completes_test (l : CharLiteral) (c : Char) :
    ((l.test (some c)).1 = .fullMatch ↔ l.Completes [c]) ∧
      ∀ d more, (l.test (some c)).2.Completes (d :: more) ↔ l.Completes (c :: d :: more) := by
  cases l with
  | start =>
    by_cases hdelimiter : c = '\''
    · simp [test, Completes, hdelimiter, not_ends_nil]
    · simp [test, Completes, hdelimiter]
  | opened =>
    simp only [Completes, ends_cons_iff (c := c)]
    by_cases hdelimiter : c = '\''
    · simp [test, hdelimiter]
    · by_cases hescape : c = '\\'
      · simp [test, hescape]
      · by_cases hfeed : c = '\n'
        · simp [test, hfeed]
        · simp [test, hdelimiter, hescape, hfeed]
  | escaped =>
    by_cases hc : c ∈ defaultEscapes
    · simp [test, Completes, hc]
    · simp [test, Completes, hc]
  | filled =>
    by_cases hdelimiter : c = '\''
    · simp [test, Completes, hdelimiter]
    · by_cases hfeed : c = '\n'
      · simp [test, Completes, hfeed]
      · simp [test, Completes, hdelimiter, hfeed]
  | _ flaw? => simp [test, Completes]

theorem exists_writes_iff : (∃ glyph, singleQuoted.Writes [glyph] text) ↔ Completes .start text := by
  cases text with
  | nil => simp [StringLiteral.Writes, Completes]
  | cons c text => simp [StringLiteral.Writes, Completes, Ends, singleQuoted, and_left_comm]

theorem value?_of_writes {glyph : Glyph} (h : singleQuoted.Writes [glyph] text) :
    value? text = some (.char glyph.meaning) := by
  obtain ⟨hglyph, rfl⟩ := h
  have hmeaning := unescape_flatMap hglyph
  rw [value?, between_delimited, show '\\' = singleQuoted.escape from rfl, hmeaning]
  rfl

end CharLiteral
end Pattern

namespace Recognizer

open Pattern

variable [Recognizes υ κ] (context : Context) (kind : κ)

/-- A recognizer of string literals matches what is written between its delimiters. -/
theorem matchesWhole_string_iff (s : StringLiteral) (text : List Char) :
    MatchesWhole context (.string kind s : Recognizer κ υ) text ↔ ∃ glyphs, s.Writes glyphs text := by
  rw [StringLiteral.exists_writes_iff, matchesWhole_iff_of_completes
    (fun progress : StringLiteral.Progress => (.string kind { s with progress } : Recognizer κ υ))
    s.Completes .start rfl (fun _ _ => rfl) s.completes_step, and_iff_right_iff_imp]
  rintro hcompletes rfl
  exact hcompletes

theorem matchesWhole_char_iff (l : CharLiteral) (text : List Char) :
    MatchesWhole context (.lexeme kind (.char l) : Recognizer κ υ) text ↔
      ∃ glyph, singleQuoted.Writes [glyph] text := by
  rw [CharLiteral.exists_writes_iff, matchesWhole_iff_of_completes
    (fun l : CharLiteral => (.lexeme kind (.char l) : Recognizer κ υ))
    CharLiteral.Completes .start rfl (fun _ _ => rfl) CharLiteral.completes_test,
    and_iff_right_iff_imp]
  rintro hcompletes rfl
  exact hcompletes

/-- String and character literals are matched as a whole exactly if they are written with
allowed characters between their delimiters, and their values are the characters meant. Every
text is the value of a string literal. -/
theorem quoted_literals_mean_what_is_written :
    (∀ (s : StringLiteral) (text : List Char),
      (MatchesWhole context (.string kind s : Recognizer κ υ) text ↔
        ∃ glyphs, s.Writes glyphs text) ∧
      ∀ glyphs, s.Writes glyphs text → (Lexeme.string s).value? text =
        some (.text (String.ofList (glyphs.map Glyph.meaning)))) ∧
    (∀ (l : CharLiteral) (text : List Char),
      (MatchesWhole context (.lexeme kind (.char l) : Recognizer κ υ) text ↔
        ∃ glyph, singleQuoted.Writes [glyph] text) ∧
      ∀ glyph, singleQuoted.Writes [glyph] text →
        (Lexeme.char l).value? text = some (.char glyph.meaning)) ∧
    ∀ content : String, ∃ text,
      MatchesWhole context (.string kind : Recognizer κ υ) text ∧
        (Lexeme.string {}).value? text = some (.text content) := by
  refine ⟨?_, ?_, ?_⟩
  · intro s text
    refine ⟨matchesWhole_string_iff context kind s text, ?_⟩
    intro glyphs hwrites
    exact congrArg some (StringLiteral.value_of_writes hwrites)
  · intro l text
    refine ⟨matchesWhole_char_iff context kind l text, ?_⟩
    intro glyph hwrites
    exact CharLiteral.value?_of_writes hwrites
  · intro content
    have hallowed : ∀ glyph ∈ content.toList.map Glyph.ofChar, glyph.IsAllowed {} := by
      intro glyph hglyph
      obtain ⟨c, -, rfl⟩ := List.mem_map.mp hglyph
      exact Glyph.isAllowed_ofChar c
    have hmeaning : (content.toList.map Glyph.ofChar).map Glyph.meaning = content.toList := by
      rw [List.map_map]
      exact List.map_id'' Glyph.meaning_ofChar content.toList
    refine ⟨_, (matchesWhole_string_iff context kind {} _).mpr ⟨_, hallowed, rfl⟩, ?_⟩
    have hvalue := StringLiteral.value_of_writes ⟨hallowed, rfl⟩
    rw [hmeaning, String.ofList_toList] at hvalue
    exact congrArg some hvalue

/-- Literals between line feeds, one of which may stand in the literal behind a double quote. -/
def betweenLineFeeds : StringLiteral := { delimiter := '\n', escape := '"', escapes := ['n', '\n'] }

theorem quoted_literals_mean_lineFeeds :
    betweenLineFeeds.Writes [.plain 'a', .escaped 'n', .escaped '\n'] "\na\"n\"\n\n".toList ∧
      MatchesWhole {} (.string () betweenLineFeeds : Recognizer Unit (NoCustom Unit))
        "\na\"n\"\n\n".toList ∧
      (Lexeme.string betweenLineFeeds).value? "\na\"n\"\n\n".toList = some (.text "a\n\n") := by
  have hwrites : betweenLineFeeds.Writes [.plain 'a', .escaped 'n', .escaped '\n']
      "\na\"n\"\n\n".toList :=
    ⟨by simp [Glyph.IsAllowed, betweenLineFeeds], rfl⟩
  obtain ⟨hmatches, hvalue⟩ :=
    (quoted_literals_mean_what_is_written (υ := NoCustom Unit) {} ()).1 betweenLineFeeds
      "\na\"n\"\n\n".toList
  exact ⟨hwrites, hmatches.mpr ⟨_, hwrites⟩, hvalue _ hwrites⟩

end Recognizer
end ShiftReduce
