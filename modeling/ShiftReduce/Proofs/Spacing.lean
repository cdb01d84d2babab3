import Mathlib.Data.List.Forall2
import ShiftReduce.Proofs.History
import ShiftReduce.Proofs.Vocabulary
import ShiftReduce.Proofs.Words

/-!
Words with blanks between them. A tokenizer that recognizes words and skips blanks cannot match
across a border between a word and a blank: no word goes on into a blank, and no run of blanks
into a word. So each piece of a text that some recognizer matches as a whole comes back as one
token if blanks separate the pieces, however much the recognizers compete within a piece, and
however many blanks there are.
-/
namespace ShiftReduce

open MaximalMunch Pattern.Letters Unicode

variable {κ : Type}

section Borders

variable {context : Context} (front : List Char) {back : List Char} {c : Char} {longer : Nat}

theorem mem_take_of_lt (h : front.length < longer) : c ∈ (front ++ c :: back).take longer := by
  rw [List.take_append]
  apply List.mem_append_right
  obtain ⟨more, hmore⟩ : ∃ more, longer - front.length = more + 1 :=
    ⟨longer - front.length - 1, by omega⟩
  rw [hmore, List.take_succ_cons]
  exact List.mem_cons_self

/-- No word goes on into a blank. -/
theorem Recognizer.IsOfWords.not_matchesAt {r : Recognizer κ (NoCustom κ)} (h : r.IsOfWords)
    (hblank : isBlank c = true) (hlonger : front.length < longer) :
    ¬ MatchesAt context r (front ++ c :: back) longer := by
  intro hmatches
  have hword := h.isBlank_of_matchesWhole (matchesWhole_take hmatches) c
    (mem_take_of_lt front hlonger)
  rw [hblank] at hword
  cases hword

/-- No run of blanks goes on into a word. -/
theorem Recognizer.not_matchesAt_blanks (hblank : isBlank c = false)
    (hlonger : front.length < longer) :
    ¬ MatchesAt context (.blanks : Recognizer κ (NoCustom κ)) (front ++ c :: back) longer := by
  intro hmatches
  have hrun := (matchesWhole_blanks_iff.mp (matchesWhole_take hmatches)).2 c
    (mem_take_of_lt front hlonger)
  rw [hblank] at hrun
  cases hrun

end Borders

namespace Tokenizer

variable {b : Blueprint κ (NoCustom κ)} {t : Tokenizer (Recognizer κ (NoCustom κ)) κ}
  {text rest : List Char}

/-- A tokenizer made from a blueprint that keeps no token and has a text before it. -/
structure Faces (b : Blueprint κ (NoCustom κ)) (text : List Char)
    (t : Tokenizer (Recognizer κ (NoCustom κ)) κ) : Prop where
  stemsFrom : t.StemsFrom b
  peeked?_eq : t.peeked? = none
  spells : t.input.Spells text

/-- The first recognizer of the blueprint that matches the front of the text decides what is
taken from it, if nobody matches more; and the rest is left. -/
theorem Faces.exists_round (h : t.Faces b (text ++ rest)) {context : Context}
    {front back : List (Recognizer κ (NoCustom κ))} {r : Recognizer κ (NoCustom κ)}
    (hlineup : b.lineup = front ++ r :: back) (hmatch : MatchesWhole context r text)
    (hfront : ∀ s ∈ front, ¬ MatchesWhole context s text)
    (hlongest : ∀ s ∈ b.lineup, ∀ longer, text.length < longer →
      ¬ MatchesAt context s (text ++ rest) longer) :
    ∃ t', t.round context = (Round.ofMatch r text, t') ∧ t'.Faces b rest := by
  -- In a round the recognizers are those of the blueprint again.
  have halike : ({ t with recognizers := b.lineup } : Tokenizer _ κ).Alike t :=
    ⟨h.stemsFrom.reset_eq.symm, rfl, rfl, rfl, Input.Alike.refl t.input⟩
  obtain ⟨hfinding, hrest⟩ :=
    round_of_longest (t := { t with recognizers := b.lineup }) hlineup h.spells
      (ne_nil_of_matchesWhole hmatch) hmatch hfront hlongest
  obtain ⟨hsame, hafter⟩ := halike.round context
  refine ⟨(t.round context).2, Prod.ext (hsame.symm.trans hfinding) rfl, ?_, ?_, ?_⟩
  · have hreset := (Recognizer.isKept_reset.map_round context t).trans h.stemsFrom.reset_eq
    exact ⟨hreset, h.stemsFrom.endKind_eq, h.stemsFrom.isFinished_eq⟩
  · exact h.peeked?_eq
  · exact hafter.input.spells hrest

end Tokenizer

/-- The token of a piece is that of the first recognizer that matches the whole piece. -/
def Blueprint.Reads (b : Blueprint κ (NoCustom κ)) (piece : List Char) (token : Token κ) : Prop :=
  ∃ front kind pattern back, b.recognizers = front ++ .lexeme kind pattern :: back ∧
    MatchesWhole {} (.lexeme kind pattern : Recognizer κ (NoCustom κ)) piece ∧
    (∀ s ∈ front, ¬ MatchesWhole {} s piece) ∧
    token = Token.ofText kind (String.ofList piece) (pattern.value? piece)

/-- Words are recognized, and blanks are skipped. -/
structure Blueprint.IsOfWords (b : Blueprint κ (NoCustom κ)) : Prop where
  recognizers : ∀ r ∈ b.recognizers, r.IsOfWords
  skipsBlanks : b.skipsBlanks = true

namespace Blueprint.IsOfWords

variable {b : Blueprint κ (NoCustom κ)} {t : Tokenizer (Recognizer κ (NoCustom κ)) κ}
  {piece gap rest : List Char} {token : Token κ} (h : b.IsOfWords)
include h

theorem lineup_eq : b.lineup = b.recognizers ++ [.blanks] := by
  have hsame : (Recognizer.renew : Recognizer κ (NoCustom κ) → _) = id :=
    funext Recognizer.renew_eq
  rw [Blueprint.lineup, hsame, List.map_id, if_pos h.skipsBlanks]

theorem exists_reads (hpiece : ∃ r ∈ b.recognizers, MatchesWhole {} r piece) :
    ∃ token, b.Reads piece token := by
  classical
  obtain ⟨r, hr, hmatch⟩ := hpiece
  cases hfind : b.recognizers.find? fun r => decide (MatchesWhole {} r piece) with
  | none => exact absurd (decide_eq_true hmatch) (List.find?_eq_none.mp hfind r hr)
  | some first =>
    obtain ⟨hfirst, front, back, hsplit, hfront⟩ := List.find?_eq_some_iff_append.mp hfind
    obtain ⟨kind, pattern, rfl⟩ :=
      (h.recognizers first (List.mem_of_find?_eq_some hfind)).exists_lexeme
    exact ⟨_, front, kind, pattern, back, hsplit, of_decide_eq_true hfirst,
      fun s hs => by simpa using hfront s hs, rfl⟩

/-- A piece starts with a character that is no blank. -/
theorem exists_first_of_reads (hreads : b.Reads piece token) :
    ∃ c others, piece = c :: others ∧ isBlank c = false := by
  obtain ⟨front, kind, pattern, back, hsplit, hmatch, -, -⟩ := hreads
  have hwords := (h.recognizers _ (hsplit ▸ by simp)).isBlank_of_matchesWhole hmatch
  obtain ⟨c, others, rfl⟩ := List.exists_cons_of_ne_nil (ne_nil_of_matchesWhole hmatch)
  exact ⟨c, others, rfl, hwords c List.mem_cons_self⟩

/-- Nobody matches more than a piece that ends the text or stands before a blank. -/
theorem not_matchesAt_piece (context : Context) (hreads : b.Reads piece token)
    (hrest : ∀ c ∈ rest.head?, isBlank c = true) :
    ∀ r ∈ b.lineup, ∀ longer, piece.length < longer →
      ¬ MatchesAt context r (piece ++ rest) longer := by
  intro r hr longer hlonger hmatches
  rw [h.lineup_eq, List.mem_append, List.mem_singleton] at hr
  cases rest with
  | nil =>
    rw [List.append_nil] at hmatches
    exact absurd (matchesAt_le hmatches) (Nat.not_le_of_lt hlonger)
  | cons c rest =>
    rcases hr with hr | rfl
    · exact (h.recognizers r hr).not_matchesAt piece (hrest c rfl) hlonger hmatches
    · obtain ⟨d, others, rfl, hfirst⟩ := h.exists_first_of_reads hreads
      exact Recognizer.not_matchesAt_blanks [] hfirst hmatches.1 hmatches

/-- Blanks are matched by nobody else, and not with a character behind them that is none. -/
theorem not_matchesAt_gap (context : Context) (hne : gap ≠ [])
    (hgap : ∀ c ∈ gap, isBlank c = true) (hrest : ∀ c ∈ rest.head?, isBlank c = false) :
    (∀ r ∈ b.recognizers, ∀ length, ¬ MatchesAt context r (gap ++ rest) length) ∧
      ∀ longer, gap.length < longer → ¬ MatchesAt context
        (.blanks : Recognizer κ (NoCustom κ)) (gap ++ rest) longer := by
  constructor
  · intro r hr length hmatches
    obtain ⟨c, others, rfl⟩ := List.exists_cons_of_ne_nil hne
    have hfirst := hgap c List.mem_cons_self
    exact (h.recognizers r hr).not_matchesAt [] hfirst hmatches.1 hmatches
  · intro longer hlonger hmatches
    cases rest with
    | nil =>
      rw [List.append_nil] at hmatches
      exact absurd (matchesAt_le hmatches) (Nat.not_le_of_lt hlonger)
    | cons c rest => exact Recognizer.not_matchesAt_blanks gap (hrest c rfl) hlonger hmatches

/-- A round over blanks skips them. -/
theorem exists_round_gap (context : Context) (hfaces : t.Faces b (gap ++ rest)) (hne : gap ≠ [])
    (hgap : ∀ c ∈ gap, isBlank c = true) (hrest : ∀ c ∈ rest.head?, isBlank c = false) :
    ∃ t', t.round context = (.skipped gap, t') ∧ t'.Faces b rest := by
  obtain ⟨hwords, hblanks⟩ := h.not_matchesAt_gap context hne hgap hrest
  have hmatch : MatchesWhole context (.blanks : Recognizer κ (NoCustom κ)) gap :=
    Recognizer.matchesWhole_blanks_iff.mpr ⟨hne, hgap⟩
  apply hfaces.exists_round h.lineup_eq hmatch
  · intro r hr hwhole
    exact hwords r hr _ ((matchesAt_append (Nat.le_refl _)).mpr hwhole)
  · intro r hr longer hlonger
    rw [h.lineup_eq, List.mem_append, List.mem_singleton] at hr
    rcases hr with hr | rfl
    · exact hwords r hr longer
    · exact hblanks longer hlonger

/-- A round over a piece finds its token. -/
theorem exists_round_piece (hfaces : t.Faces b (piece ++ rest)) (hreads : b.Reads piece token)
    (hrest : ∀ c ∈ rest.head?, isBlank c = true) :
    ∃ t', t.round {} = (.found piece token, t') ∧ t'.Faces b rest := by
  have hlongest := h.not_matchesAt_piece {} hreads hrest
  obtain ⟨front, kind, pattern, back, hsplit, hmatch, hfront, rfl⟩ := hreads
  have hlineup : b.lineup = front ++ .lexeme kind pattern :: (back ++ [.blanks]) := by
    rw [h.lineup_eq, hsplit, List.append_assoc, List.cons_append]
  exact hfaces.exists_round hlineup hmatch hfront hlongest

/-- A scan skips the blanks in front of a piece and finds its token. -/
theorem exists_scan_piece (hfaces : t.Faces b (gap ++ (piece ++ rest)))
    (hgap : ∀ c ∈ gap, isBlank c = true) (hreads : b.Reads piece token)
    (hrest : ∀ c ∈ rest.head?, isBlank c = true) :
    ∃ t', t.scan {} = (.ok token, t') ∧ t'.Faces b rest := by
  by_cases hne : gap = []
  · subst hne
    rw [List.nil_append] at hfaces
    obtain ⟨t', hround, ht'⟩ := h.exists_round_piece hfaces hreads hrest
    exact ⟨t', Tokenizer.scan_eq_of_round hround, ht'⟩
  · have hfirst : ∀ c ∈ (piece ++ rest).head?, isBlank c = false := by
      obtain ⟨d, others, rfl, hfirst⟩ := h.exists_first_of_reads hreads
      rintro c ⟨⟩
      exact hfirst
    obtain ⟨s, hskip, hs⟩ := h.exists_round_gap {} hfaces hne hgap hfirst
    obtain ⟨t', hround, ht'⟩ := h.exists_round_piece hs hreads hrest
    refine ⟨t', ?_, ht'⟩
    rw [Tokenizer.scan_eq_of_round hskip]
    exact Tokenizer.scan_eq_of_round hround

/-- A scan over blanks finds the end of the input. -/
theorem scan_gap (hfaces : t.Faces b gap) (hgap : ∀ c ∈ gap, isBlank c = true) :
    (t.scan {}).1 = .ok (Token.endOfInput b.endKind) := by
  by_cases hne : gap = []
  · subst hne
    rw [Tokenizer.scan_of_spells_nil hfaces.spells, hfaces.stemsFrom.endKind_eq]
  · rw [← List.append_nil gap] at hfaces
    obtain ⟨s, hskip, hs⟩ := h.exists_round_gap {} hfaces hne hgap (by simp)
    rw [Tokenizer.scan_eq_of_round hskip]
    exact (Tokenizer.scan_of_spells_nil hs.spells {}).trans (by rw [hs.stemsFrom.endKind_eq])

end Blueprint.IsOfWords

/-- Pieces, each with what stands behind it. -/
def spread (parts : List (List Char × List Char)) : List Char :=
  parts.flatMap fun part => part.1 ++ part.2

/-- Behind the first piece stands a blank or nothing, if only the last may have none behind it. -/
theorem head?_spread {piece gap : List Char} {parts : List (List Char × List Char)}
    (hgap : ∀ c ∈ gap, isBlank c = true)
    (hapart : ∀ part ∈ ((piece, gap) :: parts).dropLast, part.2 ≠ []) :
    ∀ c ∈ (gap ++ spread parts).head?, isBlank c = true := by
  cases gap with
  | cons c gap =>
    rintro _ ⟨⟩
    exact hgap c List.mem_cons_self
  | nil =>
    cases parts with
    | nil => simp [spread]
    | cons next parts => exact absurd rfl (hapart (piece, []) List.mem_cons_self)

/-- One token is yielded for each piece, and then the one for the end of the input. -/
theorem Blueprint.IsOfWords.drain_eq {b : Blueprint κ (NoCustom κ)} (h : b.IsOfWords)
    {parts : List (List Char × List Char)} {tokens : List (Token κ)}
    (hreads : List.Forall₂ (fun part token => b.Reads part.1 token) parts tokens)
    (hgaps : ∀ part ∈ parts, ∀ c ∈ part.2, isBlank c = true)
    (hapart : ∀ part ∈ parts.dropLast, part.2 ≠ [])
    {gap : List Char} (hgap : ∀ c ∈ gap, isBlank c = true)
    {t : Tokenizer (Recognizer κ (NoCustom κ)) κ} (hfaces : t.Faces b (gap ++ spread parts)) :
    t.drain.1 = tokens.map .ok ++ [.ok (Token.endOfInput b.endKind)] := by
  have hrunning := hfaces.stemsFrom.isFinished_eq
  induction hreads generalizing gap t with
  | nil =>
    rw [spread, List.flatMap_nil, List.append_nil] at hfaces
    exact Tokenizer.drain_of_scan_end (h.scan_gap hfaces hgap) hfaces.peeked?_eq hrunning
  | @cons part token parts tokens hpart hrest ih =>
    obtain ⟨piece, behind⟩ := part
    obtain ⟨hbehind, hgaps⟩ := List.forall_mem_cons.mp hgaps
    have hspread : spread ((piece, behind) :: parts) = piece ++ (behind ++ spread parts) := by
      rw [spread, List.flatMap_cons, List.append_assoc]
      rfl
    rw [hspread] at hfaces
    obtain ⟨t', hscan, ht'⟩ :=
      h.exists_scan_piece hfaces hgap hpart (head?_spread hbehind hapart)
    have hlast : Tokenizer.isLast (.ok token) = false := by
      obtain ⟨front, kind, pattern, back, -, -, -, rfl⟩ := hpart
      rfl
    have hafter : ({ t' with isFinished := false } : Tokenizer _ κ).Faces b
        (behind ++ spread parts) :=
      ⟨⟨ht'.stemsFrom.reset_eq, ht'.stemsFrom.endKind_eq, rfl⟩, ht'.peeked?_eq, ht'.spells⟩
    have hrest : ∀ part ∈ parts.dropLast, part.2 ≠ [] := by
      cases parts with
      | nil => simp
      | cons next parts => exact fun part hpart => hapart part (List.mem_cons_of_mem _ hpart)
    rw [Tokenizer.drain_of_scan hscan hfaces.peeked?_eq hrunning, hlast,
      ih hgaps hrest hbehind hafter rfl]
    rfl

theorem Blueprint.IsOfWords.exists_tokens {b : Blueprint κ (NoCustom κ)} (h : b.IsOfWords)
    {parts : List (List Char × List Char)}
    (hpieces : ∀ part ∈ parts, ∃ r ∈ b.recognizers, MatchesWhole {} r part.1) :
    ∃ tokens, List.Forall₂ (fun part token => b.Reads part.1 token) parts tokens := by
  induction parts with
  | nil => exact ⟨[], .nil⟩
  | cons part parts ih =>
    obtain ⟨hpart, hrest⟩ := List.forall_mem_cons.mp hpieces
    obtain ⟨token, htoken⟩ := h.exists_reads hpart
    obtain ⟨tokens, htokens⟩ := ih hrest
    exact ⟨token :: tokens, .cons htoken htokens⟩

/-- Pieces that are matched as a whole come back as one token each, in their order and then the
end of the input, from any source of a text in which blanks separate them. -/
theorem spaced_pieces_come_back (b : Blueprint κ (NoCustom κ))
    (hwords : ∀ r ∈ b.recognizers, r.IsOfWords) (hblanks : b.skipsBlanks = true)
    (leading : List Char) (hleading : ∀ c ∈ leading, isBlank c = true)
    (parts : List (List Char × List Char))
    (hpieces : ∀ part ∈ parts, ∃ r ∈ b.recognizers, MatchesWhole {} r part.1)
    (hgaps : ∀ part ∈ parts, ∀ c ∈ part.2, isBlank c = true)
    (hapart : ∀ part ∈ parts.dropLast, part.2 ≠ []) :
    ∃ tokens, List.Forall₂ (fun part token => b.Reads part.1 token) parts tokens ∧
      ∀ source, (Input.ofSource source).Spells (leading ++ spread parts) →
        (b.build source).drain.1 = tokens.map .ok ++ [.ok (Token.endOfInput b.endKind)] := by
  have h : b.IsOfWords := ⟨hwords, hblanks⟩
  obtain ⟨tokens, htokens⟩ := h.exists_tokens hpieces
  refine ⟨tokens, htokens, fun source hspells => ?_⟩
  exact h.drain_eq htokens hgaps hapart hleading
    ⟨Tokenizer.stemsFrom_build b source, rfl, hspells⟩

/-- Identifiers, truth values and numbers, between two symbols of which one starts with the
other. -/
def rivals : Blueprint String (NoCustom String) where
  recognizers := [.symbol "=" "assign", .identifier "id", .boolean "bool", .number "num",
    .symbol "==" "equal"]
  endKind := "$"

/-- A piece for each of the rivals, of which one is matched by two of them. -/
def rivalPieces : List (List Char × List Char) :=
  [("==".toList, [' ']), ("true".toList, ['\u3000', '\n']), ("0x1F".toList, ['\t']),
    ("=".toList, [])]

theorem spaced_pieces_come_back_rivals :
    (∀ r ∈ rivals.recognizers, r.IsOfWords) ∧ rivals.skipsBlanks = true ∧
      (∀ part ∈ rivalPieces, ∃ r ∈ rivals.recognizers, MatchesWhole {} r part.1) ∧
      (∀ part ∈ rivalPieces, ∀ c ∈ part.2, isBlank c = true) ∧
      (∀ part ∈ rivalPieces.dropLast, part.2 ≠ []) ∧
      ∃ tokens, List.Forall₂ (fun part token => rivals.Reads part.1 token) rivalPieces tokens ∧
        (rivals.build (.text "\n== true\u3000\n0x1F\t=".toList)).drain.1 =
          tokens.map .ok ++ [.ok (Token.endOfInput "$")] := by
  have hwords : ∀ r ∈ rivals.recognizers, r.IsOfWords := by
    simp only [rivals, List.forall_mem_cons]
    exact ⟨.symbol _ (forall_mem_of_all (by decide)), .identifier _, .boolean _, .number _,
      .symbol _ (forall_mem_of_all (by decide)), by simp⟩
  have hpieces : ∀ part ∈ rivalPieces, ∃ r ∈ rivals.recognizers, MatchesWhole {} r part.1 := by
    simp only [rivalPieces, List.forall_mem_cons]
    exact ⟨⟨.symbol "==" "equal", by simp [rivals], by decide, by decide⟩,
      ⟨.identifier "id", by simp [rivals], by decide, by decide⟩,
      ⟨.number "num", by simp [rivals], by decide, by decide⟩,
      ⟨.symbol "=" "assign", by simp [rivals], by decide, by decide⟩, by simp⟩
  have hgaps : ∀ part ∈ rivalPieces, ∀ c ∈ part.2, isBlank c = true := by
    have hall : (rivalPieces.all fun part => part.2.all isBlank) = true := by decide
    simpa only [List.all_eq_true] using hall
  have hapart : ∀ part ∈ rivalPieces.dropLast, part.2 ≠ [] := by decide
  obtain ⟨tokens, htokens, hdrain⟩ :=
    spaced_pieces_come_back rivals hwords rfl ['\n'] (by simp [isBlank_lineFeed]) rivalPieces
      hpieces hgaps hapart
  exact ⟨hwords, rfl, hpieces, hgaps, hapart, tokens, htokens,
    hdrain _ (Input.spells_of_source_eq rfl)⟩

end ShiftReduce
