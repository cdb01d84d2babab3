import ShiftReduce.Language
import ShiftReduce.Proofs.Comments
import ShiftReduce.Proofs.Iteration
import ShiftReduce.Proofs.Peeking

/-!
The vocabulary of a language. Every token that a tokenizer derived from a table finds, apart
from the one for the end of the input, is of the kind of a terminal with an entry in the
table. And every such terminal that stands for itself can be written: its text is one token
of its kind, whatever the other terminals are, unless the text is a comment.
-/
namespace ShiftReduce

open Lossless MaximalMunch

namespace Recognizer

variable {κ : Type}

/-- There are no recognizers of one's own to start anew. -/
theorem renew_eq (r : Recognizer κ (NoCustom κ)) : r.renew = r := by
  induction r with
  | active isActive inner ih => exact congrArg (active isActive) ih
  | mapped transform inner ih => exact congrArg (mapped transform) ih
  | custom fresh current => cases fresh
  | _ => rfl

end Recognizer

/-- A symbol that has matched is a token with its phrase as the value. -/
theorem Round.ofMatch_symbol (phrase kind : String) :
    Round.ofMatch (.symbol phrase kind : Recognizer String (NoCustom String)) phrase.toList =
      .found phrase.toList (Token.ofText kind phrase (some (.text phrase))) := by
  simp [Round.ofMatch, Recognizes.isIgnored, Recognizes.token?, Recognizer.symbol,
    Recognizer.isIgnored, Recognizer.token?, Lexeme.value?]

namespace Tokenizer

variable {κ : Type}

/-- The recognizers make tokens of some kinds only, and the token that is looked at is of
such a kind as well, unless it stands for the end of the input. -/
structure MakesOnly (kinds : κ → Prop) (t : Tokenizer (Recognizer κ (NoCustom κ)) κ) : Prop where
  recognizers : ∀ r ∈ t.recognizers, ∀ text token, r.token? text = some token → kinds token.kind
  peeked : ∀ token, t.peeked? = some token → token.isEndOfInput = false → kinds token.kind

variable {kinds : κ → Prop} {t : Tokenizer (Recognizer κ (NoCustom κ)) κ}

theorem MakesOnly.next (h : t.MakesOnly kinds) (context : Context) :
    (t.next context).2.MakesOnly kinds ∧ ∀ token, (t.next context).1 = .ok token →
      token.isEndOfInput = false → kinds token.kind := by
  have hrecognizers : ∀ r ∈ (t.next context).2.recognizers, ∀ text token,
      r.token? text = some token → kinds token.kind := by
    intro r hr text token htoken
    have hmem := List.mem_map_of_mem (f := fun r => r.token? text) hr
    rw [(Recognizer.isKept_token? text).map_next context t] at hmem
    obtain ⟨before, hbefore, hsame⟩ := List.mem_map.mp hmem
    exact h.recognizers before hbefore text token (hsame.trans htoken)
  refine ⟨⟨hrecognizers, ?_⟩, ?_⟩
  · intro token hpeeked
    rw [peeked?_next] at hpeeked
    cases hpeeked
  · intro token htoken hend
    cases hpeeked : t.peeked? with
    | some kept =>
      simp only [Tokenizer.next, hpeeked, Except.ok.injEq] at htoken
      exact h.peeked token (htoken ▸ hpeeked) hend
    | none =>
      rw [next_of_peeked?_eq_none hpeeked] at htoken hrecognizers
      obtain ⟨r, hr, text, hmade⟩ := exists_token?_of_scan (Prod.ext htoken rfl) hend
      exact hrecognizers r hr text token hmade

theorem MakesOnly.peek (h : t.MakesOnly kinds) (context : Context) :
    (t.peek context).2.MakesOnly kinds := by
  obtain ⟨hafter, htoken⟩ := h.next context
  rw [peek_eq_next]
  split
  · next token t' hnext =>
    rw [hnext] at hafter htoken
    refine ⟨hafter.recognizers, ?_⟩
    rintro _ ⟨⟩
    exact htoken token rfl
  · next error t' hnext =>
    rw [hnext] at hafter
    exact hafter

/-- Whatever a tokenizer is asked for, it keeps to its kinds of tokens. -/
theorem MakesOnly.perform (h : t.MakesOnly kinds) (call : Call) :
    (call.perform t).2.MakesOnly kinds ∧ ∀ token, (call.perform t).1 = some (.ok token) →
      token.isEndOfInput = false → kinds token.kind := by
  cases call with
  | next context =>
    obtain ⟨hafter, htoken⟩ := h.next context
    exact ⟨hafter, fun token heq => htoken token (Option.some.inj heq)⟩
  | peek context =>
    refine ⟨h.peek context, fun token heq => (h.next context).2 token ?_⟩
    rw [← fst_peek]
    exact Option.some.inj heq
  | item =>
    obtain ⟨hafter, htoken⟩ := h.next {}
    simp only [Call.perform, nextItem?]
    split
    · exact ⟨h, fun token heq => by cases heq⟩
    · exact ⟨⟨hafter.recognizers, hafter.peeked⟩, fun token heq => htoken token (Option.some.inj heq)⟩

theorem MakesOnly.after (h : t.MakesOnly kinds) (calls : List Call) :
    (after calls t).MakesOnly kinds := by
  induction calls generalizing t with
  | nil => exact h
  | cons call calls ih => exact ih (h.perform call).1

/-- The first recognizer that matches the front of a text decides what is taken from it, if
nobody matches more. -/
theorem round_of_longest {context : Context} {front back : List (Recognizer κ (NoCustom κ))}
    {r : Recognizer κ (NoCustom κ)} {text rest : List Char}
    (hrecognizers : t.recognizers = front ++ r :: back) (hspells : t.input.Spells (text ++ rest))
    (hne : text ≠ []) (hmatch : MatchesWhole context r text)
    (hfront : ∀ s ∈ front, ¬ MatchesWhole context s text)
    (hlongest : ∀ s ∈ t.recognizers, ∀ longer, text.length < longer →
      ¬ MatchesAt context s (text ++ rest) longer) :
    (t.round context).1 = Round.ofMatch r text ∧ (t.round context).2.input.Spells rest := by
  have hwell : ∀ s ∈ t.recognizers, Answers.WellBehaved context s := fun s _ => s.wellBehaved context
  have hne : text ++ rest ≠ [] := List.append_ne_nil_of_left_ne_nil hne rest
  rw [hrecognizers] at hlongest
  have hchoice := (choice?_eq_some_iff hwell hne hspells).mpr
    (hrecognizers ▸ isLongestFirst_of_matchesWhole hmatch hfront hlongest)
  obtain ⟨after, hafter, hfinding, hrest⟩ := exists_round_of_choice? hwell hne hspells hchoice
  -- The winner makes the token that it would have made before the race.
  have hkept : ∀ {β : Type} {f : Recognizer κ (NoCustom κ) → β}, IsKept f → f after = f r := by
    intro β f hf
    have hplace := congrArg (·[front.length]?) (hf.map_round context t)
    simpa [hafter, hrecognizers] using hplace
  rw [List.take_left] at hfinding
  rw [List.drop_left] at hrest
  refine ⟨?_, hrest⟩
  have hignored := hkept Recognizer.isKept_isIgnored
  have htoken := hkept (Recognizer.isKept_token? text)
  rw [hfinding]
  simp only [Round.ofMatch, Recognizes.isIgnored, Recognizes.token?, hignored, htoken]

/-- The first recognizer that matches a whole text decides what the text is. -/
theorem round_of_matchesWhole {context : Context} {front back : List (Recognizer κ (NoCustom κ))}
    {r : Recognizer κ (NoCustom κ)} {text : List Char} (hrecognizers : t.recognizers = front ++ r :: back)
    (hspells : t.input.Spells text) (hne : text ≠ []) (hmatch : MatchesWhole context r text)
    (hfront : ∀ s ∈ front, ¬ MatchesWhole context s text) :
    (t.round context).1 = Round.ofMatch r text ∧ (t.round context).2.input.Spells [] := by
  rw [← List.append_nil text] at hspells
  apply round_of_longest hrecognizers hspells hne hmatch hfront
  intro s _ longer hlonger hmatches
  rw [List.append_nil] at hmatches
  exact absurd (matchesAt_le hmatches) (Nat.not_le_of_lt hlonger)

end Tokenizer

namespace Table

/-- The terminals that stand for themselves, in the order of their recognizers. -/
def literals (table : Table String String) : List String :=
  (ascending table.terminals).filter isLiteral

theorem mem_terminals_iff {table : Table String String} {terminal : String} :
    terminal ∈ table.terminals ↔ ∃ row ∈ table.rows, terminal ∈ row.entries.keys := by
  rw [terminals, List.mem_eraseDups, List.mem_flatMap]

theorem mem_literals_iff {table : Table String String} {terminal : String} :
    terminal ∈ table.literals ↔ (∃ row ∈ table.rows, terminal ∈ row.entries.keys) ∧
      terminal ∉ ["$", "id", "num", "str", "char", "bool"] := by
  rw [literals, List.mem_filter, mem_ascending, mem_terminals_iff]
  simp only [isLiteral, endTerminal, patternTerminals, List.all_cons, List.all_nil, Bool.and_true,
    Bool.and_eq_true, bne_iff_ne, List.mem_cons, List.not_mem_nil, or_false, not_or]
  grind

/-- The patterns that have a terminal. -/
def patterns (table : Table String String) : List PatternTerminal :=
  patternTerminals.filter fun pattern => table.terminals.contains pattern.name

theorem lineup_blueprint (table : Table String String) :
    table.blueprint.lineup = [.lineComment, .blockComment] ++
      table.literals.map (fun literal => .symbol literal literal) ++
      table.patterns.map (fun pattern => pattern.recognizer pattern.name) ++ [.blanks] := by
  have hsame : (Recognizer.renew : Recognizer String (NoCustom String) → _) = id :=
    funext Recognizer.renew_eq
  rw [Blueprint.lineup, hsame, List.map_id]
  rfl

/-- A pattern that has a terminal makes tokens of the kind of the terminal. -/
theorem kind_eq_of_mem_patternTerminals {pattern : PatternTerminal}
    (h : pattern ∈ patternTerminals) {name : String} {text : List Char} {token : Token String}
    (htoken : (pattern.recognizer name).token? text = some token) : token.kind = name := by
  simp only [patternTerminals, List.mem_cons, List.not_mem_nil, or_false] at h
  rcases h with rfl | rfl | rfl | rfl | rfl
  all_goals
    cases htoken
    rfl

theorem makesOnly_build (table : Table String String) (source : Source) :
    (table.blueprint.build source).MakesOnly (· ∈ table.terminals) := by
  refine ⟨?_, fun token hpeeked => by cases hpeeked⟩
  intro r hr text token htoken
  change r ∈ table.blueprint.lineup at hr
  rw [lineup_blueprint] at hr
  simp only [List.mem_append, List.mem_cons, List.not_mem_nil, or_false, List.mem_map] at hr
  rcases hr with (((rfl | rfl) | ⟨literal, hliteral, rfl⟩) | ⟨pattern, hpattern, rfl⟩) | rfl
  · cases htoken
  · cases htoken
  · cases htoken
    exact (mem_ascending literal _).mp (List.mem_filter.mp hliteral).1
  · obtain ⟨hpattern, hterminal⟩ := List.mem_filter.mp hpattern
    rw [kind_eq_of_mem_patternTerminals hpattern htoken]
    simpa using hterminal
  · cases htoken

/-- No comment and no other literal matches the whole of a word that is no comment. -/
theorem exists_lineup_of_literal {table : Table String String} {word : String}
    (h : word ∈ table.literals) (hline : ¬ ∃ body, word.toList = ['/', '/'] ++ body ∧ '\n' ∉ body)
    (hblock : ¬ ∃ body, word.toList = ['/', '*'] ++ body ∧
      Pattern.BlockComment.IsClosedBody ['*', '/'] body) :
    ∃ front back, table.blueprint.lineup = front ++ .symbol word word :: back ∧
      ∀ r ∈ front, ¬ MatchesWhole {} r word.toList := by
  obtain ⟨before, after, hliterals, hbefore⟩ := List.eq_append_cons_of_mem h
  refine ⟨[.lineComment, .blockComment] ++ before.map fun literal => .symbol literal literal,
    after.map (fun literal => .symbol literal literal) ++
      (table.patterns.map (fun pattern => pattern.recognizer pattern.name) ++ [.blanks]), ?_, ?_⟩
  · rw [lineup_blueprint, hliterals, List.map_append, List.map_cons]
    simp only [List.append_assoc, List.cons_append]
  · intro r hr hmatch
    simp only [List.mem_append, List.mem_cons, List.not_mem_nil, or_false, List.mem_map] at hr
    rcases hr with (rfl | rfl) | ⟨literal, hliteral, rfl⟩
    · exact hline ((Recognizer.matchesWhole_lineComment_iff {} (by decide) _).mp hmatch).2
    · exact hblock ((Recognizer.matchesWhole_blockComment_iff {} (by decide) (by decide) _).mp hmatch).2
    · obtain ⟨-, hsame⟩ := (Recognizer.matchesWhole_symbol_iff {} _ _ _).mp hmatch
      exact hbefore (String.toList_inj.mp hsame ▸ hliteral)

/-- The tokenizers of a table find the terminals of the table and nothing else: each token but
the one for the end of the input is of the kind of a terminal with an entry in some row. And
each such terminal is found that is not empty, stands for itself, and is no comment as a
whole: its text alone is one token of its kind. -/
theorem blueprint_covers_terminals (table : Table String String) :
    (∀ (source : Source) (calls : List Call) (call : Call) (token : Token String),
      (call.perform (after calls (table.blueprint.build source))).1 = some (.ok token) →
        token.isEndOfInput = false → ∃ row ∈ table.rows, token.kind ∈ row.entries.keys) ∧
    ∀ terminal : String, (∃ row ∈ table.rows, terminal ∈ row.entries.keys) → terminal ≠ "" →
      terminal ∉ ["$", "id", "num", "str", "char", "bool"] →
      (¬ ∃ body, terminal.toList = ['/', '/'] ++ body ∧ '\n' ∉ body) →
      (¬ ∃ body, terminal.toList = ['/', '*'] ++ body ∧
        Pattern.BlockComment.IsClosedBody ['*', '/'] body) →
      (table.blueprint.build (Source.ofString terminal)).drain.1 =
        [.ok (Token.ofText terminal terminal (some (.text terminal))), .ok (Token.endOfInput "$")] := by
  constructor
  · intro source calls call token hanswer hend
    have hmakes := (table.makesOnly_build source).after calls
    exact mem_terminals_iff.mp ((hmakes.perform call).2 token hanswer hend)
  · intro terminal hrow hne hself hline hblock
    have hliteral := mem_literals_iff.mpr ⟨hrow, hself⟩
    obtain ⟨front, back, hlineup, hfront⟩ := exists_lineup_of_literal hliteral hline hblock
    have hword : terminal.toList ≠ [] := fun hnil => hne (String.toList_inj.mp hnil)
    have hspells : (table.blueprint.build (Source.ofString terminal)).input.Spells terminal.toList :=
      Input.spells_of_source_eq rfl
    have hmatch : MatchesWhole {} (.symbol terminal terminal : Recognizer String (NoCustom String))
        terminal.toList := (Recognizer.matchesWhole_symbol_iff {} _ _ _).mpr ⟨hword, rfl⟩
    obtain ⟨hfinding, hrest⟩ :=
      Tokenizer.round_of_matchesWhole hlineup hspells hword hmatch hfront
    exact Tokenizer.drain_of_round (Prod.ext (hfinding.trans (Round.ofMatch_symbol _ _)) rfl)
      hrest rfl rfl rfl

/-- A table with terminals that are prefixes of each other or look like a comment. -/
def operators : Table String String where
  grammar := ⟨[]⟩
  rows := [⟨⟨[("<", .accept), ("<=", .accept), ("/*/", .shift 0), ("id", .accept)]⟩, {}⟩]
  defaultEntry := .error defaultMessage

theorem blueprint_covers_terminals_operators :
    (Call.perform (after [.peek {}] (operators.blueprint.build (.text ['<', '=', 'a'])))
        (.next {})).1 = some (.ok (Token.ofText "<=" "<=" (some (.text "<=")))) ∧
      (∃ row ∈ operators.rows, "<=" ∈ row.entries.keys) ∧
      (operators.blueprint.build (Source.ofString "/*/")).drain.1 =
        [.ok (Token.ofText "/*/" "/*/" (some (.text "/*/"))), .ok (Token.endOfInput "$")] := by
  have hanswer : (Call.perform (after [.peek {}] (operators.blueprint.build (.text ['<', '=', 'a'])))
      (.next {})).1 = some (.ok (Token.ofText "<=" "<=" (some (.text "<=")))) := by
    with_unfolding_all rfl
  have hline : ¬ ∃ body, "/*/".toList = ['/', '/'] ++ body ∧ '\n' ∉ body := by
    rintro ⟨body, heq, -⟩
    simp at heq
  have hblock : ¬ ∃ body, "/*/".toList = ['/', '*'] ++ body ∧
      Pattern.BlockComment.IsClosedBody ['*', '/'] body := by
    rintro ⟨body, heq, hclosed, -⟩
    obtain rfl : ['/'] = body := by simpa using heq
    exact absurd hclosed (by decide)
  obtain ⟨hkinds, hwords⟩ := blueprint_covers_terminals operators
  exact ⟨hanswer, hkinds _ _ _ _ hanswer rfl,
    hwords "/*/" (by decide) (by decide) (by decide) hline hblock⟩

end Table

end ShiftReduce
