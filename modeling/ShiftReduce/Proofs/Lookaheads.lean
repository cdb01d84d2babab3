import ShiftReduce.Proofs.Turns
import ShiftReduce.Proofs.Vocabulary

/-!
Lookaheads of a language. The tokenizers of a table know the terminals that have an entry in
some row. A lookahead that has none is not found in any source, unless it is the end of the
input: no token is of its kind. So the branch for it is never taken, and whatever stands there,
the language parses every source the same.
-/
namespace ShiftReduce

variable {ι σ τ ν α κ : Type}

namespace Entry

/-- The terminals that are looked for behind the current token, at any depth of branching. -/
def lookaheads : Entry τ → List τ
  | .branch lookahead ifEqual otherwise => lookahead :: (ifEqual.lookaheads ++ otherwise.lookaheads)
  | _ => []

variable [DecidableEq τ]

/-- The entry with something else for the case that the token behind the current one is of a
kind. -/
def instead (lookahead : τ) (other : Entry τ) : Entry τ → Entry τ
  | .branch terminal ifEqual otherwise =>
    .branch terminal (if terminal = lookahead then other else instead lookahead other ifEqual)
      (instead lookahead other otherwise)
  | .shift target => .shift target
  | .reduce index => .reduce index
  | .goto target => .goto target
  | .accept => .accept
  | .error message => .error message

end Entry

/-- The row with something else for the case that the token behind the current one is of a
kind. -/
def Row.instead [DecidableEq τ] (lookahead : τ) (other : Entry τ) (row : Row τ ν) : Row τ ν where
  entries := ⟨row.entries.pairs.map fun pair => (pair.1, Entry.instead lookahead other pair.2)⟩
  gotos := row.gotos

namespace Table

variable [DecidableEq τ] {table : Table τ ν} {lookahead : τ} {other : Entry τ}

/-- The table with something else for the case that the token behind the current one is of a
kind. -/
def instead (lookahead : τ) (other : Entry τ) (table : Table τ ν) : Table τ ν where
  grammar := table.grammar
  rows := table.rows.map (Row.instead lookahead other)
  defaultEntry := Entry.instead lookahead other table.defaultEntry

theorem keys_instead (row : Row τ ν) :
    (row.instead lookahead other).entries.keys = row.entries.keys := by
  simp [Row.instead, Dictionary.keys]

theorem terminals_instead : (table.instead lookahead other).terminals = table.terminals := by
  simp [terminals, instead, List.flatMap_map, keys_instead]

theorem entryFor_instead (row : Row τ ν) (terminal : τ) :
    (row.instead lookahead other).entryFor terminal =
      (row.entryFor terminal).map (Entry.instead lookahead other) := by
  simp only [Row.entryFor, Row.instead, Dictionary.get?, List.find?_map, Option.map_map]
  rfl

end Table

namespace Machine

variable [DecidableEq τ] {table : Table τ ν} {lookahead : τ} {other : Entry τ}

theorem entry_instead [DecidableEq ν] (m : Machine ι σ τ ν α) :
    m.entry (table.instead lookahead other) =
      Entry.instead lookahead other (m.entry table) := by
  have hrow : (table.instead lookahead other).row? m.current =
      (table.row? m.current).map (Row.instead lookahead other) := by
    simp [Table.row?, Table.instead]
  unfold entry
  rw [hrow]
  cases m.pending? with
  | none =>
    cases table.row? m.current with
    | none => rfl
    | some row =>
      simp only [Option.map_some, Option.bind_some, Table.entryFor_instead]
      cases row.entryFor m.token.kind <;> rfl
  | some pending =>
    obtain ⟨nonterminal, value?⟩ := pending
    have hgoto : ((table.row? m.current).map (Row.instead lookahead other)).bind
        (·.goto? nonterminal) = (table.row? m.current).bind (·.goto? nonterminal) := by
      cases table.row? m.current <;> rfl
    dsimp only
    rw [hgoto]
    cases (table.row? m.current).bind (·.goto? nonterminal) <;> rfl

end Machine

/-- Where a property of supplies holds, it keeps holding, and no token of the kind is seen. -/
structure Lacks [TokenSupply ι τ] (kind : τ) (holds : ι → Prop) : Prop where
  next : ∀ context supply, holds supply → holds (TokenSupply.next context supply).2
  peek : ∀ context supply, holds supply → holds (TokenSupply.peek context supply).2
  kind_ne : ∀ context supply token, holds supply →
    (TokenSupply.peek context supply).1 = .ok token → token.kind ≠ kind

namespace Machine

variable [TokenSupply ι τ] [DecidableEq τ] [DecidableEq ν] [ToString τ] [ToString ν]
  {table : Table τ ν} {lookahead : τ} {other : Entry τ} {reducer : Reducer σ τ ν α}
  {holds : ι → Prop} {m : Machine ι σ τ ν α}

omit [DecidableEq ν] in
/-- Where the lookahead is not seen, the branch for it is not taken. -/
theorem execute_instead (hlacks : Lacks lookahead holds) (hm : holds m.supply) (entry : Entry τ) :
    m.execute (table.instead lookahead other) reducer (Entry.instead lookahead other entry) =
      m.execute table reducer entry := by
  induction entry generalizing m with
  | branch terminal ifEqual otherwise ihEqual ihOtherwise =>
    have hpeek := hlacks.peek (Context.ofState m.current) m.supply hm
    have hne := hlacks.kind_ne (Context.ofState m.current) m.supply
    rw [Entry.instead, execute, execute]
    cases hresult : TokenSupply.peek (Context.ofState m.current) m.supply with
    | mk item supply =>
      rw [hresult] at hpeek hne
      cases item with
      | error error => rfl
      | ok token =>
        dsimp only
        split
        · next hkind =>
          have hterminal : terminal ≠ lookahead := hkind ▸ hne token hm rfl
          rw [if_neg hterminal]
          exact ihEqual hpeek
        · exact ihOtherwise hpeek
  | _ => rfl

omit [DecidableEq ν] in
theorem holds_supply_of_execute (hlacks : Lacks lookahead holds) (hm : holds m.supply)
    {entry : Entry τ} {m' : Machine ι σ τ ν α} (h : m.execute table reducer entry = .goesOn m') :
    holds m'.supply := by
  induction entry generalizing m with
  | shift target =>
    have hnext := hlacks.next (Context.ofState target) m.supply hm
    simp only [execute, shift] at h
    split at h
    · cases h
    · next heq =>
      cases h
      rwa [heq] at hnext
  | reduce index =>
    simp only [execute, reduce] at h
    split at h
    · cases h
    · split at h
      · cases h
      · split at h
        · cases h
        · cases h
          exact hm
  | goto target =>
    cases h
    exact hm
  | accept => cases h
  | error message => cases h
  | branch terminal ifEqual otherwise ihEqual ihOtherwise =>
    have hpeek := hlacks.peek (Context.ofState m.current) m.supply hm
    rw [execute] at h
    split at h
    · cases h
    · next heq =>
      rw [heq] at hpeek
      split at h
      · exact ihEqual hpeek h
      · exact ihOtherwise hpeek h

theorem run_instead (hlacks : Lacks lookahead holds) (hm : holds m.supply) (limit : Nat) :
    m.run (table.instead lookahead other) reducer limit = m.run table reducer limit := by
  induction limit generalizing m with
  | zero => rfl
  | succ limit ih =>
    have hstep : m.step (table.instead lookahead other) reducer = m.step table reducer := by
      rw [step, entry_instead]
      exact execute_instead hlacks hm (m.entry table)
    unfold run
    rw [hstep]
    cases hturn : m.step table reducer with
    | ends ending memory => rfl
    | goesOn m' => exact ih (holds_supply_of_execute hlacks hm hturn)

end Machine

/-- A parse that never sees the lookahead does not depend on the branches for it. -/
theorem parse_instead [TokenSupply ι τ] [DecidableEq τ] [DecidableEq ν] [ToString τ] [ToString ν]
    {table : Table τ ν} {lookahead : τ} {other : Entry τ} {reducer : Reducer σ τ ν α}
    {holds : ι → Prop} (hlacks : Lacks lookahead holds) {supply : ι} (hsupply : holds supply)
    (limit : Nat) (memory : σ) :
    parse (table.instead lookahead other) reducer limit supply memory =
      parse table reducer limit supply memory := by
  unfold parse
  cases hstart : (Machine.start supply memory : Except LexError (Machine ι σ τ ν α)) with
  | error error => rfl
  | ok m =>
    have hnext := hlacks.next (Context.ofState 0) supply hsupply
    unfold Machine.start at hstart
    split at hstart
    · cases hstart
    · next heq =>
      cases hstart
      rw [heq] at hnext
      exact Machine.run_instead hlacks hnext limit

namespace Tokenizer

/-- All tokens are of some kinds only, also the one for the end of the input. -/
structure FindsOnly (kinds : κ → Prop) (t : Tokenizer (Recognizer κ (NoCustom κ)) κ) : Prop
    extends t.MakesOnly kinds where
  endKind : kinds t.endKind
  looked : ∀ token, t.peeked? = some token → kinds token.kind

variable {kinds : κ → Prop} {t : Tokenizer (Recognizer κ (NoCustom κ)) κ}

theorem FindsOnly.next (h : t.FindsOnly kinds) (context : Context) :
    (t.next context).2.FindsOnly kinds ∧
      ∀ token, (t.next context).1 = .ok token → kinds token.kind := by
  obtain ⟨hafter, -⟩ := h.toMakesOnly.next context
  refine ⟨⟨hafter, ?_, ?_⟩, ?_⟩
  · rw [(next_frame context t).2]
    exact h.endKind
  · intro token hpeeked
    rw [peeked?_next] at hpeeked
    cases hpeeked
  · intro token htoken
    cases hpeeked : t.peeked? with
    | some kept =>
      simp only [Tokenizer.next, hpeeked, Except.ok.injEq] at htoken
      exact h.looked token (htoken ▸ hpeeked)
    | none =>
      rw [next_of_peeked?_eq_none hpeeked] at htoken hafter
      rcases token_cases_of_scan (Prod.ext htoken rfl) with rfl | ⟨r, hr, text, hmade⟩
      · exact h.endKind
      · exact hafter.recognizers r hr text token hmade

theorem FindsOnly.peek (h : t.FindsOnly kinds) (context : Context) :
    (t.peek context).2.FindsOnly kinds := by
  obtain ⟨hafter, htoken⟩ := h.next context
  have hmakes := h.toMakesOnly.peek context
  rw [peek_eq_next] at hmakes ⊢
  split
  · next token t' hnext =>
    rw [hnext] at hafter htoken hmakes
    refine ⟨hmakes, hafter.endKind, ?_⟩
    rintro _ ⟨⟩
    exact htoken token rfl
  · next error t' hnext =>
    rw [hnext] at hafter
    exact hafter

theorem lacks_of_findsOnly {kind : κ} (h : ¬ kinds kind) :
    Lacks kind (FindsOnly (κ := κ) kinds) where
  next context t ht := (ht.next context).1
  peek context t ht := ht.peek context
  kind_ne context t token ht htoken := by
    have hkind := (ht.next context).2 token ((fst_peek context t).symm.trans htoken)
    rintro rfl
    exact h hkind

end Tokenizer

/-- The kind of the tokens that a recognizer makes, if it makes any. -/
def Recognizer.kind? {υ : Type} : Recognizer κ υ → Option κ
  | .lexeme kind _ => some kind
  | .trivia _ => none
  | .active _ inner => inner.kind?
  | .mapped _ inner => inner.kind?
  | .custom _ _ => none

namespace Table

variable {table : Table String String} {terminal : String}

theorem kind?_patternTerminal {pattern : PatternTerminal} (h : pattern ∈ patternTerminals)
    (name : String) : (pattern.recognizer name).kind? = some name := by
  simp only [patternTerminals, List.mem_cons, List.not_mem_nil, or_false] at h
  rcases h with rfl | rfl | rfl | rfl | rfl
  all_goals rfl

theorem name_ne_endTerminal : ∀ pattern ∈ patternTerminals, pattern.name ≠ "$" := by decide

/-- A recognizer is registered for the terminals that have an entry in some row, apart from the
one for the end of the input. -/
theorem exists_recognizer_iff :
    (∃ r ∈ table.blueprint.recognizers, r.kind? = some terminal) ↔
      terminal ≠ "$" ∧ ∃ row ∈ table.rows, terminal ∈ row.entries.keys := by
  have hrecognizers : table.blueprint.recognizers = [.lineComment, .blockComment] ++
      table.literals.map (fun literal => .symbol literal literal) ++
      table.patterns.map (fun pattern => pattern.recognizer pattern.name) := rfl
  rw [← mem_terminals_iff, hrecognizers]
  simp only [List.mem_append, List.mem_cons, List.not_mem_nil, or_false, List.mem_map]
  constructor
  · rintro ⟨r, ((rfl | rfl) | ⟨literal, hliteral, rfl⟩) | ⟨pattern, hpattern, rfl⟩, hkind⟩
    · cases hkind
    · cases hkind
    · cases hkind
      obtain ⟨hrow, hself⟩ := mem_literals_iff.mp hliteral
      exact ⟨fun heq => hself (by simp [heq]), mem_terminals_iff.mpr hrow⟩
    · obtain ⟨hpattern, hterminal⟩ := List.mem_filter.mp hpattern
      rw [kind?_patternTerminal hpattern, Option.some_inj] at hkind
      exact ⟨hkind ▸ name_ne_endTerminal pattern hpattern, by simpa [hkind] using hterminal⟩
  · rintro ⟨hend, hterminal⟩
    by_cases hself : terminal ∈ ["$", "id", "num", "str", "char", "bool"]
    · obtain ⟨pattern, hpattern, rfl⟩ : ∃ pattern ∈ patternTerminals, pattern.name = terminal := by
        simp only [List.mem_cons, List.not_mem_nil, or_false, hend, false_or] at hself
        rcases hself with rfl | rfl | rfl | rfl | rfl
        all_goals decide
      refine ⟨_, Or.inr ⟨pattern, List.mem_filter.mpr ⟨hpattern, ?_⟩, rfl⟩, ?_⟩
      · simpa using hterminal
      · exact kind?_patternTerminal hpattern pattern.name
    · have hliteral := mem_literals_iff.mpr ⟨mem_terminals_iff.mp hterminal, hself⟩
      exact ⟨_, Or.inl (Or.inr ⟨terminal, hliteral, rfl⟩), rfl⟩

/-- The kinds of the tokens that can be found for a table. -/
def CanFind (table : Table String String) (kind : String) : Prop :=
  kind ∈ table.terminals ∨ kind = "$"

theorem findsOnly_build (table : Table String String) (source : Source) :
    (table.blueprint.build source).FindsOnly table.CanFind where
  recognizers r hr text token htoken :=
    Or.inl ((table.makesOnly_build source).recognizers r hr text token htoken)
  peeked token hpeeked := by cases hpeeked
  endKind := Or.inr rfl
  looked token hpeeked := by cases hpeeked

/-- A recognizer is registered for the terminals that have an entry in some row and not for the
others. A lookahead without one is not found in any source: whatever is to be done where it is
behind the current token, the language parses the same. -/
theorem lookahead_needs_entry (table : Table String String) :
    (∀ terminal, (∃ r ∈ table.blueprint.recognizers, r.kind? = some terminal) ↔
      terminal ≠ "$" ∧ ∃ row ∈ table.rows, terminal ∈ row.entries.keys) ∧
    ∀ lookahead, lookahead ≠ "$" → (∀ row ∈ table.rows, lookahead ∉ row.entries.keys) →
      ∀ (other : Entry String) (name : String) (limit : Nat) (source : Source),
        (Language.ofTable name (table.instead lookahead other)).parse limit source =
          (Language.ofTable name table).parse limit source := by
  refine ⟨fun terminal => exists_recognizer_iff, ?_⟩
  intro lookahead hend hrows other name limit source
  have hnone : ¬ table.CanFind lookahead := by
    rintro (hterminal | hlookahead)
    · obtain ⟨row, hrow, hkey⟩ := mem_terminals_iff.mp hterminal
      exact hrows row hrow hkey
    · exact hend hlookahead
  have hblueprint : (table.instead lookahead other).blueprint = table.blueprint := by
    simp only [blueprint, terminals_instead]
  have hparse : parse (table.instead lookahead other) SyntaxTree.builder limit
      (table.blueprint.build source) [] =
        parse table SyntaxTree.builder limit (table.blueprint.build source) [] :=
    parse_instead (Tokenizer.lacks_of_findsOnly hnone) (table.findsOnly_build source) limit []
  simp only [Language.parse, Language.ofTable, Language.tokenizer, hblueprint, hparse]

/-- A table that accepts one terminal if another one is behind it. -/
def guarded : Table String String where
  grammar := ⟨[⟨"S", [.terminal "a"]⟩]⟩
  rows := [⟨⟨[("a", .branch "b" .accept (.error "no b behind a"))]⟩, {}⟩]
  defaultEntry := .error defaultMessage

theorem lookahead_needs_entry_guarded :
    "b" ≠ "$" ∧ (∀ row ∈ guarded.rows, "b" ∉ row.entries.keys) ∧
      (∃ r ∈ guarded.blueprint.recognizers, r.kind? = some "a") ∧
      guarded.instead "b" (.shift 0) ≠ guarded ∧
      (Language.ofTable "l" (guarded.instead "b" (.shift 0))).parse 10 (.text ['a']) =
        some (.ok ⟨[], .rejected "no b behind a"⟩) := by
  have hrows : ∀ row ∈ guarded.rows, "b" ∉ row.entries.keys := by decide
  obtain ⟨hrecognizers, hparses⟩ := lookahead_needs_entry guarded
  refine ⟨by decide, hrows, (hrecognizers "a").mpr (by decide), by decide, ?_⟩
  rw [hparses "b" (by decide) hrows]
  with_unfolding_all rfl

/-- The terminal behind it is looked for and cannot be found, so it is not accepted. -/
theorem guarded_lookahead_not_recognized :
    guarded.IsBuilt ∧
      (∃ row ∈ guarded.rows, ∃ pair ∈ row.entries.pairs, "b" ∈ pair.2.lookaheads) ∧
      "b" ∉ ["$", ""] ∧ (¬ ∃ r ∈ guarded.blueprint.recognizers, r.kind? = some "b") ∧
      (Language.ofTable "l" guarded).parse 10 (.text ['a', ' ', 'b']) =
        some (.error (.unrecognized "b" none)) := by
  have hbuilt : guarded.IsBuilt := ⟨⟨guarded.grammar, guarded.rows, defaultMessage⟩, rfl⟩
  exact ⟨hbuilt, by decide, by decide, by decide, by with_unfolding_all rfl⟩

end Table

end ShiftReduce
