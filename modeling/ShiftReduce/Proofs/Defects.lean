import ShiftReduce.Proofs.Closed

/-!
What is wrong with a draft. A row names the states that its actions enter, at any depth of
branching, and those that are its targets, and the productions that its actions reduce by. A
draft is made into a table exactly if it has rows and everything they name exists. Otherwise
the defect that is reported is one of the first row with a defect: what the row names and
the draft does not have, with the number of those that it has.
-/
namespace ShiftReduce

variable {τ ν : Type}

/-- An entry stays within some states and productions if each of its actions does. -/
theorem Entry.isWithin_iff {states productions : Nat} {entry : Entry τ} :
    entry.IsWithin states productions ↔
      (∀ target, .shift target ∈ entry.leaves ∨ .goto target ∈ entry.leaves → target < states) ∧
        ∀ index, .reduce index ∈ entry.leaves → index < productions := by
  constructor
  · intro h
    refine ⟨?_, fun index hindex => h.of_mem_leaves hindex⟩
    rintro target (hshift | hgoto)
    · exact h.of_mem_leaves hshift
    · exact h.of_mem_leaves hgoto
  · rintro ⟨htargets, hindices⟩
    induction entry with
    | shift target => exact htargets target (Or.inl (List.mem_singleton_self _))
    | goto target => exact htargets target (Or.inr (List.mem_singleton_self _))
    | reduce index => exact hindices index (List.mem_singleton_self _)
    | accept => trivial
    | error message => trivial
    | branch lookahead ifEqual otherwise ihEqual ihOtherwise =>
      constructor
      · apply ihEqual
        · exact fun target h => htargets target
            (h.imp (List.mem_append_left _) (List.mem_append_left _))
        · exact fun index h => hindices index (List.mem_append_left _ h)
      · apply ihOtherwise
        · exact fun target h => htargets target
            (h.imp (List.mem_append_right _) (List.mem_append_right _))
        · exact fun index h => hindices index (List.mem_append_right _ h)

namespace Row

/-- An action of the row enters the state, at some depth of branching, or it is a target. -/
def Enters (row : Row τ ν) (state : Nat) : Prop :=
  (∃ pair ∈ row.entries.pairs, .shift state ∈ pair.2.leaves ∨ .goto state ∈ pair.2.leaves) ∨
    ∃ pair ∈ row.gotos.pairs, pair.2 = state

/-- An action of the row reduces by the production, at some depth of branching. -/
def ReducesBy (row : Row τ ν) (production : Nat) : Prop :=
  ∃ pair ∈ row.entries.pairs, .reduce production ∈ pair.2.leaves

theorem isWithin_iff {states productions : Nat} {row : Row τ ν} :
    row.IsWithin states productions ↔
      (∀ state, row.Enters state → state < states) ∧
        ∀ production, row.ReducesBy production → production < productions := by
  simp only [IsWithin, Entry.isWithin_iff]
  constructor
  · rintro ⟨hentries, hgotos⟩
    constructor
    · rintro state (⟨pair, hpair, haction⟩ | ⟨pair, hpair, rfl⟩)
      · exact (hentries pair hpair).1 state haction
      · exact hgotos pair hpair
    · rintro production ⟨pair, hpair, haction⟩
      exact (hentries pair hpair).2 production haction
  · rintro ⟨hstates, hproductions⟩
    refine ⟨fun pair hpair => ⟨?_, ?_⟩, ?_⟩
    · exact fun state haction => hstates state (Or.inl ⟨pair, hpair, haction⟩)
    · exact fun production haction => hproductions production ⟨pair, hpair, haction⟩
    · exact fun pair hpair => hstates pair.2 (Or.inr ⟨pair, hpair, rfl⟩)

end Row

namespace TableDraft

/-- Everything that a row names exists in the draft. -/
def Covers (d : TableDraft τ ν) (row : Row τ ν) : Prop :=
  (∀ state, row.Enters state → state < d.size) ∧
    ∀ production, row.ReducesBy production → production < d.grammar.size

/-- A defect of the row of a state: what the row names and the draft does not have. -/
inductive Misses (d : TableDraft τ ν) (state : Nat) (row : Row τ ν) : TableError → Prop
  | state {target : Nat} (hnamed : row.Enters target) (hmissing : d.size ≤ target) :
      Misses d state row (.unknownState state target d.size)
  | production {index : Nat} (hnamed : row.ReducesBy index) (hmissing : d.grammar.size ≤ index) :
      Misses d state row (.unknownProduction state index d.grammar.size)

/-- What can be reported of a draft: that it has no rows, or a defect of the first row that has
one. -/
inductive Reports (d : TableDraft τ ν) : TableError → Prop
  | noStates (hrows : d.rows = []) : Reports d .noStates
  | defect {state : Nat} {row : Row τ ν} {defect : TableError} (hrow : d.rows[state]? = some row)
      (hmisses : d.Misses state row defect)
      (hfirst : ∀ earlier < state, ∀ other, d.rows[earlier]? = some other → d.Covers other) :
      Reports d defect

/-- The defect that is found in a list is that of the first element with one. -/
theorem exists_of_firstDefect_eq_error {α : Type} {check : α → Except TableError Unit}
    {list : List α} {defect : TableError} (h : firstDefect check list = .error defect) :
    ∃ (place : Nat) (a : α), list[place]? = some a ∧ check a = .error defect ∧
      ∀ earlier < place, ∀ b, list[earlier]? = some b → check b = .ok () := by
  induction list with
  | nil => cases h
  | cons first rest ih =>
    unfold firstDefect at h
    cases hcheck : check first with
    | error other =>
      rw [hcheck] at h
      cases h
      exact ⟨0, first, rfl, hcheck, fun earlier hlt => absurd hlt (Nat.not_lt_zero earlier)⟩
    | ok =>
      rw [hcheck] at h
      obtain ⟨place, a, hplace, ha, hearlier⟩ := ih h
      refine ⟨place + 1, a, hplace, ha, fun earlier hlt b hb => ?_⟩
      cases earlier with
      | zero =>
        obtain rfl : first = b := Option.some.inj hb
        exact hcheck
      | succ earlier => exact hearlier earlier (Nat.lt_of_succ_lt_succ hlt) b hb

section Checks

variable {d : TableDraft τ ν} {state : Nat} {defect : TableError}

theorem eq_of_checkTarget_eq_error {target : Nat} (h : d.checkTarget state target = .error defect) :
    d.size ≤ target ∧ defect = .unknownState state target d.size := by
  unfold checkTarget at h
  split at h
  · cases h
  · next hsize =>
    cases h
    exact ⟨Nat.le_of_not_lt hsize, rfl⟩

/-- An entry is defective by one of its actions. -/
theorem exists_of_checkEntry_eq_error {entry : Entry τ}
    (h : d.checkEntry state entry = .error defect) :
    (∃ target, (.shift target ∈ entry.leaves ∨ .goto target ∈ entry.leaves) ∧ d.size ≤ target ∧
      defect = .unknownState state target d.size) ∨
    ∃ index, .reduce index ∈ entry.leaves ∧ d.grammar.size ≤ index ∧
      defect = .unknownProduction state index d.grammar.size := by
  induction entry with
  | shift target =>
    exact Or.inl ⟨target, Or.inl (List.mem_singleton_self _), eq_of_checkTarget_eq_error h⟩
  | goto target =>
    exact Or.inl ⟨target, Or.inr (List.mem_singleton_self _), eq_of_checkTarget_eq_error h⟩
  | reduce index =>
    unfold checkEntry at h
    split at h
    · cases h
    · next hsize =>
      cases h
      exact Or.inr ⟨index, List.mem_singleton_self _, Nat.le_of_not_lt hsize, rfl⟩
  | accept => cases h
  | error message => cases h
  | branch lookahead ifEqual otherwise ihEqual ihOtherwise =>
    rw [checkEntry] at h
    cases hequal : d.checkEntry state ifEqual with
    | error other =>
      rw [hequal] at h
      cases h
      rcases ihEqual hequal with ⟨target, hmem, hmissing⟩ | ⟨index, hmem, hmissing⟩
      · exact Or.inl ⟨target, hmem.imp (List.mem_append_left _) (List.mem_append_left _), hmissing⟩
      · exact Or.inr ⟨index, List.mem_append_left _ hmem, hmissing⟩
    | ok =>
      rw [hequal] at h
      rcases ihOtherwise h with ⟨target, hmem, hmissing⟩ | ⟨index, hmem, hmissing⟩
      · exact Or.inl
          ⟨target, hmem.imp (List.mem_append_right _) (List.mem_append_right _), hmissing⟩
      · exact Or.inr ⟨index, List.mem_append_right _ hmem, hmissing⟩

theorem misses_of_checkRow_eq_error {row : Row τ ν} (h : d.checkRow state row = .error defect) :
    d.Misses state row defect := by
  unfold checkRow at h
  cases hentries : firstDefect (fun pair => d.checkEntry state pair.2) row.entries.pairs with
  | error other =>
    rw [hentries] at h
    cases h
    obtain ⟨place, pair, hplace, hpair, -⟩ := exists_of_firstDefect_eq_error hentries
    have hmem : pair ∈ row.entries.pairs := List.mem_of_getElem? hplace
    rcases exists_of_checkEntry_eq_error hpair with
      ⟨target, haction, hmissing, rfl⟩ | ⟨index, haction, hmissing, rfl⟩
    · exact .state (Or.inl ⟨pair, hmem, haction⟩) hmissing
    · exact .production ⟨pair, hmem, haction⟩ hmissing
  | ok =>
    rw [hentries] at h
    obtain ⟨place, pair, hplace, hpair, -⟩ := exists_of_firstDefect_eq_error h
    obtain ⟨hmissing, rfl⟩ := eq_of_checkTarget_eq_error hpair
    exact .state (Or.inr ⟨pair, List.mem_of_getElem? hplace, rfl⟩) hmissing

theorem checkRow_eq_ok_iff_covers {row : Row τ ν} :
    d.checkRow state row = .ok () ↔ d.Covers row := by
  rw [checkRow_eq_ok_iff, Row.isWithin_iff, Covers]

/-- The rows are checked in the order of their states. -/
theorem reports_of_build_eq_error (h : d.build = .error defect) : d.Reports defect := by
  unfold build at h
  split at h
  · next hrows =>
    cases h
    exact .noStates (List.isEmpty_iff.mp hrows)
  · split at h
    · next other hrows =>
      cases h
      obtain ⟨place, ⟨row, state⟩, hplace, hcheck, hearlier⟩ :=
        exists_of_firstDefect_eq_error hrows
      rw [List.getElem?_zipIdx, Option.map_eq_some_iff] at hplace
      obtain ⟨_, hrow, heq⟩ := hplace
      obtain ⟨rfl, rfl⟩ := Prod.mk.inj heq
      rw [Nat.zero_add] at hcheck
      refine .defect hrow (misses_of_checkRow_eq_error hcheck) fun earlier hlt other hother => ?_
      have hpair : d.rows.zipIdx[earlier]? = some (other, earlier) := by
        rw [List.getElem?_zipIdx, hother, Nat.zero_add]
        rfl
      exact checkRow_eq_ok_iff_covers.mp (hearlier earlier hlt _ hpair)
    · cases h

end Checks

/-- A call that drafts a table. -/
inductive Call (τ ν : Type) where
  | setMessage (message : String)
  | push (row : RowDraft τ ν)
  | addRow (draft : RowDraft τ ν → RowDraft τ ν)

namespace Call

/-- The draft after a call. -/
def perform (d : TableDraft τ ν) : Call τ ν → TableDraft τ ν
  | .setMessage message => d.setMessage message
  | .push row => d.push row
  | .addRow draft => d.addRow draft

/-- The message that a call gives. -/
def message? : Call τ ν → Option String
  | .setMessage message => some message
  | .push _ => none
  | .addRow _ => none

end Call

/-- The draft after some calls. -/
def performAll (d : TableDraft τ ν) (calls : List (Call τ ν)) : TableDraft τ ν :=
  calls.foldl (fun d call => call.perform d) d

/-- The message of a draft is the last that was given. -/
theorem message_performAll (d : TableDraft τ ν) (calls : List (Call τ ν)) :
    (d.performAll calls).message = (calls.filterMap Call.message?).getLastD d.message := by
  induction calls generalizing d with
  | nil => rfl
  | cons call calls ih =>
    refine (ih (call.perform d)).trans ?_
    cases call with
    | setMessage message => exact List.getLastD_cons.symm
    | push row => rfl
    | addRow draft => rfl

theorem grammar_performAll (d : TableDraft τ ν) (calls : List (Call τ ν)) :
    (d.performAll calls).grammar = d.grammar := by
  induction calls generalizing d with
  | nil => rfl
  | cons call calls ih =>
    refine (ih (call.perform d)).trans ?_
    cases call <;> rfl

/-- A draft is made into a table exactly if it has rows and every state and production that
they name, at any depth of branching, exists. The table has the grammar and the rows of the
draft, and reports the message that was given last. Of any other draft a defect of the first
row that has one is reported, or that there are no rows. -/
theorem build_accepts_closed_drafts :
    (∀ (d : TableDraft τ ν) (table : Table τ ν), d.build = .ok table ↔
      d.rows ≠ [] ∧ (∀ row ∈ d.rows, d.Covers row) ∧
        table = ⟨d.grammar, d.rows, .error d.message⟩) ∧
    (∀ (g : Grammar τ ν) (calls : List (Call τ ν)),
      (performAll { grammar := g } calls).grammar = g ∧
      (performAll { grammar := g } calls).message =
        (calls.filterMap Call.message?).getLastD defaultMessage) ∧
    ∀ (d : TableDraft τ ν) (defect : TableError), d.build = .error defect → d.Reports defect := by
  refine ⟨?_, ?_, fun d defect => reports_of_build_eq_error⟩
  · intro d table
    have hrows : (∀ row ∈ d.rows, row.IsWithin d.size d.grammar.size) ↔
        ∀ row ∈ d.rows, d.Covers row := forall₂_congr fun row _ => Row.isWithin_iff
    rw [build_eq_ok_iff, hrows]
  · intro g calls
    exact ⟨grammar_performAll _ calls, message_performAll _ calls⟩

/-- A draft of three rows. The second one enters a state that does not exist on the way
behind two conditions, and the third reduces by a production that does not exist. -/
def danglingDraft : TableDraft String String where
  grammar := ⟨[⟨"S", [.terminal "a"]⟩]⟩
  rows := [⟨⟨[("a", .branch "b" (.shift 2) (.reduce 0))]⟩, ⟨[("S", 1)]⟩⟩,
    ⟨⟨[("a", .branch "b" .accept (.branch "c" (.goto 0) (.shift 3)))]⟩, {}⟩,
    ⟨⟨[("a", .reduce 1)]⟩, {}⟩]

theorem build_accepts_closed_drafts_dangling :
    danglingDraft.build = .error (.unknownState 1 3 3) ∧
      danglingDraft.Reports (.unknownState 1 3 3) ∧
      ¬ ∃ table, danglingDraft.build = .ok table := by
  have hbuild : danglingDraft.build = .error (.unknownState 1 3 3) := rfl
  refine ⟨hbuild, build_accepts_closed_drafts.2.2 _ _ hbuild, ?_⟩
  rintro ⟨table, htable⟩
  rw [hbuild] at htable
  cases htable

end TableDraft

end ShiftReduce
