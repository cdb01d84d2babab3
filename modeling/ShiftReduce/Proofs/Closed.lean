import ShiftReduce.Language.Load
import ShiftReduce.Proofs.Turns

/-!
Tables that stay within themselves. A draft is made into a table only if every state and
every production that its entries name exists, at any depth of branching, and so does
every target of a nonterminal. So an action that occurs in a table that was built leads
to one of its states or reduces by one of its productions. Tables that are read from text
or loaded with a language are built as well.
-/
namespace ShiftReduce

variable {τ ν : Type}

/-- Errors in other words are still errors. -/
theorem eq_ok_of_mapError {ε ε' α : Type} {f : ε → ε'} {result : Except ε α} {a : α}
    (h : result.mapError f = .ok a) : result = .ok a := by
  cases result with
  | error error => cases h
  | ok b =>
    cases h
    rfl

namespace Entry

/-- The states and productions that an entry names are below these numbers, at any depth
of branching. -/
def IsWithin (states productions : Nat) : Entry τ → Prop
  | .shift target => target < states
  | .reduce index => index < productions
  | .goto target => target < states
  | .accept => True
  | .error _ => True
  | .branch _ ifEqual otherwise =>
    ifEqual.IsWithin states productions ∧ otherwise.IsWithin states productions

theorem IsWithin.of_mem_leaves {states productions : Nat} {entry leaf : Entry τ}
    (h : entry.IsWithin states productions) (hleaf : leaf ∈ entry.leaves) :
    leaf.IsWithin states productions := by
  induction entry with
  | branch lookahead ifEqual otherwise ihEqual ihOtherwise =>
    rcases List.mem_append.mp hleaf with hleaf | hleaf
    · exact ihEqual h.1 hleaf
    · exact ihOtherwise h.2 hleaf
  | _ =>
    obtain rfl := List.mem_singleton.mp hleaf
    exact h

end Entry

namespace Row

/-- The entries of a row stay within some states and productions, and its targets within
the states. -/
def IsWithin (states productions : Nat) (row : Row τ ν) : Prop :=
  (∀ pair ∈ row.entries.pairs, pair.2.IsWithin states productions) ∧
    ∀ pair ∈ row.gotos.pairs, pair.2 < states

variable {states productions : Nat} {row : Row τ ν}

theorem IsWithin.entryFor [DecidableEq τ] (h : row.IsWithin states productions) {terminal : τ}
    {entry : Entry τ} (hentry : row.entryFor terminal = some entry) :
    entry.IsWithin states productions :=
  h.1 _ (Dictionary.mem_pairs_of_get? hentry)

theorem IsWithin.goto?_lt [DecidableEq ν] (h : row.IsWithin states productions) {nonterminal : ν}
    {target : Nat} (hgoto : row.goto? nonterminal = some target) : target < states :=
  h.2 _ (Dictionary.mem_pairs_of_get? hgoto)

end Row

namespace TableDraft

/-- A check finds no defect in a list if it passes all elements. -/
theorem firstDefect_eq_ok_iff {α : Type} {check : α → Except TableError Unit} {list : List α} :
    firstDefect check list = .ok () ↔ ∀ a ∈ list, check a = .ok () := by
  induction list with
  | nil => simp [firstDefect]
  | cons a rest ih =>
    unfold firstDefect
    cases hcheck : check a with
    | error defect => simp [hcheck]
    | ok => simp [hcheck, ih]

variable {d : TableDraft τ ν} {state : Nat}

theorem checkTarget_eq_ok_iff {target : Nat} : d.checkTarget state target = .ok () ↔ target < d.size := by
  unfold checkTarget
  split <;> simp_all

theorem checkEntry_eq_ok_iff {entry : Entry τ} :
    d.checkEntry state entry = .ok () ↔ entry.IsWithin d.size d.grammar.size := by
  induction entry with
  | shift target => exact checkTarget_eq_ok_iff
  | goto target => exact checkTarget_eq_ok_iff
  | reduce index =>
    unfold checkEntry Entry.IsWithin
    split <;> simp_all
  | accept => simp [checkEntry, Entry.IsWithin]
  | error message => simp [checkEntry, Entry.IsWithin]
  | branch lookahead ifEqual otherwise ihEqual ihOtherwise =>
    rw [Entry.IsWithin, ← ihEqual, ← ihOtherwise, checkEntry]
    cases d.checkEntry state ifEqual with
    | error defect => simp
    | ok => simp

theorem checkRow_eq_ok_iff {row : Row τ ν} :
    d.checkRow state row = .ok () ↔ row.IsWithin d.size d.grammar.size := by
  have hentries : firstDefect (fun pair => d.checkEntry state pair.2) row.entries.pairs = .ok () ↔
      ∀ pair ∈ row.entries.pairs, pair.2.IsWithin d.size d.grammar.size := by
    simp only [firstDefect_eq_ok_iff, checkEntry_eq_ok_iff]
  have hgotos : firstDefect (fun pair => d.checkTarget state pair.2) row.gotos.pairs = .ok () ↔
      ∀ pair ∈ row.gotos.pairs, pair.2 < d.size := by
    simp only [firstDefect_eq_ok_iff, checkTarget_eq_ok_iff]
  rw [Row.IsWithin, ← hentries, ← hgotos, checkRow]
  cases firstDefect (fun pair => d.checkEntry state pair.2) row.entries.pairs with
  | error defect => simp
  | ok => simp

/-- A draft is made into a table if it has rows and they stay within it; the table has its
grammar and its rows. -/
theorem build_eq_ok_iff {table : Table τ ν} :
    d.build = .ok table ↔ d.rows ≠ [] ∧ (∀ row ∈ d.rows, row.IsWithin d.size d.grammar.size) ∧
      table = ⟨d.grammar, d.rows, .error d.message⟩ := by
  have hchecked : firstDefect (fun pair => d.checkRow pair.2 pair.1) d.rows.zipIdx = .ok () ↔
      ∀ row ∈ d.rows, row.IsWithin d.size d.grammar.size := by
    simp only [firstDefect_eq_ok_iff, checkRow_eq_ok_iff]
    constructor
    · intro h row hrow
      obtain ⟨state, hstate⟩ := List.mem_iff_getElem?.mp hrow
      exact h (row, state) (List.mem_zipIdx_iff_getElem?.mpr hstate)
    · intro h pair hpair
      exact h pair.1 (List.mem_of_getElem? (List.mem_zipIdx_iff_getElem?.mp hpair))
  rw [← hchecked, build]
  by_cases hrows : d.rows = []
  · simp [hrows]
  · rw [if_neg (by simpa using hrows)]
    cases firstDefect (fun pair => d.checkRow pair.2 pair.1) d.rows.zipIdx with
    | error defect => simp
    | ok => simp [hrows, eq_comm]

end TableDraft

namespace Table

/-- There is a row, and all rows stay within the table. -/
structure IsClosed (table : Table τ ν) : Prop where
  nonempty : 0 < table.rows.length
  rows : ∀ row ∈ table.rows, row.IsWithin table.rows.length table.grammar.size

theorem IsBuilt.isClosed {table : Table τ ν} (h : table.IsBuilt) : table.IsClosed := by
  obtain ⟨draft, hbuild⟩ := h
  obtain ⟨hrows, hwithin, rfl⟩ := TableDraft.build_eq_ok_iff.mp hbuild
  exact ⟨List.length_pos_iff.mpr hrows, hwithin⟩

section Within

variable {table : Table τ ν} (h : table.IsClosed)

include h

theorem IsClosed.exists_row_zero : ∃ row, table.row? 0 = some row :=
  ⟨_, List.getElem?_eq_getElem h.nonempty⟩

variable [DecidableEq τ] {state : Nat} {terminal : τ}

theorem IsClosed.isWithin_of_occurs {action : Entry τ} (hoccurs : table.Occurs state terminal action) :
    action.IsWithin table.rows.length table.grammar.size := by
  obtain ⟨row, entry, hrow, hentry, hleaf⟩ := hoccurs
  have hwithin := h.rows row (List.mem_of_getElem? hrow)
  exact (hwithin.entryFor hentry).of_mem_leaves hleaf

/-- The state that an action enters has a row. -/
theorem IsClosed.exists_row_of_occurs {target : Nat}
    (hoccurs : table.Occurs state terminal (.shift target) ∨
      table.Occurs state terminal (.goto target)) : ∃ row, table.row? target = some row := by
  have htarget : target < table.rows.length := by
    rcases hoccurs with hshift | hgoto
    · exact h.isWithin_of_occurs hshift
    · exact h.isWithin_of_occurs hgoto
  exact ⟨_, List.getElem?_eq_getElem htarget⟩

theorem IsClosed.exists_production_of_occurs {index : Nat}
    (hoccurs : table.Occurs state terminal (.reduce index)) :
    ∃ production, table.grammar.production? index = some production := by
  have hindex : index < table.grammar.productions.length := h.isWithin_of_occurs hoccurs
  exact ⟨_, List.getElem?_eq_getElem hindex⟩

omit [DecidableEq τ] in
theorem IsClosed.exists_row_of_hasGoto [DecidableEq ν] {nonterminal : ν} {target : Nat}
    (hgoto : table.HasGoto state nonterminal target) : ∃ row, table.row? target = some row := by
  obtain ⟨row, hrow, htarget⟩ := hgoto
  have hwithin := h.rows row (List.mem_of_getElem? hrow)
  exact ⟨_, List.getElem?_eq_getElem (hwithin.goto?_lt htarget)⟩

end Within

variable [DecidableEq τ] [DecidableEq ν]

/-- A text is read as a table if its first line is a header, its other lines can be added to a
draft, and the draft is made into the table. -/
theorem ofText_eq_ok_iff {names : Naming τ ν} {messages : Messages} {grammar : Grammar τ ν}
    {text : List Char} {table : Table τ ν} : ofText names messages grammar text = .ok table ↔
      ∃ header further columns draft,
        ((Text.lines text).filter fun line => !isIdleLine line) = header :: further ∧
          Column.ofHeader names header = .ok columns ∧
          TableDraft.addLines messages columns { grammar } further = .ok draft ∧
          draft.build = .ok table := by
  constructor
  · intro h
    unfold ofText at h
    split at h
    · cases h
    · next header further hlines =>
      split at h
      · cases h
      · next columns hcolumns =>
        split at h
        · cases h
        · next draft hdraft =>
          exact ⟨header, further, columns, draft, hlines, hcolumns, hdraft, eq_ok_of_mapError h⟩
  · rintro ⟨header, further, columns, draft, hlines, hcolumns, hdraft, hbuild⟩
    simp only [ofText, hlines, hcolumns, hdraft, hbuild]
    rfl

theorem isBuilt_of_ofText {names : Naming τ ν} {messages : Messages} {grammar : Grammar τ ν}
    {text : List Char} {table : Table τ ν} (h : ofText names messages grammar text = .ok table) :
    table.IsBuilt := by
  obtain ⟨-, -, -, draft, -, -, -, hbuild⟩ := ofText_eq_ok_iff.mp h
  exact ⟨draft, hbuild⟩

/-- The table of a language on disk is built. -/
theorem isBuilt_of_load {names : Naming τ ν} {files : Files} {directory name : String}
    {table : Table τ ν} (h : load names files directory name = .ok table) : table.IsBuilt := by
  simp only [load, bind, Except.bind] at h
  split at h
  · simp at h
  · split at h
    · simp at h
    · split at h
      · simp at h
      · split at h
        · simp at h
        · exact isBuilt_of_ofText (eq_ok_of_mapError h)

end Table

end ShiftReduce
