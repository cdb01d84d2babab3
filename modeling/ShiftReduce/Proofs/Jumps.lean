import ShiftReduce.Proofs.Sheets

/-!
Tables without jumps. Under a terminal an entry may also enter a state as if a nonterminal
had been found, though nothing was reduced. The text of a table has no way to say so: what
its cells put under a terminal shifts, reduces, accepts or reports an error.
-/
namespace ShiftReduce

variable {τ ν : Type}

namespace Entry

/-- The entry never comes to a target that belongs to a nonterminal. -/
def HasNoJump (entry : Entry τ) : Prop := ∀ target, .goto target ∉ entry.leaves

end Entry

namespace Row

/-- No entry of the row jumps. -/
def HasNoJumps (row : Row τ ν) : Prop := ∀ pair ∈ row.entries.pairs, pair.2.HasNoJump

end Row

namespace RowDraft

variable [DecidableEq τ] [DecidableEq ν] {d d' : RowDraft τ ν}

omit [DecidableEq ν] in
theorem hasNoJumps_set (h : d.row.HasNoJumps) (terminal : τ) {entry : Entry τ}
    (hentry : entry.HasNoJump) : (d.set terminal entry).row.HasNoJumps := by
  intro pair hpair
  rcases List.mem_cons.mp hpair with rfl | hpair
  · exact hentry
  · exact h pair (List.mem_filter.mp hpair).1

theorem hasNoJumps_addCell (h : d.row.HasNoJumps) {messages : Messages} {label : String}
    {column : Column τ ν} {cell : List Char}
    (hcell : d.addCell messages label column cell = .ok d') : d'.row.HasNoJumps := by
  obtain ⟨entry, hentry, rfl⟩ := addCell_eq_ok_iff.mp hcell
  obtain ⟨symbol, name⟩ := column
  -- Only under a nonterminal a cell is a target, and there it makes no entry.
  cases hentry with
  | goto => exact h
  | _ => exact hasNoJumps_set h _ (by simp [Entry.HasNoJump, Entry.leaves])

theorem hasNoJumps_addCells (h : d.row.HasNoJumps) {messages : Messages} {label : String}
    {columns : List (Column τ ν)} {cells : List (List Char)}
    (hcells : d.addCells messages label columns cells = .ok d') : d'.row.HasNoJumps := by
  fun_induction addCells messages label d columns cells with
  | case1 d columns =>
    cases hcells
    exact h
  | case2 d cell cells hempty ih => exact ih h hcells
  | case3 d cell cells hcell => simp at hcells
  | case4 d column columns cell cells hempty ih => exact ih h hcells
  | case5 d column columns cell cells hcell error hadd => simp at hcells
  | case6 d column columns cell cells hcell next hadd ih =>
    exact ih (hasNoJumps_addCell h hadd) hcells

end RowDraft

namespace TableDraft

/-- No entry of the draft jumps. -/
def HasNoJumps (d : TableDraft τ ν) : Prop := ∀ row ∈ d.rows, row.HasNoJumps

variable [DecidableEq τ] [DecidableEq ν] {d d' : TableDraft τ ν} {messages : Messages}
  {columns : List (Column τ ν)}

theorem hasNoJumps_addLine (h : d.HasNoJumps) {line : List Char}
    (hline : d.addLine messages columns line = .ok d') : d'.HasNoJumps := by
  obtain ⟨label, cells, draft, -, -, hcells, rfl⟩ := addLine_eq_ok_iff.mp hline
  have hnew : d.newRow.row.HasNoJumps := fun pair hpair => absurd hpair List.not_mem_nil
  intro row hrow
  rcases List.mem_append.mp hrow with hrow | hrow
  · exact h row hrow
  · rw [List.mem_singleton.mp hrow]
    exact RowDraft.hasNoJumps_addCells hnew hcells

theorem hasNoJumps_addLines (h : d.HasNoJumps) {lines : List (List Char)}
    (hlines : d.addLines messages columns lines = .ok d') : d'.HasNoJumps := by
  induction lines generalizing d with
  | nil =>
    cases hlines
    exact h
  | cons line rest ih =>
    unfold addLines at hlines
    split at hlines
    · simp at hlines
    · next hline => exact ih (hasNoJumps_addLine h hline) hlines

omit [DecidableEq τ] [DecidableEq ν] in
theorem rows_of_build {table : Table τ ν} (h : d.build = .ok table) : table.rows = d.rows := by
  obtain ⟨-, -, rfl⟩ := build_eq_ok_iff.mp h
  rfl

end TableDraft

namespace Table

variable [DecidableEq τ] [DecidableEq ν]

/-- No entry of the table jumps, at any depth of branching. -/
def HasNoJumps (table : Table τ ν) : Prop :=
  ∀ state terminal target, ¬ table.Occurs state terminal (.goto target)

omit [DecidableEq ν] in
theorem hasNoJumps_of_rows {table : Table τ ν} (h : ∀ row ∈ table.rows, row.HasNoJumps) :
    table.HasNoJumps := by
  rintro state terminal target ⟨row, entry, hrow, hentry, hleaf⟩
  have hpair : (terminal, entry) ∈ row.entries.pairs := Dictionary.mem_pairs_of_get? hentry
  exact h row (List.mem_of_getElem? hrow) _ hpair target hleaf

/-- A table that is read from text has no jumps. -/
theorem hasNoJumps_of_ofText {names : Naming τ ν} {messages : Messages} {grammar : Grammar τ ν}
    {text : List Char} {table : Table τ ν} (h : ofText names messages grammar text = .ok table) :
    table.HasNoJumps := by
  obtain ⟨header, further, columns, draft, -, -, hlines, hbuild⟩ := ofText_eq_ok_iff.mp h
  have hnone : TableDraft.HasNoJumps { grammar : TableDraft τ ν } :=
    fun row hrow => absurd hrow List.not_mem_nil
  apply hasNoJumps_of_rows
  rw [TableDraft.rows_of_build hbuild]
  exact TableDraft.hasNoJumps_addLines hnone hlines

end Table

end ShiftReduce
