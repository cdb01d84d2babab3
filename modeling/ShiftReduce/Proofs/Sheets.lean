import Mathlib.Data.List.Forall2
import ShiftReduce.Proofs.Cells

/-!
Tables in writing. A text is taken for a sheet of cells: the symbols of its columns, and for
each state a row of trimmed cells. The text is read as a table if the sheet has a row, its
rows can be read, and what is last said about a symbol in a row stays within the table. The
table then has a state for each row that says what the row says. A cell that a later one
replaces is not compared with the numbers of states and productions.
-/
namespace ShiftReduce

open Text

variable {τ ν : Type}

/-- The symbol that a name stands for at the head of a column. -/
def Naming.symbol? (names : Naming τ ν) (name : String) : Option (Symbol τ ν) :=
  match names.terminal? name with
  | some terminal => some (.terminal terminal)
  | none => (names.nonterminal? name).map .nonterminal

/-- The cells of a line without the blanks around them. -/
def trimmedCells (line : List Char) : List (List Char) := (cells line).map trim

/-- Lines that start with their numbers, and the cells behind the numbers. -/
inductive Numbered : Nat → List (List Char) → List (List (List Char)) → Prop
  | nil {number : Nat} : Numbered number [] []
  | cons {number : Nat} {line label : List Char} {cells : List (List Char)}
      {lines : List (List Char)} {rows : List (List (List Char))}
      (hcells : trimmedCells line = label :: cells) (hlabel : Number.count? label = some number)
      (hrest : Numbered (number + 1) lines rows) : Numbered number (line :: lines) (cells :: rows)

/-- A table as it is written: the symbols of the columns, and a row of cells for each state. -/
structure Sheet (τ ν : Type) where
  columns : List (Symbol τ ν)
  rows : List (List (List Char))

/-- The sheet in a text: a line with the titles of the columns behind an empty cell, and then
lines that are numbered from zero. -/
def Sheet.IsOf (names : Naming τ ν) (text : List Char) (sheet : Sheet τ ν) : Prop :=
  ∃ header further titles,
    ((lines text).filter fun line => !isIdleLine line) = header :: further ∧
      trimmedCells header = [] :: titles ∧
      List.Forall₂ (fun title symbol => names.symbol? (String.ofList title) = some symbol)
        titles sheet.columns ∧
      Numbered 0 further sheet.rows

theorem Numbered.unique {number : Nat} {lines : List (List Char)} {rows others : List (List (List Char))}
    (h : Numbered number lines rows) (hothers : Numbered number lines others) : others = rows := by
  induction h generalizing others with
  | nil =>
    cases hothers
    rfl
  | cons hcells _ _ ih =>
    cases hothers with
    | cons hothers _ hrest =>
      rw [hcells] at hothers
      rw [(List.cons.inj hothers).2, ih hrest]

/-- There is at most one sheet in a text. -/
theorem Sheet.IsOf.unique {names : Naming τ ν} {text : List Char} {sheet other : Sheet τ ν}
    (h : sheet.IsOf names text) (hother : other.IsOf names text) : other = sheet := by
  obtain ⟨header, further, titles, hlines, htitles, hcolumns, hrows⟩ := h
  obtain ⟨_, _, _, hlines', htitles', hcolumns', hrows'⟩ := hother
  obtain ⟨rfl, rfl⟩ := List.cons.inj (hlines.symm.trans hlines')
  obtain ⟨-, rfl⟩ := List.cons.inj (htitles.symm.trans htitles')
  have hunique : Relator.RightUnique fun (title : List Char) (symbol : Symbol τ ν) =>
      names.symbol? (String.ofList title) = some symbol := by
    intro title symbol symbol' hsymbol hsymbol'
    exact Option.some.inj (hsymbol.symm.trans hsymbol')
  have hsame : other.columns = sheet.columns := hunique.forall₂ hcolumns' hcolumns
  cases other
  cases sheet
  exact congrArg₂ Sheet.mk hsame (hrows.unique hrows')

namespace TableDraft

variable [DecidableEq τ] [DecidableEq ν] {messages : Messages} {columns : List (Column τ ν)}
  {d d' : TableDraft τ ν}

theorem addLine_eq_ok_iff {line : List Char} : d.addLine messages columns line = .ok d' ↔
    ∃ label cells draft, trimmedCells line = label :: cells ∧ Number.count? label = some d.size ∧
      d.newRow.addCells messages (String.ofList label) columns cells = .ok draft ∧
      d' = d.push draft := by
  obtain ⟨label, cells, hcells⟩ : ∃ label cells, trimmedCells line = label :: cells := by
    apply List.exists_cons_of_ne_nil
    simpa [trimmedCells, Text.cells] using pieces_ne_nil (· == '\t') line
  have hline : (Text.cells line).map trim = label :: cells := hcells
  have hadd : d.addLine messages columns line =
      if Number.count? label ≠ some d.size then
        .error (.unexpectedState d.size (String.ofList label))
      else (d.newRow.addCells messages (String.ofList label) columns cells).map d.push := by
    simp only [addLine, hline, List.headD_cons, List.tail_cons]
  rw [hadd, hcells]
  constructor
  · intro h
    split at h
    · cases h
    · next hlabel =>
      cases hdraft : d.newRow.addCells messages (String.ofList label) columns cells with
      | error error =>
        rw [hdraft] at h
        cases h
      | ok draft =>
        rw [hdraft] at h
        exact ⟨label, cells, draft, rfl, not_not.mp hlabel, hdraft, (Except.ok.inj h).symm⟩
  · rintro ⟨_, _, draft, ⟨⟩, hlabel, hdraft, rfl⟩
    rw [if_neg (not_not.mpr hlabel), hdraft]
    rfl

/-- The rows that lines add follow their cells. -/
theorem exists_of_addLines {lines : List (List Char)}
    (h : d.addLines messages columns lines = .ok d') :
    ∃ sheet rows, Numbered d.size lines sheet ∧
      (∀ cells ∈ sheet, IsReadable messages (columns.map Column.symbol) cells) ∧
      d' = { d with rows := d.rows ++ rows } ∧
      List.Forall₂ (fun cells row => row.HasDistinctKeys ∧
        row.Follows messages (columns.map Column.symbol) cells) sheet rows := by
  induction lines generalizing d with
  | nil =>
    cases h
    exact ⟨[], [], .nil, by simp, by simp, .nil⟩
  | cons line lines ih =>
    rw [addLines] at h
    split at h
    · cases h
    · next next hline =>
      obtain ⟨label, cells, draft, hcells, hlabel, hadd, rfl⟩ := addLine_eq_ok_iff.mp hline
      obtain ⟨sheet, rows, hsheet, hreadable, rfl, hrows⟩ := ih h
      have hfirst := (RowDraft.exists_addCells_iff _ d.newRow).mp ⟨draft, hadd⟩
      have hdistinct := RowDraft.hasDistinctKeys_of_addCells hadd ⟨.nil, .nil⟩
      have hfollows := RowDraft.follows_of_addCells hadd
      refine ⟨cells :: sheet, draft.row :: rows, .cons hcells hlabel ?_,
        List.forall_mem_cons.mpr ⟨hfirst, hreadable⟩, ?_, .cons ⟨hdistinct, hfollows⟩ hrows⟩
      · simpa [push, size] using hsheet
      · simp [push]

theorem exists_addLines {lines : List (List Char)} {sheet : List (List (List Char))}
    (hsheet : Numbered d.size lines sheet)
    (hreadable : ∀ cells ∈ sheet, IsReadable messages (columns.map Column.symbol) cells) :
    ∃ d', d.addLines messages columns lines = .ok d' := by
  induction lines generalizing d sheet with
  | nil => exact ⟨d, rfl⟩
  | cons line lines ih =>
    cases hsheet with
    | @cons _ _ label cells _ rows hcells hlabel hrest =>
      obtain ⟨hfirst, hothers⟩ := List.forall_mem_cons.mp hreadable
      obtain ⟨draft, hadd⟩ :=
        (RowDraft.exists_addCells_iff (String.ofList label) d.newRow).mpr hfirst
      have hline := addLine_eq_ok_iff.mpr ⟨label, cells, draft, hcells, hlabel, hadd, rfl⟩
      have hnext : Numbered (d.push draft).size lines rows := by simpa [push, size] using hrest
      rw [addLines, hline]
      exact ih hnext hothers

end TableDraft

namespace Column

theorem ofName_eq (names : Naming τ ν) (name : String) :
    ofName names name =
      match names.symbol? name with
      | some symbol => .ok ⟨symbol, name⟩
      | none => .error (.invalidColumn name) := by
  unfold ofName Naming.symbol?
  cases names.terminal? name with
  | some terminal => rfl
  | none => cases names.nonterminal? name <;> rfl

/-- The columns are those of the symbols that their titles stand for. -/
theorem exists_ofNames_iff {names : Naming τ ν} {titles : List (List Char)}
    {symbols : List (Symbol τ ν)} :
    (∃ columns, ofNames names (titles.map String.ofList) = .ok columns ∧
      columns.map Column.symbol = symbols) ↔
      List.Forall₂ (fun title symbol => names.symbol? (String.ofList title) = some symbol)
        titles symbols := by
  induction titles generalizing symbols with
  | nil => simp [ofNames, eq_comm]
  | cons title titles ih =>
    rw [List.forall₂_cons_left_iff, List.map_cons, ofNames, ofName_eq]
    cases names.symbol? (String.ofList title) with
    | none => simp
    | some symbol =>
      simp only [← ih, Option.some.injEq]
      cases ofNames names (titles.map String.ofList) with
      | error error => simp [Except.map]
      | ok columns => simp [Except.map, eq_comm]

theorem exists_ofHeader_iff {names : Naming τ ν} {header : List Char} {symbols : List (Symbol τ ν)} :
    (∃ columns, ofHeader names header = .ok columns ∧ columns.map Column.symbol = symbols) ↔
      ∃ titles, trimmedCells header = [] :: titles ∧
        List.Forall₂ (fun title symbol => names.symbol? (String.ofList title) = some symbol)
          titles symbols := by
  unfold ofHeader trimmedCells
  split
  · next titles htitles => simp [htitles, exists_ofNames_iff]
  · next hcells =>
    constructor
    · rintro ⟨_, ⟨⟩, _⟩
    · rintro ⟨titles, htitles, _⟩
      exact (hcells titles htitles).elim

end Column

namespace Sheet

/-- The sheet is that of a table: it has a row, its cells can be read, and what is last said
about a symbol in a row stays within the rows and some productions. -/
structure IsTabular [DecidableEq τ] [DecidableEq ν] (sheet : Sheet τ ν) (messages : Messages)
    (productions : Nat) : Prop where
  nonempty : sheet.rows ≠ []
  readable : ∀ cells ∈ sheet.rows, IsReadable messages sheet.columns cells
  within : ∀ cells ∈ sheet.rows,
    StaysWithin messages sheet.columns cells sheet.rows.length productions

end Sheet

namespace Table

variable [DecidableEq τ] [DecidableEq ν] {names : Naming τ ν} {messages : Messages}
  {grammar : Grammar τ ν} {text : List Char}

theorem forall_isWithin_iff {columns : List (Symbol τ ν)} {sheet : List (List (List Char))}
    {rows : List (Row τ ν)} (h : List.Forall₂ (fun cells row => row.HasDistinctKeys ∧
      row.Follows messages columns cells) sheet rows) {states productions : Nat} :
    (∀ row ∈ rows, row.IsWithin states productions) ↔
      ∀ cells ∈ sheet, StaysWithin messages columns cells states productions := by
  induction h with
  | nil => simp
  | cons hrow _ ih => rw [List.forall_mem_cons, List.forall_mem_cons, ih, hrow.2.isWithin_iff hrow.1]

/-- What is read holds a sheet with rows that can be read. -/
theorem exists_sheet_of_ofText {table : Table τ ν}
    (h : ofText names messages grammar text = .ok table) :
    ∃ sheet : Sheet τ ν, sheet.IsOf names text ∧
      ∀ cells ∈ sheet.rows, IsReadable messages sheet.columns cells := by
  obtain ⟨header, further, columns, draft, hlines, hcolumns, hdraft, -⟩ := ofText_eq_ok_iff.mp h
  obtain ⟨titles, htitles, hsymbols⟩ := Column.exists_ofHeader_iff.mp ⟨columns, hcolumns, rfl⟩
  obtain ⟨sheet, rows, hsheet, hreadable, -⟩ := TableDraft.exists_of_addLines hdraft
  exact ⟨⟨_, sheet⟩, ⟨header, further, titles, hlines, htitles, hsymbols, hsheet⟩, hreadable⟩

/-- If the rows of a sheet can be read, rows are drafted that follow them, and they make the
table if what the sheet says stays within it. -/
theorem exists_rows_of_isOf {sheet : Sheet τ ν} (h : sheet.IsOf names text)
    (hreadable : ∀ cells ∈ sheet.rows, IsReadable messages sheet.columns cells)
    (grammar : Grammar τ ν) :
    ∃ rows, List.Forall₂ (fun cells row => row.Follows messages sheet.columns cells) sheet.rows rows ∧
      ∀ table, ofText names messages grammar text = .ok table ↔
        sheet.IsTabular messages grammar.size ∧ table = ⟨grammar, rows, .error defaultMessage⟩ := by
  obtain ⟨header, further, titles, hlines, htitles, hsymbols, hnumbered⟩ := h
  obtain ⟨columns, hcolumns, hsame⟩ := Column.exists_ofHeader_iff.mpr ⟨titles, htitles, hsymbols⟩
  have hlegible : ∃ draft, TableDraft.addLines messages columns { grammar } further = .ok draft :=
    TableDraft.exists_addLines hnumbered (by rwa [hsame])
  obtain ⟨draft, hdraft⟩ := hlegible
  obtain ⟨others, rows, hothers, -, rfl, hrows⟩ := TableDraft.exists_of_addLines hdraft
  obtain rfl := hnumbered.unique hothers
  rw [hsame] at hrows
  refine ⟨rows, hrows.imp fun _ _ hrow => hrow.2, fun table => ?_⟩
  have hbuild : ofText names messages grammar text = .ok table ↔
      (TableDraft.mk grammar rows defaultMessage).build = .ok table := by
    rw [ofText_eq_ok_iff]
    constructor
    · rintro ⟨_, _, _, _, hlines', hcolumns', hdraft', hbuild⟩
      obtain ⟨rfl, rfl⟩ := List.cons.inj (hlines.symm.trans hlines')
      obtain rfl := Except.ok.inj (hcolumns.symm.trans hcolumns')
      obtain rfl := Except.ok.inj (hdraft.symm.trans hdraft')
      exact hbuild
    · intro hbuild
      exact ⟨header, further, columns, _, hlines, hcolumns, hdraft, hbuild⟩
  have hsize : (TableDraft.mk grammar rows defaultMessage).size = sheet.rows.length :=
    hrows.length_eq.symm
  have hne : rows ≠ [] ↔ sheet.rows ≠ [] := by
    rw [← List.length_pos_iff, ← List.length_pos_iff, hrows.length_eq]
  rw [hbuild, TableDraft.build_eq_ok_iff, hsize, forall_isWithin_iff hrows, hne]
  constructor
  · rintro ⟨hsome, hwithin, htable⟩
    exact ⟨⟨hsome, hreadable, hwithin⟩, htable⟩
  · rintro ⟨⟨hsome, -, hwithin⟩, htable⟩
    exact ⟨hsome, hwithin, htable⟩

/-- A text is read as a table if it holds the sheet of one, and the table says what the sheet
says: it has a state for each row, and its entry for a symbol is what the last cell under the
symbol says that is not empty. -/
theorem ofText_reads_tabular_sheets (names : Naming τ ν) (messages : Messages)
    (grammar : Grammar τ ν) (text : List Char) :
    ((∃ table, ofText names messages grammar text = .ok table) ↔
        ∃ sheet : Sheet τ ν, sheet.IsOf names text ∧ sheet.IsTabular messages grammar.size) ∧
    ∀ table (sheet : Sheet τ ν), ofText names messages grammar text = .ok table →
      sheet.IsOf names text →
        table.grammar = grammar ∧ table.defaultEntry = .error defaultMessage ∧
          List.Forall₂ (fun cells row => row.Follows messages sheet.columns cells)
            sheet.rows table.rows := by
  constructor
  · constructor
    · rintro ⟨table, htable⟩
      obtain ⟨sheet, hsheet, hreadable⟩ := exists_sheet_of_ofText htable
      obtain ⟨rows, -, hok⟩ := exists_rows_of_isOf hsheet hreadable grammar
      exact ⟨sheet, hsheet, ((hok table).mp htable).1⟩
    · rintro ⟨sheet, hsheet, htabular⟩
      obtain ⟨rows, -, hok⟩ := exists_rows_of_isOf hsheet htabular.readable grammar
      exact ⟨_, (hok _).mpr ⟨htabular, rfl⟩⟩
  · intro table sheet htable hsheet
    obtain ⟨other, hother, hreadable⟩ := exists_sheet_of_ofText htable
    obtain rfl := hsheet.unique hother
    obtain ⟨rows, hrows, hok⟩ := exists_rows_of_isOf hsheet hreadable grammar
    obtain ⟨-, rfl⟩ := (hok table).mp htable
    exact ⟨rfl, rfl, hrows⟩

/-- A sheet with two columns for the same terminal. -/
def repeatedColumns : Sheet String String where
  columns := [.terminal "a", .nonterminal "S", .terminal "a"]
  rows := [[['s', '9'], ['1'], ['s', '+', '1']], [['e', '7'], [], [], []]]

/-- A text that holds the sheet with the repeated column. -/
def repeatedText : List Char := "# a\n\ta\tS\ta\n0\ts9\t1\ts+1\n\n1\t e7\t\t\t".toList

theorem ofText_reads_tabular_sheets_repeated :
    ∃ table, ofText .byCapitals ⟨⟨[(7, "late")]⟩⟩ ⟨[]⟩ repeatedText = .ok table ∧
      List.Forall₂ (fun cells row => row.Follows ⟨⟨[(7, "late")]⟩⟩ repeatedColumns.columns cells)
        repeatedColumns.rows table.rows := by
  have hsheet : repeatedColumns.IsOf .byCapitals repeatedText := by
    refine ⟨"\ta\tS\ta".toList, ["0\ts9\t1\ts+1".toList, "1\t e7\t\t\t".toList],
      [['a'], ['S'], ['a']], by decide, by decide, ?_, ?_⟩
    · exact .cons (by decide) (.cons (by decide) (.cons (by decide) .nil))
    · have hfirst : trimmedCells "0\ts9\t1\ts+1".toList = [['0'], ['s', '9'], ['1'], ['s', '+', '1']] := by
        decide
      have hsecond : trimmedCells "1\t e7\t\t\t".toList = [['1'], ['e', '7'], [], [], []] := by decide
      exact .cons hfirst (by decide) (.cons hsecond (by decide) .nil)
  obtain ⟨-, hmeans⟩ :=
    ofText_reads_tabular_sheets .byCapitals ⟨⟨[(7, "late")]⟩⟩ ⟨[]⟩ repeatedText
  obtain ⟨-, -, hrows⟩ := hmeans _ repeatedColumns rfl hsheet
  exact ⟨_, rfl, hrows⟩

/-- A state that does not exist is accepted where a later cell replaces it. -/
theorem ofText_accepts_replaced_cells :
    ¬ ((∃ table, ofText .byCapitals {} ⟨[⟨"S", [.terminal "a"]⟩]⟩
          "\ta\ta\n0\ts9\tacc\n".toList = .ok table) ↔
        ∃ sheet : Sheet String String, sheet.IsOf .byCapitals "\ta\ta\n0\ts9\tacc\n".toList ∧
          sheet.rows ≠ [] ∧ ∀ cells ∈ sheet.rows, IsReadable {} sheet.columns cells ∧
            EachStaysWithin {} sheet.columns cells sheet.rows.length 1) := by
  intro h
  obtain ⟨sheet, hsheet, -, hrows⟩ := h.mp ⟨_, rfl⟩
  have hexpected : Sheet.IsOf .byCapitals "\ta\ta\n0\ts9\tacc\n".toList
      ⟨[.terminal "a", .terminal "a"], [[['s', '9'], ['a', 'c', 'c']]]⟩ := by
    refine ⟨"\ta\ta".toList, ["0\ts9\tacc".toList], [['a'], ['a']], by decide, by decide, ?_, ?_⟩
    · exact .cons (by decide) (.cons (by decide) .nil)
    · have hfirst : trimmedCells "0\ts9\tacc".toList = [['0'], ['s', '9'], ['a', 'c', 'c']] := by
        decide
      exact .cons hfirst (by decide) .nil
  obtain rfl := hexpected.unique hsheet
  obtain ⟨-, hwithin⟩ := hrows _ List.mem_cons_self
  have hshift : (Entry.shift 9 : Entry String).IsWithin 1 1 :=
    hwithin _ List.mem_cons_self (by decide) _ (.shift (by decide))
  exact absurd hshift (by decide : ¬ 9 < 1)

end Table

end ShiftReduce
