import ShiftReduce.Proofs.Closed

/-!
Cells of a written table. A cell under a terminal shifts, reduces, accepts or reports an
error, and a cell under a nonterminal is a target. A row of cells can be read if each cell
that is not empty stands under a column and says something about its symbol. The row of a
table that is drafted from them says about each symbol what the last cell under it says: a
symbol can have several columns, and a later cell replaces what an earlier one said.
-/
namespace ShiftReduce

variable {τ ν : Type}

/-- What a cell says about the symbol of its column. -/
inductive Decodes (messages : Messages) : Symbol τ ν → List Char → Entry τ → Prop
  | accept {terminal : τ} : Decodes messages (.terminal terminal) ['a', 'c', 'c'] .accept
  | shift {terminal : τ} {digits : List Char} {state : Nat} (h : Number.count? digits = some state) :
      Decodes messages (.terminal terminal) ('s' :: digits) (.shift state)
  | reduce {terminal : τ} {digits : List Char} {production : Nat}
      (h : Number.count? digits = some production) :
      Decodes messages (.terminal terminal) ('r' :: digits) (.reduce production)
  | error {terminal : τ} {digits : List Char} {code : Nat} {message : String}
      (h : Number.count? digits = some code) (hmessage : messages.get? code = some message) :
      Decodes messages (.terminal terminal) ('e' :: digits) (.error message)
  | goto {nonterminal : ν} {digits : List Char} {state : Nat}
      (h : Number.count? digits = some state) :
      Decodes messages (.nonterminal nonterminal) digits (.goto state)

/-- A cell says one thing. -/
theorem Decodes.unique {messages : Messages} {symbol : Symbol τ ν} {cell : List Char}
    {entry other : Entry τ} (h : Decodes messages symbol cell entry)
    (hother : Decodes messages symbol cell other) : other = entry := by
  cases h <;> cases hother <;> simp_all

/-- The last cell of a row that stands under a symbol and is not empty. -/
def lastCell? [DecidableEq τ] [DecidableEq ν] (columns : List (Symbol τ ν))
    (cells : List (List Char)) (symbol : Symbol τ ν) : Option (List Char) :=
  ((columns.zip cells).findRev? fun pair => pair.1 = symbol && !pair.2.isEmpty).map Prod.snd

/-- A row of cells that can be read: what is not empty stands under a column and says
something about its symbol. -/
structure IsReadable (messages : Messages) (columns : List (Symbol τ ν)) (cells : List (List Char)) :
    Prop where
  covered : ∀ cell ∈ cells.drop columns.length, cell = []
  decoded : ∀ pair ∈ columns.zip cells, pair.2 ≠ [] → ∃ entry, Decodes messages pair.1 pair.2 entry

/-- What is last said about a symbol in a row stays within some states and productions. -/
def StaysWithin [DecidableEq τ] [DecidableEq ν] (messages : Messages) (columns : List (Symbol τ ν))
    (cells : List (List Char)) (states productions : Nat) : Prop :=
  ∀ symbol cell entry, lastCell? columns cells symbol = some cell →
    Decodes messages symbol cell entry → entry.IsWithin states productions

/-- What any cell of a row says stays within some states and productions, also where a later
cell replaces it. -/
def EachStaysWithin (messages : Messages) (columns : List (Symbol τ ν)) (cells : List (List Char))
    (states productions : Nat) : Prop :=
  ∀ pair ∈ columns.zip cells, pair.2 ≠ [] →
    ∀ entry, Decodes messages pair.1 pair.2 entry → entry.IsWithin states productions

section Rows

variable {messages : Messages} {symbol : Symbol τ ν} {columns : List (Symbol τ ν)}
  {cell : List Char} {cells : List (List Char)}

theorem isReadable_cons_iff : IsReadable messages (symbol :: columns) (cell :: cells) ↔
    (cell ≠ [] → ∃ entry, Decodes messages symbol cell entry) ∧ IsReadable messages columns cells := by
  constructor
  · rintro ⟨hcovered, hdecoded⟩
    refine ⟨hdecoded (symbol, cell) List.mem_cons_self, hcovered, ?_⟩
    exact fun pair hpair => hdecoded pair (List.mem_cons_of_mem _ hpair)
  · rintro ⟨hcell, hcovered, hdecoded⟩
    refine ⟨hcovered, fun pair hpair => ?_⟩
    rcases List.mem_cons.mp hpair with rfl | hpair
    · exact hcell
    · exact hdecoded pair hpair

theorem isReadable_nil_iff : IsReadable messages ([] : List (Symbol τ ν)) cells ↔
    ∀ cell ∈ cells, cell = [] := by
  constructor
  · exact fun h => h.covered
  · exact fun h => ⟨h, by simp⟩

theorem lastCell?_cons [DecidableEq τ] [DecidableEq ν] (column : Symbol τ ν) :
    lastCell? (column :: columns) (cell :: cells) symbol =
      (lastCell? columns cells symbol).or (if column = symbol ∧ cell ≠ [] then some cell else none) := by
  simp only [lastCell?, List.zip_cons_cons, List.findRev?_eq_find?_reverse, List.reverse_cons,
    List.find?_append, List.find?_singleton]
  cases (columns.zip cells).reverse.find? fun pair => pair.1 = symbol && !pair.2.isEmpty with
  | some pair => rfl
  | none => by_cases h : column = symbol ∧ cell ≠ [] <;> simp_all

theorem mem_zip_of_lastCell? [DecidableEq τ] [DecidableEq ν]
    (h : lastCell? columns cells symbol = some cell) :
    (symbol, cell) ∈ columns.zip cells ∧ cell ≠ [] := by
  rw [lastCell?, List.findRev?_eq_find?_reverse, Option.map_eq_some_iff] at h
  obtain ⟨pair, hfind, rfl⟩ := h
  obtain ⟨rfl, hcell⟩ : pair.1 = symbol ∧ pair.2 ≠ [] := by simpa using List.find?_some hfind
  exact ⟨List.mem_reverse.mp (List.mem_of_find?_eq_some hfind), hcell⟩

/-- If no symbol has two columns, every cell that is not empty is the last under its symbol. -/
theorem lastCell?_of_mem_zip [DecidableEq τ] [DecidableEq ν] (hcolumns : columns.Nodup)
    (h : (symbol, cell) ∈ columns.zip cells) (hcell : cell ≠ []) :
    lastCell? columns cells symbol = some cell := by
  induction columns generalizing cells with
  | nil => simp at h
  | cons column columns ih =>
    cases cells with
    | nil => simp at h
    | cons first cells =>
      obtain ⟨hcolumn, hrest⟩ := List.nodup_cons.mp hcolumns
      rw [lastCell?_cons]
      rcases List.mem_cons.mp h with heq | h
      · obtain ⟨rfl, rfl⟩ := Prod.mk.inj heq
        cases hlast : lastCell? columns cells symbol with
        | none => simp [hcell]
        | some last => exact absurd (List.of_mem_zip (mem_zip_of_lastCell? hlast).1).1 hcolumn
      · rw [ih hrest h]
        rfl

/-- The check of the last cells is one of all cells if no symbol has two columns. -/
theorem staysWithin_iff_of_nodup [DecidableEq τ] [DecidableEq ν] (hcolumns : columns.Nodup)
    {states productions : Nat} : StaysWithin messages columns cells states productions ↔
      EachStaysWithin messages columns cells states productions := by
  constructor
  · intro h pair hpair hcell entry hentry
    exact h pair.1 pair.2 entry (lastCell?_of_mem_zip hcolumns hpair hcell) hentry
  · intro h symbol cell entry hlast hentry
    obtain ⟨hmem, hcell⟩ := mem_zip_of_lastCell? hlast
    exact h (symbol, cell) hmem hcell entry hentry

end Rows

namespace CellCode

theorem ofCell?_eq_accept_iff {cell : List Char} :
    ofCell? cell = some .accept ↔ cell = ['a', 'c', 'c'] := by
  cases cell with
  | nil => simp [ofCell?]
  | cons letter digits =>
    rw [ofCell?]
    split
    · next hword => simpa using hword
    · next hword => simpa using hword

/-- The word for accepting is no letter with a number. -/
theorem ofCell?_eq_numbered_iff {cell : List Char} {letter : Char} {number : Nat} :
    ofCell? cell = some (.numbered letter number) ↔
      ∃ digits, cell = letter :: digits ∧ Number.count? digits = some number := by
  cases cell with
  | nil => simp [ofCell?]
  | cons first digits =>
    rw [ofCell?]
    split
    · next hword =>
      obtain ⟨rfl, rfl⟩ : first = 'a' ∧ digits = ['c', 'c'] := by simpa using hword
      have hcount : Number.count? ['c', 'c'] = none := by decide
      simp [hcount]
    · constructor
      · intro h
        obtain ⟨value, hvalue, ⟨⟩⟩ := Option.map_eq_some_iff.mp h
        exact ⟨digits, rfl, hvalue⟩
      · rintro ⟨_, ⟨⟩, hcount⟩
        rw [hcount]
        rfl

end CellCode

namespace Row

variable [DecidableEq τ] [DecidableEq ν]

/-- No symbol stands twice in the row. -/
structure HasDistinctKeys (row : Row τ ν) : Prop where
  entries : row.entries.keys.Nodup
  gotos : row.gotos.keys.Nodup

/-- What a row says about a symbol. -/
def entryOf? (row : Row τ ν) : Symbol τ ν → Option (Entry τ)
  | .terminal terminal => row.entryFor terminal
  | .nonterminal nonterminal => (row.goto? nonterminal).map .goto

/-- The row says about each symbol what the last cell under it says that is not empty. -/
def Follows (row : Row τ ν) (messages : Messages) (columns : List (Symbol τ ν))
    (cells : List (List Char)) : Prop :=
  ∀ symbol entry, row.entryOf? symbol = some entry ↔
    ∃ cell, lastCell? columns cells symbol = some cell ∧ Decodes messages symbol cell entry

/-- A row stays within some states and productions if all it says does. -/
theorem HasDistinctKeys.isWithin_iff {row : Row τ ν} (hrow : row.HasDistinctKeys)
    {states productions : Nat} :
    row.IsWithin states productions ↔
      ∀ symbol entry, row.entryOf? symbol = some entry → entry.IsWithin states productions := by
  constructor
  · intro h symbol entry hentry
    cases symbol with
    | terminal terminal => exact h.entryFor hentry
    | nonterminal nonterminal =>
      obtain ⟨target, htarget, rfl⟩ := Option.map_eq_some_iff.mp hentry
      exact h.goto?_lt htarget
  · intro h
    constructor
    · intro pair hpair
      exact h (.terminal pair.1) pair.2 (Dictionary.get?_of_mem_pairs hrow.entries hpair)
    · intro pair hpair
      apply h (.nonterminal pair.1) (.goto pair.2)
      rw [entryOf?, goto?, Dictionary.get?_of_mem_pairs hrow.gotos hpair]
      rfl

theorem Follows.isWithin_iff {row : Row τ ν} {messages : Messages} {columns : List (Symbol τ ν)}
    {cells : List (List Char)} (h : row.Follows messages columns cells) (hrow : row.HasDistinctKeys)
    {states productions : Nat} : row.IsWithin states productions ↔
      StaysWithin messages columns cells states productions := by
  rw [hrow.isWithin_iff]
  constructor
  · intro hwithin symbol cell entry hlast hcell
    exact hwithin symbol entry ((h symbol entry).mpr ⟨cell, hlast, hcell⟩)
  · intro hwithin symbol entry hentry
    obtain ⟨cell, hlast, hcell⟩ := (h symbol entry).mp hentry
    exact hwithin symbol cell entry hlast hcell

end Row

namespace RowDraft

variable [DecidableEq τ] [DecidableEq ν]

/-- The draft after something was said about a symbol: under a nonterminal only a target can
be written down. -/
def put (d : RowDraft τ ν) : Symbol τ ν → Entry τ → RowDraft τ ν
  | .terminal terminal, entry => d.set terminal entry
  | .nonterminal nonterminal, .goto target => d.goto nonterminal target
  | .nonterminal _, _ => d

/-- A cell is added if it can be decoded, and adds what it says. -/
theorem addCell_eq_ok_iff {messages : Messages} {label : String} {d d' : RowDraft τ ν}
    {column : Column τ ν} {cell : List Char} :
    d.addCell messages label column cell = .ok d' ↔
      ∃ entry, Decodes messages column.symbol cell entry ∧ d' = d.put column.symbol entry := by
  obtain ⟨symbol, name⟩ := column
  cases symbol with
  | nonterminal nonterminal =>
    constructor
    · intro h
      simp only [addCell] at h
      split at h
      · next target hcount => exact ⟨.goto target, .goto hcount, (Except.ok.inj h).symm⟩
      · cases h
    · rintro ⟨entry, hcell, rfl⟩
      cases hcell with
      | goto hcount => simp [addCell, hcount, put]
  | terminal terminal =>
    constructor
    · intro h
      simp only [addCell] at h
      split at h
      · next hcode =>
        obtain rfl := CellCode.ofCell?_eq_accept_iff.mp hcode
        exact ⟨.accept, .accept, (Except.ok.inj h).symm⟩
      · next state hcode =>
        obtain ⟨digits, rfl, hcount⟩ := CellCode.ofCell?_eq_numbered_iff.mp hcode
        exact ⟨.shift state, .shift hcount, (Except.ok.inj h).symm⟩
      · next production hcode =>
        obtain ⟨digits, rfl, hcount⟩ := CellCode.ofCell?_eq_numbered_iff.mp hcode
        exact ⟨.reduce production, .reduce hcount, (Except.ok.inj h).symm⟩
      · next code hcode =>
        obtain ⟨digits, rfl, hcount⟩ := CellCode.ofCell?_eq_numbered_iff.mp hcode
        split at h
        · next message hmessage =>
          exact ⟨.error message, .error hcount hmessage, (Except.ok.inj h).symm⟩
        · cases h
      · cases h
    · rintro ⟨entry, hcell, rfl⟩
      cases hcell with
      | accept => simp [addCell, CellCode.ofCell?_eq_accept_iff.mpr rfl, put, accept]
      | shift hcount =>
        simp [addCell, CellCode.ofCell?_eq_numbered_iff.mpr ⟨_, rfl, hcount⟩, put, shift]
      | reduce hcount =>
        simp [addCell, CellCode.ofCell?_eq_numbered_iff.mpr ⟨_, rfl, hcount⟩, put, reduce]
      | error hcount hmessage =>
        simp [addCell, CellCode.ofCell?_eq_numbered_iff.mpr ⟨_, rfl, hcount⟩, hmessage, put, error]


/-- What a draft says about a symbol after something was said about it. -/
theorem entryOf?_put_self {messages : Messages} {symbol : Symbol τ ν} {cell : List Char}
    {entry : Entry τ} (h : Decodes messages symbol cell entry) (d : RowDraft τ ν) :
    (d.put symbol entry).row.entryOf? symbol = some entry := by
  cases h <;> simp [put, set, goto, Row.entryOf?, Row.entryFor, Row.goto?]

theorem entryOf?_put_of_ne {symbol other : Symbol τ ν} (hne : other ≠ symbol) (entry : Entry τ)
    (d : RowDraft τ ν) : (d.put symbol entry).row.entryOf? other = d.row.entryOf? other := by
  unfold put
  split
  · cases other with
    | nonterminal _ => rfl
    | terminal _ => exact Dictionary.get?_set_of_ne _ _ (by simpa using hne)
  · cases other with
    | terminal _ => rfl
    | nonterminal _ =>
      rw [Row.entryOf?, Row.goto?, goto, Dictionary.get?_set_of_ne _ _ (by simpa using hne)]
      rfl
  · rfl

theorem hasDistinctKeys_put {d : RowDraft τ ν} (h : d.row.HasDistinctKeys) (symbol : Symbol τ ν)
    (entry : Entry τ) : (d.put symbol entry).row.HasDistinctKeys := by
  unfold put
  split
  · exact ⟨Dictionary.nodup_keys_set h.entries _ _, h.gotos⟩
  · exact ⟨h.entries, Dictionary.nodup_keys_set h.gotos _ _⟩
  · exact h

/-- The cells of a row are added if the row can be read. -/
theorem exists_addCells_iff {messages : Messages} {columns : List (Column τ ν)}
    {cells : List (List Char)} (label : String) (d : RowDraft τ ν) :
    (∃ d', d.addCells messages label columns cells = .ok d') ↔
      IsReadable messages (columns.map Column.symbol) cells := by
  fun_induction addCells messages label d columns cells with
  | case1 d columns =>
    constructor
    · intro _
      constructor <;> simp
    · intro _
      exact ⟨d, rfl⟩
  | case2 d cell cells hempty ih =>
    rw [ih, List.map_nil, isReadable_nil_iff, isReadable_nil_iff, List.forall_mem_cons]
    simp [List.isEmpty_iff.mp hempty]
  | case3 d cell cells hcell =>
    rw [List.map_nil, isReadable_nil_iff, List.forall_mem_cons]
    simp_all
  | case4 d column columns cell cells hempty ih =>
    rw [ih, List.map_cons, isReadable_cons_iff]
    simp [List.isEmpty_iff.mp hempty]
  | case5 d column columns cell cells hcell error hadd =>
    rw [List.map_cons, isReadable_cons_iff]
    constructor
    · rintro ⟨_, hd⟩
      cases hd
    · rintro ⟨hdecodes, _⟩
      obtain ⟨entry, hentry⟩ := hdecodes (by simpa using hcell)
      have hok : d.addCell messages label column cell = .ok (d.put column.symbol entry) :=
        addCell_eq_ok_iff.mpr ⟨entry, hentry, rfl⟩
      rw [hadd] at hok
      cases hok
  | case6 d column columns cell cells hcell next hadd ih =>
    obtain ⟨entry, hentry, -⟩ := addCell_eq_ok_iff.mp hadd
    rw [ih, List.map_cons, isReadable_cons_iff]
    exact ⟨fun h => ⟨fun _ => ⟨entry, hentry⟩, h⟩, And.right⟩

/-- What is written last under a symbol replaces what was said about it before. -/
theorem entryOf?_of_addCells {messages : Messages} {label : String} {columns : List (Column τ ν)}
    {cells : List (List Char)} {d d' : RowDraft τ ν}
    (h : d.addCells messages label columns cells = .ok d') (symbol : Symbol τ ν) :
    match lastCell? (columns.map Column.symbol) cells symbol with
    | some cell => ∃ entry, Decodes messages symbol cell entry ∧ d'.row.entryOf? symbol = some entry
    | none => d'.row.entryOf? symbol = d.row.entryOf? symbol := by
  fun_induction addCells messages label d columns cells with
  | case1 d columns =>
    cases h
    simp [lastCell?]
  | case2 d cell cells hempty ih => exact ih h
  | case3 d cell cells hcell => cases h
  | case4 d column columns cell cells hempty ih =>
    rw [List.map_cons, lastCell?_cons, if_neg (by simp [List.isEmpty_iff.mp hempty]), Option.or_none]
    exact ih h
  | case5 d column columns cell cells hcell error hadd => cases h
  | case6 d column columns cell cells hcell next hadd ih =>
    obtain ⟨entry, hentry, rfl⟩ := addCell_eq_ok_iff.mp hadd
    have hrest := ih h
    rw [List.map_cons, lastCell?_cons]
    cases hlast : lastCell? (columns.map Column.symbol) cells symbol with
    | some last =>
      rw [hlast] at hrest
      exact hrest
    | none =>
      -- Nothing behind the cell is about its symbol, so what it says is kept.
      rw [hlast] at hrest
      dsimp only at hrest
      by_cases hsymbol : column.symbol = symbol
      · subst hsymbol
        rw [if_pos ⟨rfl, by simpa using hcell⟩, Option.none_or]
        exact ⟨entry, hentry, hrest.trans (entryOf?_put_self hentry d)⟩
      · rw [if_neg fun hboth => hsymbol hboth.1, Option.none_or]
        exact hrest.trans (entryOf?_put_of_ne (Ne.symm hsymbol) entry d)

/-- A row that is drafted from cells says what they say. -/
theorem follows_of_addCells {messages : Messages} {label message : String}
    {columns : List (Column τ ν)} {cells : List (List Char)} {d : RowDraft τ ν}
    (h : RowDraft.addCells messages label { message } columns cells = .ok d) :
    d.row.Follows messages (columns.map Column.symbol) cells := by
  intro symbol entry
  have hentry := entryOf?_of_addCells h symbol
  cases hlast : lastCell? (columns.map Column.symbol) cells symbol with
  | none =>
    rw [hlast] at hentry
    have hnone : d.row.entryOf? symbol = none := by
      rw [hentry]
      cases symbol <;> rfl
    simp [hnone]
  | some cell =>
    rw [hlast] at hentry
    obtain ⟨said, hcell, hsaid⟩ := hentry
    rw [hsaid]
    constructor
    · rintro ⟨⟩
      exact ⟨cell, rfl, hcell⟩
    · rintro ⟨_, ⟨⟩, hother⟩
      rw [hcell.unique hother]

/-- A row in which no symbol stands twice is drafted so. -/
theorem hasDistinctKeys_of_addCells {messages : Messages} {label : String}
    {columns : List (Column τ ν)} {cells : List (List Char)} {d d' : RowDraft τ ν}
    (h : d.addCells messages label columns cells = .ok d') (hd : d.row.HasDistinctKeys) :
    d'.row.HasDistinctKeys := by
  fun_induction addCells messages label d columns cells with
  | case1 d columns =>
    cases h
    exact hd
  | case2 d cell cells hempty ih => exact ih h hd
  | case3 d cell cells hcell => cases h
  | case4 d column columns cell cells hempty ih => exact ih h hd
  | case5 d column columns cell cells hcell error hadd => cases h
  | case6 d column columns cell cells hcell next hadd ih =>
    obtain ⟨entry, -, rfl⟩ := addCell_eq_ok_iff.mp hadd
    exact ih h (hasDistinctKeys_put hd column.symbol entry)

end RowDraft

end ShiftReduce
