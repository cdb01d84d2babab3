import ShiftReduce.Proofs.Frontier

/-!
Accepted trees are derivations. A table is consistent with a label for every state if
its transitions lead to states with the label of their symbol, and every path to a
state that reduces ends with the symbols of the right-hand side. Then the labels of the
states on the stack are the symbols of the trees beside them, so every node is made
from a production, and the tree of an accepted parse derives the tokens that were taken
before the parse ended.
-/
namespace ShiftReduce

namespace SyntaxTree

/-- The symbol that a tree stands for. -/
def symbol : SyntaxTree → Symbol String String
  | .leaf kind _ => .terminal kind
  | .node symbol _ => .nonterminal symbol

/-- The children of every node spell a right-hand side of its symbol. -/
inductive Derives (grammar : Grammar String String) : SyntaxTree → Prop
  | leaf (kind text : String) : Derives grammar (.leaf kind text)
  | node {lhs : String} {children : List SyntaxTree}
      (hproduction : ⟨lhs, children.map symbol⟩ ∈ grammar.productions)
      (hchildren : ∀ child ∈ children, Derives grammar child) : Derives grammar (.node lhs children)

/-- The symbol of what was found, if there is a tree for it. -/
def symbolOf? (value : StackValue String SyntaxTree) : Option (Symbol String String) :=
  (ofValue? value).map symbol

theorem map_symbol_filterMap {values : List (StackValue String SyntaxTree)}
    {symbols : List (Symbol String String)} (h : values.map symbolOf? = symbols.map some) :
    (values.filterMap ofValue?).map symbol = symbols := by
  have hsymbols : (values.map symbolOf?).filterMap id = symbols := by
    rw [h, List.filterMap_map]
    exact List.filterMap_some
  rw [List.filterMap_map] at hsymbols
  rw [List.map_filterMap, ← hsymbols]
  rfl

end SyntaxTree

namespace Table

variable {τ ν : Type} [DecidableEq τ] [DecidableEq ν]

/-- The state is reached from state zero through the states entered, the last of them
first. -/
inductive Path (table : Table τ ν) : Nat → List Nat → Prop
  | start : Path table 0 []
  | shift {state target : Nat} {entered : List Nat} {terminal : τ} (h : Path table state entered)
      (hoccurs : table.Occurs state terminal (.shift target)) :
      Path table target (target :: entered)
  | goto {state target : Nat} {entered : List Nat} {nonterminal : ν} (h : Path table state entered)
      (hgoto : table.HasGoto state nonterminal target) :
      Path table target (target :: entered)

/-- The labels are the symbols on which the states are entered. The paths to a state
that reduces end with the right-hand side, and those to a state that accepts enter just
this state, on a nonterminal. -/
structure IsConsistent (table : Table τ ν) (label : Nat → Symbol τ ν) : Prop where
  shift_label : ∀ {state terminal target}, table.Occurs state terminal (.shift target) →
    label target = .terminal terminal
  goto_label : ∀ {state nonterminal target}, table.HasGoto state nonterminal target →
    label target = .nonterminal nonterminal
  not_goto : ∀ {state terminal target}, ¬ table.Occurs state terminal (.goto target)
  reduce_path : ∀ {state terminal index production entered},
    table.Occurs state terminal (.reduce index) →
    table.grammar.production? index = some production → table.Path state entered →
    ((entered.take production.rhs.length).map label).reverse = production.rhs
  accept_path : ∀ {state terminal entered}, table.Occurs state terminal .accept →
    table.Path state entered → entered.length = 1
  accept_label : ∀ {state terminal}, table.Occurs state terminal .accept →
    ∃ nonterminal, label state = .nonterminal nonterminal

/-- All actions of a table, each with its state and terminal. -/
def actions (table : Table τ ν) : List (Nat × τ × Entry τ) :=
  table.rows.zipIdx.flatMap fun (row, state) =>
    row.entries.pairs.flatMap fun (terminal, entry) =>
      entry.leaves.map fun action => (state, terminal, action)

/-- All targets of nonterminals, each with its state and nonterminal. -/
def gotos (table : Table τ ν) : List (Nat × ν × Nat) :=
  table.rows.zipIdx.flatMap fun (row, state) =>
    row.gotos.pairs.map fun (nonterminal, target) => (state, nonterminal, target)

variable {table : Table τ ν} {state : Nat} {entered : List Nat}

omit [DecidableEq ν] in
theorem Occurs.mem_actions {terminal : τ} {action : Entry τ}
    (h : table.Occurs state terminal action) : (state, terminal, action) ∈ table.actions := by
  obtain ⟨row, entry, hrow, hentry, hleaf⟩ := h
  have hpair : (terminal, entry) ∈ row.entries.pairs := Dictionary.mem_pairs_of_get? hentry
  refine List.mem_flatMap.mpr ⟨(row, state), List.mem_zipIdx_iff_getElem?.mpr hrow, ?_⟩
  exact List.mem_flatMap.mpr ⟨_, hpair, List.mem_map.mpr ⟨action, hleaf, rfl⟩⟩

omit [DecidableEq τ] in
theorem HasGoto.mem_gotos {nonterminal : ν} {target : Nat}
    (h : table.HasGoto state nonterminal target) : (state, nonterminal, target) ∈ table.gotos := by
  obtain ⟨row, hrow, hgoto⟩ := h
  have hpair : (nonterminal, target) ∈ row.gotos.pairs := Dictionary.mem_pairs_of_get? hgoto
  refine List.mem_flatMap.mpr ⟨(row, state), List.mem_zipIdx_iff_getElem?.mpr hrow, ?_⟩
  exact List.mem_map.mpr ⟨_, hpair, rfl⟩

theorem Path.exists_drop (h : table.Path state entered) (count : Nat) :
    ∃ earlier, table.Path earlier (entered.drop count) := by
  induction h generalizing count with
  | start =>
    rw [List.drop_nil]
    exact ⟨0, .start⟩
  | shift h hoccurs ih =>
    cases count with
    | zero => exact ⟨_, h.shift hoccurs⟩
    | succ count => exact ih count
  | goto h hgoto ih =>
    cases count with
    | zero => exact ⟨_, h.goto hgoto⟩
    | succ count => exact ih count

theorem Path.headD_eq (h : table.Path state entered) : (entered ++ [0]).headD 0 = state := by
  cases h with
  | start => rfl
  | shift h hoccurs => rfl
  | goto h hgoto => rfl

end Table

open SyntaxTree

namespace Machine

variable {ι σ : Type}

/-- The states on the stack are a path, their labels are the symbols of the trees beside
them, and all trees are derivations; a pending tree is one of its nonterminal. -/
structure IsSound (table : Table String String) (label : Nat → Symbol String String)
    (m : Machine ι σ String String SyntaxTree) : Prop where
  path : ∃ entered, m.states = entered ++ [0] ∧ table.Path m.current entered ∧
    m.values.map symbolOf? = (entered.map label).map some
  values : ∀ value ∈ m.values, ∀ tree, ofValue? value = some tree → tree.Derives table.grammar
  pending : ∀ nonterminal tree?, m.pending? = some (nonterminal, tree?) →
    ∃ children, tree? = some (.node nonterminal children) ∧
      (SyntaxTree.node nonterminal children).Derives table.grammar

variable {table : Table String String} {label : Nat → Symbol String String}

theorem isSound_of_start [TokenSupply ι String] {supply : ι} {memory : σ}
    {m : Machine ι σ String String SyntaxTree} (h : start supply memory = .ok m) :
    m.IsSound table label := by
  unfold start at h
  split at h
  · simp at h
  · cases h
    exact ⟨⟨[], rfl, .start, rfl⟩, by simp, by simp⟩

variable [TokenSupply ι String]
  {m m' : Machine ι (List (Production String String)) String String SyntaxTree}

theorem IsSound.of_move (h : m.IsSound table label) (htable : table.IsConsistent label)
    (hmove : Move table SyntaxTree.builder m m') : m'.IsSound table label := by
  obtain ⟨⟨entered, hstates, hpath, hsymbols⟩, hvalues, hpending⟩ := h
  cases hmove with
  | @shift target token supply supply' hnone hoccurs hpeeks hnext =>
    refine ⟨⟨target :: entered, ?_, hpath.shift hoccurs, ?_⟩, ?_, ?_⟩
    · simp [hstates]
    · simp [hsymbols, symbolOf?, ofValue?, symbol, htable.shift_label hoccurs]
    · intro value hvalue tree htree
      rcases List.mem_cons.mp hvalue with rfl | hvalue
      · cases htree
        exact .leaf _ _
      · exact hvalues value hvalue tree htree
    · exact hpending
  | @reduce index production value? memory supply hnone hoccurs hpeeks hproduction hlength hstack
      hreducer =>
    -- The states that remain are a path again; those that go spell the right-hand side.
    obtain ⟨earlier, hearlier⟩ := hpath.exists_drop production.rhs.length
    have hentered : production.rhs.length ≤ entered.length := by
      rw [hstates, List.length_append, List.length_singleton] at hstack
      omega
    have hdrop : m.states.drop production.rhs.length =
        entered.drop production.rhs.length ++ [0] := by
      rw [hstates, List.drop_append_of_le_length hentered]
    refine ⟨⟨entered.drop production.rhs.length, hdrop, ?_, ?_⟩, ?_, ?_⟩
    · simp only [current, hdrop, hearlier.headD_eq]
      exact hearlier
    · simp only [List.map_drop, hsymbols]
    · intro value hvalue
      exact hvalues value (List.mem_of_mem_drop hvalue)
    · rintro nonterminal tree? ⟨⟩
      cases hreducer
      refine ⟨_, rfl, .node ?_ ?_⟩
      · have hspelled : (m.values.take production.rhs.length).reverse.map symbolOf? =
            (((entered.take production.rhs.length).map label).reverse).map some := by
          rw [List.map_reverse, List.map_take, hsymbols, List.map_reverse, List.map_take,
            List.map_take]
        rw [map_symbol_filterMap hspelled, htable.reduce_path hoccurs hproduction hpath]
        exact List.mem_of_getElem? hproduction
      · intro child hchild
        obtain ⟨value, hvalue, htree⟩ := List.mem_filterMap.mp hchild
        exact hvalues value (List.mem_of_mem_take (List.mem_reverse.mp hvalue)) child htree
  | @goto nonterminal value? target hsome hgoto =>
    obtain ⟨children, rfl, hderives⟩ := hpending _ _ hsome
    refine ⟨⟨target :: entered, ?_, hpath.goto hgoto, ?_⟩, ?_, ?_⟩
    · simp [hstates]
    · simp [hsymbols, symbolOf?, ofValue?, symbol, htable.goto_label hgoto]
    · intro value hvalue tree htree
      rcases List.mem_cons.mp hvalue with rfl | hvalue
      · cases htree
        exact hderives
      · exact hvalues value hvalue tree htree
    · simp
  | jump hnone hoccurs hpeeks => exact absurd hoccurs htable.not_goto

omit [TokenSupply ι String] in
/-- In a sound machine that accepts, the value on top of the stack is the only one, and
it is a derivation. -/
theorem IsSound.exists_values_eq {terminal : String} (h : m.IsSound table label)
    (htable : table.IsConsistent label) (hoccurs : table.Occurs m.current terminal .accept) :
    ∃ symbol children, label m.current = .nonterminal symbol ∧
      m.values = [.nonterminal (some (.node symbol children))] ∧
      (SyntaxTree.node symbol children).Derives table.grammar := by
  obtain ⟨⟨entered, hstates, hpath, hsymbols⟩, hvalues, -⟩ := h
  obtain ⟨symbol, hlabel⟩ := htable.accept_label hoccurs
  obtain ⟨top, rfl⟩ := List.length_eq_one_iff.mp (htable.accept_path hoccurs hpath)
  have htop : m.current = top := by simp [current, hstates]
  rw [htop] at hlabel
  obtain ⟨value, hvalue⟩ : ∃ value, m.values = [value] := by
    have hlength := congrArg List.length hsymbols
    simp only [List.length_map, List.length_singleton] at hlength
    exact List.length_eq_one_iff.mp hlength
  simp only [hvalue, List.map_cons, List.map_nil, List.cons.injEq, hlabel, and_true] at hsymbols
  obtain ⟨tree, htree, hsymbol⟩ := Option.map_eq_some_iff.mp hsymbols
  cases tree with
  | leaf kind text => simp [SyntaxTree.symbol] at hsymbol
  | node lhs children =>
    simp only [SyntaxTree.symbol, Symbol.nonterminal.injEq] at hsymbol
    subst hsymbol
    refine ⟨lhs, children, by rw [htop, hlabel], ?_, hvalues value (by simp [hvalue]) _ htree⟩
    cases value with
    | terminal token => simp [ofValue?] at htree
    | nonterminal tree? =>
      simp only [ofValue?] at htree
      rw [hvalue, htree]

end Machine

/-- The tree of an accepted parse is a derivation from the symbol of the state that
accepts, and its leaves are the tokens taken from the supply before the current one. -/
theorem accepted_tree_derives_tokens {ι : Type} [TokenSupply ι String]
    {table : Table String String} (hbuilt : table.IsBuilt) {label : Nat → Symbol String String}
    (hconsistent : table.IsConsistent label) {supply : ι} {limit : Nat} {tree? : Option SyntaxTree}
    {record : List (Production String String)}
    (h : parse table SyntaxTree.builder limit supply [] = some (.accepted tree?, record)) :
    ∃ last symbol children shifted,
      Machine.Reached table SyntaxTree.builder (⟨supply, []⟩ : Recorder ι String) [] last ∧
      last.step table SyntaxTree.builder = .ends (.accepted tree?) record ∧
      last.supply.taken = shifted ++ [last.token] ∧
      label last.current = .nonterminal symbol ∧
      tree? = some (.node symbol children) ∧
      (SyntaxTree.node symbol children).Derives table.grammar ∧
      (SyntaxTree.node symbol children).leaves = shifted.map Machine.leafOf := by
  have hsupply : (⟨supply, []⟩ : Recorder ι String).supply = supply := rfl
  rw [parse_eq_of_simulates Recorder.simulates table SyntaxTree.builder limit hsupply []] at h
  obtain ⟨last, hreached, hlast⟩ := Machine.exists_reached_of_parse h
  obtain ⟨hnone, hoccurs, hvalue, -⟩ := Machine.accept_of_step hbuilt hlast
  have hsound : last.IsSound table label := by
    apply hreached.invariant hbuilt
    · intro m hstart
      exact Machine.isSound_of_start hstart
    · intro m m' hm hmove
      exact hm.of_move hconsistent hmove
  obtain ⟨symbol, children, hlabel, hvalues, hderives⟩ :=
    hsound.exists_values_eq hconsistent hoccurs
  obtain ⟨shifted, htaken, hfrontier⟩ := hreached.keepsTokens hbuilt
  refine ⟨last, symbol, children, shifted, hreached, hlast, htaken, hlabel, ?_, hderives, ?_⟩
  · rw [hvalue, hvalues]
    rfl
  · rw [← hfrontier, Machine.frontier, hnone, hvalues]
    simp [leavesOf, ofValue?, leavesAll]

/-- A list of tokens as a supply, with the end of the input behind it. -/
structure TokenList where
  tokens : List (Token String)

namespace TokenList

/-- The first token. -/
def head (list : TokenList) : Token String := list.tokens.headD (Token.endOfInput "$")

instance : TokenSupply TokenList String where
  next _ list := (.ok list.head, ⟨list.tokens.tail⟩)
  peek _ list := (.ok list.head, list)

end TokenList

/-- Sequences of one terminal, with a look at the token behind the first. -/
def repetition : TableDraft String String :=
  let draft : TableDraft String String :=
    { grammar := ⟨[⟨"S", [.nonterminal "S", .terminal "a"]⟩, ⟨"S", [.terminal "a"]⟩]⟩ }
  let draft := draft.addRow fun row => (row.shift "a" 1).goto "S" 2
  let draft := draft.addRow fun row => ((row.reduce "$" 1).reduce "a" 1).reduceIf "a" "$" 1
  let draft := draft.addRow fun row => (row.shift "a" 3).accept "$"
  draft.addRow fun row => (row.reduce "a" 0).reduce "$" 0

/-- The table of the draft. -/
def repetitionTable : Table String String :=
  ⟨repetition.grammar, repetition.rows, .error repetition.message⟩

/-- The symbols on which its states are entered. -/
def repetitionLabel : Nat → Symbol String String
  | 2 => .nonterminal "S"
  | _ => .terminal "a"

theorem actions_repetitionTable : repetitionTable.actions =
    [(0, "a", .shift 1), (1, "a", .reduce 1), (1, "a", .reduce 1), (1, "$", .reduce 1),
      (2, "$", .accept), (2, "a", .shift 3), (3, "$", .reduce 0), (3, "a", .reduce 0)] := by decide

theorem gotos_repetitionTable : repetitionTable.gotos = [(0, "S", 2)] := by decide

theorem shift_repetitionTable {state target : Nat} {terminal : String}
    (h : repetitionTable.Occurs state terminal (.shift target)) :
    terminal = "a" ∧ (state = 0 ∧ target = 1 ∨ state = 2 ∧ target = 3) := by
  have haction := h.mem_actions
  simp [actions_repetitionTable] at haction
  grind

theorem reduce_repetitionTable {state index : Nat} {terminal : String}
    (h : repetitionTable.Occurs state terminal (.reduce index)) :
    state = 1 ∧ index = 1 ∨ state = 3 ∧ index = 0 := by
  have haction := h.mem_actions
  simp [actions_repetitionTable] at haction
  grind

theorem goto_repetitionTable {state target : Nat} {nonterminal : String}
    (h : repetitionTable.HasGoto state nonterminal target) :
    nonterminal = "S" ∧ state = 0 ∧ target = 2 := by
  have htarget := h.mem_gotos
  simp [gotos_repetitionTable] at htarget
  grind

theorem path_repetitionTable {state : Nat} {entered : List Nat}
    (h : repetitionTable.Path state entered) :
    (state, entered) ∈ [(0, []), (1, [1]), (2, [2]), (3, [3, 2])] := by
  induction h with
  | start => simp
  | shift _ hoccurs ih =>
    obtain ⟨-, ⟨rfl, rfl⟩ | ⟨rfl, rfl⟩⟩ := shift_repetitionTable hoccurs
    · simpa using ih
    · simpa using ih
  | goto _ hgoto ih =>
    obtain ⟨-, rfl, rfl⟩ := goto_repetitionTable hgoto
    simpa using ih

theorem isConsistent_repetitionTable : repetitionTable.IsConsistent repetitionLabel where
  shift_label hoccurs := by
    obtain ⟨rfl, ⟨-, rfl⟩ | ⟨-, rfl⟩⟩ := shift_repetitionTable hoccurs
    · rfl
    · rfl
  goto_label hgoto := by
    obtain ⟨rfl, -, rfl⟩ := goto_repetitionTable hgoto
    rfl
  not_goto hoccurs := by
    have haction := hoccurs.mem_actions
    simp [actions_repetitionTable] at haction
  reduce_path hoccurs hproduction hpath := by
    have hentered := path_repetitionTable hpath
    rcases reduce_repetitionTable hoccurs with ⟨rfl, rfl⟩ | ⟨rfl, rfl⟩
    all_goals
      cases hproduction
      simp at hentered
      subst hentered
      rfl
  accept_path hoccurs hpath := by
    have haction := hoccurs.mem_actions
    have hentered := path_repetitionTable hpath
    simp [actions_repetitionTable] at haction
    obtain ⟨rfl, -⟩ := haction
    simp at hentered
    rw [hentered]
    rfl
  accept_label hoccurs := by
    have haction := hoccurs.mem_actions
    simp [actions_repetitionTable] at haction
    obtain ⟨rfl, -⟩ := haction
    exact ⟨"S", rfl⟩

/-- Two tokens are put into the tree on the left. -/
theorem accepted_tree_derives_repetition :
    repetitionTable.IsBuilt ∧ repetitionTable.IsConsistent repetitionLabel ∧
      ∃ children, (SyntaxTree.node "S" children).Derives repetitionTable.grammar ∧
        (SyntaxTree.node "S" children).leaves = [("a", "a"), ("a", "a")] := by
  have hbuilt : repetitionTable.IsBuilt := ⟨repetition, rfl⟩
  have hparse : parse repetitionTable SyntaxTree.builder 10
      (⟨[Token.ofText "a" "a" none, Token.ofText "a" "a" none]⟩ : TokenList) [] =
        some (.accepted (some (.node "S" [.node "S" [.leaf "a" "a"], .leaf "a" "a"])),
          [⟨"S", [.nonterminal "S", .terminal "a"]⟩, ⟨"S", [.terminal "a"]⟩]) := rfl
  obtain ⟨last, symbol, children, shifted, -, -, -, -, htree, hderives, -⟩ :=
    accepted_tree_derives_tokens hbuilt isConsistent_repetitionTable hparse
  cases htree
  exact ⟨hbuilt, isConsistent_repetitionTable, _, hderives, rfl⟩

end ShiftReduce
