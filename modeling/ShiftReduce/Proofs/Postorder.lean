import ShiftReduce.Language
import ShiftReduce.Proofs.Jumps
import ShiftReduce.Proofs.Soundness

/-!
The record of a parse that builds syntax trees. It lists the productions that were reduced,
and the trees on the stack list the same reductions once more: a node stands for one, and
in the order of the nodes the children of a node come before it. A table without jumps
keeps the two lists alike, since every value then has a tree, and a reduction puts the
last values of the stack under a node that comes after all the others.
-/
namespace ShiftReduce

namespace SyntaxTree

mutual

/-- The nodes with their children, each node after those below it. -/
def nodes : SyntaxTree → List (String × List SyntaxTree)
  | .leaf _ _ => []
  | .node symbol children => nodesAll children ++ [(symbol, children)]

/-- The nodes of trees, one tree after the other. -/
def nodesAll : List SyntaxTree → List (String × List SyntaxTree)
  | [] => []
  | child :: rest => child.nodes ++ nodesAll rest

end

theorem nodesAll_append (left right : List SyntaxTree) :
    nodesAll (left ++ right) = nodesAll left ++ nodesAll right := by
  induction left with
  | nil => rfl
  | cons child rest ih => rw [List.cons_append, nodesAll, ih, nodesAll, List.append_assoc]

theorem nodesAll_singleton (tree : SyntaxTree) : nodesAll [tree] = tree.nodes := by
  rw [nodesAll, nodesAll, List.append_nil]

/-- The symbol of a node and the number of its children. -/
def shapeOf (node : String × List SyntaxTree) : String × Nat := (node.1, node.2.length)

/-- The trees of values are as many as the values, if none is without a tree. -/
theorem length_filterMap_ofValue? {values : List (StackValue String SyntaxTree)}
    (h : ∀ value ∈ values, (ofValue? value).isSome) :
    (values.filterMap ofValue?).length = values.length :=
  List.filterMap_length_eq_length.mpr h

end SyntaxTree

open SyntaxTree

/-- The left-hand side of a production and the number of symbols on its right-hand side. -/
def Production.shape (production : Production String String) : String × Nat :=
  (production.lhs, production.rhs.length)

namespace Machine

variable {ι σ : Type}

/-- The trees on the stack from the bottom to the top, and then the pending tree. -/
def forest (m : Machine ι σ String String SyntaxTree) : List SyntaxTree :=
  m.values.reverse.filterMap ofValue? ++ (m.pending?.bind Prod.snd).toList

/-- No value is without a tree, and the record lists the nodes of the forest. -/
structure RecordsNodes
    (m : Machine ι (List (Production String String)) String String SyntaxTree) : Prop where
  values : ∀ value ∈ m.values, (ofValue? value).isSome
  pending : ∀ nonterminal tree?, m.pending? = some (nonterminal, tree?) → tree?.isSome
  record : m.memory.reverse.map Production.shape = (nodesAll m.forest).map shapeOf

variable [TokenSupply ι String] {table : Table String String}
  {m m' : Machine ι (List (Production String String)) String String SyntaxTree}

theorem recordsNodes_of_start {supply : ι} (h : start supply [] = .ok m) : m.RecordsNodes := by
  unfold start at h
  split at h
  · simp at h
  · cases h
    exact ⟨by simp, by simp, rfl⟩

/-- A reduction takes trees off the end of the forest and puts a node with them as its
children in their place, so the nodes remain in their order and one is added behind. -/
theorem nodesAll_of_reduce (values : List (StackValue String SyntaxTree)) (arity : Nat)
    (symbol : String) :
    let children := (values.take arity).reverse.filterMap ofValue?
    nodesAll ((values.drop arity).reverse.filterMap ofValue? ++ [.node symbol children]) =
      nodesAll (values.reverse.filterMap ofValue?) ++ [(symbol, children)] := by
  intro children
  have hsplit : values.reverse.filterMap ofValue? =
      (values.drop arity).reverse.filterMap ofValue? ++ children := by
    rw [← List.filterMap_append, ← List.reverse_append, List.take_append_drop]
  rw [hsplit, nodesAll_append, nodesAll_append, nodesAll_singleton, nodes, List.append_assoc]

theorem RecordsNodes.of_move (h : m.RecordsNodes) (htable : table.HasNoJumps)
    (hmove : Move table SyntaxTree.builder m m') : m'.RecordsNodes := by
  obtain ⟨hvalues, hpending, hrecord⟩ := h
  cases hmove with
  | @shift target token supply supply' hnone hoccurs hpeeks hnext =>
    refine ⟨?_, hpending, ?_⟩
    · intro value hvalue
      rcases List.mem_cons.mp hvalue with rfl | hvalue
      · rfl
      · exact hvalues value hvalue
    · have hforest : nodesAll (forest { m with
          supply := supply', token
          states := target :: m.states
          values := .terminal m.token :: m.values }) = nodesAll m.forest := by
        simp [forest, hnone, ofValue?, nodesAll_append, nodesAll_singleton, nodes]
      rw [hforest]
      exact hrecord
  | @reduce index production value? memory supply hnone hoccurs hpeeks hproduction hlength hstates
      hreducer =>
    cases hreducer
    refine ⟨?_, ?_, ?_⟩
    · intro value hvalue
      exact hvalues value (List.mem_of_mem_drop hvalue)
    · rintro nonterminal tree? ⟨⟩
      rfl
    · -- No child is lost, so the node has a child for every symbol of the right-hand side.
      have hchildren : ((m.values.take production.rhs.length).reverse.filterMap ofValue?).length =
          production.rhs.length := by
        rw [length_filterMap_ofValue?, List.length_reverse, List.length_take,
          Nat.min_eq_left hlength]
        intro value hvalue
        exact hvalues value (List.mem_of_mem_take (List.mem_reverse.mp hvalue))
      have hbefore : m.forest = m.values.reverse.filterMap ofValue? := by
        simp [forest, hnone]
      rw [hbefore] at hrecord
      simp only [forest, Option.bind_some, Option.toList_some]
      rw [nodesAll_of_reduce, List.map_append, ← hrecord, List.reverse_cons, List.map_append,
        List.map_singleton, List.map_singleton, Production.shape, shapeOf, hchildren]
  | @goto nonterminal value? target hsome hgoto =>
    have htree : value?.isSome := hpending nonterminal value? hsome
    refine ⟨?_, by simp, ?_⟩
    · intro value hvalue
      rcases List.mem_cons.mp hvalue with rfl | hvalue
      · exact htree
      · exact hvalues value hvalue
    · obtain ⟨tree, rfl⟩ := Option.isSome_iff_exists.mp htree
      have hforest : forest { m with
          states := target :: m.states
          values := .nonterminal (some tree) :: m.values
          pending? := none } = m.forest := by
        simp [forest, hsome, ofValue?]
      rw [hforest]
      exact hrecord
  | jump hnone hoccurs hpeeks => exact absurd hoccurs (htable _ _ _)

theorem Reached.recordsNodes {supply : ι} (h : Reached table SyntaxTree.builder supply [] m)
    (hbuilt : table.IsBuilt) (hjumps : table.HasNoJumps) : m.RecordsNodes := by
  apply h.invariant hbuilt
  · intro m hstart
    exact recordsNodes_of_start hstart
  · intro m m' hm hmove
    exact hm.of_move hjumps hmove

omit [TokenSupply ι String] in
/-- The record and the nodes are equally many, and a production is that of the node in its
place. -/
theorem RecordsNodes.getElem? (h : m.RecordsNodes) :
    m.memory.length = (nodesAll m.forest).length ∧
      ∀ (place : Nat) (production : Production String String) (symbol : String)
        (children : List SyntaxTree), m.memory.reverse[place]? = some production →
        (nodesAll m.forest)[place]? = some (symbol, children) →
        production.lhs = symbol ∧ production.rhs.length = children.length := by
  constructor
  · have hlength := congrArg List.length h.record
    rwa [List.length_map, List.length_reverse, List.length_map] at hlength
  · intro place production symbol children hproduction hnode
    have hplace := congrArg (fun list => list[place]?) h.record
    simp only [List.getElem?_map, hproduction, hnode, Option.map_some, Option.some.injEq] at hplace
    exact Prod.mk.injEq _ _ _ _ ▸ hplace

/-- Tables that are read from text are built and have no jumps. With any such table,
whenever a turn begins, the productions recorded so far are as many as the nodes of the
trees on the stack and of the pending tree, and each of them has the symbol of the node in
its place as its left-hand side and as many symbols on the right as the node has children. -/
theorem recorded_productions_are_postorder :
    (∀ (names : Naming String String) (messages : Messages) (grammar : Grammar String String)
      (text : List Char) (table : Table String String),
      Table.ofText names messages grammar text = .ok table → table.IsBuilt ∧ table.HasNoJumps) ∧
    ∀ (table : Table String String), table.IsBuilt → table.HasNoJumps →
      ∀ (supply : ι) (m : Machine ι (List (Production String String)) String String SyntaxTree),
        Reached table SyntaxTree.builder supply [] m →
        m.memory.length = (nodesAll m.forest).length ∧
        ∀ (place : Nat) (production : Production String String) (symbol : String)
          (children : List SyntaxTree), m.memory.reverse[place]? = some production →
          (nodesAll m.forest)[place]? = some (symbol, children) →
          production.lhs = symbol ∧ production.rhs.length = children.length := by
  constructor
  · intro names messages grammar text table htext
    exact ⟨Table.isBuilt_of_ofText htext, Table.hasNoJumps_of_ofText htext⟩
  · intro table hbuilt hjumps supply m hreached
    exact (hreached.recordsNodes hbuilt hjumps).getElem?

/-- Sequences of one terminal, as the text of a table. -/
def sequenceText : List Char :=
  "\ta\t$\tS\n0\ts1\t\t2\n1\tr1\tr1\n2\ts3\tacc\n3\tr0\tr0\n".toList

/-- The table that the text stands for. -/
def sequenceTable : Table String String :=
  let draft : TableDraft String String := { grammar := repetition.grammar }
  let draft := draft.addRow fun row => (row.shift "a" 1).goto "S" 2
  let draft := draft.addRow fun row => (row.reduce "a" 1).reduce "$" 1
  let draft := draft.addRow fun row => (row.shift "a" 3).accept "$"
  let draft := draft.addRow fun row => (row.reduce "a" 0).reduce "$" 0
  ⟨draft.grammar, draft.rows, .error draft.message⟩

/-- When two terminals have been reduced and the tree for both waits to be entered, the
second production recorded is that of the outer node. -/
theorem recorded_productions_are_postorder_sequence :
    Table.ofText .byCapitals {} repetition.grammar sequenceText = .ok sequenceTable ∧
      ∃ m, Reached sequenceTable SyntaxTree.builder
          (sequenceTable.blueprint.build (.text ['a', ' ', 'a'])) [] m ∧
        m.memory.reverse = [⟨"S", [.terminal "a"]⟩, ⟨"S", [.nonterminal "S", .terminal "a"]⟩] ∧
        (nodesAll m.forest).length = 2 ∧
        ∀ symbol children, (nodesAll m.forest)[1]? = some (symbol, children) →
          symbol = "S" ∧ children.length = 2 := by
  have htext : Table.ofText .byCapitals {} repetition.grammar sequenceText = .ok sequenceTable := rfl
  obtain ⟨m, hreached, hmemory⟩ : ∃ m, Reached sequenceTable SyntaxTree.builder
      (sequenceTable.blueprint.build (.text ['a', ' ', 'a'])) [] m ∧
        m.memory = [⟨"S", [.nonterminal "S", .terminal "a"]⟩, ⟨"S", [.terminal "a"]⟩] := by
    exact ⟨_, .step (.step (.step (.step (.step (.start (by with_unfolding_all rfl))
      (by with_unfolding_all rfl)) (by with_unfolding_all rfl)) (by with_unfolding_all rfl))
      (by with_unfolding_all rfl)) (by with_unfolding_all rfl), by with_unfolding_all rfl⟩
  obtain ⟨hread, hrecorded⟩ := recorded_productions_are_postorder
    (ι := Tokenizer (Recognizer String (NoCustom String)) String)
  obtain ⟨hbuilt, hjumps⟩ := hread _ _ _ _ _ htext
  obtain ⟨hlength, hplace⟩ := hrecorded _ hbuilt hjumps _ m hreached
  refine ⟨htext, m, hreached, by rw [hmemory]; rfl, by rw [← hlength, hmemory]; rfl, ?_⟩
  intro symbol children hnode
  obtain ⟨hsymbol, hchildren⟩ := hplace 1 ⟨"S", [.nonterminal "S", .terminal "a"]⟩ symbol children
    (by rw [hmemory]; rfl) hnode
  exact ⟨hsymbol.symm, hchildren.symm⟩

end Machine

end ShiftReduce
