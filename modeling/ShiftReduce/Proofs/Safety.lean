import ShiftReduce.Proofs.Closed
import ShiftReduce.Proofs.Sessions
import ShiftReduce.Proofs.Soundness

/-!
Safety of runs. Over a table that was built, the stack of states is always one longer than
the stack of values, state zero is at its bottom, and every state on it has a row. So no
row and no production is ever missing, a reduction takes from both stacks no more than
they hold, and a session reports nothing before it is over: it is broken off, or accepts
without a diagnostic, or gives one diagnostic and no value.
-/
namespace ShiftReduce

variable {ι σ τ ν α : Type}

namespace Machine

/-- There is a state below every value and one more, which is state zero, and all of them
have rows. -/
structure IsSafe (table : Table τ ν) (m : Machine ι σ τ ν α) : Prop where
  length_states : m.states.length = m.values.length + 1
  bottom : m.states.getLast? = some 0
  rows : ∀ state ∈ m.states, ∃ row, table.row? state = some row

variable {table : Table τ ν} {m m' : Machine ι σ τ ν α}

theorem IsSafe.exists_row_current (h : m.IsSafe table) : ∃ row, table.row? m.current = some row := by
  apply h.rows
  cases hstates : m.states with
  | nil =>
    have hlength := h.length_states
    simp [hstates] at hlength
  | cons top rest => simp [current, hstates]

/-- A state with a row and a value may be put on the stacks. -/
theorem IsSafe.push (h : m.IsSafe table) {target : Nat} {value : StackValue τ α}
    (hrow : ∃ row, table.row? target = some row) (hstates : m'.states = target :: m.states)
    (hvalues : m'.values = value :: m.values) : m'.IsSafe table where
  length_states := by rw [hstates, hvalues, List.length_cons, List.length_cons, h.length_states]
  bottom := by rw [hstates, List.getLast?_cons, h.bottom, Option.getD_some]
  rows state hstate := by
    rw [hstates] at hstate
    rcases List.mem_cons.mp hstate with rfl | hstate
    · exact hrow
    · exact h.rows state hstate

/-- As many states and values may be taken off as there are values. -/
theorem IsSafe.drop (h : m.IsSafe table) {count : Nat} (hcount : count ≤ m.values.length)
    (hstates : m'.states = m.states.drop count) (hvalues : m'.values = m.values.drop count) :
    m'.IsSafe table where
  length_states := by
    have hlength := h.length_states
    rw [hstates, hvalues, List.length_drop, List.length_drop]
    omega
  bottom := by
    have hlength := h.length_states
    have hleft : ¬ m.states.length ≤ count := by omega
    rw [hstates, List.getLast?_drop, if_neg hleft, h.bottom]
  rows state hstate := by
    rw [hstates] at hstate
    exact h.rows state (List.mem_of_mem_drop hstate)

variable [TokenSupply ι τ]

theorem isSafe_of_start (htable : table.IsClosed) {supply : ι} {memory : σ}
    (h : start supply memory = .ok m) : m.IsSafe table := by
  unfold start at h
  split at h
  · simp at h
  · cases h
    refine ⟨rfl, rfl, ?_⟩
    intro state hstate
    obtain rfl := List.mem_singleton.mp hstate
    exact htable.exists_row_zero

variable [DecidableEq τ] [DecidableEq ν] {reducer : Reducer σ τ ν α}

theorem IsSafe.of_move (h : m.IsSafe table) (htable : table.IsClosed)
    (hmove : Move table reducer m m') : m'.IsSafe table := by
  cases hmove with
  | shift hpending hoccurs hpeeks hnext =>
    exact h.push (htable.exists_row_of_occurs (Or.inl hoccurs)) rfl rfl
  | reduce hpending hoccurs hpeeks hproduction hvalues hstates hreducer =>
    exact h.drop hvalues rfl rfl
  | goto hpending hgoto => exact h.push (htable.exists_row_of_hasGoto hgoto) rfl rfl
  | jump hpending hoccurs hpeeks =>
    exact h.push (htable.exists_row_of_occurs (Or.inr hoccurs)) rfl rfl

omit [TokenSupply ι τ] in
/-- A production that the entry of a turn may reduce by exists. -/
theorem exists_production_of_mem_leaves (htable : table.IsBuilt) {index : Nat}
    (h : .reduce index ∈ (m.entry table).leaves) :
    ∃ production, table.grammar.production? index = some production := by
  rcases entry_cases table m with ⟨_, _, target, -, -, hentry⟩ | hdefault | ⟨-, row, hrow, hfor⟩
  · simp [hentry, Entry.leaves] at h
  · obtain ⟨message, herror⟩ := htable.exists_defaultEntry
    simp [hdefault, herror, Entry.leaves] at h
  · exact htable.isClosed.exists_production_of_occurs ⟨row, _, hrow, hfor, h⟩

variable [ToString τ] [ToString ν]

theorem Reached.isSafe {supply : ι} {memory : σ} (h : Reached table reducer supply memory m)
    (htable : table.IsBuilt) : m.IsSafe table := by
  apply h.invariant htable
  · intro m hstart
    exact isSafe_of_start htable.isClosed hstart
  · intro m m' hm hmove
    exact hm.of_move htable.isClosed hmove

end Machine

namespace Session

variable [TokenSupply ι τ] [DecidableEq τ] [DecidableEq ν] [ToString τ] [ToString ν]

/-- Over a table that was built, whenever a turn begins the stacks are safe and there is
nothing to report, the current state has a row, and a production that may be reduced by
exists and is either reported to be longer than the stacks or found on both of them. When
the parse ends, it was broken off by an error, or it was accepted and reports no
diagnostic, or it was rejected and reports one diagnostic and no value. -/
theorem run_is_safe {table : Table τ ν} (htable : table.IsBuilt) (reducer : Reducer σ τ ν α)
    (supply : ι) (memory : σ) :
    (∀ s : Session ι σ τ ν α, Reached table reducer supply memory s →
      s.machine.states.length = s.machine.values.length + 1 ∧
      s.machine.states.getLast? = some 0 ∧
      (∀ state ∈ s.machine.states, ∃ row, table.row? state = some row) ∧
      s.diagnostics = [] ∧ s.value? = none ∧
      (∃ row, table.row? s.machine.current = some row) ∧
      ∀ index, .reduce index ∈ (s.machine.entry table).leaves →
        ∃ production, table.grammar.production? index = some production ∧
          (s.reduce table reducer index = (true, s.fail (underflow production)) ∨
            production.rhs.length ≤ s.machine.values.length ∧
              production.rhs.length < s.machine.states.length)) ∧
    ∀ limit outcome memory',
      parse table reducer limit supply memory = some (outcome, memory') →
        ∃ ending, ShiftReduce.parse table reducer limit supply memory = some (ending, memory') ∧
          ((∃ error, ending = .broken error ∧ outcome = .error error) ∨
            (∃ value?, ending = .accepted value? ∧ outcome = .ok ⟨value?, []⟩) ∨
            ∃ diagnostic, ending = .rejected diagnostic ∧ outcome = .ok ⟨none, [diagnostic]⟩) := by
  constructor
  · intro s hs
    obtain ⟨m, rfl, hm⟩ := hs.exists_machine
    have hsafe := hm.isSafe htable
    refine ⟨hsafe.length_states, hsafe.bottom, hsafe.rows, rfl, rfl, hsafe.exists_row_current, ?_⟩
    intro index hindex
    obtain ⟨production, hproduction⟩ := Machine.exists_production_of_mem_leaves htable hindex
    refine ⟨production, hproduction, ?_⟩
    by_cases harity : m.values.length < production.rhs.length ∨
        m.states.length ≤ production.rhs.length
    · left
      simp only [reduce, hproduction, ofMachine, harity, if_true]
    · right
      simp only [ofMachine]
      omega
  · intro limit outcome memory' hparse
    rw [parse_eq, Option.map_eq_some_iff] at hparse
    obtain ⟨⟨ending, memory''⟩, hending, heq⟩ := hparse
    obtain ⟨rfl, rfl⟩ := Prod.mk.inj heq
    refine ⟨ending, hending, ?_⟩
    cases ending with
    | broken error => exact Or.inl ⟨error, rfl, rfl⟩
    | accepted value? => exact Or.inr (Or.inl ⟨value?, rfl, rfl⟩)
    | rejected diagnostic => exact Or.inr (Or.inr ⟨diagnostic, rfl, rfl⟩)

/-- A terminal of the table, and one that it does not know. -/
def strangerBehind : TokenList := ⟨[Token.ofText "a" "a" none, Token.ofText "b" "b" none]⟩

/-- The first token is entered, and the second one is the only diagnostic. -/
theorem run_is_safe_strangerBehind :
    repetitionTable.IsBuilt ∧
      (∃ s, Reached repetitionTable SyntaxTree.builder strangerBehind [] s ∧
        s.machine.states = [1, 0] ∧ s.machine.values.length = 1 ∧ s.diagnostics = []) ∧
      ∃ diagnostic, parse repetitionTable SyntaxTree.builder 2 strangerBehind [] =
        some (.ok ⟨none, [diagnostic]⟩, []) := by
  have hbuilt : repetitionTable.IsBuilt := ⟨repetition, rfl⟩
  obtain ⟨hreached, hends⟩ := run_is_safe hbuilt SyntaxTree.builder strangerBehind []
  refine ⟨hbuilt, ?_, ?_⟩
  · obtain ⟨s, hs, hstates⟩ : ∃ s, Reached repetitionTable SyntaxTree.builder strangerBehind [] s ∧
        s.machine.states = [1, 0] := ⟨_, .step (.start rfl) rfl, rfl⟩
    obtain ⟨hlength, -, -, hnone, -⟩ := hreached s hs
    rw [hstates] at hlength
    exact ⟨s, hs, hstates, (Nat.succ.inj hlength).symm, hnone⟩
  · have hparse : parse repetitionTable SyntaxTree.builder 2 strangerBehind [] =
        some (.ok ⟨none, [defaultMessage]⟩, []) := rfl
    obtain ⟨ending, -, ⟨error, -, heq⟩ | ⟨value?, -, heq⟩ | ⟨diagnostic, -, heq⟩⟩ :=
      hends _ _ _ hparse
    · simp at heq
    · simp at heq
    · exact ⟨diagnostic, hparse.trans (by rw [heq])⟩

end Session

end ShiftReduce
