import ShiftReduce.Parse.Machine

/-!
What one turn of the machine can do. An entry is first resolved: tokens are looked at
until an action without a branch is found, and that action occurs in the table for the
state and the current token. A turn after which the parse goes on then does one of four
things, and a turn that accepts changes nothing. All that is said about runs is proved
from these cases.
-/
namespace ShiftReduce

variable {ι σ τ ν α : Type}

/-- Some tokens of a supply are looked at, all of them in the same context. -/
inductive Peeks [TokenSupply ι τ] (context : Context) : ι → ι → Prop
  | refl (supply : ι) : Peeks context supply supply
  | peek {supply supply' supply'' : ι} {token : Token τ}
      (hpeek : TokenSupply.peek context supply = (.ok token, supply'))
      (hrest : Peeks context supply' supply'') : Peeks context supply supply''

namespace Entry

/-- The actions that an entry can come to, at any depth of branching. -/
def leaves : Entry τ → List (Entry τ)
  | .branch _ ifEqual otherwise => ifEqual.leaves ++ otherwise.leaves
  | .shift target => [.shift target]
  | .reduce index => [.reduce index]
  | .goto target => [.goto target]
  | .accept => [.accept]
  | .error message => [.error message]

theorem ne_branch_of_mem_leaves {entry leaf : Entry τ} (h : leaf ∈ entry.leaves) (lookahead : τ)
    (ifEqual otherwise : Entry τ) : leaf ≠ .branch lookahead ifEqual otherwise := by
  induction entry with
  | branch _ _ _ ihEqual ihOtherwise =>
    rcases List.mem_append.mp h with h | h
    · exact ihEqual h
    · exact ihOtherwise h
  | _ => simp [List.mem_singleton.mp h]

variable [TokenSupply ι τ] [DecidableEq τ]

/-- The action that an entry comes to, and the supply after the tokens looked at. -/
def resolve (context : Context) : Entry τ → ι → Except LexError (Entry τ × ι)
  | .branch lookahead ifEqual otherwise, supply =>
    match TokenSupply.peek context supply with
    | (.error failure, _) => .error failure
    | (.ok token, supply) =>
      if token.kind = lookahead then ifEqual.resolve context supply
      else otherwise.resolve context supply
  | .shift target, supply => .ok (.shift target, supply)
  | .reduce index, supply => .ok (.reduce index, supply)
  | .goto target, supply => .ok (.goto target, supply)
  | .accept, supply => .ok (.accept, supply)
  | .error message, supply => .ok (.error message, supply)

theorem mem_leaves_of_resolve {context : Context} {entry leaf : Entry τ} {supply supply' : ι}
    (h : entry.resolve context supply = .ok (leaf, supply')) : leaf ∈ entry.leaves := by
  fun_induction resolve context entry supply with
  | case1 => simp at h
  | case2 ifEqual otherwise supply token supply'' hpeek ih =>
    exact List.mem_append_left _ (ih h)
  | case3 lookahead ifEqual otherwise supply token supply'' hpeek hkind ih =>
    exact List.mem_append_right _ (ih h)
  | case4 => cases h; exact List.mem_singleton_self _
  | case5 => cases h; exact List.mem_singleton_self _
  | case6 => cases h; exact List.mem_singleton_self _
  | case7 => cases h; exact List.mem_singleton_self _
  | case8 => cases h; exact List.mem_singleton_self _

theorem peeks_of_resolve {context : Context} {entry leaf : Entry τ} {supply supply' : ι}
    (h : entry.resolve context supply = .ok (leaf, supply')) : Peeks context supply supply' := by
  fun_induction resolve context entry supply with
  | case1 => simp at h
  | case2 ifEqual otherwise supply token supply'' hpeek ih => exact .peek hpeek (ih h)
  | case3 lookahead ifEqual otherwise supply token supply'' hpeek hkind ih =>
    exact .peek hpeek (ih h)
  | case4 => cases h; exact .refl _
  | case5 => cases h; exact .refl _
  | case6 => cases h; exact .refl _
  | case7 => cases h; exact .refl _
  | case8 => cases h; exact .refl _

end Entry

namespace Table

/-- The table is one that a draft was made into. -/
def IsBuilt (table : Table τ ν) : Prop := ∃ draft : TableDraft τ ν, draft.build = .ok table

/-- Where a table has no entry it reports an error. -/
theorem IsBuilt.exists_defaultEntry {table : Table τ ν} (h : table.IsBuilt) :
    ∃ message, table.defaultEntry = .error message := by
  obtain ⟨draft, hbuild⟩ := h
  unfold TableDraft.build at hbuild
  split at hbuild
  · simp at hbuild
  · split at hbuild
    · simp at hbuild
    · cases hbuild
      exact ⟨draft.message, rfl⟩

variable [DecidableEq τ] [DecidableEq ν]

/-- The action occurs under the terminal in a state, directly or inside branches. -/
def Occurs (table : Table τ ν) (state : Nat) (terminal : τ) (action : Entry τ) : Prop :=
  ∃ row entry, table.row? state = some row ∧ row.entryFor terminal = some entry ∧
    action ∈ entry.leaves

omit [DecidableEq ν] in
theorem Occurs.ne_branch {table : Table τ ν} {state : Nat} {terminal lookahead : τ}
    {action ifEqual otherwise : Entry τ} (h : table.Occurs state terminal action) :
    action ≠ .branch lookahead ifEqual otherwise := by
  obtain ⟨row, entry, -, -, hmem⟩ := h
  exact Entry.ne_branch_of_mem_leaves hmem lookahead ifEqual otherwise

/-- A state has a target for the nonterminal. -/
def HasGoto (table : Table τ ν) (state : Nat) (nonterminal : ν) (target : Nat) : Prop :=
  ∃ row, table.row? state = some row ∧ row.goto? nonterminal = some target

end Table

namespace Machine

variable [TokenSupply ι τ] [DecidableEq τ] [ToString τ] [ToString ν]
  {table : Table τ ν} {reducer : Reducer σ τ ν α} {m m' : Machine ι σ τ ν α}

/-- To carry out an entry is to resolve it and to carry out the action. -/
theorem execute_eq_resolve (entry : Entry τ) (m : Machine ι σ τ ν α) :
    m.execute table reducer entry =
      match entry.resolve (Context.ofState m.current) m.supply with
      | .error error => .ends (.broken error) m.memory
      | .ok (action, supply) => { m with supply }.execute table reducer action := by
  induction entry generalizing m with
  | branch lookahead ifEqual otherwise ihEqual ihOtherwise =>
    rw [execute, Entry.resolve]
    generalize TokenSupply.peek (Context.ofState m.current) m.supply = result
    obtain ⟨item, supply⟩ := result
    cases item with
    | error error => rfl
    | ok token =>
      dsimp only
      split
      · exact ihEqual { m with supply }
      · exact ihOtherwise { m with supply }
  | _ => rfl

variable [DecidableEq ν]

/-- What a turn does when the parse goes on. -/
inductive Move (table : Table τ ν) (reducer : Reducer σ τ ν α) (m : Machine ι σ τ ν α) :
    Machine ι σ τ ν α → Prop
  | shift {target : Nat} {token : Token τ} {supply supply' : ι} (hpending : m.pending? = none)
      (hoccurs : table.Occurs m.current m.token.kind (.shift target))
      (hpeeks : Peeks (Context.ofState m.current) m.supply supply)
      (hnext : TokenSupply.next (Context.ofState target) supply = (.ok token, supply')) :
      Move table reducer m { m with
        supply := supply', token
        states := target :: m.states
        values := .terminal m.token :: m.values }
  | reduce {index : Nat} {production : Production τ ν} {value? : Option α} {memory : σ}
      {supply : ι} (hpending : m.pending? = none)
      (hoccurs : table.Occurs m.current m.token.kind (.reduce index))
      (hpeeks : Peeks (Context.ofState m.current) m.supply supply)
      (hproduction : table.grammar.production? index = some production)
      (hvalues : production.rhs.length ≤ m.values.length)
      (hstates : production.rhs.length < m.states.length)
      (hreducer : reducer index production (m.values.take production.rhs.length).reverse m.memory =
        (.ok value?, memory)) :
      Move table reducer m { m with
        supply
        states := m.states.drop production.rhs.length
        values := m.values.drop production.rhs.length
        pending? := some (production.lhs, value?)
        memory }
  | goto {nonterminal : ν} {value? : Option α} {target : Nat}
      (hpending : m.pending? = some (nonterminal, value?))
      (hgoto : table.HasGoto m.current nonterminal target) :
      Move table reducer m { m with
        states := target :: m.states
        values := .nonterminal value? :: m.values
        pending? := none }
  | jump {target : Nat} {supply : ι} (hpending : m.pending? = none)
      (hoccurs : table.Occurs m.current m.token.kind (.goto target))
      (hpeeks : Peeks (Context.ofState m.current) m.supply supply) :
      Move table reducer m { m with
        supply
        states := target :: m.states
        values := .nonterminal none :: m.values }

omit [TokenSupply ι τ] [ToString τ] [ToString ν] in
/-- Where the entry of a turn comes from. -/
theorem entry_cases (table : Table τ ν) (m : Machine ι σ τ ν α) :
    (∃ nonterminal value? target, m.pending? = some (nonterminal, value?) ∧
      table.HasGoto m.current nonterminal target ∧ m.entry table = .goto target) ∨
    m.entry table = table.defaultEntry ∨
    m.pending? = none ∧ ∃ row, table.row? m.current = some row ∧
      row.entryFor m.token.kind = some (m.entry table) := by
  unfold entry
  cases hpending : m.pending? with
  | some pending =>
    obtain ⟨nonterminal, value?⟩ := pending
    cases htarget : (table.row? m.current).bind (·.goto? nonterminal) with
    | none => exact Or.inr (Or.inl (by simp only [htarget]))
    | some target =>
      obtain ⟨row, hrow, hgoto⟩ := Option.bind_eq_some_iff.mp htarget
      exact Or.inl ⟨nonterminal, value?, target, rfl, ⟨row, hrow, hgoto⟩, by simp only [htarget]⟩
  | none =>
    cases hentry : (table.row? m.current).bind (·.entryFor m.token.kind) with
    | none => exact Or.inr (Or.inl rfl)
    | some entry =>
      obtain ⟨row, hrow, hfor⟩ := Option.bind_eq_some_iff.mp hentry
      exact Or.inr (Or.inr ⟨rfl, row, hrow, hfor⟩)

theorem move_of_execute {action : Entry τ} {supply : ι} (hpending : m.pending? = none)
    (hoccurs : table.Occurs m.current m.token.kind action)
    (hpeeks : Peeks (Context.ofState m.current) m.supply supply)
    (h : { m with supply }.execute table reducer action = .goesOn m') :
    Move table reducer m m' := by
  cases action with
  | shift target =>
    simp only [execute, shift] at h
    split at h
    · simp at h
    · next token supply' hnext =>
      cases h
      exact .shift hpending hoccurs hpeeks hnext
  | goto target =>
    simp only [execute, goto, hpending] at h
    cases h
    have hjump : Move table reducer m _ := .jump hpending hoccurs hpeeks
    simpa [hpending] using hjump
  | reduce index =>
    simp only [execute, reduce] at h
    split at h
    · simp at h
    · next production hproduction =>
      split at h
      · simp at h
      · next harity =>
        split at h
        · simp at h
        · next value? memory hreducer =>
          cases h
          exact .reduce hpending hoccurs hpeeks hproduction (by omega) (by omega) hreducer
  | accept => simp [execute] at h
  | error message => simp [execute] at h
  | branch lookahead ifEqual otherwise => exact absurd rfl hoccurs.ne_branch

/-- A turn goes to the target of the pending nonterminal, ends the parse for want of an
entry or of a token to look at, or carries out an action of the table. -/
theorem step_cases (htable : table.IsBuilt) (reducer : Reducer σ τ ν α) (m : Machine ι σ τ ν α) :
    (∃ nonterminal value? target, m.pending? = some (nonterminal, value?) ∧
      table.HasGoto m.current nonterminal target ∧ m.step table reducer = m.goto target) ∨
    (∃ ending, (∀ value?, ending ≠ .accepted value?) ∧
      m.step table reducer = .ends ending m.memory) ∨
    ∃ action supply, m.pending? = none ∧ table.Occurs m.current m.token.kind action ∧
      Peeks (Context.ofState m.current) m.supply supply ∧
      m.step table reducer = { m with supply }.execute table reducer action := by
  unfold step
  rcases entry_cases table m with
    ⟨nonterminal, value?, target, hpending, hgoto, hentry⟩ | hdefault | ⟨hpending, row, hrow, hfor⟩
  · refine Or.inl ⟨nonterminal, value?, target, hpending, hgoto, ?_⟩
    rw [hentry, execute]
  · obtain ⟨message, herror⟩ := htable.exists_defaultEntry
    refine Or.inr (Or.inl ⟨.rejected message, by simp, ?_⟩)
    rw [hdefault, herror, execute]
  · rw [execute_eq_resolve]
    cases hresolve : (m.entry table).resolve (Context.ofState m.current) m.supply with
    | error error => exact Or.inr (Or.inl ⟨.broken error, by simp, rfl⟩)
    | ok result =>
      obtain ⟨action, supply⟩ := result
      have hleaf := Entry.mem_leaves_of_resolve hresolve
      have hpeeks := Entry.peeks_of_resolve hresolve
      exact Or.inr (Or.inr ⟨action, supply, hpending, ⟨row, _, hrow, hfor, hleaf⟩, hpeeks, rfl⟩)

/-- A turn after which the parse goes on is one of the moves. -/
theorem move_of_step (htable : table.IsBuilt) (h : m.step table reducer = .goesOn m') :
    Move table reducer m m' := by
  rcases step_cases htable reducer m with ⟨nonterminal, value?, target, hpending, hgoto, hstep⟩ |
    ⟨ending, -, hstep⟩ | ⟨action, supply, hpending, hoccurs, hpeeks, hstep⟩
  · simp only [hstep, goto, hpending] at h
    cases h
    exact .goto hpending hgoto
  · simp [hstep] at h
  · exact move_of_execute hpending hoccurs hpeeks (hstep.symm.trans h)

/-- A turn that accepts does so by an action of the table, and with the value on top of
the stack. -/
theorem accept_of_step (htable : table.IsBuilt) {value? : Option α} {memory : σ}
    (h : m.step table reducer = .ends (.accepted value?) memory) :
    m.pending? = none ∧ table.Occurs m.current m.token.kind .accept ∧
      value? = m.values.head?.bind StackValue.value? ∧ memory = m.memory := by
  rcases step_cases htable reducer m with ⟨nonterminal, pending?, target, hpending, hgoto, hstep⟩ |
    ⟨ending, hending, hstep⟩ | ⟨action, supply, hpending, hoccurs, hpeeks, hstep⟩
  · simp [hstep, goto] at h
  · rw [hstep] at h
    cases h
    exact absurd rfl (hending value?)
  · rw [hstep] at h
    cases action with
    | accept =>
      cases h
      exact ⟨hpending, hoccurs, rfl, rfl⟩
    | shift target =>
      simp only [execute, shift] at h
      split at h <;> simp at h
    | goto target => simp [execute, goto] at h
    | reduce index =>
      simp only [execute, reduce] at h
      repeat' split at h
      all_goals simp at h
    | error message => simp [execute] at h
    | branch lookahead ifEqual otherwise => exact absurd rfl hoccurs.ne_branch

/-- The machines that a parse comes to between its turns. -/
inductive Reached (table : Table τ ν) (reducer : Reducer σ τ ν α) (supply : ι) (memory : σ) :
    Machine ι σ τ ν α → Prop
  | start {m : Machine ι σ τ ν α} (h : start supply memory = .ok m) :
      Reached table reducer supply memory m
  | step {m m' : Machine ι σ τ ν α} (h : Reached table reducer supply memory m)
      (hstep : m.step table reducer = .goesOn m') : Reached table reducer supply memory m'

/-- What holds at the start and is kept by every move holds in every machine reached. -/
theorem Reached.invariant {supply : ι} {memory : σ} (h : Reached table reducer supply memory m)
    (htable : table.IsBuilt) {Holds : Machine ι σ τ ν α → Prop}
    (hstart : ∀ m, Machine.start supply memory = .ok m → Holds m)
    (hmove : ∀ m m', Holds m → Move table reducer m m' → Holds m') : Holds m := by
  induction h with
  | start h => exact hstart _ h
  | step _ hstep ih => exact hmove _ _ ih (move_of_step htable hstep)

theorem Reached.exists_last_of_run {supply : ι} {memory memory' : σ} {limit : Nat}
    {ending : Ending α} (h : Reached table reducer supply memory m)
    (hrun : m.run table reducer limit = some (ending, memory')) :
    ∃ last, Reached table reducer supply memory last ∧
      last.step table reducer = .ends ending memory' := by
  induction limit generalizing m with
  | zero => simp [run] at hrun
  | succ limit ih =>
    unfold run at hrun
    split at hrun
    · next hstep =>
      cases hrun
      exact ⟨m, h, hstep⟩
    · next hstep => exact ih (h.step hstep) hrun

/-- A parse that was accepted has come to a machine that accepts. -/
theorem exists_reached_of_parse {supply : ι} {memory memory' : σ} {limit : Nat} {value? : Option α}
    (h : parse table reducer limit supply memory = some (.accepted value?, memory')) :
    ∃ last, Reached table reducer supply memory last ∧
      last.step table reducer = .ends (.accepted value?) memory' := by
  unfold parse at h
  split at h
  · simp at h
  · next hstart => exact (Reached.start hstart).exists_last_of_run h

end Machine

end ShiftReduce
