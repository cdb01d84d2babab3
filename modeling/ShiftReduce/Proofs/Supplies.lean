import ShiftReduce.Parse.Machine

/-!
Parses over different supplies of tokens. Two supplies that give the same tokens and
errors, as long as there are tokens, lead to the same parse. A recorder hands out the
tokens of another supply and keeps them, so a parse over it is the parse over the other
supply, and what it keeps are the tokens that this parse has taken.
-/
namespace ShiftReduce

variable {ι ι' σ τ ν α : Type}

/-- Two answers with the same token, and related supplies behind it, or with the same
error. -/
inductive SameAnswer (Related : ι → ι' → Prop) : Lexed τ × ι → Lexed τ × ι' → Prop
  | token {supply : ι} {supply' : ι'} (token : Token τ) (h : Related supply supply') :
      SameAnswer Related (.ok token, supply) (.ok token, supply')
  | error (error : LexError) (supply : ι) (supply' : ι') :
      SameAnswer Related (.error error, supply) (.error error, supply')

/-- Related supplies answer alike, and go on doing so. -/
structure Simulates [TokenSupply ι τ] [TokenSupply ι' τ] (Related : ι → ι' → Prop) : Prop where
  next : ∀ {supply supply'}, Related supply supply' → ∀ context,
    SameAnswer Related (TokenSupply.next context supply) (TokenSupply.next context supply')
  peek : ∀ {supply supply'}, Related supply supply' → ∀ context,
    SameAnswer Related (TokenSupply.peek context supply) (TokenSupply.peek context supply')

namespace Machine

/-- The machine with another supply. -/
def withSupply (m : Machine ι σ τ ν α) (supply : ι') : Machine ι' σ τ ν α :=
  ⟨supply, m.states, m.values, m.token, m.pending?, m.memory⟩

/-- Two turns that differ only in the supplies, which are related. -/
inductive SameTurn (Related : ι → ι' → Prop) : Turn ι σ τ ν α → Turn ι' σ τ ν α → Prop
  | goesOn (m : Machine ι σ τ ν α) {supply' : ι'} (h : Related m.supply supply') :
      SameTurn Related (.goesOn m) (.goesOn (m.withSupply supply'))
  | ends (ending : Ending α) (memory : σ) :
      SameTurn Related (.ends ending memory) (.ends ending memory)

variable [ToString τ] [ToString ν] {Related : ι → ι' → Prop} {table : Table τ ν}
  {reducer : Reducer σ τ ν α}

/-- A reduction does not ask for tokens. -/
theorem sameTurn_reduce (index : Nat) (m : Machine ι σ τ ν α) {supply' : ι'}
    (hrelated : Related m.supply supply') :
    SameTurn Related (m.reduce table reducer index)
      ((m.withSupply supply').reduce table reducer index) := by
  simp only [reduce, withSupply]
  cases table.grammar.production? index with
  | none => exact .ends _ _
  | some production =>
    by_cases harity : m.values.length < production.rhs.length ∨
        m.states.length ≤ production.rhs.length
    · simp only [harity, if_true]
      exact .ends _ _
    · simp only [harity, if_false]
      generalize reducer index production (m.values.take production.rhs.length).reverse m.memory =
        result
      obtain ⟨outcome, memory⟩ := result
      cases outcome with
      | error diagnostic => exact .ends _ _
      | ok value? =>
        exact .goesOn { m with
          states := m.states.drop production.rhs.length
          values := m.values.drop production.rhs.length
          pending? := some (production.lhs, value?)
          memory } hrelated

variable [TokenSupply ι τ] [TokenSupply ι' τ] [DecidableEq τ]

theorem sameTurn_execute (h : Simulates Related) (entry : Entry τ) (m : Machine ι σ τ ν α)
    {supply' : ι'} (hrelated : Related m.supply supply') :
    SameTurn Related (m.execute table reducer entry)
      ((m.withSupply supply').execute table reducer entry) := by
  induction entry generalizing m supply' with
  | shift target =>
    have hnext := h.next hrelated (Context.ofState target)
    simp only [execute, shift, withSupply]
    generalize TokenSupply.next (Context.ofState target) m.supply = answer at hnext ⊢
    generalize TokenSupply.next (Context.ofState target) supply' = answer' at hnext ⊢
    cases hnext with
    | token token hrest => exact .goesOn _ hrest
    | error error => exact .ends _ _
  | reduce index => exact sameTurn_reduce index m hrelated
  | goto target => exact .goesOn _ hrelated
  | accept => exact .ends _ _
  | error message => exact .ends _ _
  | branch lookahead ifEqual otherwise ihEqual ihOtherwise =>
    have hpeek := h.peek hrelated (Context.ofState m.current)
    rw [execute, execute, show (m.withSupply supply').current = m.current from rfl,
      show (m.withSupply supply').supply = supply' from rfl]
    generalize TokenSupply.peek (Context.ofState m.current) m.supply = answer at hpeek ⊢
    generalize TokenSupply.peek (Context.ofState m.current) supply' = answer' at hpeek ⊢
    cases hpeek with
    | error error => exact .ends _ _
    | token token hrest =>
      dsimp only
      split
      · exact ihEqual { m with supply := _ } hrest
      · exact ihOtherwise { m with supply := _ } hrest

variable [DecidableEq ν]

theorem sameTurn_step (h : Simulates Related) (table : Table τ ν) (reducer : Reducer σ τ ν α)
    (m : Machine ι σ τ ν α) {supply' : ι'} (hrelated : Related m.supply supply') :
    SameTurn Related (m.step table reducer) ((m.withSupply supply').step table reducer) :=
  sameTurn_execute h (m.entry table) m hrelated

theorem run_withSupply (h : Simulates Related) (m : Machine ι σ τ ν α) {supply' : ι'}
    (hrelated : Related m.supply supply') (limit : Nat) :
    (m.withSupply supply').run table reducer limit = m.run table reducer limit := by
  induction limit generalizing m supply' with
  | zero => rfl
  | succ limit ih =>
    have hstep := sameTurn_step h table reducer m hrelated
    unfold run
    generalize m.step table reducer = turn at hstep ⊢
    generalize (m.withSupply supply').step table reducer = turn' at hstep ⊢
    cases hstep with
    | goesOn m' hrest => exact ih m' hrest
    | ends ending memory => rfl

end Machine

/-- Related supplies lead to the same parse. -/
theorem parse_eq_of_simulates [TokenSupply ι τ] [TokenSupply ι' τ] [DecidableEq τ] [DecidableEq ν]
    [ToString τ] [ToString ν] {Related : ι → ι' → Prop} (h : Simulates Related)
    (table : Table τ ν) (reducer : Reducer σ τ ν α) (limit : Nat) {supply : ι} {supply' : ι'}
    (hrelated : Related supply supply') (memory : σ) :
    parse table reducer limit supply' memory = parse table reducer limit supply memory := by
  have hnext := h.next hrelated (Context.ofState 0)
  unfold parse Machine.start
  generalize TokenSupply.next (Context.ofState 0) supply = answer at hnext ⊢
  generalize TokenSupply.next (Context.ofState 0) supply' = answer' at hnext ⊢
  cases hnext with
  | error error => rfl
  | token token hrest => exact Machine.run_withSupply h { supply := _, token, memory } hrest limit

/-- A supply with the tokens that were taken from it, in their order. -/
structure Recorder (ι τ : Type) where
  supply : ι
  taken : List (Token τ) := []

namespace Recorder

variable [TokenSupply ι τ]

/-- Take the next token and keep it. -/
def next (context : Context) (r : Recorder ι τ) : Lexed τ × Recorder ι τ :=
  match TokenSupply.next context r.supply with
  | (.ok token, supply) => (.ok token, ⟨supply, r.taken ++ [token]⟩)
  | (.error error, supply) => (.error error, ⟨supply, r.taken⟩)

/-- Look at the next token. -/
def peek (context : Context) (r : Recorder ι τ) : Lexed τ × Recorder ι τ :=
  let (answer, supply) := TokenSupply.peek context r.supply
  (answer, ⟨supply, r.taken⟩)

instance : TokenSupply (Recorder ι τ) τ where
  next := next
  peek := peek

/-- A recorder answers like the supply it records. -/
theorem simulates : Simulates fun (r : Recorder ι τ) (supply : ι) => r.supply = supply where
  next := by
    rintro r supply rfl context
    simp only [TokenSupply.next, next]
    generalize TokenSupply.next context r.supply = answer
    obtain ⟨item, supply⟩ := answer
    cases item with
    | ok token => exact .token token rfl
    | error error => exact .error error _ _
  peek := by
    rintro r supply rfl context
    simp only [TokenSupply.peek, peek]
    generalize TokenSupply.peek context r.supply = answer
    obtain ⟨item, supply⟩ := answer
    cases item with
    | ok token => exact .token token rfl
    | error error => exact .error error _ _

end Recorder

end ShiftReduce
