import ShiftReduce.Parse.Machine

/-!
The calls that a parse makes. A reducer can keep a list of its calls in its memory, and a
parse with the list is the parse without it. What some turns lead to is known also of a
parse that does not end, and so are the calls made until then. A turn makes at most one
call, so the list grows with the turns and nothing in it is changed.
-/
namespace ShiftReduce

variable {ι σ σ' τ ν α : Type}

namespace Reducer

/-- A call of a reducer: what it was given, and its answer. -/
structure Call (τ ν α : Type) where
  index : Nat
  production : Production τ ν
  values : List (StackValue τ α)
  answer : Except String (Option α)

namespace Call

/-- What a call is told about the parse: the number of the production, the production, and
for each symbol of the right-hand side the token, if the symbol is a terminal. -/
def told (c : Call τ ν α) : Nat × Production τ ν × List (Option (Token τ)) :=
  (c.index, c.production, c.values.map StackValue.token?)

/-- The call ends the parse. -/
def Refuses (c : Call τ ν α) : Prop := ∃ message, c.answer = .error message

end Call

/-- The reducer that also keeps a list of its calls. -/
def listed (reducer : Reducer σ τ ν α) : Reducer (σ × List (Call τ ν α)) τ ν α :=
  fun index production values (memory, calls) =>
    let (answer, memory) := reducer index production values memory
    (answer, memory, calls ++ [⟨index, production, values, answer⟩])

end Reducer

namespace Turn

/-- The memory of the reducer after the turn. -/
def memory : Turn ι σ τ ν α → σ
  | .goesOn m => m.memory
  | .ends _ memory => memory

/-- How the parse has ended, if it has. -/
def result? : Turn ι σ τ ν α → Option (Ending α × σ)
  | .goesOn _ => none
  | .ends ending memory => some (ending, memory)

end Turn

namespace Machine

/-- The machine with something else for its memory. -/
def mapMemory (f : σ → σ') (m : Machine ι σ τ ν α) : Machine ι σ' τ ν α :=
  ⟨m.supply, m.states, m.values, m.token, m.pending?, f m.memory⟩

end Machine

/-- The turn with something else for the memory. -/
def Turn.mapMemory (f : σ → σ') : Turn ι σ τ ν α → Turn ι σ' τ ν α
  | .goesOn m => .goesOn (m.mapMemory f)
  | .ends ending memory => .ends ending (f memory)

namespace Machine

section Execute

variable [ToString τ] [ToString ν] (table : Table τ ν) (reducer : Reducer σ τ ν α)

theorem reduce_listed (index : Nat) (m : Machine ι (σ × List (Reducer.Call τ ν α)) τ ν α) :
    (m.mapMemory Prod.fst).reduce table reducer index =
      (m.reduce table reducer.listed index).mapMemory Prod.fst := by
  simp only [reduce, mapMemory, Reducer.listed]
  cases table.grammar.production? index with
  | none => rfl
  | some production =>
    by_cases harity : m.values.length < production.rhs.length ∨
        m.states.length ≤ production.rhs.length
    · simp only [harity, if_true]
      rfl
    · simp only [harity, if_false]
      generalize reducer index production (m.values.take production.rhs.length).reverse
        m.memory.1 = result
      obtain ⟨answer, memory⟩ := result
      cases answer with
      | error message => rfl
      | ok value? => rfl

variable [TokenSupply ι τ] [DecidableEq τ]

theorem execute_listed (entry : Entry τ) (m : Machine ι (σ × List (Reducer.Call τ ν α)) τ ν α) :
    (m.mapMemory Prod.fst).execute table reducer entry =
      (m.execute table reducer.listed entry).mapMemory Prod.fst := by
  induction entry generalizing m with
  | shift target =>
    simp only [execute, shift, mapMemory]
    split
    · rfl
    · rfl
  | reduce index => exact reduce_listed table reducer index m
  | goto target => rfl
  | accept => rfl
  | error message => rfl
  | branch lookahead ifEqual otherwise ihEqual ihOtherwise =>
    rw [execute, execute, show (m.mapMemory Prod.fst).current = m.current from rfl,
      show (m.mapMemory Prod.fst).supply = m.supply from rfl]
    generalize TokenSupply.peek (Context.ofState m.current) m.supply = answer
    obtain ⟨item, supply⟩ := answer
    cases item with
    | error error => rfl
    | ok token =>
      dsimp only
      split
      · exact ihEqual { m with supply }
      · exact ihOtherwise { m with supply }

/-- A turn leaves the memory as it was, or as one call of the reducer leaves it. -/
theorem memory_execute (entry : Entry τ) (m : Machine ι σ τ ν α) :
    (m.execute table reducer entry).memory = m.memory ∨
      ∃ index production values,
        (m.execute table reducer entry).memory = (reducer index production values m.memory).2 := by
  induction entry generalizing m with
  | shift target =>
    left
    simp only [execute, shift]
    split
    · rfl
    · rfl
  | reduce index =>
    simp only [execute, reduce]
    cases table.grammar.production? index with
    | none => exact Or.inl rfl
    | some production =>
      dsimp only
      split
      · exact Or.inl rfl
      · refine Or.inr ⟨index, production, (m.values.take production.rhs.length).reverse, ?_⟩
        split
        · next heq => rw [heq]; rfl
        · next heq => rw [heq]; rfl
  | goto target => exact Or.inl rfl
  | accept => exact Or.inl rfl
  | error message => exact Or.inl rfl
  | branch lookahead ifEqual otherwise ihEqual ihOtherwise =>
    rw [execute]
    split
    · exact Or.inl rfl
    · split
      · exact ihEqual _
      · exact ihOtherwise _

end Execute

section Turns

variable [TokenSupply ι τ] [DecidableEq τ] [DecidableEq ν] [ToString τ] [ToString ν]
  (table : Table τ ν) (reducer : Reducer σ τ ν α)

/-- What so many turns lead to; the parse may end before. -/
def after : Nat → Machine ι σ τ ν α → Turn ι σ τ ν α
  | 0, m => .goesOn m
  | count + 1, m =>
    match m.step table reducer with
    | .ends ending memory => .ends ending memory
    | .goesOn m => after count m

theorem run_eq_after (limit : Nat) (m : Machine ι σ τ ν α) :
    m.run table reducer limit = (m.after table reducer limit).result? := by
  induction limit generalizing m with
  | zero => rfl
  | succ limit ih =>
    unfold run after
    cases m.step table reducer with
    | ends ending memory => rfl
    | goesOn m => exact ih m

theorem after_listed (count : Nat) (m : Machine ι (σ × List (Reducer.Call τ ν α)) τ ν α) :
    (m.mapMemory Prod.fst).after table reducer count =
      (m.after table reducer.listed count).mapMemory Prod.fst := by
  induction count generalizing m with
  | zero => rfl
  | succ count ih =>
    have hstep : (m.mapMemory Prod.fst).step table reducer =
        (m.step table reducer.listed).mapMemory Prod.fst :=
      execute_listed table reducer (m.entry table) m
    unfold after
    rw [hstep]
    cases m.step table reducer.listed with
    | ends ending memory => rfl
    | goesOn m => exact ih m

/-- The list of calls only grows, at its end. -/
theorem exists_later_of_step (m : Machine ι (σ × List (Reducer.Call τ ν α)) τ ν α) :
    ∃ later, (m.step table reducer.listed).memory.2 = m.memory.2 ++ later := by
  rcases memory_execute table reducer.listed (m.entry table) m with
    hkept | ⟨index, production, values, hcall⟩
  · exact ⟨[], by rw [step, hkept, List.append_nil]⟩
  · exact ⟨_, by rw [step, hcall]; rfl⟩

theorem exists_later_of_after (count : Nat) (m : Machine ι (σ × List (Reducer.Call τ ν α)) τ ν α) :
    ∃ later, (m.after table reducer.listed count).memory.2 = m.memory.2 ++ later := by
  induction count generalizing m with
  | zero => exact ⟨[], (List.append_nil _).symm⟩
  | succ count ih =>
    obtain ⟨later, hlater⟩ := exists_later_of_step table reducer m
    unfold after
    cases hstep : m.step table reducer.listed with
    | ends ending memory =>
      rw [hstep] at hlater
      exact ⟨later, hlater⟩
    | goesOn m' =>
      rw [hstep] at hlater
      obtain ⟨more, hmore⟩ := ih m'
      refine ⟨later ++ more, ?_⟩
      have hmemory : m'.memory.2 = m.memory.2 ++ later := hlater
      rw [hmore, hmemory, List.append_assoc]

end Turns

end Machine

section Parses

variable [TokenSupply ι τ] [DecidableEq τ] [DecidableEq ν] [ToString τ] [ToString ν]
  (table : Table τ ν) (reducer : Reducer σ τ ν α) (limit : Nat) (supply : ι)

/-- What so many turns of a parse lead to; the parse may end before. -/
def progress (memory : σ) : Turn ι σ τ ν α :=
  match Machine.start supply memory with
  | .error error => .ends (.broken error) memory
  | .ok machine => machine.after table reducer limit

/-- The calls that a parse makes in so many turns, in their order. -/
def calls (memory : σ) : List (Reducer.Call τ ν α) :=
  (progress table reducer.listed limit supply (memory, [])).memory.2

theorem parse_eq_progress (memory : σ) :
    parse table reducer limit supply memory = (progress table reducer limit supply memory).result? := by
  unfold parse progress
  cases (Machine.start supply memory : Except LexError (Machine ι σ τ ν α)) with
  | error error => rfl
  | ok machine => exact Machine.run_eq_after table reducer limit machine

/-- The list of calls makes no difference to a parse. -/
theorem progress_listed (memory : σ) :
    progress table reducer limit supply memory =
      (progress table reducer.listed limit supply (memory, [])).mapMemory Prod.fst := by
  unfold progress Machine.start
  cases TokenSupply.next (Context.ofState 0) supply with
  | mk item rest =>
    cases item with
    | error error => rfl
    | ok token =>
      exact Machine.after_listed table reducer limit
        { supply := rest, token, memory := (memory, []) }

end Parses

end ShiftReduce
