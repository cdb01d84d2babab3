import ShiftReduce.Proofs.Turns

/-!
Parses that keep a report. A session is a machine with the value of the start symbol and
the diagnostics found so far; carrying out an entry changes it in place, also where the
parse ends, and says whether it is over. Nothing here forbids a second diagnostic or a
value beside a diagnostic. A session that starts with an empty report stays a machine with
an empty report until it is over, and what it then reports is how the machine ended.
-/
namespace ShiftReduce

variable {ι σ τ ν α : Type}

/-- What is reported of a parse that was not broken off. -/
structure Outcome (α : Type) where
  value? : Option α
  diagnostics : List String

/-- The report on a parse that ended. -/
def Ending.outcome : Ending α → Except LexError (Outcome α)
  | .accepted value? => .ok ⟨value?, []⟩
  | .rejected diagnostic => .ok ⟨none, [diagnostic]⟩
  | .broken error => .error error

/-- A parse and what it has to report so far. -/
structure Session (ι σ τ ν α : Type) where
  machine : Machine ι σ τ ν α
  value? : Option α
  diagnostics : List String

namespace Session

/-- Add a diagnostic. -/
def fail (message : String) (s : Session ι σ τ ν α) : Session ι σ τ ν α :=
  { s with diagnostics := s.diagnostics ++ [message] }

section Execute

variable [ToString τ] [ToString ν]

/-- The diagnostic where a right-hand side is longer than the stacks. -/
def underflow (production : Production τ ν) : String :=
  "Parse stack underflow reducing " ++ production.display

/-- Take the right-hand side of a production off the stacks and call the reducer. -/
def reduce (table : Table τ ν) (reducer : Reducer σ τ ν α) (index : Nat)
    (s : Session ι σ τ ν α) : Bool × Session ι σ τ ν α :=
  match table.grammar.production? index with
  | none => (true, s.fail ("Production " ++ toString index ++ " does not exist"))
  | some production =>
    let arity := production.rhs.length
    let m := s.machine
    if m.values.length < arity ∨ m.states.length ≤ arity then (true, s.fail (underflow production))
    else
      let shorter := { m with states := m.states.drop arity, values := m.values.drop arity }
      match reducer index production (m.values.take arity).reverse m.memory with
      | (.ok value?, memory) =>
        (false, { s with
          machine := { shorter with pending? := some (production.lhs, value?), memory } })
      | (.error message, memory) => (true, fail message { s with machine := { shorter with memory } })

variable [TokenSupply ι τ] [DecidableEq τ]

/-- Carry out an entry. The parse may be over after it, or broken off by it. -/
def execute (table : Table τ ν) (reducer : Reducer σ τ ν α) :
    Entry τ → Session ι σ τ ν α → Except LexError Bool × Session ι σ τ ν α
  | .shift target, s =>
    let entered := { s.machine with states := target :: s.machine.states }
    match TokenSupply.next (Context.ofState target) s.machine.supply with
    | (.error error, supply) => (.error error, { s with machine := { entered with supply } })
    | (.ok token, supply) =>
      (.ok false, { s with
        machine := { entered with
          supply, token
          values := .terminal s.machine.token :: s.machine.values } })
  | .goto target, s =>
    (.ok false, { s with
      machine := { s.machine with
        states := target :: s.machine.states
        values := .nonterminal (s.machine.pending?.bind Prod.snd) :: s.machine.values
        pending? := none } })
  | .reduce index, s =>
    let (isOver, s) := s.reduce table reducer index
    (.ok isOver, s)
  | .accept, s =>
    (.ok true, { s with
      value? := s.machine.values.head?.bind StackValue.value?
      machine := { s.machine with values := s.machine.values.tail } })
  | .error message, s => (.ok true, s.fail message)
  | .branch lookahead ifEqual otherwise, s =>
    match TokenSupply.peek (Context.ofState s.machine.current) s.machine.supply with
    | (.error error, supply) => (.error error, { s with machine := { s.machine with supply } })
    | (.ok token, supply) =>
      let looked := { s with machine := { s.machine with supply } }
      if token.kind = lookahead then execute table reducer ifEqual looked
      else execute table reducer otherwise looked

variable [DecidableEq ν]

/-- One turn. -/
def step (table : Table τ ν) (reducer : Reducer σ τ ν α) (s : Session ι σ τ ν α) :
    Except LexError Bool × Session ι σ τ ν α :=
  s.execute table reducer (s.machine.entry table)

/-- Turns until the parse is over, at most as many as the limit. -/
def run (table : Table τ ν) (reducer : Reducer σ τ ν α) :
    Nat → Session ι σ τ ν α → Option (Except LexError (Outcome α) × σ)
  | 0, _ => none
  | limit + 1, s =>
    match s.step table reducer with
    | (.error error, s) => some (.error error, s.machine.memory)
    | (.ok true, s) => some (.ok ⟨s.value?, s.diagnostics⟩, s.machine.memory)
    | (.ok false, s) => run table reducer limit s

/-- The session of a machine, with nothing to report. -/
def ofMachine (m : Machine ι σ τ ν α) : Session ι σ τ ν α := ⟨m, none, []⟩

/-- A parse of a supply of tokens, with at most as many turns as the limit. -/
def parse (table : Table τ ν) (reducer : Reducer σ τ ν α) (limit : Nat) (supply : ι) (memory : σ) :
    Option (Except LexError (Outcome α) × σ) :=
  match Machine.start supply memory with
  | .error error => some (.error error, memory)
  | .ok machine => (ofMachine machine).run table reducer limit

/-- The sessions that a parse comes to between its turns. -/
inductive Reached (table : Table τ ν) (reducer : Reducer σ τ ν α) (supply : ι) (memory : σ) :
    Session ι σ τ ν α → Prop
  | start {m : Machine ι σ τ ν α} (h : Machine.start supply memory = .ok m) :
      Reached table reducer supply memory (ofMachine m)
  | step {s s' : Session ι σ τ ν α} (h : Reached table reducer supply memory s)
      (hstep : s.step table reducer = (.ok false, s')) : Reached table reducer supply memory s'

end Execute

/-- What a turn of a machine makes of its session. -/
inductive Follows : Turn ι σ τ ν α → Except LexError Bool × Session ι σ τ ν α → Prop
  | goesOn (m : Machine ι σ τ ν α) : Follows (.goesOn m) (.ok false, ofMachine m)
  | accepts (value? : Option α) (m : Machine ι σ τ ν α) :
      Follows (.ends (.accepted value?) m.memory) (.ok true, ⟨m, value?, []⟩)
  | rejects (diagnostic : String) (m : Machine ι σ τ ν α) :
      Follows (.ends (.rejected diagnostic) m.memory) (.ok true, ⟨m, none, [diagnostic]⟩)
  | breaks (error : LexError) (m : Machine ι σ τ ν α) :
      Follows (.ends (.broken error) m.memory) (.error error, ofMachine m)

variable [ToString τ] [ToString ν] {table : Table τ ν} {reducer : Reducer σ τ ν α}

theorem follows_reduce (index : Nat) (m : Machine ι σ τ ν α) :
    Follows (m.reduce table reducer index)
      (.ok ((ofMachine m).reduce table reducer index).1,
        ((ofMachine m).reduce table reducer index).2) := by
  simp only [Machine.reduce, reduce, ofMachine]
  cases table.grammar.production? index with
  | none => exact .rejects _ m
  | some production =>
    by_cases harity : m.values.length < production.rhs.length ∨
        m.states.length ≤ production.rhs.length
    · simp only [harity, if_true]
      exact .rejects _ m
    · simp only [harity, if_false]
      generalize reducer index production (m.values.take production.rhs.length).reverse m.memory =
        result
      obtain ⟨outcome, memory⟩ := result
      cases outcome with
      | error diagnostic => exact .rejects diagnostic { m with
          states := m.states.drop production.rhs.length
          values := m.values.drop production.rhs.length
          memory }
      | ok value? => exact .goesOn _

variable [TokenSupply ι τ] [DecidableEq τ]

theorem follows_execute (entry : Entry τ) (m : Machine ι σ τ ν α) :
    Follows (m.execute table reducer entry) ((ofMachine m).execute table reducer entry) := by
  induction entry generalizing m with
  | shift target =>
    simp only [Machine.execute, Machine.shift, execute, ofMachine]
    generalize TokenSupply.next (Context.ofState target) m.supply = answer
    obtain ⟨item, supply⟩ := answer
    cases item with
    | error error => exact .breaks error { m with states := target :: m.states, supply }
    | ok token => exact .goesOn _
  | goto target => exact .goesOn _
  | reduce index => exact follows_reduce index m
  | accept => exact .accepts _ { m with values := m.values.tail }
  | error message => exact .rejects message m
  | branch lookahead ifEqual otherwise ihEqual ihOtherwise =>
    rw [Machine.execute, execute, show (ofMachine m).machine = m from rfl]
    generalize TokenSupply.peek (Context.ofState m.current) m.supply = answer
    obtain ⟨item, supply⟩ := answer
    cases item with
    | error error => exact .breaks error { m with supply }
    | ok token =>
      dsimp only
      split
      · exact ihEqual { m with supply }
      · exact ihOtherwise { m with supply }

variable [DecidableEq ν]

theorem run_eq (m : Machine ι σ τ ν α) (limit : Nat) :
    (ofMachine m).run table reducer limit =
      (m.run table reducer limit).map fun (ending, memory) => (ending.outcome, memory) := by
  induction limit generalizing m with
  | zero => rfl
  | succ limit ih =>
    have hstep : Follows (m.step table reducer) ((ofMachine m).step table reducer) :=
      follows_execute (m.entry table) m
    unfold run Machine.run
    generalize m.step table reducer = turn at hstep ⊢
    generalize (ofMachine m).step table reducer = answer at hstep ⊢
    cases hstep with
    | goesOn m' => exact ih m'
    | accepts value? m' => rfl
    | rejects diagnostic m' => rfl
    | breaks error m' => rfl

/-- What a session reports in the end is how its machine ends. -/
theorem parse_eq (table : Table τ ν) (reducer : Reducer σ τ ν α) (limit : Nat) (supply : ι)
    (memory : σ) :
    parse table reducer limit supply memory =
      (ShiftReduce.parse table reducer limit supply memory).map fun (ending, memory) =>
        (ending.outcome, memory) := by
  unfold parse ShiftReduce.parse
  cases (Machine.start supply memory : Except LexError (Machine ι σ τ ν α)) with
  | error error => rfl
  | ok machine => exact run_eq machine limit

/-- Between two turns a session has nothing to report, and its machine is one that the
parse comes to. -/
theorem Reached.exists_machine {supply : ι} {memory : σ} {s : Session ι σ τ ν α}
    (h : Reached table reducer supply memory s) :
    ∃ m, s = ofMachine m ∧ Machine.Reached table reducer supply memory m := by
  induction h with
  | start hstart => exact ⟨_, rfl, .start hstart⟩
  | step _ hstep ih =>
    obtain ⟨m, rfl, hm⟩ := ih
    have hfollows : Follows (m.step table reducer) ((ofMachine m).step table reducer) :=
      follows_execute (m.entry table) m
    generalize hturn : m.step table reducer = turn at hfollows
    rw [hstep] at hfollows
    cases hfollows with
    | goesOn m' => exact ⟨m', rfl, hm.step hturn⟩

end Session

end ShiftReduce
