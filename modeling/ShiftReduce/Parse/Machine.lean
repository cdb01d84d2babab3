import ShiftReduce.Parse.Reducer
import ShiftReduce.Table
import ShiftReduce.Tokenizer

/-!
The machine that runs a table over a supply of tokens. It keeps the states on the
way to the current one, what was found for the symbol of each step, the current
token, and after a reduction the nonterminal whose target state is to be entered
next. One turn carries out one entry of the table. A token is asked for in the
context of the state that will see it; a branch looks at the token behind the
current one without taking it.

A run may take any number of turns, so it is given a limit; a run that ends within
a limit ends the same way within every larger one.
-/
namespace ShiftReduce

variable {ι σ τ ν α ρ : Type}

/-- Something that tokens are taken from, and can be looked at before. -/
class TokenSupply (ι : Type) (τ : outParam Type) where
  next : Context → ι → Lexed τ × ι
  peek : Context → ι → Lexed τ × ι

instance [Recognizes ρ τ] : TokenSupply (Tokenizer ρ τ) τ where
  next := Tokenizer.next
  peek := Tokenizer.peek

/-- A parse between two turns. The stacks are listed from the top. -/
structure Machine (ι σ τ ν α : Type) where
  supply : ι
  states : List Nat := [0]
  values : List (StackValue τ α) := []
  token : Token τ
  pending? : Option (ν × Option α) := none
  memory : σ

/-- How a parse ends: accepted with the value of the start symbol, rejected with a
diagnostic, or broken off because there was no next token. -/
inductive Ending (α : Type) where
  | accepted (value? : Option α)
  | rejected (diagnostic : String)
  | broken (error : LexError)
  deriving DecidableEq

/-- What a turn leads to. -/
inductive Turn (ι σ τ ν α : Type) where
  | goesOn (machine : Machine ι σ τ ν α)
  | ends (ending : Ending α) (memory : σ)

namespace Machine

/-- The state on top of the stack. -/
def current (m : Machine ι σ τ ν α) : Nat := m.states.headD 0

/-- The machine before its first turn, or why there is no first token. -/
def start [TokenSupply ι τ] (supply : ι) (memory : σ) : Except LexError (Machine ι σ τ ν α) :=
  match TokenSupply.next (Context.ofState 0) supply with
  | (.error error, _) => .error error
  | (.ok token, supply) => .ok { supply, token, memory }

/-- The entry for the next turn: the target state of a pending nonterminal, or the
entry for the current token. -/
def entry [DecidableEq τ] [DecidableEq ν] (table : Table τ ν) (m : Machine ι σ τ ν α) : Entry τ :=
  match m.pending? with
  | some (nonterminal, _) =>
    match (table.row? m.current).bind (·.goto? nonterminal) with
    | some target => .goto target
    | none => table.defaultEntry
  | none => ((table.row? m.current).bind (·.entryFor m.token.kind)).getD table.defaultEntry

/-- Enter a state with the current token, and take the next one. -/
def shift [TokenSupply ι τ] (target : Nat) (m : Machine ι σ τ ν α) : Turn ι σ τ ν α :=
  match TokenSupply.next (Context.ofState target) m.supply with
  | (.error error, _) => .ends (.broken error) m.memory
  | (.ok token, supply) =>
    .goesOn { m with
      supply, token
      states := target :: m.states
      values := .terminal m.token :: m.values }

/-- Enter a state with the pending nonterminal. -/
def goto (target : Nat) (m : Machine ι σ τ ν α) : Turn ι σ τ ν α :=
  .goesOn { m with
    states := target :: m.states
    values := .nonterminal (m.pending?.bind Prod.snd) :: m.values
    pending? := none }

/-- Leave the states of a right-hand side, and have the left-hand side pending. -/
def reduce [ToString τ] [ToString ν] (table : Table τ ν) (reducer : Reducer σ τ ν α) (index : Nat)
    (m : Machine ι σ τ ν α) : Turn ι σ τ ν α :=
  match table.grammar.production? index with
  | none => .ends (.rejected ("Production " ++ toString index ++ " does not exist")) m.memory
  | some production =>
    let arity := production.rhs.length
    if m.values.length < arity ∨ m.states.length ≤ arity then
      .ends (.rejected ("Parse stack underflow reducing " ++ production.display)) m.memory
    else
      match reducer index production (m.values.take arity).reverse m.memory with
      | (.error diagnostic, memory) => .ends (.rejected diagnostic) memory
      | (.ok value?, memory) =>
        .goesOn { m with
          states := m.states.drop arity
          values := m.values.drop arity
          pending? := some (production.lhs, value?)
          memory }

variable [DecidableEq τ] [ToString τ] [ToString ν]

/-- Carry out an entry. -/
def execute [TokenSupply ι τ] (table : Table τ ν) (reducer : Reducer σ τ ν α) :
    Entry τ → Machine ι σ τ ν α → Turn ι σ τ ν α
  | .shift target, m => m.shift target
  | .goto target, m => m.goto target
  | .reduce index, m => m.reduce table reducer index
  | .accept, m => .ends (.accepted (m.values.head?.bind StackValue.value?)) m.memory
  | .error message, m => .ends (.rejected message) m.memory
  | .branch lookahead ifEqual otherwise, m =>
    match TokenSupply.peek (Context.ofState m.current) m.supply with
    | (.error error, _) => .ends (.broken error) m.memory
    | (.ok token, supply) =>
      if token.kind = lookahead then execute table reducer ifEqual { m with supply }
      else execute table reducer otherwise { m with supply }

variable [DecidableEq ν]

/-- One turn. -/
def step [TokenSupply ι τ] (table : Table τ ν) (reducer : Reducer σ τ ν α)
    (m : Machine ι σ τ ν α) : Turn ι σ τ ν α :=
  m.execute table reducer (m.entry table)

/-- Turns until the parse ends, at most as many as the limit. -/
def run [TokenSupply ι τ] (table : Table τ ν) (reducer : Reducer σ τ ν α) :
    Nat → Machine ι σ τ ν α → Option (Ending α × σ)
  | 0, _ => none
  | limit + 1, m =>
    match m.step table reducer with
    | .ends ending memory => some (ending, memory)
    | .goesOn m => run table reducer limit m

/-- A larger limit does not change how a run ends. -/
theorem run_eq_some_of_le [TokenSupply ι τ] {table : Table τ ν} {reducer : Reducer σ τ ν α}
    {limit limit' : Nat} (hle : limit ≤ limit') {m : Machine ι σ τ ν α} {result : Ending α × σ}
    (h : m.run table reducer limit = some result) : m.run table reducer limit' = some result := by
  induction limit generalizing limit' m with
  | zero => simp [run] at h
  | succ limit ih =>
    cases limit' with
    | zero => omega
    | succ limit' =>
      unfold run at h ⊢
      split at h
      · exact h
      · exact ih (by omega) h

end Machine

/-- A parse of a supply of tokens, with at most as many turns as the limit. -/
def parse [TokenSupply ι τ] [DecidableEq τ] [DecidableEq ν] [ToString τ] [ToString ν]
    (table : Table τ ν) (reducer : Reducer σ τ ν α) (limit : Nat) (supply : ι) (memory : σ) :
    Option (Ending α × σ) :=
  match Machine.start (ν := ν) (α := α) supply memory with
  | .error error => some (.broken error, memory)
  | .ok machine => machine.run table reducer limit

end ShiftReduce
