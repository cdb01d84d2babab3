import ShiftReduce.Proofs.Results
import ShiftReduce.Proofs.Supplies

/-!
Parses over a sequence of results. The machine here has no tokenizer. It knows the
number of the current token, goes on to the next number when it shifts, and looks at
the result with the next number when it branches; all results that it touches are
listed. A parse over a tokenizer ends like this machine over the results of the
tokenizer. So an error breaks a parse off exactly when it is the first one touched, and
results that are not touched do not matter.
-/
namespace ShiftReduce

variable {σ τ ν α : Type}

namespace Replay

variable [DecidableEq τ] [DecidableEq ν] [ToString τ] [ToString ν]

/-- Carry out an entry; the number of the current token stands for the supply. Also the
numbers of the results that are touched. -/
def execute (results : Nat → Lexed τ) (table : Table τ ν) (reducer : Reducer σ τ ν α) :
    Entry τ → Machine Nat σ τ ν α → List Nat × Turn Nat σ τ ν α
  | .shift target, m =>
    ([m.supply + 1],
      match results (m.supply + 1) with
      | .error error => .ends (.broken error) m.memory
      | .ok token =>
        .goesOn { m with
          supply := m.supply + 1
          token
          states := target :: m.states
          values := .terminal m.token :: m.values })
  | .branch lookahead ifEqual otherwise, m =>
    match results (m.supply + 1) with
    | .error error => ([m.supply + 1], .ends (.broken error) m.memory)
    | .ok token =>
      let (touched, turn) :=
        if token.kind = lookahead then execute results table reducer ifEqual m
        else execute results table reducer otherwise m
      ((m.supply + 1) :: touched, turn)
  | .reduce index, m => ([], m.reduce table reducer index)
  | .goto target, m => ([], m.goto target)
  | .accept, m => ([], .ends (.accepted (m.values.head?.bind StackValue.value?)) m.memory)
  | .error message, m => ([], .ends (.rejected message) m.memory)

/-- Turns until the parse ends, at most as many as the limit. -/
def run (results : Nat → Lexed τ) (table : Table τ ν) (reducer : Reducer σ τ ν α) :
    Nat → Machine Nat σ τ ν α → List Nat × Option (Ending α × σ)
  | 0, _ => ([], none)
  | limit + 1, m =>
    match execute results table reducer (m.entry table) m with
    | (touched, .ends ending memory) => (touched, some (ending, memory))
    | (touched, .goesOn m) =>
      let (later, outcome?) := run results table reducer limit m
      (touched ++ later, outcome?)

/-- A parse of the results from the first on. -/
def parse (results : Nat → Lexed τ) (table : Table τ ν) (reducer : Reducer σ τ ν α) (limit : Nat)
    (memory : σ) : List Nat × Option (Ending α × σ) :=
  match results 0 with
  | .error error => ([0], some (.broken error, memory))
  | .ok token =>
    let (touched, outcome?) := run results table reducer limit { supply := 0, token, memory }
    (0 :: touched, outcome?)

variable {results results' : Nat → Lexed τ} {table : Table τ ν} {reducer : Reducer σ τ ν α}

omit [DecidableEq ν] in
/-- A turn depends on the results it touches only. -/
theorem execute_congr {entry : Entry τ} {m : Machine Nat σ τ ν α}
    (h : ∀ i ∈ (execute results table reducer entry m).1, results' i = results i) :
    execute results' table reducer entry m = execute results table reducer entry m := by
  induction entry with
  | shift target =>
    have hnext := h (m.supply + 1) (by simp [execute])
    simp only [execute, hnext]
  | branch lookahead ifEqual otherwise ihEqual ihOtherwise =>
    have hnext : results' (m.supply + 1) = results (m.supply + 1) := by
      apply h
      unfold execute
      split
      · simp
      · simp
    unfold execute at h ⊢
    rw [hnext]
    cases hresult : results (m.supply + 1) with
    | error error => rfl
    | ok token =>
      simp only [hresult] at h ⊢
      split at h
      · next hkind =>
        rw [if_pos hkind, if_pos hkind, ihEqual fun i hi => h i (List.mem_cons_of_mem _ hi)]
      · next hkind =>
        rw [if_neg hkind, if_neg hkind, ihOtherwise fun i hi => h i (List.mem_cons_of_mem _ hi)]
  | reduce index => rfl
  | goto target => rfl
  | accept => rfl
  | error message => rfl

theorem run_congr {limit : Nat} {m : Machine Nat σ τ ν α}
    (h : ∀ i ∈ (run results table reducer limit m).1, results' i = results i) :
    run results' table reducer limit m = run results table reducer limit m := by
  induction limit generalizing m with
  | zero => rfl
  | succ limit ih =>
    have hexecute : ∀ i ∈ (execute results table reducer (m.entry table) m).1,
        results' i = results i := by
      -- The numbers touched by the first turn are at the front of those of the run.
      intro i hi
      apply h
      unfold run
      split
      · next heq => rwa [heq] at hi
      · next heq =>
        rw [heq] at hi
        exact List.mem_append_left _ hi
    unfold run at h ⊢
    rw [execute_congr hexecute]
    split at h
    · rfl
    · rw [ih fun i hi => h i (List.mem_append_right _ hi)]

/-- Results that are not touched do not matter. -/
theorem parse_congr {limit : Nat} {memory : σ}
    (h : ∀ i ∈ (parse results table reducer limit memory).1, results' i = results i) :
    parse results' table reducer limit memory = parse results table reducer limit memory := by
  have hfirst : results' 0 = results 0 := by
    apply h
    unfold parse
    split
    · simp
    · simp
  unfold parse at h ⊢
  rw [hfirst]
  cases hresult : results 0 with
  | error error => rfl
  | ok token =>
    simp only [hresult] at h ⊢
    rw [run_congr fun i hi => h i (List.mem_cons_of_mem _ hi)]

/-- The error of a result. -/
def errorOf : Lexed τ → Option LexError
  | .ok _ => none
  | .error error => some error

/-- The first error among the results with these numbers. -/
def firstError (results : Nat → Lexed τ) (touched : List Nat) : Option LexError :=
  touched.findSome? fun i => errorOf (results i)

omit [DecidableEq τ] [ToString τ] in
theorem firstError_cons_of_ok {i : Nat} {token : Token τ} (h : results i = .ok token)
    (touched : List Nat) : firstError results (i :: touched) = firstError results touched := by
  rw [firstError, List.findSome?_cons, h]
  rfl

omit [DecidableEq τ] [ToString τ] in
theorem firstError_cons_of_error {i : Nat} {error : LexError} (h : results i = .error error)
    (touched : List Nat) : firstError results (i :: touched) = some error := by
  rw [firstError, List.findSome?_cons, h]
  rfl

/-- The error that an ending was broken off by. -/
def breakOf : Ending α → Option LexError
  | .broken error => some error
  | .accepted _ => none
  | .rejected _ => none

/-- The error that a turn breaks the parse off by. -/
def breakOfTurn : Turn Nat σ τ ν α → Option LexError
  | .ends ending _ => breakOf ending
  | .goesOn _ => none

omit [DecidableEq τ] [DecidableEq ν] in
theorem breakOfTurn_reduce (index : Nat) (m : Machine Nat σ τ ν α) :
    breakOfTurn (m.reduce table reducer index) = none := by
  unfold Machine.reduce
  split
  · rfl
  · dsimp only
    split
    · rfl
    · split
      · rfl
      · rfl

section Errors

variable (results table reducer)

omit [DecidableEq ν] in
/-- A turn breaks the parse off by the first error that it touches. -/
theorem firstError_execute (entry : Entry τ) (m : Machine Nat σ τ ν α) :
    firstError results (execute results table reducer entry m).1 =
      breakOfTurn (execute results table reducer entry m).2 := by
  induction entry with
  | shift target =>
    unfold execute
    cases hresult : results (m.supply + 1) with
    | error error => exact firstError_cons_of_error hresult []
    | ok token => exact firstError_cons_of_ok hresult []
  | branch lookahead ifEqual otherwise ihEqual ihOtherwise =>
    unfold execute
    cases hresult : results (m.supply + 1) with
    | error error => exact firstError_cons_of_error hresult []
    | ok token =>
      dsimp only
      rw [firstError_cons_of_ok hresult]
      split
      · exact ihEqual
      · exact ihOtherwise
  | reduce index => exact (breakOfTurn_reduce index m).symm
  | goto target => rfl
  | accept => rfl
  | error message => rfl

theorem firstError_run (limit : Nat) (m : Machine Nat σ τ ν α) :
    firstError results (run results table reducer limit m).1 =
      (run results table reducer limit m).2.bind fun outcome => breakOf outcome.1 := by
  induction limit generalizing m with
  | zero => rfl
  | succ limit ih =>
    have hexecute := firstError_execute results table reducer (m.entry table) m
    unfold run
    split
    · next heq =>
      rw [heq] at hexecute
      exact hexecute
    · next touched m' heq =>
      rw [heq] at hexecute
      have hnone : firstError results touched = none := hexecute
      have hlater := ih m'
      simp only [firstError] at hnone hlater ⊢
      rw [List.findSome?_append, hnone, hlater, Option.none_or]

/-- A parse is broken off by the first error that it touches. -/
theorem firstError_parse (limit : Nat) (memory : σ) :
    firstError results (parse results table reducer limit memory).1 =
      (parse results table reducer limit memory).2.bind fun outcome => breakOf outcome.1 := by
  unfold parse
  cases hresult : results 0 with
  | error error => exact firstError_cons_of_error hresult []
  | ok token =>
    dsimp only
    rw [firstError_cons_of_ok hresult]
    exact firstError_run results table reducer limit { supply := 0, token, memory }

end Errors

section Refinement

variable {contexts : Nat → Context} {fresh t : Tokenizer (Recognizer τ (NoCustom τ)) τ} {k : Nat}

/-- The tokenizer has given the result with this number and may have looked at the next
one. -/
def Related (contexts : Nat → Context) (fresh t : Tokenizer (Recognizer τ (NoCustom τ)) τ)
    (k : Nat) : Prop :=
  t = fresh.afterResults contexts (k + 1) ∨
    ∃ token, fresh.resultAt contexts (k + 1) = .ok token ∧
      t = { fresh.afterResults contexts (k + 2) with peeked? := some token }

omit [DecidableEq τ] [ToString τ] in
/-- In whatever context the next result is asked for, it is that of the sequence. -/
theorem next_afterResults (hfree : fresh.IsUnconditional) (hpeeked : fresh.peeked? = none)
    (contexts : Nat → Context) (context : Context) (k : Nat) :
    (fresh.afterResults contexts k).next context =
      (fresh.resultAt contexts k, fresh.afterResults contexts (k + 1)) := by
  have hnone := Tokenizer.peeked?_afterResults contexts hpeeked k
  have hunconditional := Tokenizer.isUnconditional_afterResults contexts hfree hpeeked k
  rw [Tokenizer.next_of_peeked?_eq_none hnone,
    Tokenizer.scan_congr hunconditional context (contexts k),
    Tokenizer.scan_afterResults contexts hpeeked]

omit [DecidableEq τ] [ToString τ] in
theorem exists_next_of_related (hfree : fresh.IsUnconditional) (hpeeked : fresh.peeked? = none)
    (h : Related contexts fresh t k) (context : Context) :
    ∃ t', t.next context = (fresh.resultAt contexts (k + 1), t') ∧
      Related contexts fresh t' (k + 1) := by
  refine ⟨fresh.afterResults contexts (k + 2), ?_, Or.inl rfl⟩
  rcases h with rfl | ⟨token, htoken, rfl⟩
  · exact next_afterResults hfree hpeeked contexts context (k + 1)
  · have hnone := Tokenizer.peeked?_afterResults contexts hpeeked (k + 2)
    rw [htoken, Tokenizer.next]
    dsimp only
    rw [← hnone]

omit [DecidableEq τ] [ToString τ] in
theorem exists_peek_of_related (hfree : fresh.IsUnconditional) (hpeeked : fresh.peeked? = none)
    (h : Related contexts fresh t k) (context : Context) :
    ∃ t', t.peek context = (fresh.resultAt contexts (k + 1), t') ∧
      ∀ token, fresh.resultAt contexts (k + 1) = .ok token → Related contexts fresh t' k := by
  rcases h with rfl | ⟨token, htoken, rfl⟩
  -- The first look scans for the next result, every later one finds it kept.
  · have hnone := Tokenizer.peeked?_afterResults contexts hpeeked (k + 1)
    have hscan := next_afterResults hfree hpeeked contexts context (k + 1)
    rw [Tokenizer.next_of_peeked?_eq_none hnone] at hscan
    simp only [Tokenizer.peek, hnone, hscan]
    cases hresult : fresh.resultAt contexts (k + 1) with
    | error error => exact ⟨_, rfl, by simp⟩
    | ok token =>
      refine ⟨_, rfl, ?_⟩
      intro _ _
      exact Or.inr ⟨token, hresult, rfl⟩
  · refine ⟨_, ?_, fun _ _ => Or.inr ⟨token, htoken, rfl⟩⟩
    rw [htoken]
    rfl

omit [DecidableEq ν] in
/-- A turn over the tokenizer is the turn over the results. -/
theorem sameTurn_execute (hfree : fresh.IsUnconditional) (hpeeked : fresh.peeked? = none)
    (table : Table τ ν) (reducer : Reducer σ τ ν α) (entry : Entry τ)
    (m : Machine (Tokenizer (Recognizer τ (NoCustom τ)) τ) σ τ ν α)
    (h : Related contexts fresh m.supply k) :
    Machine.SameTurn (Related contexts fresh) (m.execute table reducer entry)
      (execute (fresh.resultAt contexts) table reducer entry (m.withSupply k)).2 := by
  induction entry generalizing m with
  | shift target =>
    obtain ⟨t', hnext, hrest⟩ :=
      exists_next_of_related hfree hpeeked h (Context.ofState target)
    simp only [Machine.execute, Machine.shift, TokenSupply.next, hnext, execute, Machine.withSupply]
    cases fresh.resultAt contexts (k + 1) with
    | error error => exact .ends _ _
    | ok token => exact .goesOn _ hrest
  | branch lookahead ifEqual otherwise ihEqual ihOtherwise =>
    obtain ⟨t', hpeek, hrest⟩ :=
      exists_peek_of_related hfree hpeeked h (Context.ofState m.current)
    rw [Machine.execute, execute, show (m.withSupply k).supply = k from rfl]
    simp only [TokenSupply.peek, hpeek]
    cases hresult : fresh.resultAt contexts (k + 1) with
    | error error => exact .ends _ _
    | ok token =>
      dsimp only
      split
      · exact ihEqual { m with supply := t' } (hrest token hresult)
      · exact ihOtherwise { m with supply := t' } (hrest token hresult)
  | reduce index => exact Machine.sameTurn_reduce index m h
  | goto target => exact .goesOn _ h
  | accept => exact .ends _ _
  | error message => exact .ends _ _

theorem run_eq (hfree : fresh.IsUnconditional) (hpeeked : fresh.peeked? = none) (limit : Nat)
    (m : Machine (Tokenizer (Recognizer τ (NoCustom τ)) τ) σ τ ν α)
    (h : Related contexts fresh m.supply k) :
    m.run table reducer limit =
      (run (fresh.resultAt contexts) table reducer limit (m.withSupply k)).2 := by
  induction limit generalizing m k with
  | zero => rfl
  | succ limit ih =>
    have hturn := sameTurn_execute hfree hpeeked table reducer (m.entry table) m h
    unfold Machine.run run Machine.step
    rw [show (m.withSupply k).entry table = m.entry table from rfl]
    generalize m.execute table reducer (m.entry table) = turn at hturn ⊢
    generalize execute (fresh.resultAt contexts) table reducer (m.entry table) (m.withSupply k) =
      outcome at hturn ⊢
    obtain ⟨touched, turn'⟩ := outcome
    cases hturn with
    | ends ending memory => rfl
    | goesOn m' hrest => exact ih m' hrest

/-- A parse over the tokenizer ends like the parse of its results. -/
theorem parse_eq (hfree : fresh.IsUnconditional) (hpeeked : fresh.peeked? = none)
    (contexts : Nat → Context) (limit : Nat) (memory : σ) :
    ShiftReduce.parse table reducer limit fresh memory =
      (parse (fresh.resultAt contexts) table reducer limit memory).2 := by
  have hnext := next_afterResults hfree hpeeked contexts (Context.ofState 0) 0
  rw [Tokenizer.afterResults] at hnext
  simp only [ShiftReduce.parse, Machine.start, TokenSupply.next, hnext, parse]
  cases fresh.resultAt contexts 0 with
  | error error => rfl
  | ok token => exact run_eq hfree hpeeked limit _ (Or.inl rfl)

/-- If no recognizer is limited to some contexts, a parse of a text ends like the parse
of the results of its tokenizer, in which the end of the input is repeated. It is broken
off exactly by the first error among the results touched, and any other text with the
same results where they are touched is parsed alike. -/
theorem parse_refines_replay (b : Blueprint τ (NoCustom τ))
    (hfree : ∀ r ∈ b.recognizers, r.IsUnconditional) (text : List Char)
    (contexts : Nat → Context) (table : Table τ ν) (reducer : Reducer σ τ ν α) (limit : Nat)
    (memory : σ) :
    let results := (b.build (.text text)).resultAt contexts
    let touched := (parse results table reducer limit memory).1
    (∀ k, results k = .ok (Token.endOfInput b.endKind) →
      results (k + 1) = .ok (Token.endOfInput b.endKind)) ∧
    ShiftReduce.parse table reducer limit (b.build (.text text)) memory =
      (parse results table reducer limit memory).2 ∧
    (∀ error,
      (∃ memory', ShiftReduce.parse table reducer limit (b.build (.text text)) memory =
        some (.broken error, memory')) ↔ firstError results touched = some error) ∧
    ∀ other, (∀ i ∈ touched, (b.build (.text other)).resultAt contexts i = results i) →
      ShiftReduce.parse table reducer limit (b.build (.text other)) memory =
        ShiftReduce.parse table reducer limit (b.build (.text text)) memory := by
  intro results touched
  have hparse : ∀ text, ShiftReduce.parse table reducer limit (b.build (.text text)) memory =
      (parse ((b.build (.text text)).resultAt contexts) table reducer limit memory).2 := by
    intro text
    exact parse_eq (Blueprint.isUnconditional_build hfree (.text text)) rfl contexts limit memory
  refine ⟨?_, hparse text, ?_, ?_⟩
  · intro k hend
    exact Tokenizer.resultAt_succ_of_end contexts ⟨text, rfl⟩ rfl hend
  · intro error
    rw [hparse text, firstError_parse results table reducer limit memory]
    cases (parse results table reducer limit memory).2 with
    | none => simp
    | some outcome =>
      obtain ⟨ending, memory'⟩ := outcome
      cases ending <;> simp [breakOf]
  · intro other hother
    rw [hparse other, hparse text, parse_congr hother]

end Refinement

/-- Numbers whose values are dropped. -/
def numbers : Blueprint String (NoCustom String) where
  recognizers := [(Recognizer.number "num").mapValue fun _ => none]
  endKind := "$"

/-- Any number of numbers, with a look at what follows each of them. -/
def numbersTable : Table String String where
  grammar := {}
  rows := [{ entries := ⟨[("num", .branch "$" (.shift 0) (.shift 0)), ("$", .accept)]⟩ }]
  defaultEntry := .error defaultMessage

theorem parse_refines_numbers :
    (∀ r ∈ numbers.recognizers, r.IsUnconditional) ∧
      ShiftReduce.parse numbersTable (Reducer.silent : Reducer Unit String String Nat) 3
          (numbers.build (.text ['1', ' ', '2'])) () =
        (parse ((numbers.build (.text ['1', ' ', '2'])).resultAt fun _ => {}) numbersTable
          Reducer.silent 3 ()).2 := by
  have hfree : ∀ r ∈ numbers.recognizers, r.IsUnconditional := by
    intro r hr
    obtain rfl := List.mem_singleton.mp hr
    trivial
  exact ⟨hfree, (parse_refines_replay numbers hfree ['1', ' ', '2'] (fun _ => {}) numbersTable
    Reducer.silent 3 ()).2.1⟩

end Replay

end ShiftReduce
