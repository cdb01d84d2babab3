import ShiftReduce.Proofs.Calls
import ShiftReduce.Proofs.Sessions
import ShiftReduce.Proofs.Soundness

/-!
Reducers do not steer a parse. Two parses of one supply by the same table keep abreast,
whatever reducers they call and whatever these reducers remember: their states and tokens
are the same, and only the values of nonterminals differ. So both reducers are told the
same at every call, until one of them refuses. The parse of a reducer that refuses is over,
and its diagnostic is the refusal alone.
-/
namespace ShiftReduce

variable {ι σ σ' τ ν α β : Type}

open Reducer (Call)

/-- Two lists of calls that were told the same, none of which refused. -/
structure SameCalls (calls : List (Call τ ν α)) (calls' : List (Call τ ν β)) : Prop where
  told_eq : calls.map Call.told = calls'.map Call.told
  granted : ∀ c ∈ calls, ¬ c.Refuses
  granted' : ∀ c ∈ calls', ¬ c.Refuses

namespace SameCalls

variable {calls : List (Call τ ν α)} {calls' : List (Call τ ν β)}

theorem length_eq (h : SameCalls calls calls') : calls.length = calls'.length := by
  have hlengths := congrArg List.length h.told_eq
  rwa [List.length_map, List.length_map] at hlengths

theorem told_getElem? (h : SameCalls calls calls') (n : Nat) :
    calls[n]?.map Call.told = calls'[n]?.map Call.told := by
  rw [← List.getElem?_map, ← List.getElem?_map, h.told_eq]

variable {last : Call τ ν α} {last' : Call τ ν β}

theorem told_concat (h : SameCalls calls calls') (htold : last.told = last'.told) :
    (calls ++ [last]).map Call.told = (calls' ++ [last']).map Call.told := by
  rw [List.map_append, List.map_append, h.told_eq, List.map_singleton, htold, List.map_singleton]

theorem concat (h : SameCalls calls calls') (htold : last.told = last'.told)
    (hgranted : ¬ last.Refuses) (hgranted' : ¬ last'.Refuses) :
    SameCalls (calls ++ [last]) (calls' ++ [last']) where
  told_eq := h.told_concat htold
  granted c hc := by
    rcases List.mem_append.mp hc with hc | hc
    · exact h.granted c hc
    · rwa [List.mem_singleton.mp hc]
  granted' c hc := by
    rcases List.mem_append.mp hc with hc | hc
    · exact h.granted' c hc
    · rwa [List.mem_singleton.mp hc]

end SameCalls

namespace Machine

/-- Two machines that differ only in the values of nonterminals and in their memories. -/
structure Alike (m : Machine ι σ τ ν α) (m' : Machine ι σ' τ ν β) : Prop where
  supply_eq : m.supply = m'.supply
  states_eq : m.states = m'.states
  values_eq : m.values.map StackValue.token? = m'.values.map StackValue.token?
  token_eq : m.token = m'.token
  pending_eq : m.pending?.map Prod.fst = m'.pending?.map Prod.fst

theorem Alike.entry_eq [DecidableEq τ] [DecidableEq ν] {m : Machine ι σ τ ν α}
    {m' : Machine ι σ' τ ν β} (h : m.Alike m') (table : Table τ ν) :
    m.entry table = m'.entry table := by
  have hcurrent : m.current = m'.current := by rw [current, current, h.states_eq]
  have hpending := h.pending_eq
  unfold entry
  rw [hcurrent, h.token_eq]
  cases hfound : m.pending? with
  | none =>
    rw [hfound, Option.map_none] at hpending
    rw [Option.map_eq_none_iff.mp hpending.symm]
  | some pending =>
    rw [hfound, Option.map_some] at hpending
    obtain ⟨pending', hfound', hsame⟩ := Option.map_eq_some_iff.mp hpending.symm
    simp only [hfound', hsame]

end Machine

/-- How a parse has ended, without the value of the start symbol. -/
def Ending.verdict (ending : Ending α) : Except LexError (List String) :=
  ending.outcome.map Outcome.diagnostics

/-- The calls until this turn go on behind these, and if the last of these refused, there
are no more and the parse has been rejected for it. -/
def Turn.Passes (turn : Turn ι (σ × List (Call τ ν α)) τ ν α) (earlier : List (Call τ ν α))
    (last : Call τ ν α) : Prop :=
  ∃ later, turn.memory.2 = earlier ++ last :: later ∧
    ∀ message, last.answer = .error message →
      later = [] ∧ ∃ memory, turn = .ends (.rejected message) memory

/-- Two parses that keep abreast: both go on alike, or both have ended alike, or there were
two calls that were told the same, the first of which one was refused. -/
inductive Abreast :
    Turn ι (σ × List (Call τ ν α)) τ ν α → Turn ι (σ' × List (Call τ ν β)) τ ν β → Prop
  | goesOn {m : Machine ι (σ × List (Call τ ν α)) τ ν α}
      {m' : Machine ι (σ' × List (Call τ ν β)) τ ν β} (h : m.Alike m')
      (hcalls : SameCalls m.memory.2 m'.memory.2) : Abreast (.goesOn m) (.goesOn m')
  | ends {ending : Ending α} {ending' : Ending β} {memory : σ × List (Call τ ν α)}
      {memory' : σ' × List (Call τ ν β)} (hverdict : ending.verdict = ending'.verdict)
      (hcalls : SameCalls memory.2 memory'.2) : Abreast (.ends ending memory) (.ends ending' memory')
  | parts {turn : Turn ι (σ × List (Call τ ν α)) τ ν α}
      {turn' : Turn ι (σ' × List (Call τ ν β)) τ ν β} {earlier : List (Call τ ν α)}
      {earlier' : List (Call τ ν β)} {last : Call τ ν α} {last' : Call τ ν β}
      (hcalls : SameCalls earlier earlier') (htold : last.told = last'.told)
      (hrefuses : last.Refuses ∨ last'.Refuses) (hpasses : turn.Passes earlier last)
      (hpasses' : turn'.Passes earlier' last') : Abreast turn turn'

namespace Machine

variable {table : Table τ ν} {reducer : Reducer σ τ ν α} {reducer' : Reducer σ' τ ν β}
  {m : Machine ι (σ × List (Call τ ν α)) τ ν α} {m' : Machine ι (σ' × List (Call τ ν β)) τ ν β}

section Execute

variable [ToString τ] [ToString ν]

/-- The values that a reducer is given have the same tokens as those the other is given. -/
theorem abreast_reduce (h : m.Alike m') (hcalls : SameCalls m.memory.2 m'.memory.2) (index : Nat) :
    Abreast (m.reduce table reducer.listed index) (m'.reduce table reducer'.listed index) := by
  have hlength : m.values.length = m'.values.length := by
    have hlengths := congrArg List.length h.values_eq
    rwa [List.length_map, List.length_map] at hlengths
  simp only [reduce, ← hlength, ← h.states_eq]
  cases table.grammar.production? index with
  | none => exact .ends rfl hcalls
  | some production =>
    by_cases harity : m.values.length < production.rhs.length ∨
        m.states.length ≤ production.rhs.length
    · simp only [harity, if_true]
      exact .ends rfl hcalls
    · have hvalues : (m.values.take production.rhs.length).reverse.map StackValue.token? =
          (m'.values.take production.rhs.length).reverse.map StackValue.token? := by
        rw [List.map_reverse, List.map_take, h.values_eq, List.map_reverse, List.map_take]
      simp only [harity, if_false, Reducer.listed]
      generalize (m.values.take production.rhs.length).reverse = given at hvalues ⊢
      generalize (m'.values.take production.rhs.length).reverse = given' at hvalues ⊢
      generalize reducer index production given m.memory.1 = result
      generalize reducer' index production given' m'.memory.1 = result'
      obtain ⟨answer, memory⟩ := result
      obtain ⟨answer', memory'⟩ := result'
      have htold : Call.told ⟨index, production, given, answer⟩ =
          Call.told ⟨index, production, given', answer'⟩ := by
        simp only [Call.told, hvalues]
      -- Only where both reducers give a value do both machines go on together.
      cases answer with
      | error message =>
        refine .parts hcalls htold (Or.inl ⟨message, rfl⟩) ⟨[], rfl, ?_⟩ ?_
        · rintro _ ⟨⟩
          exact ⟨rfl, _, rfl⟩
        · cases answer' with
          | error message' =>
            refine ⟨[], rfl, ?_⟩
            rintro _ ⟨⟩
            exact ⟨rfl, _, rfl⟩
          | ok value' => exact ⟨[], rfl, by simp⟩
      | ok value? =>
        cases answer' with
        | error message' =>
          refine .parts hcalls htold (Or.inr ⟨message', rfl⟩) ⟨[], rfl, by simp⟩ ⟨[], rfl, ?_⟩
          rintro _ ⟨⟩
          exact ⟨rfl, _, rfl⟩
        | ok value' =>
          have hrest : (m.values.drop production.rhs.length).map StackValue.token? =
              (m'.values.drop production.rhs.length).map StackValue.token? := by
            rw [List.map_drop, h.values_eq, List.map_drop]
          exact .goesOn ⟨h.supply_eq, rfl, hrest, h.token_eq, rfl⟩
            (hcalls.concat htold (by simp [Call.Refuses]) (by simp [Call.Refuses]))

variable [TokenSupply ι τ] [DecidableEq τ]

theorem abreast_execute (h : m.Alike m') (hcalls : SameCalls m.memory.2 m'.memory.2)
    (entry : Entry τ) :
    Abreast (m.execute table reducer.listed entry) (m'.execute table reducer'.listed entry) := by
  induction entry generalizing m m' with
  | shift target =>
    simp only [execute, shift, ← h.supply_eq]
    generalize TokenSupply.next (Context.ofState target) m.supply = answer
    obtain ⟨item, supply⟩ := answer
    cases item with
    | error error => exact .ends rfl hcalls
    | ok token =>
      refine .goesOn ⟨rfl, ?_, ?_, rfl, h.pending_eq⟩ hcalls
      · exact congrArg (List.cons target) h.states_eq
      · simp only [List.map_cons, StackValue.token?, h.token_eq, h.values_eq]
  | reduce index => exact abreast_reduce h hcalls index
  | goto target =>
    refine .goesOn ⟨h.supply_eq, ?_, ?_, h.token_eq, rfl⟩ hcalls
    · exact congrArg (List.cons target) h.states_eq
    · simp only [List.map_cons, StackValue.token?, h.values_eq]
  | accept => exact .ends rfl hcalls
  | error message => exact .ends rfl hcalls
  | branch lookahead ifEqual otherwise ihEqual ihOtherwise =>
    have hcurrent : m'.current = m.current := by rw [current, current, h.states_eq]
    rw [execute, execute, hcurrent, ← h.supply_eq]
    generalize TokenSupply.peek (Context.ofState m.current) m.supply = answer
    obtain ⟨item, supply⟩ := answer
    cases item with
    | error error => exact .ends rfl hcalls
    | ok token =>
      have hlooked : Alike { m with supply } { m' with supply } :=
        ⟨rfl, h.states_eq, h.values_eq, h.token_eq, h.pending_eq⟩
      dsimp only
      split
      · exact ihEqual hlooked hcalls
      · exact ihOtherwise hlooked hcalls

end Execute

variable [TokenSupply ι τ] [DecidableEq τ] [DecidableEq ν] [ToString τ] [ToString ν]

/-- What a turn has passed stays behind it: a parse that goes on only makes more calls. -/
theorem passes_after {earlier : List (Call τ ν α)} {last : Call τ ν α}
    (h : (m.step table reducer.listed).Passes earlier last) (count : Nat) :
    (m.after table reducer.listed (count + 1)).Passes earlier last := by
  unfold after
  cases hstep : m.step table reducer.listed with
  | ends ending memory => rwa [hstep] at h
  | goesOn next =>
    rw [hstep] at h
    obtain ⟨later, hlater, hrefused⟩ := h
    obtain ⟨more, hmore⟩ := exists_later_of_after table reducer count next
    refine ⟨later ++ more, ?_, ?_⟩
    · have hnext : next.memory.2 = earlier ++ last :: later := hlater
      rw [hmore, hnext, List.append_assoc, List.cons_append]
    · intro message hanswer
      obtain ⟨-, memory, hends⟩ := hrefused message hanswer
      cases hends

/-- Machines that are alike keep abreast for any number of turns. -/
theorem abreast_after (h : m.Alike m') (hcalls : SameCalls m.memory.2 m'.memory.2) (count : Nat) :
    Abreast (m.after table reducer.listed count) (m'.after table reducer'.listed count) := by
  induction count generalizing m m' with
  | zero => exact .goesOn h hcalls
  | succ count ih =>
    have hstep : Abreast (m.step table reducer.listed) (m'.step table reducer'.listed) := by
      unfold step
      rw [← h.entry_eq table]
      exact abreast_execute h hcalls (m.entry table)
    generalize hturn : m.step table reducer.listed = turn at hstep
    generalize hturn' : m'.step table reducer'.listed = turn' at hstep
    cases hstep with
    | goesOn hnext hmore =>
      simp only [after, hturn, hturn']
      exact ih hnext hmore
    | ends hverdict hmore =>
      simp only [after, hturn, hturn']
      exact .ends hverdict hmore
    | parts hearlier htold hrefuses hpasses hpasses' =>
      rw [← hturn] at hpasses
      rw [← hturn'] at hpasses'
      exact .parts hearlier htold hrefuses (passes_after hpasses count) (passes_after hpasses' count)

end Machine

/-- Where none of the first calls refuses, there are no more of them than come before one
that does. -/
theorem le_length_of_granted {earlier later : List (Call τ ν α)} {last : Call τ ν α} {n : Nat}
    (hrefuses : last.Refuses) (h : ∀ c ∈ (earlier ++ last :: later).take n, ¬ c.Refuses) :
    n ≤ earlier.length := by
  apply Nat.le_of_not_lt
  intro hlt
  have hplace : ((earlier ++ last :: later).take n)[earlier.length]? = some last := by
    rw [List.getElem?_take_of_lt hlt, List.getElem?_append_right (Nat.le_refl _), Nat.sub_self]
    rfl
  exact h last (List.mem_of_getElem? hplace) hrefuses

namespace Abreast

variable {turn : Turn ι (σ × List (Call τ ν α)) τ ν α}
  {turn' : Turn ι (σ' × List (Call τ ν β)) τ ν β}

/-- As long as nothing is refused, the next calls are told the same. -/
theorem told_eq (h : Abreast turn turn') {n : Nat}
    (hgranted : ∀ c ∈ turn.memory.2.take n, ¬ c.Refuses)
    (hgranted' : ∀ c ∈ turn'.memory.2.take n, ¬ c.Refuses) :
    turn.memory.2[n]?.map Call.told = turn'.memory.2[n]?.map Call.told := by
  cases h with
  | goesOn _ hcalls => exact hcalls.told_getElem? n
  | ends _ hcalls => exact hcalls.told_getElem? n
  | @parts _ _ earlier earlier' last last' hcalls htold hrefuses hpasses hpasses' =>
    obtain ⟨later, hlater, -⟩ := hpasses
    obtain ⟨later', hlater', -⟩ := hpasses'
    rw [hlater] at hgranted ⊢
    rw [hlater'] at hgranted' ⊢
    have hlength := hcalls.length_eq
    have hn : n ≤ earlier.length := by
      rcases hrefuses with hrefuses | hrefuses
      · exact le_length_of_granted hrefuses hgranted
      · rw [hlength]
        exact le_length_of_granted hrefuses hgranted'
    -- The call with number n comes no later than the one that parts them.
    have hfront : n < (earlier ++ [last]).length := by
      rw [List.length_append, List.length_singleton]
      omega
    have hfront' : n < (earlier' ++ [last']).length := by
      rw [List.length_append, List.length_singleton]
      omega
    rw [List.append_cons earlier, List.append_cons earlier', List.getElem?_append_left hfront,
      List.getElem?_append_left hfront', ← List.getElem?_map, ← List.getElem?_map,
      hcalls.told_concat htold]

/-- Where nothing is refused, both parses have come equally far, and to the same end. -/
theorem verdict_eq (h : Abreast turn turn') (hgranted : ∀ c ∈ turn.memory.2, ¬ c.Refuses)
    (hgranted' : ∀ c ∈ turn'.memory.2, ¬ c.Refuses) :
    (turn.result?.map fun result => result.1.verdict) =
      turn'.result?.map fun result => result.1.verdict := by
  cases h with
  | goesOn _ _ => rfl
  | ends hverdict _ => exact congrArg some hverdict
  | parts _ _ hrefuses hpasses hpasses' =>
    obtain ⟨later, hlater, -⟩ := hpasses
    obtain ⟨later', hlater', -⟩ := hpasses'
    rcases hrefuses with hrefuses | hrefuses
    · exact absurd hrefuses (hgranted _ (by simp [hlater]))
    · exact absurd hrefuses (hgranted' _ (by simp [hlater']))

/-- If the first to be refused is a call of the first parse, this parse has ended with it,
and the other one has made the same calls so far. -/
theorem refusal (h : Abreast turn turn') {n : Nat} {c : Call τ ν α} {message : String}
    (hc : turn.memory.2[n]? = some c) (hrefused : c.answer = .error message)
    (hgranted' : ∀ c ∈ turn'.memory.2.take (n + 1), ¬ c.Refuses) :
    (∃ memory, turn = .ends (.rejected message) memory) ∧ turn.memory.2.length = n + 1 ∧
      turn.memory.2.map Call.told = (turn'.memory.2.take (n + 1)).map Call.told := by
  have hrefuses : c.Refuses := ⟨message, hrefused⟩
  cases h with
  | goesOn _ hcalls => exact absurd hrefuses (hcalls.granted c (List.mem_of_getElem? hc))
  | ends _ hcalls => exact absurd hrefuses (hcalls.granted c (List.mem_of_getElem? hc))
  | @parts _ _ earlier earlier' last last' hcalls htold hparted hpasses hpasses' =>
    obtain ⟨later, hlater, hended⟩ := hpasses
    obtain ⟨later', hlater', -⟩ := hpasses'
    have hlength := hcalls.length_eq
    rw [hlater'] at hgranted' ⊢
    have hlate : earlier.length ≤ n := by
      apply Nat.le_of_not_lt
      intro hlt
      rw [hlater, List.getElem?_append_left hlt] at hc
      exact hcalls.granted c (List.mem_of_getElem? hc) hrefuses
    -- The call that parted them is not refused by the other reducer, so it is this one.
    obtain ⟨message', hlast⟩ : last.Refuses := by
      rcases hparted with hparted | hparted
      · exact hparted
      · have hbefore := le_length_of_granted hparted hgranted'
        omega
    obtain ⟨rfl, memory, hends⟩ := hended message' hlast
    have hplace : n < (earlier ++ [last]).length := by
      rw [hlater] at hc
      exact (List.getElem?_eq_some_iff.mp hc).1
    rw [List.length_append, List.length_singleton] at hplace
    obtain rfl : n = earlier.length := by omega
    obtain rfl : last = c := by simpa [hlater] using hc
    obtain rfl : message' = message := by
      rw [hlast] at hrefused
      exact Except.error.inj hrefused
    refine ⟨⟨memory, hends⟩, by rw [hlater, List.length_append, List.length_singleton], ?_⟩
    have htake : (earlier' ++ last' :: later').take (earlier.length + 1) = earlier' ++ [last'] := by
      rw [List.append_cons, List.take_left' (by rw [List.length_append, hlength]; rfl)]
    rw [hlater, htake, hcalls.told_concat htold]

end Abreast

section Parses

variable [TokenSupply ι τ] [DecidableEq τ] [DecidableEq ν] [ToString τ] [ToString ν]
  (table : Table τ ν) (reducer : Reducer σ τ ν α) (reducer' : Reducer σ' τ ν β) (supply : ι)

theorem abreast_progress (memory : σ) (memory' : σ') (limit : Nat) :
    Abreast (progress table reducer.listed limit supply (memory, []))
      (progress table reducer'.listed limit supply (memory', [])) := by
  have hnone : SameCalls ([] : List (Call τ ν α)) ([] : List (Call τ ν β)) :=
    ⟨rfl, by simp, by simp⟩
  unfold progress Machine.start
  cases TokenSupply.next (Context.ofState 0) supply with
  | mk item rest =>
    cases item with
    | error error => exact .ends rfl hnone
    | ok token =>
      apply Machine.abreast_after
      · exact ⟨rfl, rfl, rfl, rfl, rfl⟩
      · exact hnone

/-- What a session reports can be read off the parse that lists its calls. -/
theorem session_parse_eq (memory : σ) (limit : Nat) :
    Session.parse table reducer limit supply memory =
      (progress table reducer.listed limit supply (memory, [])).result?.map
        fun (ending, memory) => (ending.outcome, memory.1) := by
  rw [Session.parse_eq, parse_eq_progress, progress_listed]
  cases progress table reducer.listed limit supply (memory, []) with
  | goesOn m => rfl
  | ends ending memory => rfl

/-- As long as neither of two reducers has refused, their next calls are told the same. If
none of them refuses, the parses report the same diagnostics or are broken off by the same
error, or neither has ended. If a call of one is refused, and none of the other until then,
its parse is over with this call; it reports the refusal as the only diagnostic and no
value, and the other parse has made the same calls until then. -/
theorem reducers_do_not_steer (memory : σ) (memory' : σ') (limit : Nat) :
    let made := calls table reducer limit supply memory
    let made' := calls table reducer' limit supply memory'
    (∀ n, (∀ c ∈ made.take n, ¬ c.Refuses) → (∀ c ∈ made'.take n, ¬ c.Refuses) →
        made[n]?.map Call.told = made'[n]?.map Call.told) ∧
      ((∀ c ∈ made, ¬ c.Refuses) → (∀ c ∈ made', ¬ c.Refuses) →
        ((Session.parse table reducer limit supply memory).map fun result =>
            result.1.map Outcome.diagnostics) =
          (Session.parse table reducer' limit supply memory').map fun result =>
            result.1.map Outcome.diagnostics) ∧
      ∀ n c message, made[n]? = some c → c.answer = .error message →
        (∀ c ∈ made'.take (n + 1), ¬ c.Refuses) →
          (∃ memory'', Session.parse table reducer limit supply memory =
            some (.ok ⟨none, [message]⟩, memory'')) ∧
          made.length = n + 1 ∧ made.map Call.told = (made'.take (n + 1)).map Call.told := by
  intro made made'
  have habreast := abreast_progress table reducer reducer' supply memory memory' limit
  refine ⟨fun n => habreast.told_eq, ?_, ?_⟩
  · intro hgranted hgranted'
    have hverdict := habreast.verdict_eq hgranted hgranted'
    rw [session_parse_eq, session_parse_eq, Option.map_map, Option.map_map]
    exact hverdict
  · intro n c message hc hrefused hgranted'
    obtain ⟨⟨memory'', hends⟩, hlength, htold⟩ := habreast.refusal hc hrefused hgranted'
    refine ⟨⟨memory''.1, ?_⟩, hlength, htold⟩
    rw [session_parse_eq, hends]
    rfl

end Parses

/-- No call that was answered with a value refuses. -/
theorem granted_of_answers {calls : List (Call τ ν α)} {values : List (Option α)}
    (h : calls.map Call.answer = values.map .ok) : ∀ c ∈ calls, ¬ c.Refuses := by
  rintro c hc ⟨message, hrefused⟩
  have hanswer : c.answer ∈ calls.map Call.answer := List.mem_map_of_mem hc
  rw [h, hrefused] at hanswer
  obtain ⟨value?, -, heq⟩ := List.mem_map.mp hanswer
  cases heq

/-- A token of the terminal that is repeated. -/
def repeated : Token String := Token.ofText "a" "a" none

/-- Two of them. -/
def twice : TokenList := ⟨[repeated, repeated]⟩

/-- A reducer that refuses all calls but the first. -/
def onlyOnce : Reducer Nat String String Unit := fun _ _ _ count =>
  if count = 0 then (.ok none, 1) else (.error "Once is enough", count + 1)

/-- The second reduction is refused, so the parse is over. The reducer that builds trees was
told the same until then, and its parse reports what is reported without any values. -/
theorem reducers_do_not_steer_onlyOnce :
    let made := calls repetitionTable onlyOnce 10 twice 0
    let made' := calls repetitionTable SyntaxTree.builder 10 twice []
    made[1]?.map Call.answer = some (.error "Once is enough") ∧
      (∀ c ∈ made.take 1, ¬ c.Refuses) ∧ (∀ c ∈ made', ¬ c.Refuses) ∧
      made[1]?.map Call.told = made'[1]?.map Call.told ∧
      (∃ memory, Session.parse repetitionTable onlyOnce 10 twice 0 =
        some (.ok ⟨none, ["Once is enough"]⟩, memory)) ∧
      ((Session.parse repetitionTable SyntaxTree.builder 10 twice []).map fun result =>
          result.1.map Outcome.diagnostics) =
        (Session.parse repetitionTable (Reducer.silent (α := Unit)) 10 twice ()).map fun result =>
          result.1.map Outcome.diagnostics := by
  intro made made'
  have hmade : made =
      [⟨1, ⟨"S", [.terminal "a"]⟩, [.terminal repeated], .ok none⟩,
        ⟨0, ⟨"S", [.nonterminal "S", .terminal "a"]⟩, [.nonterminal none, .terminal repeated],
          .error "Once is enough"⟩] := rfl
  have hanswers : made'.map Call.answer = [some (.node "S" [.leaf "a" "a"]),
      some (.node "S" [.node "S" [.leaf "a" "a"], .leaf "a" "a"])].map .ok := rfl
  have hsilent : (calls repetitionTable (Reducer.silent (α := Unit)) 10 twice ()).map Call.answer =
      [none, none].map .ok := rfl
  have hfirst : ∀ c ∈ made.take 1, ¬ c.Refuses := by simp [hmade, Call.Refuses]
  have hgranted : ∀ c ∈ made', ¬ c.Refuses := granted_of_answers hanswers
  have hfront : ∀ n, ∀ c ∈ made'.take n, ¬ c.Refuses := by
    intro n c hc
    exact hgranted c (List.mem_of_mem_take hc)
  obtain ⟨hsame, -, hrefusal⟩ :=
    reducers_do_not_steer repetitionTable onlyOnce SyntaxTree.builder twice 0 [] 10
  obtain ⟨-, hverdict, -⟩ := reducers_do_not_steer repetitionTable SyntaxTree.builder
    (Reducer.silent (α := Unit)) twice [] () 10
  have hsecond : made[1]? = some ⟨0, ⟨"S", [.nonterminal "S", .terminal "a"]⟩,
      [.nonterminal none, .terminal repeated], .error "Once is enough"⟩ := by
    rw [hmade]
    rfl
  refine ⟨by rw [hsecond]; rfl, hfirst, hgranted, hsame 1 hfirst (hfront 1), ?_,
    hverdict hgranted (granted_of_answers hsilent)⟩
  exact (hrefusal 1 _ _ hsecond rfl (hfront 2)).1

end ShiftReduce
