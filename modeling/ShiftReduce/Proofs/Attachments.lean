import ShiftReduce.Proofs.Calls
import ShiftReduce.Proofs.Lookups
import ShiftReduce.Proofs.Soundness

/-!
Attached reducers. A reducer is attached to a number, to a written form, which addresses the
last production that is written so, or to all productions. Each attachment takes the place of
the earlier ones to the same production, however that was addressed. So in a parse over the
grammar every reduction runs one reducer: the last one attached to its production, or else the
last one attached to all; if there is neither, nothing is run and no value is given.
-/
namespace ShiftReduce

variable {ι σ τ ν α : Type}

/-- The last element of a list with a property. -/
def IsLast {β : Type} (p : β → Prop) (list : List β) (b : β) : Prop :=
  ∃ earlier later, list = earlier ++ b :: later ∧ p b ∧ ∀ c ∈ later, ¬ p c

section IsLast

variable {β : Type} {p : β → Prop} {list : List β} {b c : β}

theorem not_isLast_nil : ¬ IsLast p [] b := by
  rintro ⟨earlier, later, hsplit, -⟩
  exact absurd hsplit (by simp)

/-- Where a list with one element more is cut at an element, this is the new one, or the new one
is behind it. -/
theorem cut_of_concat_eq {earlier later : List β} (h : list ++ [b] = earlier ++ c :: later) :
    c = b ∧ later = [] ∨ ∃ between, later = between ++ [b] ∧ list = earlier ++ c :: between := by
  rcases List.eq_nil_or_concat later with rfl | ⟨between, d, rfl⟩
  · exact Or.inl ⟨(List.append_singleton_inj.mp h).2.symm, rfl⟩
  · rw [List.concat_eq_append, ← List.cons_append, ← List.append_assoc] at h
    obtain ⟨hlist, rfl⟩ := List.append_singleton_inj.mp h
    exact Or.inr ⟨between, List.concat_eq_append, hlist⟩

theorem isLast_concat_of (hb : p b) : IsLast p (list ++ [b]) c ↔ c = b := by
  constructor
  · rintro ⟨earlier, later, hsplit, -, hlater⟩
    rcases cut_of_concat_eq hsplit with ⟨hc, -⟩ | ⟨between, rfl, -⟩
    · exact hc
    · exact absurd hb (hlater b (by simp))
  · rintro rfl
    exact ⟨list, [], rfl, hb, by simp⟩

theorem isLast_concat_of_not (hb : ¬ p b) : IsLast p (list ++ [b]) c ↔ IsLast p list c := by
  constructor
  · rintro ⟨earlier, later, hsplit, hc, hlater⟩
    rcases cut_of_concat_eq hsplit with ⟨rfl, -⟩ | ⟨between, rfl, hlist⟩
    · exact absurd hc hb
    · exact ⟨earlier, between, hlist, hc, fun d hd => hlater d (List.mem_append_left _ hd)⟩
  · rintro ⟨earlier, later, rfl, hc, hlater⟩
    refine ⟨earlier, later ++ [b], by simp, hc, ?_⟩
    intro d hd
    rcases List.mem_append.mp hd with hd | hd
    · exact hlater d hd
    · rwa [List.mem_singleton.mp hd]

/-- If an element has the property, some element is the last one to have it. -/
theorem exists_isLast (h : ∃ b ∈ list, p b) : ∃ b, IsLast p list b := by
  induction list using List.reverseRecOn with
  | nil => simp at h
  | append_singleton list a ih =>
    by_cases ha : p a
    · exact ⟨a, (isLast_concat_of ha).mpr rfl⟩
    · obtain ⟨b, hb, hpb⟩ := h
      rcases List.mem_append.mp hb with hb | hb
      · obtain ⟨c, hc⟩ := ih ⟨b, hb, hpb⟩
        exact ⟨c, (isLast_concat_of_not ha).mpr hc⟩
      · exact absurd (List.mem_singleton.mp hb ▸ hpb) ha

/-- What is taken from the last element with the property is nothing if there is no such
element. -/
theorem eq_none_iff_of_isLast {γ : Type} {f : β → γ} {found? : Option γ}
    (h : ∀ found, found? = some found ↔ ∃ b, IsLast p list b ∧ f b = found) :
    found? = none ↔ ∀ b ∈ list, ¬ p b := by
  rw [Option.eq_none_iff_forall_ne_some]
  constructor
  · intro hnone b hb hpb
    obtain ⟨c, hc⟩ := exists_isLast ⟨b, hb, hpb⟩
    exact hnone (f c) ((h (f c)).mpr ⟨c, hc, rfl⟩)
  · rintro hnone found hfound
    obtain ⟨c, ⟨earlier, later, rfl, hc, -⟩, -⟩ := (h found).mp hfound
    exact hnone c (by simp) hc

end IsLast

/-- An attachment of a reducer to the production with a number, to one with a written form, or
to all that have none of their own. -/
inductive Attachment (σ τ ν α : Type) where
  | toIndex (index : Nat) (reduction : Reduction σ τ ν α)
  | toDisplay (display : String) (reduction : Reduction σ τ ν α)
  | toAll (reduction : Reduction σ τ ν α)

namespace Attachment

/-- What is attached. -/
def reduction : Attachment σ τ ν α → Reduction σ τ ν α
  | .toIndex _ reduction => reduction
  | .toDisplay _ reduction => reduction
  | .toAll reduction => reduction

/-- The attachment is to all productions. -/
def IsCommon : Attachment σ τ ν α → Prop
  | .toAll _ => True
  | _ => False

variable [ToString τ] [ToString ν]

/-- The set of reducers after the attachment. -/
def perform (g : Grammar τ ν) (s : ReducerSet σ τ ν α) :
    Attachment σ τ ν α → Except GrammarError (ReducerSet σ τ ν α)
  | .toIndex index reduction => s.attach g index reduction
  | .toDisplay display reduction => s.attachDisplay g display reduction
  | .toAll reduction => .ok (s.attachCommon reduction)

/-- The attachment is to the production with this number. -/
def Addresses (g : Grammar τ ν) (index : Nat) : Attachment σ τ ν α → Prop
  | .toIndex place _ => index = place ∧ index < g.size
  | .toDisplay display _ => IsGreatest (g.writtenAs display) index
  | .toAll _ => False

/-- There is no production for the attachment. -/
inductive FailsWith (g : Grammar τ ν) : Attachment σ τ ν α → GrammarError → Prop
  | index {index : Nat} {reduction : Reduction σ τ ν α} (h : g.size ≤ index) :
      FailsWith g (.toIndex index reduction) (.unknownIndex index g.size)
  | display {display : String} {reduction : Reduction σ τ ν α}
      (h : ∀ p ∈ g.productions, p.display ≠ display) :
      FailsWith g (.toDisplay display reduction) (.unknownDisplay display)

variable {g : Grammar τ ν} {s s' : ReducerSet σ τ ν α} {a : Attachment σ τ ν α}

theorem perform_eq_error_iff {error : GrammarError} :
    a.perform g s = .error error ↔ a.FailsWith g error := by
  cases a with
  | toIndex index reduction =>
    simp only [perform, ReducerSet.attach, Grammar.checkIndex]
    split
    · next hlt =>
      refine ⟨fun h => (by cases h), fun h => ?_⟩
      cases h with
      | index hle => exact absurd hlt (Nat.not_lt_of_le hle)
    · next hlt =>
      constructor
      · rintro ⟨⟩
        exact .index (Nat.le_of_not_lt hlt)
      · rintro ⟨⟩
        rfl
  | toDisplay display reduction =>
    have hfound : (∃ index, g.find? display = some index) ↔
        ∃ p ∈ g.productions, p.display = display := Grammar.exists_find?_iff
    simp only [perform, ReducerSet.attachDisplay]
    cases hfind : g.find? display with
    | some index =>
      obtain ⟨p, hp, hdisplay⟩ := hfound.mp ⟨index, hfind⟩
      refine ⟨fun h => (by cases h), fun h => ?_⟩
      cases h with
      | display hnone => exact absurd hdisplay (hnone p hp)
    | none =>
      constructor
      · rintro ⟨⟩
        refine .display fun p hp hdisplay => ?_
        obtain ⟨index, hindex⟩ := hfound.mpr ⟨p, hp, hdisplay⟩
        rw [hfind] at hindex
        cases hindex
      · rintro ⟨⟩
        rfl
  | toAll reduction => exact ⟨fun h => (by cases h), fun h => by cases h⟩

/-- An attachment to all productions changes what is common to them, and any other one what
belongs to the production that it addresses. -/
theorem perform_cases (h : a.perform g s = .ok s') :
    (a.IsCommon ∧ (∀ index, ¬ a.Addresses g index) ∧
        s' = { s with common? := some a.reduction }) ∨
      ¬ a.IsCommon ∧ ∃ index, (∀ other, a.Addresses g other ↔ other = index) ∧
        s' = { s with byProduction := s.byProduction.set index a.reduction } := by
  cases a with
  | toIndex index reduction =>
    simp only [perform, ReducerSet.attach, Grammar.checkIndex] at h
    split at h
    · next hlt =>
      cases h
      exact Or.inr ⟨id, index, fun other => ⟨And.left, fun heq => ⟨heq, heq ▸ hlt⟩⟩, rfl⟩
    · cases h
  | toDisplay display reduction =>
    simp only [perform, ReducerSet.attachDisplay] at h
    split at h
    · next index hfind =>
      cases h
      have hgreatest := Grammar.find?_eq_some_iff.mp hfind
      exact Or.inr ⟨id, index, fun other => ⟨fun hother => hother.unique hgreatest,
        fun heq => heq ▸ hgreatest⟩, rfl⟩
    · cases h
  | toAll reduction =>
    cases h
    exact Or.inl ⟨trivial, fun _ => id, rfl⟩

/-- The set of reducers after some attachments, the first of which finds it empty. -/
def performAll (g : Grammar τ ν) (attachments : List (Attachment σ τ ν α)) :
    Except GrammarError (ReducerSet σ τ ν α) :=
  attachments.foldlM (fun s a => a.perform g s) {}

theorem performAll_concat (attachments : List (Attachment σ τ ν α)) :
    performAll g (attachments ++ [a]) =
      match performAll g attachments with
      | .error error => .error error
      | .ok s => a.perform g s := by
  rw [performAll, List.foldlM_append]
  change (performAll g attachments >>= fun s => [a].foldlM (fun s a => a.perform g s) s) = _
  cases performAll g attachments with
  | error error => rfl
  | ok s =>
    change (a.perform g s >>= fun s => .ok s) = a.perform g s
    cases a.perform g s <;> rfl

/-- Attachments succeed exactly if there is a production for each of them. -/
theorem exists_performAll_iff {attachments : List (Attachment σ τ ν α)} :
    (∃ s, performAll g attachments = .ok s) ↔
      ∀ a ∈ attachments, ∀ error, ¬ a.FailsWith g error := by
  induction attachments using List.reverseRecOn with
  | nil => exact ⟨fun _ => by simp, fun _ => ⟨_, rfl⟩⟩
  | append_singleton attachments a ih =>
    rw [performAll_concat, List.forall_mem_append, ← ih]
    cases hbefore : performAll g attachments with
    | error error => simp
    | ok s =>
      simp only [List.mem_singleton, forall_eq, ← perform_eq_error_iff (s := s)]
      cases a.perform g s <;> simp

end Attachment

/-- The reducer that is to run for a production: of those attached to it the last, or else of
those attached to all the last, or else the one that does nothing. -/
inductive Serves [ToString τ] [ToString ν] (g : Grammar τ ν)
    (attachments : List (Attachment σ τ ν α)) (index : Nat) : Reduction σ τ ν α → Prop
  | own {a : Attachment σ τ ν α} (hlast : IsLast (Attachment.Addresses g index) attachments a) :
      Serves g attachments index a.reduction
  | common {a : Attachment σ τ ν α} (hown : ∀ b ∈ attachments, ¬ b.Addresses g index)
      (hlast : IsLast Attachment.IsCommon attachments a) : Serves g attachments index a.reduction
  | nothing (hown : ∀ b ∈ attachments, ¬ b.Addresses g index)
      (hcommon : ∀ b ∈ attachments, ¬ b.IsCommon) :
      Serves g attachments index fun _ _ memory => (.ok none, memory)

namespace ReducerSet

variable [ToString τ] [ToString ν] {g : Grammar τ ν} {s : ReducerSet σ τ ν α}
  {attachments : List (Attachment σ τ ν α)}

/-- The set holds what was attached last. -/
structure Reflects (s : ReducerSet σ τ ν α) (g : Grammar τ ν)
    (attachments : List (Attachment σ τ ν α)) : Prop where
  own : ∀ index reduction, s.byProduction.get? index = some reduction ↔
    ∃ a, IsLast (Attachment.Addresses g index) attachments a ∧ a.reduction = reduction
  common : ∀ reduction, s.common? = some reduction ↔
    ∃ a, IsLast Attachment.IsCommon attachments a ∧ a.reduction = reduction

theorem Reflects.perform {a : Attachment σ τ ν α} {s' : ReducerSet σ τ ν α}
    (h : s.Reflects g attachments) (hperform : a.perform g s = .ok s') :
    s'.Reflects g (attachments ++ [a]) := by
  rcases Attachment.perform_cases hperform with
    ⟨hcommon, haddress, rfl⟩ | ⟨hcommon, place, haddress, rfl⟩
  · constructor
    · intro index reduction
      simp only [isLast_concat_of_not (haddress index)]
      exact h.own index reduction
    · intro reduction
      simp only [isLast_concat_of hcommon, exists_eq_left, Option.some_inj]
  · constructor
    · intro index reduction
      by_cases hindex : index = place
      · simp only [isLast_concat_of ((haddress index).mpr hindex), exists_eq_left]
        rw [hindex, Dictionary.get?_set_self, Option.some_inj]
      · simp only [isLast_concat_of_not (mt (haddress index).mp hindex)]
        rw [Dictionary.get?_set_of_ne _ _ hindex]
        exact h.own index reduction
    · intro reduction
      simp only [isLast_concat_of_not hcommon]
      exact h.common reduction

theorem reflects_performAll (h : Attachment.performAll g attachments = .ok s) :
    s.Reflects g attachments := by
  induction attachments using List.reverseRecOn generalizing s with
  | nil =>
    cases h
    constructor
    · intro index reduction
      simp [not_isLast_nil]
    · intro reduction
      simp [not_isLast_nil]
  | append_singleton attachments a ih =>
    rw [Attachment.performAll_concat] at h
    split at h
    · cases h
    · next before hbefore => exact (ih hbefore).perform h

/-- Exactly one reducer serves a production: the one that the set calls. -/
theorem Reflects.serves_iff (h : s.Reflects g attachments) {index : Nat}
    {reduction : Reduction σ τ ν α} :
    Serves g attachments index reduction ↔ reduction = s.reducer index := by
  have hown := eq_none_iff_of_isLast (h.own index)
  have hcommon := eq_none_iff_of_isLast h.common
  unfold reducer
  constructor
  · rintro (hlast | ⟨hnone, hlast⟩ | ⟨hnone, hnone'⟩)
    · rw [(h.own index _).mpr ⟨_, hlast, rfl⟩]
    · rw [hown.mpr hnone, (h.common _).mpr ⟨_, hlast, rfl⟩]
    · rw [hown.mpr hnone, hcommon.mpr hnone']
      rfl
  · rintro rfl
    cases hget : s.byProduction.get? index with
    | some reduction =>
      obtain ⟨a, hlast, rfl⟩ := (h.own index reduction).mp hget
      exact .own hlast
    | none =>
      cases hall : s.common? with
      | some reduction =>
        obtain ⟨a, hlast, rfl⟩ := (h.common reduction).mp hall
        exact .common (hown.mp hget) hlast
      | none => exact .nothing (hown.mp hget) (hcommon.mp hall)

end ReducerSet

/-- What the reducer is given in a call. -/
def Reducer.Call.given (c : Reducer.Call τ ν α) : Nat × Production τ ν × List (StackValue τ α) :=
  (c.index, c.production, c.values)

namespace Machine

section Reductions

variable [TokenSupply ι τ] [DecidableEq τ] [DecidableEq ν] {table : Table τ ν}

/-- The production that a turn reduces, with its number and the values for the symbols of its
right-hand side, if the turn reduces one. -/
def reduction? (table : Table τ ν) (m : Machine ι σ τ ν α) :
    Option (Nat × Production τ ν × List (StackValue τ α)) :=
  match (m.entry table).resolve (Context.ofState m.current) m.supply with
  | .ok (.reduce index, _) =>
    match table.grammar.production? index with
    | some production =>
      if m.values.length < production.rhs.length ∨ m.states.length ≤ production.rhs.length then none
      else some (index, production, (m.values.take production.rhs.length).reverse)
    | none => none
  | _ => none

theorem production?_of_reduction? {m : Machine ι σ τ ν α} {index : Nat}
    {production : Production τ ν} {values : List (StackValue τ α)}
    (h : m.reduction? table = some (index, production, values)) :
    table.grammar.production? index = some production ∧
      values.length = production.rhs.length := by
  unfold reduction? at h
  split at h
  · split at h
    · next hproduction =>
      split at h
      · cases h
      · next harity =>
        cases h
        refine ⟨hproduction, ?_⟩
        rw [List.length_reverse, List.length_take]
        omega
    · cases h
  · cases h

variable [ToString τ] [ToString ν]

/-- A turn that reduces a production calls the reducer once, and any other one does not. -/
theorem memory_step (table : Table τ ν) (reducer : Reducer σ τ ν α) (m : Machine ι σ τ ν α) :
    (m.step table reducer).memory =
      match m.reduction? table with
      | some (index, production, values) => (reducer index production values m.memory).2
      | none => m.memory := by
  rw [step, execute_eq_resolve, reduction?]
  cases hresolve : (m.entry table).resolve (Context.ofState m.current) m.supply with
  | error error => rfl
  | ok result =>
    obtain ⟨action, supply⟩ := result
    cases action with
    | shift target =>
      dsimp only [execute, shift]
      split
      · rfl
      · rfl
    | reduce index =>
      dsimp only [execute, reduce]
      cases table.grammar.production? index with
      | none => rfl
      | some production =>
        dsimp only
        split
        · rfl
        · dsimp only
          split
          · next hanswer => rw [hanswer]; rfl
          · next hanswer => rw [hanswer]; rfl
    | branch lookahead ifEqual otherwise =>
      exact absurd rfl (Entry.ne_branch_of_mem_leaves (Entry.mem_leaves_of_resolve hresolve)
        lookahead ifEqual otherwise)
    | goto target => rfl
    | accept => rfl
    | error message => rfl

/-- What is reduced in so many turns, in its order. -/
def reductions (table : Table τ ν) (reducer : Reducer σ τ ν α) :
    Nat → Machine ι σ τ ν α → List (Nat × Production τ ν × List (StackValue τ α))
  | 0, _ => []
  | count + 1, m =>
    (m.reduction? table).toList ++
      match m.step table reducer with
      | .ends _ _ => []
      | .goesOn m => reductions table reducer count m

end Reductions

end Machine

/-- Calls in their order, each of which runs one reducer that serves its production and nothing
else: what the reducer makes of the production and of one value for each symbol of the
right-hand side is the answer, and what it remembers is there for the next call. -/
inductive Handled (g : Grammar τ ν) (serves : Nat → Reduction σ τ ν α → Prop) (memory : σ) :
    List (Reducer.Call τ ν α) → σ → Prop
  | nil : Handled g serves memory [] memory
  | concat {earlier : List (Reducer.Call τ ν α)} {c : Reducer.Call τ ν α} {before after : σ}
      {reduction : Reduction σ τ ν α} (hearlier : Handled g serves memory earlier before)
      (hproduction : g.production? c.index = some c.production)
      (hvalues : c.values.length = c.production.rhs.length) (hserves : serves c.index reduction)
      (hrun : reduction c.production c.values before = (c.answer, after)) :
      Handled g serves memory (earlier ++ [c]) after

section Parses

variable [TokenSupply ι τ] [DecidableEq τ] [DecidableEq ν] [ToString τ] [ToString ν]
  {table : Table τ ν} {reducer : Reducer σ τ ν α} {serves : Nat → Reduction σ τ ν α → Prop}
  {memory : σ}

/-- What is reduced in so many turns of a parse, in its order. -/
def reductions (table : Table τ ν) (reducer : Reducer σ τ ν α) (limit : Nat) (supply : ι)
    (memory : σ) : List (Nat × Production τ ν × List (StackValue τ α)) :=
  match Machine.start supply memory with
  | .error _ => []
  | .ok m => m.reductions table reducer limit

/-- A turn that reduces a production makes one call for it, which is handled by the reducer that
serves the production. A turn that reduces none makes no call. -/
theorem handled_step (hserves : ∀ index, serves index (reducer index))
    {m : Machine ι (σ × List (Reducer.Call τ ν α)) τ ν α}
    (h : Handled table.grammar serves memory m.memory.2 m.memory.1) :
    Handled table.grammar serves memory (m.step table reducer.listed).memory.2
        (m.step table reducer.listed).memory.1 ∧
      (m.step table reducer.listed).memory.2.map Reducer.Call.given =
        m.memory.2.map Reducer.Call.given ++ (m.reduction? table).toList := by
  rw [Machine.memory_step]
  cases hreduction : m.reduction? table with
  | none => exact ⟨h, (List.append_nil _).symm⟩
  | some reduction =>
    obtain ⟨index, production, values⟩ := reduction
    obtain ⟨hproduction, hvalues⟩ := Machine.production?_of_reduction? hreduction
    refine ⟨h.concat hproduction hvalues (hserves index) rfl, ?_⟩
    exact List.map_append

theorem handled_after (hserves : ∀ index, serves index (reducer index))
    {m : Machine ι (σ × List (Reducer.Call τ ν α)) τ ν α}
    (h : Handled table.grammar serves memory m.memory.2 m.memory.1) (count : Nat) :
    Handled table.grammar serves memory (m.after table reducer.listed count).memory.2
        (m.after table reducer.listed count).memory.1 ∧
      (m.after table reducer.listed count).memory.2.map Reducer.Call.given =
        m.memory.2.map Reducer.Call.given ++
          (m.mapMemory Prod.fst).reductions table reducer count := by
  induction count generalizing m with
  | zero => exact ⟨h, (List.append_nil _).symm⟩
  | succ count ih =>
    obtain ⟨hstep, hgiven⟩ := handled_step hserves h
    have hsame : (m.mapMemory Prod.fst).step table reducer =
        (m.step table reducer.listed).mapMemory Prod.fst :=
      Machine.execute_listed table reducer (m.entry table) m
    unfold Machine.after Machine.reductions
    rw [hsame]
    cases hturn : m.step table reducer.listed with
    | ends ending memory' =>
      rw [hturn] at hstep hgiven
      refine ⟨hstep, hgiven.trans ?_⟩
      exact congrArg (_ ++ ·) (List.append_nil _).symm
    | goesOn m' =>
      rw [hturn] at hstep hgiven
      obtain ⟨hlater, hmore⟩ := ih hstep
      refine ⟨hlater, hmore.trans ?_⟩
      exact (congrArg (· ++ _) hgiven).trans (List.append_assoc _ _ _)

/-- The calls of a parse are what it reduces, and each of them is handled by the reducer that
serves the production. -/
theorem handled_calls (hserves : ∀ index, serves index (reducer index)) (limit : Nat) (supply : ι) :
    Handled table.grammar serves memory (calls table reducer limit supply memory)
        (progress table reducer limit supply memory).memory ∧
      (calls table reducer limit supply memory).map Reducer.Call.given =
        reductions table reducer limit supply memory := by
  have hmemory : (progress table reducer limit supply memory).memory =
      (progress table reducer.listed limit supply (memory, [])).memory.1 := by
    rw [progress_listed]
    cases progress table reducer.listed limit supply (memory, []) with
    | goesOn m => rfl
    | ends ending memory => rfl
  rw [hmemory, calls, reductions]
  unfold progress Machine.start
  cases TokenSupply.next (Context.ofState 0) supply with
  | mk item rest =>
    cases item with
    | error error => exact ⟨.nil, rfl⟩
    | ok token =>
      exact handled_after hserves
        (m := { supply := rest, token, memory := (memory, []) }) .nil limit

/-- Attaching a reducer fails exactly if there is no production with the number or the written
form. After attachments one reducer serves each production. In every parse over the grammar each
reduction is one call, which this reducer handles, and there are no other calls. -/
theorem last_attached_runs (g : Grammar τ ν) :
    (∀ (a : Attachment σ τ ν α) (s : ReducerSet σ τ ν α) (error : GrammarError),
        a.perform g s = .error error ↔ a.FailsWith g error) ∧
      (∀ attachments : List (Attachment σ τ ν α),
        (∃ s, Attachment.performAll g attachments = .ok s) ↔
          ∀ a ∈ attachments, ∀ error, ¬ a.FailsWith g error) ∧
      ∀ (attachments : List (Attachment σ τ ν α)) (s : ReducerSet σ τ ν α),
        Attachment.performAll g attachments = .ok s →
          (∀ index, ∃! reduction, Serves g attachments index reduction) ∧
          ∀ table : Table τ ν, table.grammar = g → ∀ (limit : Nat) (supply : ι) (memory : σ),
            (calls table s.reducer limit supply memory).map Reducer.Call.given =
                reductions table s.reducer limit supply memory ∧
              Handled g (Serves g attachments) memory (calls table s.reducer limit supply memory)
                (progress table s.reducer limit supply memory).memory := by
  refine ⟨fun a s error => Attachment.perform_eq_error_iff,
    fun attachments => Attachment.exists_performAll_iff, fun attachments s hs => ?_⟩
  have hserves : ∀ {index : Nat} {reduction : Reduction σ τ ν α},
      Serves g attachments index reduction ↔ reduction = s.reducer index :=
    (ReducerSet.reflects_performAll hs).serves_iff
  constructor
  · intro index
    exact ⟨s.reducer index, hserves.mpr rfl, fun _ => hserves.mp⟩
  · rintro table rfl limit supply memory
    obtain ⟨hhandled, hgiven⟩ := handled_calls (fun index => hserves.mpr rfl) limit supply
    exact ⟨hgiven, hhandled⟩

end Parses

/-- The table for a repeated terminal, with its last production written down a second time. -/
def doubled : Table String String :=
  { repetitionTable with
    grammar := ⟨repetitionTable.grammar.productions ++ [⟨"S", [.terminal "a"]⟩]⟩ }

/-- A reducer that leaves a mark of its calls. -/
def marking (mark : String) : Reduction (List String) String String Unit :=
  fun _ _ marks => (.ok none, marks ++ [mark])

/-- Attachments to all productions, by both written forms and by a number, with changes of what
is attached. -/
def markings : List (Attachment (List String) String String Unit) :=
  [.toAll (marking "first for all"), .toDisplay "S -> S a" (marking "by form"),
    .toDisplay "S -> a" (marking "by form of the second"), .toIndex 0 (marking "by number"),
    .toAll (marking "last for all")]

/-- What is attached to a form that two productions have is not run for the first of them. -/
theorem last_attached_runs_doubled :
    let tokens : TokenList := ⟨[Token.ofText "a" "a" none, Token.ofText "a" "a" none]⟩
    ∃ s : ReducerSet (List String) String String Unit,
      Attachment.performAll doubled.grammar markings = .ok s ∧
        (∃! reduction, Serves doubled.grammar markings 1 reduction) ∧
        (reductions doubled s.reducer 10 tokens []).map Prod.fst = [1, 0] ∧
        (calls doubled s.reducer 10 tokens []).map Reducer.Call.given =
          reductions doubled s.reducer 10 tokens [] ∧
        Handled doubled.grammar (Serves doubled.grammar markings) []
          (calls doubled s.reducer 10 tokens []) ["last for all", "by number"] := by
  intro tokens
  obtain ⟨s, hs⟩ : ∃ s, Attachment.performAll doubled.grammar markings = .ok s := ⟨_, rfl⟩
  obtain ⟨-, -, hruns⟩ := last_attached_runs (ι := TokenList) doubled.grammar
  obtain ⟨hserves, hparses⟩ := hruns markings s hs
  obtain ⟨hgiven, hhandled⟩ := hparses doubled rfl 10 tokens []
  cases hs
  exact ⟨_, rfl, hserves 1, rfl, hgiven, hhandled⟩

end ShiftReduce
