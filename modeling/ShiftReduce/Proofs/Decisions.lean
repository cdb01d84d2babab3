import Mathlib.Data.List.Induction
import ShiftReduce.Proofs.Peeking
import ShiftReduce.Proofs.Turns

/-!
Branching entries as decision lists. The calls that draft a row wrap the entry of a
terminal from the inside out, and the machine unwraps it from the outside in. Together
they come to the action of the latest call that has something to say about the token
behind the current one: a call without a condition, which ends what was drafted before, or
one whose condition is this token. Without such a call it is the error that the row was
drafted with. The token behind is looked at once, at whatever depth the action is found.
-/
namespace ShiftReduce

variable {ρ σ τ ν α : Type}

namespace Entry

/-- Whether the entry looks at the token behind the current one. -/
def isBranch : Entry τ → Bool
  | .branch _ _ _ => true
  | _ => false

/-- The action that the entry comes to if the token behind the current one has this kind. -/
def leafFor [DecidableEq τ] (kind : τ) : Entry τ → Entry τ
  | .branch lookahead ifEqual otherwise =>
    if kind = lookahead then ifEqual.leafFor kind else otherwise.leafFor kind
  | entry => entry

variable [DecidableEq τ]

theorem isBranch_leafFor (kind : τ) (entry : Entry τ) : (entry.leafFor kind).isBranch = false := by
  induction entry with
  | branch lookahead ifEqual otherwise ihEqual ihOtherwise =>
    rw [leafFor]
    split
    · exact ihEqual
    · exact ihOtherwise
  | _ => rfl

theorem leafFor_of_not_isBranch {entry : Entry τ} (h : entry.isBranch = false) (kind : τ) :
    entry.leafFor kind = entry := by
  cases entry with
  | branch lookahead ifEqual otherwise => simp [isBranch] at h
  | _ => rfl

end Entry

namespace Machine

variable [Recognizes ρ τ] [DecidableEq τ] [ToString τ] [ToString ν] {table : Table τ ν}
  {reducer : Reducer σ τ ν α}

/-- Look at the token behind the current one, and carry out what is chosen for its kind. -/
def executeBehind (table : Table τ ν) (reducer : Reducer σ τ ν α) (choice : τ → Entry τ)
    (m : Machine (Tokenizer ρ τ) σ τ ν α) : Turn (Tokenizer ρ τ) σ τ ν α :=
  match m.supply.peek (Context.ofState m.current) with
  | (.error error, _) => .ends (.broken error) m.memory
  | (.ok token, supply) => { m with supply }.execute table reducer (choice token.kind)

/-- Once the token behind the current one was seen, an entry comes to the action for it, and
looking again changes nothing. -/
theorem execute_of_peeked {m : Machine (Tokenizer ρ τ) σ τ ν α} {token : Token τ}
    (h : m.supply.peek (Context.ofState m.current) = (.ok token, m.supply)) (entry : Entry τ) :
    m.execute table reducer entry = m.execute table reducer (entry.leafFor token.kind) := by
  induction entry with
  | branch lookahead ifEqual otherwise ihEqual ihOtherwise =>
    rw [Entry.leafFor, execute, show TokenSupply.peek (Context.ofState m.current) m.supply =
      (.ok token, m.supply) from h]
    dsimp only
    split
    · exact ihEqual
    · exact ihOtherwise
  | _ => rfl

/-- To carry out an entry that branches is to look at the token behind the current one, once,
and to carry out the action for it. -/
theorem execute_of_isBranch {entry : Entry τ} (hbranch : entry.isBranch = true)
    (m : Machine (Tokenizer ρ τ) σ τ ν α) :
    m.execute table reducer entry = m.executeBehind table reducer fun kind => entry.leafFor kind := by
  cases entry with
  | branch lookahead ifEqual otherwise =>
    rw [execute, executeBehind]
    simp only [TokenSupply.peek]
    cases hpeek : m.supply.peek (Context.ofState m.current) with
    | mk answer supply =>
      cases answer with
      | error error => rfl
      | ok token =>
        have hpeeked : supply.peek (Context.ofState m.current) = (.ok token, supply) :=
          Tokenizer.peek_of_peek hpeek _
        have hleaf : ∀ entry : Entry τ, { m with supply }.execute table reducer entry =
            { m with supply }.execute table reducer (entry.leafFor token.kind) :=
          execute_of_peeked (m := { m with supply }) hpeeked
        dsimp only
        rw [Entry.leafFor]
        split
        · exact hleaf ifEqual
        · exact hleaf otherwise
  | _ => simp [Entry.isBranch] at hbranch

end Machine

namespace RowDraft

/-- A call that drafts a row. -/
inductive Call (τ ν : Type) where
  | shift (terminal : τ) (state : Nat)
  | reduce (terminal : τ) (production : Nat)
  | accept (terminal : τ)
  | error (terminal : τ) (message : String)
  | set (terminal : τ) (entry : Entry τ)
  | goto (nonterminal : ν) (state : Nat)
  | shiftIf (terminal lookahead : τ) (state : Nat)
  | reduceIf (terminal lookahead : τ) (production : Nat)
  deriving DecidableEq, Repr

/-- What becomes of the entry for a terminal: it is replaced, or kept for the case that the
token behind is not the lookahead. -/
inductive Change (τ : Type) where
  | replace (entry : Entry τ)
  | branch (lookahead : τ) (action : Entry τ)
  deriving DecidableEq, Repr

/-- The entry after a change, with the message of the error that is kept if there was none. -/
def Change.apply (message : String) (old? : Option (Entry τ)) : Change τ → Entry τ
  | .replace entry => entry
  | .branch lookahead action => .branch lookahead action (old?.getD (.error message))

namespace Call

/-- The terminal whose entry a call changes, and the change. -/
def change? : Call τ ν → Option (τ × Change τ)
  | .shift terminal state => some (terminal, .replace (.shift state))
  | .reduce terminal production => some (terminal, .replace (.reduce production))
  | .accept terminal => some (terminal, .replace .accept)
  | .error terminal message => some (terminal, .replace (.error message))
  | .set terminal entry => some (terminal, .replace entry)
  | .goto _ _ => none
  | .shiftIf terminal lookahead state => some (terminal, .branch lookahead (.shift state))
  | .reduceIf terminal lookahead production => some (terminal, .branch lookahead (.reduce production))

/-- The action under a condition does not branch. -/
theorem isBranch_of_change? {call : Call τ ν} {terminal lookahead : τ} {action : Entry τ}
    (h : call.change? = some (terminal, .branch lookahead action)) : action.isBranch = false := by
  cases call <;> simp [change?] at h <;> rw [← h.2.2] <;> rfl

variable [DecidableEq τ]

/-- What a call does to the entry for a terminal, if it concerns the terminal. -/
def changeFor? (terminal : τ) (call : Call τ ν) : Option (Change τ) :=
  (call.change?.filter (·.1 = terminal)).map Prod.snd

/-- The call says what is to be done on the terminal if the token behind is the lookahead,
whatever was drafted before. -/
def Settles (call : Call τ ν) (terminal lookahead : τ) : Prop :=
  (∃ entry, call.changeFor? terminal = some (.replace entry)) ∨
    ∃ action, call.changeFor? terminal = some (.branch lookahead action)

theorem changeFor?_eq_some_iff {call : Call τ ν} {terminal : τ} {change : Change τ} :
    call.changeFor? terminal = some change ↔ call.change? = some (terminal, change) := by
  unfold changeFor?
  cases call.change? with
  | none => simp
  | some found =>
    obtain ⟨other, change'⟩ := found
    by_cases heq : other = terminal <;> simp [Option.filter, heq]

variable [DecidableEq ν]

/-- The draft after a call. -/
def perform (d : RowDraft τ ν) : Call τ ν → RowDraft τ ν
  | .shift terminal state => d.shift terminal state
  | .reduce terminal production => d.reduce terminal production
  | .accept terminal => d.accept terminal
  | .error terminal message => d.error terminal message
  | .set terminal entry => d.set terminal entry
  | .goto nonterminal state => d.goto nonterminal state
  | .shiftIf terminal lookahead state => d.shiftIf terminal lookahead state
  | .reduceIf terminal lookahead production => d.reduceIf terminal lookahead production

theorem message_perform (d : RowDraft τ ν) (call : Call τ ν) :
    (call.perform d).message = d.message := by
  cases call <;> rfl

end Call

variable [DecidableEq τ]

/-- The call is one of some calls, and none of those after it settles what is to be done. -/
def Stands (terminal kind : τ) (calls : List (Call τ ν)) (call : Call τ ν) : Prop :=
  ∃ before after, calls = before ++ call :: after ∧
    ∀ later ∈ after, ¬ later.Settles terminal kind

/-- What some calls decide for a terminal and the kind of the token behind it: the action of
the latest condition on this kind, or of the latest call without a condition, whichever is
later, or an error with the message if there is none. -/
inductive Decides (message : String) (terminal kind : τ) (calls : List (Call τ ν)) :
    Entry τ → Prop
  | condition {call : Call τ ν} {action : Entry τ} (hstands : Stands terminal kind calls call)
      (hcall : call.changeFor? terminal = some (.branch kind action)) :
      Decides message terminal kind calls action
  | replacement {call : Call τ ν} {entry : Entry τ} (hstands : Stands terminal kind calls call)
      (hcall : call.changeFor? terminal = some (.replace entry)) :
      Decides message terminal kind calls (entry.leafFor kind)
  | nothing (h : ∀ call ∈ calls, ¬ call.Settles terminal kind) :
      Decides message terminal kind calls (.error message)

theorem stands_append_singleton_iff {terminal kind : τ} {calls : List (Call τ ν)}
    {last call : Call τ ν} :
    Stands terminal kind (calls ++ [last]) call ↔
      call = last ∨ ¬ last.Settles terminal kind ∧ Stands terminal kind calls call := by
  constructor
  · rintro ⟨before, after, hcalls, hafter⟩
    rcases List.eq_nil_or_concat after with rfl | ⟨between, other, rfl⟩
    · obtain ⟨-, hlast⟩ := List.append_inj' hcalls rfl
      exact Or.inl (List.cons.inj hlast).1.symm
    · rw [List.concat_eq_append, ← List.cons_append, ← List.append_assoc] at hcalls
      obtain ⟨rfl, hlast⟩ := List.append_inj' hcalls rfl
      obtain rfl := (List.cons.inj hlast).1
      refine Or.inr ⟨hafter last (by simp), before, between, rfl, ?_⟩
      intro later hlater
      exact hafter later (by simp [hlater])
  · rintro (rfl | ⟨hnot, before, after, rfl, hafter⟩)
    · exact ⟨calls, [], rfl, by simp⟩
    · refine ⟨before, after ++ [last], by simp, ?_⟩
      intro later hlater
      rcases List.mem_append.mp hlater with hlater | hlater
      · exact hafter later hlater
      · rwa [List.mem_singleton.mp hlater]

/-- The last call decides, or leaves the decision to those before it. -/
theorem decides_append_singleton_iff {message : String} {terminal kind : τ}
    {calls : List (Call τ ν)} {last : Call τ ν} {leaf : Entry τ} :
    Decides message terminal kind (calls ++ [last]) leaf ↔
      last.changeFor? terminal = some (.branch kind leaf) ∨
      (∃ entry, last.changeFor? terminal = some (.replace entry) ∧ leaf = entry.leafFor kind) ∨
      ¬ last.Settles terminal kind ∧ Decides message terminal kind calls leaf := by
  constructor
  · rintro (⟨hstands, hcall⟩ | ⟨hstands, hcall⟩ | hnothing)
    · rcases stands_append_singleton_iff.mp hstands with rfl | ⟨hnot, hstands⟩
      · exact Or.inl hcall
      · exact Or.inr (Or.inr ⟨hnot, .condition hstands hcall⟩)
    · rcases stands_append_singleton_iff.mp hstands with rfl | ⟨hnot, hstands⟩
      · exact Or.inr (Or.inl ⟨_, hcall, rfl⟩)
      · exact Or.inr (Or.inr ⟨hnot, .replacement hstands hcall⟩)
    · refine Or.inr (Or.inr ⟨hnothing last (by simp), .nothing ?_⟩)
      intro call hcall
      exact hnothing call (by simp [hcall])
  · rintro (hcall | ⟨entry, hcall, rfl⟩ | ⟨hnot, (⟨hstands, hcall⟩ | ⟨hstands, hcall⟩ | hnothing)⟩)
    · exact .condition (stands_append_singleton_iff.mpr (Or.inl rfl)) hcall
    · exact .replacement (stands_append_singleton_iff.mpr (Or.inl rfl)) hcall
    · exact .condition (stands_append_singleton_iff.mpr (Or.inr ⟨hnot, hstands⟩)) hcall
    · exact .replacement (stands_append_singleton_iff.mpr (Or.inr ⟨hnot, hstands⟩)) hcall
    · refine .nothing ?_
      intro call hcall
      rcases List.mem_append.mp hcall with hcall | hcall
      · exact hnothing call hcall
      · rwa [List.mem_singleton.mp hcall]

theorem entryFor_set (d : RowDraft τ ν) (terminal other : τ) (entry : Entry τ) :
    (d.set other entry).row.entryFor terminal =
      if other = terminal then some entry else d.row.entryFor terminal := by
  unfold set Row.entryFor
  split
  · next heq => rw [heq, Dictionary.get?_set_self]
  · next hne => rw [Dictionary.get?_set_of_ne _ _ (Ne.symm hne)]

variable [DecidableEq ν]

/-- Every call but that for a nonterminal sets the entry of one terminal. -/
theorem Call.entries_perform (d : RowDraft τ ν) (call : Call τ ν) :
    (call.perform d).row.entries =
      match call.change? with
      | some (terminal, change) =>
        (d.set terminal (change.apply d.message (d.row.entryFor terminal))).row.entries
      | none => d.row.entries := by
  cases call <;> rfl

/-- A call changes the entry of its own terminal and no other. -/
theorem Call.entryFor_perform (d : RowDraft τ ν) (call : Call τ ν) (terminal : τ) :
    (call.perform d).row.entryFor terminal =
      match call.changeFor? terminal with
      | some change => some (change.apply d.message (d.row.entryFor terminal))
      | none => d.row.entryFor terminal := by
  have hentries := entries_perform d call
  unfold changeFor?
  cases hchange : call.change? with
  | none =>
    rw [hchange] at hentries
    exact congrArg (Dictionary.get? · terminal) hentries
  | some found =>
    obtain ⟨other, change⟩ := found
    rw [hchange] at hentries
    have hset : (call.perform d).row.entryFor terminal =
        (d.set other (change.apply d.message (d.row.entryFor other))).row.entryFor terminal :=
      congrArg (Dictionary.get? · terminal) hentries
    rw [hset, entryFor_set]
    by_cases heq : other = terminal
    · simp [Option.filter, heq]
    · simp [Option.filter, heq]

/-- The draft after some calls. -/
def performAll (d : RowDraft τ ν) (calls : List (Call τ ν)) : RowDraft τ ν :=
  calls.foldl (fun d call => call.perform d) d

theorem performAll_append_singleton (d : RowDraft τ ν) (calls : List (Call τ ν))
    (call : Call τ ν) : d.performAll (calls ++ [call]) = call.perform (d.performAll calls) := by
  simp [performAll]

theorem message_performAll (d : RowDraft τ ν) (calls : List (Call τ ν)) :
    (d.performAll calls).message = d.message := by
  induction calls using List.reverseRecOn with
  | nil => rfl
  | append_singleton calls call ih =>
    rw [performAll_append_singleton, Call.message_perform, ih]

/-- Only the calls that concern a terminal matter for its entry. -/
theorem entryFor_performAll_filter (d : RowDraft τ ν) (calls : List (Call τ ν)) (terminal : τ) :
    (d.performAll (calls.filter fun call => (call.changeFor? terminal).isSome)).row.entryFor
        terminal = (d.performAll calls).row.entryFor terminal := by
  induction calls using List.reverseRecOn with
  | nil => rfl
  | append_singleton calls call ih =>
    rw [performAll_append_singleton, Call.entryFor_perform, message_performAll,
      List.filter_append, List.filter_cons]
    cases hchange : call.changeFor? terminal with
    | none => simpa using ih
    | some change =>
      simp only [Option.isSome_some, if_true, List.filter_nil]
      rw [performAll_append_singleton, Call.entryFor_perform, message_performAll, hchange, ih]

/-- From a draft without an entry for the terminal on, the calls decide what the entry comes
to. -/
theorem decides_iff {d : RowDraft τ ν} {terminal : τ} (hnone : d.row.entryFor terminal = none)
    (kind : τ) (calls : List (Call τ ν)) (leaf : Entry τ) :
    Decides d.message terminal kind calls leaf ↔
      leaf = (((d.performAll calls).row.entryFor terminal).getD (.error d.message)).leafFor
        kind := by
  induction calls using List.reverseRecOn with
  | nil =>
    rw [performAll, List.foldl_nil, hnone]
    constructor
    · rintro (⟨⟨before, after, hcalls, -⟩, -⟩ | ⟨⟨before, after, hcalls, -⟩, -⟩ | -)
      · simp at hcalls
      · simp at hcalls
      · rfl
    · rintro rfl
      exact .nothing (by simp)
  | append_singleton calls last ih =>
    rw [decides_append_singleton_iff, ih, performAll_append_singleton, Call.entryFor_perform,
      message_performAll]
    cases hchange : last.changeFor? terminal with
    | none => simp [Call.Settles, hchange]
    | some change =>
      cases change with
      | replace entry => simp [Call.Settles, hchange, Change.apply]
      | branch lookahead action =>
        have haction : action.leafFor kind = action := Entry.leafFor_of_not_isBranch
          (Call.isBranch_of_change? (Call.changeFor?_eq_some_iff.mp hchange)) kind
        by_cases hkind : kind = lookahead
        · subst hkind
          simp [Call.Settles, hchange, Change.apply, Entry.leafFor, haction, eq_comm]
        · simp [Call.Settles, hchange, Change.apply, Entry.leafFor, hkind, Ne.symm hkind]

/-- A terminal that a call concerns has an entry. -/
theorem exists_entryFor_performAll (d : RowDraft τ ν) {calls : List (Call τ ν)} {terminal : τ}
    (hcalled : ∃ call ∈ calls, (call.changeFor? terminal).isSome) :
    ∃ entry, (d.performAll calls).row.entryFor terminal = some entry := by
  induction calls using List.reverseRecOn with
  | nil => simp at hcalled
  | append_singleton calls last ih =>
    rw [performAll_append_singleton, Call.entryFor_perform]
    cases hchange : last.changeFor? terminal with
    | some change => exact ⟨_, rfl⟩
    | none =>
      obtain ⟨call, hmem, hconcerns⟩ := hcalled
      rcases List.mem_append.mp hmem with hmem | hmem
      · exact ih ⟨call, hmem, hconcerns⟩
      · rw [List.mem_singleton.mp hmem, hchange] at hconcerns
        simp at hconcerns

/-- The entry that some calls draft for a terminal is a decision list. If it branches, to carry
it out is to look once at the token behind the current one and to carry out what the calls
decide for its kind, an action that does not branch; otherwise they decide the entry itself for
every kind. The message of a decision for want of calls is that of the draft of the table when
the row was begun, and the calls that do not concern the terminal can be left out. -/
theorem drafted_entry_is_decision_list [Recognizes ρ τ] [ToString τ] [ToString ν]
    (draft : TableDraft τ ν) (calls : List (Call τ ν)) {terminal : τ}
    (hcalled : ∃ call ∈ calls, (call.changeFor? terminal).isSome) :
    ∃ (entry : Entry τ) (leaf : τ → Entry τ),
      (draft.newRow.performAll calls).row.entryFor terminal = some entry ∧
      (∀ kind, (leaf kind).isBranch = false ∧
        ∀ other, Decides draft.message terminal kind calls other ↔ other = leaf kind) ∧
      (∀ (table : Table τ ν) (reducer : Reducer σ τ ν α) (m : Machine (Tokenizer ρ τ) σ τ ν α),
        (entry.isBranch = false →
          ∀ kind, m.execute table reducer entry = m.execute table reducer (leaf kind)) ∧
        (entry.isBranch = true →
          m.execute table reducer entry = m.executeBehind table reducer leaf)) ∧
      (draft.newRow.performAll
          (calls.filter fun call => (call.changeFor? terminal).isSome)).row.entryFor terminal =
        some entry := by
  obtain ⟨entry, hentry⟩ := exists_entryFor_performAll draft.newRow hcalled
  have hnone : draft.newRow.row.entryFor terminal = none := rfl
  refine ⟨entry, fun kind => entry.leafFor kind, hentry, ?_, ?_, ?_⟩
  · intro kind
    refine ⟨Entry.isBranch_leafFor kind entry, ?_⟩
    intro other
    have hdecides := decides_iff hnone kind calls other
    rwa [hentry] at hdecides
  · intro table reducer m
    constructor
    · intro hbranch kind
      dsimp only
      rw [Entry.leafFor_of_not_isBranch hbranch]
    · intro hbranch
      exact Machine.execute_of_isBranch hbranch m
  · rw [entryFor_performAll_filter, hentry]

/-- Calls that draft a row in layers: a condition that is replaced with all before it by an
entry that branches, and a condition on top, between calls for other symbols. -/
def layeredCalls : List (Call String String) :=
  [.shiftIf "a" "x" 1, .set "a" (.branch "y" (.reduce 0) (.error "no")), .goto "S" 3,
    .reduceIf "a" "z" 2, .shift "b" 9]

theorem drafted_entry_is_decision_list_layered :
    (∃ call ∈ layeredCalls, (call.changeFor? "a").isSome) ∧
      ∃ leaf : String → Entry String,
        leaf "z" = .reduce 2 ∧ leaf "y" = .reduce 0 ∧ leaf "x" = .error "no" ∧
        ∀ m : Machine (Tokenizer (Recognizer String (NoCustom String)) String) Unit String String
            Unit,
          m.execute ⟨⟨[]⟩, [], .error "late"⟩ Reducer.silent
              (.branch "z" (.reduce 2) (.branch "y" (.reduce 0) (.error "no"))) =
            m.executeBehind ⟨⟨[]⟩, [], .error "late"⟩ Reducer.silent leaf := by
  have hcalled : ∃ call ∈ layeredCalls, (call.changeFor? "a").isSome :=
    ⟨.shiftIf "a" "x" 1, by simp [layeredCalls], rfl⟩
  have hnone : (TableDraft.newRow ⟨⟨[]⟩, [], "late"⟩ : RowDraft String String).row.entryFor "a" =
      none := rfl
  have hdecides := fun kind leaf => decides_iff hnone kind layeredCalls leaf
  obtain ⟨entry, leaf, hentry, hleaf, hexecute, -⟩ :=
    drafted_entry_is_decision_list (ρ := Recognizer String (NoCustom String)) (σ := Unit)
      (α := Unit) ⟨⟨[]⟩, [], "late"⟩ layeredCalls hcalled
  obtain rfl : Entry.branch "z" (.reduce 2) (.branch "y" (.reduce 0) (.error "no")) = entry :=
    Option.some.inj hentry
  refine ⟨hcalled, leaf, ?_, ?_, ?_, fun m => (hexecute _ _ m).2 rfl⟩
  · exact (((hleaf "z").2 _).mp ((hdecides "z" _).mpr rfl)).symm
  · exact (((hleaf "y").2 _).mp ((hdecides "y" _).mpr rfl)).symm
  · exact (((hleaf "x").2 _).mp ((hdecides "x" _).mpr rfl)).symm

end RowDraft

end ShiftReduce
