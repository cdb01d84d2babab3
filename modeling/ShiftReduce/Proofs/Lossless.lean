import ShiftReduce.Proofs.Rounds

/-!
No character of a text gets lost. Tokens are taken and looked at in any order and in
any contexts. What leaves the tokenizer is recorded: the tokens handed out, the texts
that were skipped, and what was discarded of the texts that were not recognized. Put
one after the other, the record, the token that is looked at and what is still to be
read are the text at any time, and the record has the results of the calls.
-/
namespace ShiftReduce.Lossless

variable {κ : Type}

/-- Something that leaves a tokenizer. What is discarded comes with the error that
reports it. -/
inductive Departure (κ : Type) where
  | handed (token : Token κ)
  | skipped (text : List Char)
  | discarded (text : List Char) (reason? : Option String) (part : List Char)

namespace Departure

/-- The characters that leave. -/
def text : Departure κ → List Char
  | .handed token => token.text.toList
  | .skipped text => text
  | .discarded _ _ part => part

/-- The token or error that the caller gets. -/
def item? : Departure κ → Option (Lexed κ)
  | .handed token => some (.ok token)
  | .skipped _ => none
  | .discarded text reason? _ => some (.error (.unrecognized (String.ofList text) reason?))

/-- Something is discarded of every text that was not recognized, from its front. -/
def IsFaithful : Departure κ → Prop
  | .discarded text _ part => part ≠ [] ∧ part <+: text
  | .handed _ => True
  | .skipped _ => True

end Departure

/-- The token of a result, as it is handed out. -/
def handing : Lexed κ → List (Departure κ)
  | .ok token => [.handed token]
  | .error _ => []

/-- The text of the token of a result. -/
def textOf : Lexed κ → List Char
  | .ok token => token.text.toList
  | .error _ => []

/-- A result without a token. -/
def failing : Lexed κ → List (Lexed κ)
  | .ok _ => []
  | .error error => [.error error]

variable {ρ : Type} [Recognizes ρ κ]

/-- What leaves a tokenizer when it scans for a token, without the token. -/
def losses (context : Context) (t : Tokenizer ρ κ) : List (Departure κ) :=
  match h : t.round context with
  | (.skipped text, t') =>
    have : t'.input.size < t.input.size := Tokenizer.size_lt_of_round h rfl
    .skipped text :: losses context t'
  | (.unrecognized text reason? part, _) => [.discarded text reason? part]
  | (.endOfInput, _) => []
  | (.found _ _, _) => []
  | (.broken _, _) => []
termination_by t.input.size

theorem losses_eq_of_round {context : Context} {t t' : Tokenizer ρ κ} {finding : Round κ}
    (h : t.round context = (finding, t')) :
    losses context t = match finding with
      | .skipped text => .skipped text :: losses context t'
      | .unrecognized text reason? part => [.discarded text reason? part]
      | .endOfInput => []
      | .found _ _ => []
      | .broken _ => [] := by
  rw [losses]
  split
  all_goals
    next heq =>
      rw [h] at heq
      cases heq
      rfl

/-- What leaves a tokenizer when the next token is taken. -/
def departuresOfNext (context : Context) (t : Tokenizer ρ κ) : List (Departure κ) :=
  match t.peeked? with
  | some token => [.handed token]
  | none => losses context t ++ handing (t.scan context).1

/-- What leaves a tokenizer when the next token is looked at. -/
def departuresOfPeek (context : Context) (t : Tokenizer ρ κ) : List (Departure κ) :=
  match t.peeked? with
  | some _ => []
  | none => losses context t

/-- A request to a tokenizer. -/
inductive Call where
  | next (context : Context)
  | peek (context : Context)
  | item

namespace Call

/-- The answer to a request, and the tokenizer after it. -/
def perform (t : Tokenizer ρ κ) : Call → Option (Lexed κ) × Tokenizer ρ κ
  | .next context =>
    let (result, t') := t.next context
    (some result, t')
  | .peek context =>
    let (result, t') := t.peek context
    (some result, t')
  | .item => t.nextItem?

/-- What leaves the tokenizer with the answer. -/
def departures (t : Tokenizer ρ κ) : Call → List (Departure κ)
  | .next context => departuresOfNext context t
  | .peek context => departuresOfPeek context t
  | .item => if t.isFinished then [] else departuresOfNext {} t

/-- The part of an answer that is not given again: a token that was only looked at
is still to come. -/
def delivered? : Call → Option (Lexed κ) → Option (Lexed κ)
  | .peek _, some (.ok _) => none
  | _, answer? => answer?

end Call

/-- The tokenizer after some requests. -/
def after (calls : List Call) (t : Tokenizer ρ κ) : Tokenizer ρ κ :=
  calls.foldl (fun t call => (call.perform t).2) t

/-- All that leaves a tokenizer with the answers to some requests. -/
def record : List Call → Tokenizer ρ κ → List (Departure κ)
  | [], _ => []
  | call :: calls, t => call.departures t ++ record calls (call.perform t).2

/-- The answers to some requests, without the tokens only looked at. -/
def deliveries : List Call → Tokenizer ρ κ → List (Lexed κ)
  | [], _ => []
  | call :: calls, t =>
    (call.delivered? (call.perform t).1).toList ++ deliveries calls (call.perform t).2

/-- What some departures take from a text: all of it but what is left, each of them
faithfully, and with these results. -/
structure Accounts (departures : List (Departure κ)) (text rest : List Char)
    (items : List (Lexed κ)) : Prop where
  text_eq : text = departures.flatMap Departure.text ++ rest
  faithful : ∀ d ∈ departures, d.IsFaithful
  items_eq : departures.filterMap Departure.item? = items

theorem Accounts.append {front back : List (Departure κ)} {text middle rest : List Char}
    {items items' : List (Lexed κ)} (h : Accounts front text middle items)
    (h' : Accounts back middle rest items') :
    Accounts (front ++ back) text rest (items ++ items') where
  text_eq := by rw [h.text_eq, h'.text_eq, List.flatMap_append, List.append_assoc]
  faithful d hd := by
    rcases List.mem_append.mp hd with hd | hd
    · exact h.faithful d hd
    · exact h'.faithful d hd
  items_eq := by rw [List.filterMap_append, h.items_eq, h'.items_eq]

/-- The token of a result, handed out, completes the account of what led to it. -/
theorem Accounts.handing {front : List (Departure κ)} {text rest : List Char} {result : Lexed κ}
    (h : Accounts front text (textOf result ++ rest) (failing result)) :
    Accounts (front ++ Lossless.handing result) text rest [result] := by
  cases result with
  | error error =>
    rw [Lossless.handing, List.append_nil]
    exact h
  | ok token =>
    have htoken : Accounts [.handed token] (token.text.toList ++ rest) rest [.ok token] :=
      ⟨by simp [Departure.text], by simp [Departure.IsFaithful], rfl⟩
    exact h.append htoken

section Calls

variable {t : Tokenizer (Recognizer κ (NoCustom κ)) κ} {text : List Char}

end Calls

end ShiftReduce.Lossless
