import ShiftReduce.Recognizer
import ShiftReduce.Tokenizer.Round

/-!
Tokenizers. A tokenizer plays rounds over its input until one of them finds
something else than text to skip. The next token can be looked at before it is
taken. Taken one after the other without a context, the tokens and the errors
between them end with the token for the end of the input, or with a failed read.
-/
namespace ShiftReduce

variable {ρ κ υ : Type}

/-- A tokenizer over one input. -/
structure Tokenizer (ρ κ : Type) where
  recognizers : List ρ
  endKind : κ
  input : Input
  peeked? : Option (Token κ) := none
  isFinished : Bool := false

/-- A token, or why there is none. -/
abbrev Lexed (κ : Type) := Except LexError (Token κ)

namespace Tokenizer

/-- A tokenizer over a source nothing was read from. -/
def ofSource (recognizers : List ρ) (endKind : κ) (source : Source) : Tokenizer ρ κ :=
  { recognizers, endKind, input := Input.ofSource source }

variable [Recognizes ρ κ]

/-- What one round finds, and the tokenizer after it. -/
def round (context : Context) (t : Tokenizer ρ κ) : Round κ × Tokenizer ρ κ :=
  let (finding, recognizers, input) := Round.play context t.recognizers t.input
  (finding, { t with recognizers, input })

/-- A round that takes text leaves less input. -/
theorem size_lt_of_round {context : Context} {t t' : Tokenizer ρ κ} {finding : Round κ}
    (h : t.round context = (finding, t')) (htakes : finding.takesText = true) :
    t'.input.size < t.input.size := by
  simp only [round, Prod.mk.injEq] at h
  obtain ⟨rfl, rfl⟩ := h
  exact Round.size_lt_of_play rfl htakes

/-- Rounds up to the first that does not skip its text. -/
def scan (context : Context) (t : Tokenizer ρ κ) : Lexed κ × Tokenizer ρ κ :=
  match h : t.round context with
  | (.endOfInput, t') => (.ok (Token.endOfInput t.endKind), t')
  | (.found _ token, t') => (.ok token, t')
  | (.skipped _, t') =>
    have : t'.input.size < t.input.size := size_lt_of_round h rfl
    scan context t'
  | (.unrecognized text reason? _, t') =>
    (.error (.unrecognized (String.ofList text) reason?), t')
  | (.broken error, t') => (.error (.unreadable error), t')
termination_by t.input.size

/-- Take the next token. -/
def next (context : Context) (t : Tokenizer ρ κ) : Lexed κ × Tokenizer ρ κ :=
  match t.peeked? with
  | some token => (.ok token, { t with peeked? := none })
  | none => t.scan context

/-- Look at the next token. It is kept until it is taken; an error is not kept. -/
def peek (context : Context) (t : Tokenizer ρ κ) : Lexed κ × Tokenizer ρ κ :=
  match t.peeked? with
  | some token => (.ok token, t)
  | none =>
    match t.scan context with
    | (.ok token, t) => (.ok token, { t with peeked? := some token })
    | (.error error, t) => (.error error, t)

/-- Whether nothing follows in a sequence of tokens and errors. -/
def isLast : Lexed κ → Bool
  | .ok token => token.isEndOfInput
  | .error (.unrecognized _ _) => false
  | .error (.unreadable _) => true

/-- The next of all tokens and errors, or none after the last. -/
def nextItem? (t : Tokenizer ρ κ) : Option (Lexed κ) × Tokenizer ρ κ :=
  if t.isFinished then (none, t)
  else
    let (item, t) := t.next {}
    (some item, { t with isFinished := isLast item })

/-- A bound on the number of tokens and errors to come. -/
def weight (t : Tokenizer ρ κ) : Nat :=
  if t.isFinished then 0 else t.input.size + (if t.peeked?.isSome then 1 else 0) + 1

/-- A scan leaves less input, unless its result is the last. -/
theorem size_lt_of_scan {context : Context} {t t' : Tokenizer ρ κ} {item : Lexed κ}
    (h : t.scan context = (item, t')) (hlast : isLast item = false) :
    t'.input.size < t.input.size := by
  fun_induction scan context t with
  | case1 t _ hround =>
    cases h
    simp [isLast, Token.endOfInput, Token.isEndOfInput] at hlast
  | case2 t text token _ hround =>
    cases h
    exact size_lt_of_round hround rfl
  | case3 t text after hround hlt ih =>
    have := ih h
    omega
  | case4 t text reason? discarded _ hround =>
    cases h
    exact size_lt_of_round hround rfl
  | case5 =>
    cases h
    simp [isLast] at hlast

/-- A scan does not touch the token looked at, nor end the sequence. -/
theorem scan_frame {context : Context} {t t' : Tokenizer ρ κ} {item : Lexed κ}
    (h : t.scan context = (item, t')) :
    t'.peeked? = t.peeked? ∧ t'.isFinished = t.isFinished ∧ t'.endKind = t.endKind := by
  have hframe : ∀ {finding : Round κ} {s s' : Tokenizer ρ κ}, s.round context = (finding, s') →
      s'.peeked? = s.peeked? ∧ s'.isFinished = s.isFinished ∧ s'.endKind = s.endKind := by
    intro finding s s' hround
    simp only [round, Prod.mk.injEq] at hround
    obtain ⟨-, rfl⟩ := hround
    exact ⟨rfl, rfl, rfl⟩
  fun_induction scan context t with
  | case1 t _ hround => cases h; exact hframe hround
  | case2 t _ _ _ hround => cases h; exact hframe hround
  | case3 t _ after hround _ ih =>
    obtain ⟨hpeeked, hfinished, hend⟩ := hframe hround
    obtain ⟨hpeeked', hfinished', hend'⟩ := ih h
    exact ⟨hpeeked'.trans hpeeked, hfinished'.trans hfinished, hend'.trans hend⟩
  | case4 t _ _ _ _ hround => cases h; exact hframe hround
  | case5 t _ _ hround => cases h; exact hframe hround

/-- Every token or error makes fewer follow. -/
theorem weight_lt_of_nextItem? {t t' : Tokenizer ρ κ} {item : Lexed κ}
    (h : t.nextItem? = (some item, t')) : t'.weight < t.weight := by
  unfold nextItem? at h
  split at h
  · simp at h
  · next hrunning =>
    simp only [Bool.not_eq_true] at hrunning
    generalize hnext : t.next {} = result at h
    obtain ⟨found, after⟩ := result
    simp only [Prod.mk.injEq, Option.some.injEq] at h
    obtain ⟨rfl, rfl⟩ := h
    unfold next at hnext
    split at hnext
    · next token hpeeked =>
      cases hnext
      simp only [weight, hrunning, hpeeked, Option.isSome_some, Option.isSome_none,
        Bool.false_eq_true, if_false, if_true]
      split <;> omega
    · next hpeeked =>
      obtain ⟨hframe, -, -⟩ := scan_frame hnext
      simp only [weight, hrunning, hframe, hpeeked, Option.isSome_none, Bool.false_eq_true,
        if_false]
      split
      · omega
      · next hgoes =>
        have := size_lt_of_scan hnext (by simpa using hgoes)
        omega

/-- All tokens and errors that follow. -/
def drain (t : Tokenizer ρ κ) : List (Lexed κ) × Tokenizer ρ κ :=
  match h : t.nextItem? with
  | (none, t') => ([], t')
  | (some item, t') =>
    have : t'.weight < t.weight := weight_lt_of_nextItem? h
    let (items, t'') := drain t'
    (item :: items, t'')
termination_by t.weight

/-- The tokenizer in words. The characters given back are listed with the next one
last. -/
def describe (describeRecognizer : ρ → String) (describeKind : κ → String)
    (t : Tokenizer ρ κ) : String :=
  let listed (parts : List String) := "[" ++ ", ".intercalate parts ++ "]"
  let peeked := match t.peeked? with
    | none => "None"
    | some token => "Some(" ++ token.describe describeKind ++ ")"
  "Tokenizer \x7b recognizers: " ++ listed (t.recognizers.map describeRecognizer) ++
    ", end_of_input: " ++ describeKind t.endKind ++
    ", pushback: " ++ listed (t.input.pushback.reverse.map Text.quotedChar) ++
    ", peeked: " ++ peeked ++ ", .. \x7d"

end Tokenizer

/-- What tokenizers are made from: recognizers in the order of their rank, the
kind of the token for the end of the input, and whether blanks are skipped, which
ranks last. -/
structure Blueprint (κ υ : Type) where
  recognizers : List (Recognizer κ υ) := []
  endKind : κ
  skipsBlanks : Bool := true

namespace Blueprint

/-- The blueprint with one more recognizer, which ranks behind the others. -/
def recognize (b : Blueprint κ υ) (recognizer : Recognizer κ υ) : Blueprint κ υ :=
  { b with recognizers := b.recognizers ++ [recognizer] }

/-- The blueprint for tokenizers that do not skip blanks. -/
def withoutBlanks (b : Blueprint κ υ) : Blueprint κ υ := { b with skipsBlanks := false }

/-- All recognizers of a tokenizer, each as it is before any input. -/
def lineup (b : Blueprint κ υ) : List (Recognizer κ υ) :=
  b.recognizers.map Recognizer.renew ++ if b.skipsBlanks then [Recognizer.blanks] else []

/-- A tokenizer over a source. -/
def build (b : Blueprint κ υ) (source : Source) : Tokenizer (Recognizer κ υ) κ :=
  Tokenizer.ofSource b.lineup b.endKind source

end Blueprint

end ShiftReduce
