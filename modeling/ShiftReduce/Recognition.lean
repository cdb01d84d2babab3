import ShiftReduce.Token

/-!
What it means to recognize. A recognizer is fed the characters of a text one at a
time and says after each of them how far the text fits; the end of the input is
fed as no character. It is reset before a text, and when its match of a text has
been chosen it makes the token for it.
-/
namespace ShiftReduce

/-- What a recognizer says about the text fed to it since its reset: that it does
not fit, that it fits but is incomplete, that it is a match, or that it holds an
error that no continuation mends. -/
inductive Answer where
  | noMatch
  | partialMatch
  | fullMatch
  | failure
  deriving DecidableEq, Repr

/-- The place of a scan in a parse: the state of the automaton that asks for the
token, if one does. -/
structure Context where
  state? : Option Nat := none
  deriving DecidableEq, Repr

/-- The context of a scan for a token in a state of the automaton. -/
def Context.ofState (state : Nat) : Context := ⟨some state⟩

/-- The operations of a recognizer. The answers come with the recognizer that has
seen the character, and the reason belongs to the last error it noticed. -/
class Recognizes (ρ : Type) (κ : outParam Type) where
  reset : ρ → ρ
  test : ρ → Option Char → Context → Answer × ρ
  isIgnored : ρ → Bool
  reason? : ρ → Option String
  token? : ρ → List Char → Option (Token κ)

/-- The type without recognizers of one's own. -/
inductive NoCustom (κ : Type) : Type

instance {κ : Type} : Recognizes (NoCustom κ) κ where
  reset := nofun
  test := nofun
  isIgnored := nofun
  reason? := nofun
  token? := nofun

end ShiftReduce
