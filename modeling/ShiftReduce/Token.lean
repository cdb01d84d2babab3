import ShiftReduce.Input.ReadError
import ShiftReduce.Token.Value

/-!
Tokens and the errors of reading them. A token has the text it was made from; only
the token that stands for the end of the input has none.
-/
namespace ShiftReduce

variable {κ : Type}

/-- A token of some kind. -/
structure Token (κ : Type) where
  kind : κ
  text? : Option String
  value? : Option Value
  deriving DecidableEq

namespace Token

/-- The token made from a text. -/
def ofText (kind : κ) (text : String) (value? : Option Value) : Token κ := ⟨kind, some text, value?⟩

/-- The token that stands for the end of the input. -/
def endOfInput (kind : κ) : Token κ := ⟨kind, none, none⟩

/-- Whether the token stands for the end of the input. -/
def isEndOfInput (t : Token κ) : Bool := t.text?.isNone

/-- The text the token was made from, empty at the end of the input. -/
def text (t : Token κ) : String := t.text?.getD ""

/-- The text of a text value. -/
def valueText? (t : Token κ) : Option String := t.value?.bind Value.text?

/-- The kind, the quoted text and the value, as far as there are any. -/
def display [ToString κ] (t : Token κ) : String :=
  match t.text?, t.value? with
  | none, _ => toString t.kind
  | some text, none => toString t.kind ++ " " ++ Text.quoted text
  | some text, some value =>
    toString t.kind ++ " " ++ Text.quoted text ++ " = " ++ value.display

/-- All parts of the token by name, with a description of its kind. -/
def describe (describeKind : κ → String) (t : Token κ) : String :=
  let optional : Option String → String
    | none => "None"
    | some part => "Some(" ++ part ++ ")"
  "Token \x7b kind: " ++ describeKind t.kind ++ ", text: " ++ optional (t.text?.map Text.quoted) ++
    ", value: " ++ optional (t.value?.map Value.describe) ++ " \x7d"

end Token

/-- Why no token could be read. After text that no recognizer knows, reading can
go on behind it. -/
inductive LexError where
  | unrecognized (text : String) (reason? : Option String)
  | unreadable (error : ReadError)
  deriving DecidableEq

namespace LexError

/-- The wording of an error: the reason, if one is known, and the text. -/
def message : LexError → String
  | .unrecognized text reason? =>
    reason?.getD "Unrecognized character sequence" ++ ": " ++ text
  | .unreadable error => error.message

/-- The text that was not recognized. -/
def text? : LexError → Option String
  | .unrecognized text _ => some text
  | .unreadable _ => none

/-- The reason, if one is known. -/
def reason? : LexError → Option String
  | .unrecognized _ reason? => reason?
  | .unreadable _ => none

end LexError

end ShiftReduce
