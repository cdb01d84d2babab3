import ShiftReduce.Pattern.Comment
import ShiftReduce.Pattern.Numeral
import ShiftReduce.Pattern.Quotation
import ShiftReduce.Pattern.Word

/-!
Recognizers. A lexeme is a pattern whose matches become tokens of a kind, trivia
are patterns whose matches are dropped. A recognizer may be limited to some
contexts or change the values of its tokens, and recognizers of one's own take
part beside these.
-/
namespace ShiftReduce

open Pattern

variable {κ υ : Type}

/-- The patterns whose matches become tokens. -/
inductive Lexeme where
  | identifier (pattern : Identifier)
  | numeral (pattern : Numeral)
  | string (pattern : StringLiteral)
  | char (pattern : CharLiteral)
  | truth (pattern : Truth)
  | phrase (pattern : Phrase)
  deriving DecidableEq, Repr

namespace Lexeme

/-- The pattern before its first character. -/
def reset : Lexeme → Lexeme
  | .identifier _ => .identifier .start
  | .numeral _ => .numeral .start
  | .string pattern => .string pattern.reset
  | .char _ => .char .start
  | .truth _ => .truth .start
  | .phrase pattern => .phrase pattern.reset

/-- The answer to the next character. -/
def test (l : Lexeme) (c? : Option Char) : Answer × Lexeme :=
  match l with
  | .identifier pattern => (pattern.test c?).map id .identifier
  | .numeral pattern => (pattern.test c?).map id .numeral
  | .string pattern => (pattern.test c?).map id .string
  | .char pattern => (pattern.test c?).map id .char
  | .truth pattern => (pattern.test c?).map id .truth
  | .phrase pattern => (pattern.test c?).map id .phrase

/-- What was found wrong with the text. -/
def flaw? : Lexeme → Option Flaw
  | .numeral (.over flaw?) => flaw?
  | .string pattern => pattern.flaw?
  | .char pattern => pattern.flaw?
  | _ => none

/-- The value of a text that matches the pattern. -/
def value? (l : Lexeme) (text : List Char) : Option Value :=
  match l with
  | .identifier _ | .phrase _ => some (.text (String.ofList text))
  | .numeral _ => Numeral.value? text
  | .string pattern => some (pattern.value text)
  | .char _ => CharLiteral.value? text
  | .truth _ => some (Truth.value text)

/-- The name of the kind of pattern. -/
def name : Lexeme → String
  | .identifier _ => "Identifier"
  | .numeral _ => "Number"
  | .string _ => "String"
  | .char _ => "Char"
  | .truth _ => "Boolean"
  | .phrase _ => "Symbol"

end Lexeme

/-- The patterns whose matches are dropped. -/
inductive Trivia where
  | lineComment (pattern : LineComment)
  | blockComment (pattern : BlockComment)
  | blanks (pattern : Blanks)
  deriving DecidableEq, Repr

namespace Trivia

/-- The pattern before its first character. -/
def reset : Trivia → Trivia
  | .lineComment pattern => .lineComment pattern.reset
  | .blockComment pattern => .blockComment pattern.reset
  | .blanks _ => .blanks .running

/-- The answer to the next character. -/
def test (t : Trivia) (c? : Option Char) : Answer × Trivia :=
  match t with
  | .lineComment pattern => (pattern.test c?).map id .lineComment
  | .blockComment pattern => (pattern.test c?).map id .blockComment
  | .blanks pattern => (pattern.test c?).map id .blanks

/-- What was found wrong with the text. -/
def flaw? : Trivia → Option Flaw
  | .blockComment pattern => pattern.flaw?
  | _ => none

/-- The name of the kind of pattern. -/
def name : Trivia → String
  | .lineComment _ => "LineComment"
  | .blockComment _ => "BlockComment"
  | .blanks _ => "Whitespace"

end Trivia

/-- A recognizer of tokens of kind `κ`. One of type `υ` is kept together with what
it was at first. -/
inductive Recognizer (κ υ : Type) where
  | lexeme (kind : κ) (pattern : Lexeme)
  | trivia (pattern : Trivia)
  | active (isActive : Context → Bool) (inner : Recognizer κ υ)
  | mapped (transform : Option Value → Option Value) (inner : Recognizer κ υ)
  | custom (fresh current : υ)

namespace Recognizer

/-- Identifiers. -/
def identifier (kind : κ) : Recognizer κ υ := .lexeme kind (.identifier .start)

/-- Numeric literals. -/
def number (kind : κ) : Recognizer κ υ := .lexeme kind (.numeral .start)

/-- String literals, between double quotes unless something else is given. -/
def string (kind : κ) (pattern : StringLiteral := {}) : Recognizer κ υ :=
  .lexeme kind (.string pattern)

/-- Character literals. -/
def character (kind : κ) : Recognizer κ υ := .lexeme kind (.char .start)

/-- Truth values. -/
def boolean (kind : κ) : Recognizer κ υ := .lexeme kind (.truth .start)

/-- A fixed text. -/
def symbol (text : String) (kind : κ) : Recognizer κ υ :=
  .lexeme kind (.phrase { text := text.toList })

/-- Comments to the end of the line. -/
def lineComment (opening : String := "//") : Recognizer κ υ :=
  .trivia (.lineComment (LineComment.ofOpening opening))

/-- Comments between an opening and a closing. -/
def blockComment (opening : String := "/*") (closing? : Option String := none) : Recognizer κ υ :=
  .trivia (.blockComment (BlockComment.ofDelimiters opening closing?))

/-- Runs of blanks. -/
def blanks : Recognizer κ υ := .trivia (.blanks .running)

/-- A recognizer of one's own. -/
def ofCustom (fresh : υ) : Recognizer κ υ := .custom fresh fresh

/-- The recognizer limited to the contexts that satisfy a test. -/
def when (r : Recognizer κ υ) (isActive : Context → Bool) : Recognizer κ υ := .active isActive r

/-- The recognizer with changed token values. -/
def mapValue (r : Recognizer κ υ) (transform : Option Value → Option Value) : Recognizer κ υ :=
  .mapped transform r

/-- A copy for another input: one's own recognizers start anew, all others stay as
they are. -/
def renew : Recognizer κ υ → Recognizer κ υ
  | .active isActive inner => .active isActive inner.renew
  | .mapped transform inner => .mapped transform inner.renew
  | .custom fresh _ => .custom fresh fresh
  | r => r

variable [Recognizes υ κ]

/-- The recognizer before the first character of a text. -/
def reset : Recognizer κ υ → Recognizer κ υ
  | .lexeme kind pattern => .lexeme kind pattern.reset
  | .trivia pattern => .trivia pattern.reset
  | .active isActive inner => .active isActive inner.reset
  | .mapped transform inner => .mapped transform inner.reset
  | .custom fresh current => .custom fresh (Recognizes.reset current)

/-- The answer to the next character. A recognizer that is not active in the
context does not see the character. -/
def test : Recognizer κ υ → Option Char → Context → Answer × Recognizer κ υ
  | .lexeme kind pattern, c?, _ => (pattern.test c?).map id (.lexeme kind)
  | .trivia pattern, c?, _ => (pattern.test c?).map id .trivia
  | .active isActive inner, c?, context =>
    if isActive context then (inner.test c? context).map id (.active isActive)
    else (.noMatch, .active isActive inner)
  | .mapped transform inner, c?, context => (inner.test c? context).map id (.mapped transform)
  | .custom fresh current, c?, context =>
    (Recognizes.test current c? context).map id (.custom fresh)

/-- Whether matches are dropped. -/
def isIgnored : Recognizer κ υ → Bool
  | .lexeme _ _ => false
  | .trivia _ => true
  | .active _ inner => inner.isIgnored
  | .mapped _ inner => inner.isIgnored
  | .custom _ current => Recognizes.isIgnored current

/-- Why the text did not match, if that is known. -/
def reason? : Recognizer κ υ → Option String
  | .lexeme _ pattern => pattern.flaw?.map Flaw.message
  | .trivia pattern => pattern.flaw?.map Flaw.message
  | .active _ inner => inner.reason?
  | .mapped _ inner => inner.reason?
  | .custom _ current => Recognizes.reason? current

/-- The token for a text that was matched. -/
def token? : Recognizer κ υ → List Char → Option (Token κ)
  | .lexeme kind pattern, text =>
    some (Token.ofText kind (String.ofList text) (pattern.value? text))
  | .trivia _, _ => none
  | .active _ inner, text => inner.token? text
  | .mapped transform inner, text =>
    (inner.token? text).map fun token => { token with value? := transform token.value? }
  | .custom _ current, text => Recognizes.token? current text

instance : Recognizes (Recognizer κ υ) κ where
  reset := reset
  test := test
  isIgnored := isIgnored
  reason? := reason?
  token? := token?

omit [Recognizes υ κ] in
/-- The recognizer in words, with a description of the kinds of its tokens. -/
def describe (describeKind : κ → String) : Recognizer κ υ → String
  | .lexeme kind pattern => pattern.name ++ "(" ++ describeKind kind ++ ")"
  | .trivia pattern => pattern.name
  | .active _ inner => "Conditional \x7b inner: " ++ inner.describe describeKind ++ ", .. \x7d"
  | .mapped _ inner => "Transforming \x7b inner: " ++ inner.describe describeKind ++ ", .. \x7d"
  | .custom _ _ => "Custom"

end Recognizer

end ShiftReduce
