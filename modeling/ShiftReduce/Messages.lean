import ShiftReduce.Dictionary
import ShiftReduce.Number.Radix
import ShiftReduce.Text.Pieces

/-!
Messages by code, and their notation: a code, an equals sign or a colon, and the
message on each line. Blank lines and lines that start with a hash or an
exclamation mark are left out. The last message for a code holds.
-/
namespace ShiftReduce

/-- Messages by code. -/
structure Messages where
  byCode : Dictionary Nat String := {}
  deriving DecidableEq, Repr

/-- A line that gives no message for a code. -/
structure MalformedMessage where
  line : String
  deriving DecidableEq, Repr

/-- The wording of a malformed line. -/
def MalformedMessage.message (m : MalformedMessage) : String := "Malformed error message entry: " ++ m.line

namespace Messages

/-- The number of codes that have a message. -/
def size (m : Messages) : Nat := m.byCode.size

/-- The message for a code. -/
def get? (m : Messages) (code : Nat) : Option String := m.byCode.get? code

/-- The messages with another one for a code. -/
def insert (m : Messages) (code : Nat) (message : String) : Messages := ⟨m.byCode.set code message⟩

/-- Whether a line is left out. -/
def isIdle (line : List Char) : Bool :=
  match Text.trimStart line with
  | [] => true
  | c :: _ => c == '#' || c == '!'

/-- Whether a character stands between a code and its message. -/
def isSeparator (c : Char) : Bool := c == '=' || c == ':'

/-- The code and the message in a line. -/
def entryOf? (line : List Char) : Option (Nat × String) :=
  let entry := Text.trimStart line
  let code := entry.takeWhile fun c => !isSeparator c
  match entry.drop code.length with
  | [] => none
  | _ :: message =>
    (Number.count? (Text.trim code)).map fun code => (code, String.ofList (Text.trim message))

/-- The messages with those in some lines. -/
def insertLines (m : Messages) : List (List Char) → Except MalformedMessage Messages
  | [] => .ok m
  | line :: rest =>
    match entryOf? line with
    | none => .error ⟨String.ofList line⟩
    | some (code, message) => (m.insert code message).insertLines rest

/-- The messages in a text. -/
def ofText (text : List Char) : Except MalformedMessage Messages :=
  insertLines {} ((Text.lines text).filter fun line => !isIdle line)

end Messages

end ShiftReduce
