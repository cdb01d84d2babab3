import ShiftReduce.Dictionary
import ShiftReduce.Files
import ShiftReduce.Text.Pieces

/-!
Files held in memory. A volume lists the files and the directories under its root
by their paths; a directory on the way to something listed is there as well. A
path is followed name by name: one dot stays where it is, two dots go back, and
every other name leads into the directory before it. Above the root there are
directories too, of which nothing else is known. A directory opens, but reading it
fails.
-/
namespace ShiftReduce

/-- What is at a path. -/
inductive Node where
  | file (bytes : List UInt8)
  | directory
  deriving DecidableEq, Repr

/-- Files and directories by the names on the way to them. -/
structure Volume where
  nodes : Dictionary (List String) Node := {}
  deriving DecidableEq, Repr

namespace Volume

/-- The names on a path. -/
def namesOf (path : String) : List String := (Text.pieces (· == '/') path.toList).map String.ofList

/-- The volume with something more at a path. -/
def add (v : Volume) (path : String) (node : Node) : Volume := ⟨v.nodes.set (namesOf path) node⟩

/-- What is at the end of a way from the root, which is a directory itself. -/
def node? (v : Volume) (way : List String) : Option Node :=
  match v.nodes.get? way with
  | some node => some node
  | none => if way.isEmpty || v.nodes.keys.any way.isPrefixOf then some .directory else none

/-- What the names lead to above the root. -/
def outside (names : List String) : Except ReadError Node :=
  if names.all fun name => name = "" ∨ name = "." ∨ name = ".." then .ok .directory
  else .error .notFound

/-- What the names lead to from where a way has led. -/
def walk (v : Volume) (way : List String) : List String → Except ReadError Node
  | [] =>
    match v.node? way with
    | some node => .ok node
    | none => .error .notFound
  | name :: rest =>
    match v.node? way with
    | none => .error .notFound
    | some (.file _) => .error .notDirectory
    | some .directory =>
      if name = "" ∨ name = "." then v.walk way rest
      else if name = ".." then if way.isEmpty then outside rest else v.walk way.dropLast rest
      else v.walk (way ++ [name]) rest

/-- What a path leads to. The empty path leads nowhere. -/
def find (v : Volume) (path : String) : Except ReadError Node :=
  if path.isEmpty then .error .notFound
  else if path.startsWith "/" then outside (namesOf path)
  else v.walk [] (namesOf path)

/-- What every path opens to. -/
def files (v : Volume) : Files := fun path =>
  match v.find path with
  | .error error => .error error
  | .ok (.file bytes) => .ok (.ofBytes bytes)
  | .ok .directory => .ok ⟨[.failure .isDirectory]⟩

end Volume

end ShiftReduce
