import BenchHarness.Text.Utf8

/-!
# File trees

What lies in a file system: files, links, devices and directories of named nodes. A directory has an
identity of its own, by which a process holds on to it while it is moved or removed.
-/

namespace BenchHarness

/-- The identity of a directory. -/
abbrev DirId := Nat

/-- A device file. -/
inductive Device where
  /-- Swallows what is written and is empty to read. -/
  | null
  /-- Refuses what is written. -/
  | full
  /-- Swallows what is written and gives zeros without end. -/
  | zero
  deriving DecidableEq, Repr

/-- Something in a file system. -/
inductive Node where
  /-- A regular file with its permission bits. -/
  | file (mode : Nat) (content : Bytes)
  /-- A program of the system, known by its name. -/
  | program (name : String)
  /-- A symbolic link. -/
  | link (target : Bytes)
  /-- A named pipe. -/
  | pipe
  | device (d : Device)
  | directory (id : DirId) (children : List (Bytes × Node))

namespace Node

/-- The named nodes in a directory; nothing else has any. -/
def children : Node → List (Bytes × Node)
  | .directory _ children => children
  | _ => []

/-- The node of a name in a directory. -/
def child? (n : Node) (name : Bytes) : Option Node := n.children.lookup name

/-- The node that a list of names leads to, through directories only. -/
def at? : Node → List Bytes → Option Node
  | n, [] => some n
  | n, name :: rest => (n.child? name).bind (·.at? rest)

/-- Changes the node that a list of names leads to. -/
def modify (f : Node → Node) : List Bytes → Node → Node
  | [], n => f n
  | name :: rest, .directory id children =>
    .directory id (children.map fun (k, c) => if k = name then (k, modify f rest c) else (k, c))
  | _ :: _, n => n

mutual

/-- The names that lead to a directory. -/
def locate (id : DirId) : Node → Option (List Bytes)
  | .directory i children => if i = id then some [] else locateIn id children
  | _ => none

/-- The names that lead to a directory below one of several named nodes. -/
def locateIn (id : DirId) : List (Bytes × Node) → Option (List Bytes)
  | [] => none
  | (name, n) :: rest =>
    match locate id n with
    | some trail => some (name :: trail)
    | none => locateIn id rest

end

mutual

/-- The directories in a tree, each with the directory around it; `parent` is around the tree. -/
def directories (parent : DirId) : Node → List (DirId × DirId)
  | .directory id children => (id, parent) :: directoriesIn id children
  | _ => []

/-- The directories below some named nodes. -/
def directoriesIn (parent : DirId) : List (Bytes × Node) → List (DirId × DirId)
  | [] => []
  | (_, n) :: rest => directories parent n ++ directoriesIn parent rest

end

end Node

end BenchHarness
