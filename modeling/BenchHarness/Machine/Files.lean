import BenchHarness.IoError
import BenchHarness.Machine.Node
import BenchHarness.Text.Pieces

/-!
# File systems

A file system is a tree with a root directory. Paths are resolved in it one step at a time: `..`
leads to the directory around, a link is replaced by its target, and at most forty links are
followed. Directories that were removed while a process was in them are remembered, empty, with the
directory they were in.
-/

namespace BenchHarness

/-- A file system. -/
structure Files where
  root : Node
  /-- The directories that have been removed, each with the one around it. -/
  removed : List (DirId × DirId)
  /-- An identity that no directory has. -/
  next : DirId
  /-- The directories whose content cannot be listed, and why. They can still be entered, and what they
  hold can be reached by name; nothing else is guarded by permissions. -/
  unlisted : List (DirId × IoError)

/-- Where a directory is. -/
inductive Place where
  /-- In the tree, at the end of some names. -/
  | linked (trail : List Bytes)
  /-- Nowhere: it has been removed. -/
  | removed (id : DirId)
  deriving DecidableEq, Repr

/-! ## Paths as steps -/

/-- A path as steps from the root directory or from the working directory. -/
structure Route where
  fromRoot : Bool
  steps : List Bytes
  deriving DecidableEq, Repr

namespace Route

/-- The separator of path steps. -/
def slash : UInt8 := 0x2f

/-- The step to the same directory. -/
def here : Bytes := [0x2e]

/-- The step to the directory around. -/
def up : Bytes := [0x2e, 0x2e]

/-- The longest path the system takes, in bytes. -/
def maxLength : Nat := 4095

/-- The longest name the system takes, in bytes. -/
def maxName : Nat := 255

/-- The steps of a path. A separator at the end asks for a directory, like a last step that stays
there. -/
def ofBytes (path : Bytes) : Route :=
  let steps := (Pieces.split slash path).filter (· ≠ [])
  let last := if path.getLast? = some slash then [here] else []
  ⟨path.head? = some slash, steps ++ last⟩

/-- The steps of a path, if the system takes it. -/
def parse (path : Bytes) : Except IoError Route :=
  if path.contains 0 then .error .nulInPath
  else if path = [] then .error (.system .noEntry)
  else if maxLength < path.length then .error (.system .nameTooLong)
  else .ok (ofBytes path)

end Route

/-- The absolute path of a place given by names. -/
def pathOfTrail (trail : List Bytes) : Bytes := Route.slash :: Pieces.glue Route.slash trail

/-! ## Resolving -/

/-- What a path leads to. -/
inductive Found where
  | directory (place : Place)
  /-- Something that is no directory: where it is, its name and itself. -/
  | leaf (trail : List Bytes) (name : Bytes) (node : Node)
  /-- Nothing, but it could be made in a directory of the tree. -/
  | vacant (trail : List Bytes) (name : Bytes)

namespace Files

variable (files : Files)

/-- Where a directory is. -/
def placeOf (id : DirId) : Place :=
  match files.root.locate id with
  | some trail => .linked trail
  | none => .removed id

/-- The identity of the directory at a place. -/
def idAt? : Place → Option DirId
  | .removed id => some id
  | .linked trail =>
    match files.root.at? trail with
    | some (.directory id _) => some id
    | _ => none

/-- The directory around a place; the root directory is around itself. -/
def parentOf : Place → Place
  | .linked trail => .linked trail.dropLast
  | .removed id =>
    match files.removed.lookup id with
    | some parent => files.placeOf parent
    | none => .linked []

/-- The node of a name at a place. -/
def childAt? (place : Place) (name : Bytes) : Option Node :=
  match place with
  | .linked trail => (files.root.at? trail).bind (·.child? name)
  | .removed _ => none

/-- Follows steps from a place. `deeper` continues after a link; `follow` tells whether a link at
the last step is followed. -/
def walkWith (deeper : Place → List Bytes → Except IoError Found) (follow : Bool) :
    Place → List Bytes → Except IoError Found
  | place, [] => .ok (.directory place)
  | place, step :: rest =>
    if step = Route.here then walkWith deeper follow place rest
    else if step = Route.up then walkWith deeper follow (files.parentOf place) rest
    else if Route.maxName < step.length then .error (.system .nameTooLong)
    else
      match place, files.childAt? place step with
      | .linked trail, some (.directory _ _) =>
        walkWith deeper follow (.linked (trail ++ [step])) rest
      | .linked trail, some (.link target) =>
        if rest = [] ∧ ! follow then .ok (.leaf trail step (.link target))
        else
          let route := Route.ofBytes target
          deeper (if route.fromRoot then .linked [] else place) (route.steps ++ rest)
      | .linked trail, some node =>
        if rest = [] then .ok (.leaf trail step node) else .error (.system .notDirectory)
      | .linked trail, none =>
        if rest = [] then .ok (.vacant trail step) else .error (.system .noEntry)
      | .removed _, _ => .error (.system .noEntry)

/-- Follows steps from a place, and as many links as allowed. -/
def walk (follow : Bool) : (links : Nat) → Place → List Bytes → Except IoError Found
  | 0 => files.walkWith (fun _ _ => .error (.system .tooManyLinks)) follow
  | links + 1 => files.walkWith (walk follow links) follow

/-- How many links are followed before a path is given up. -/
def maxLinks : Nat := 40

/-- What a path leads to from a working directory. -/
def find (follow : Bool) (base : DirId) (path : Bytes) : Except IoError Found := do
  let route ← Route.parse path
  files.walk follow maxLinks (if route.fromRoot then .linked [] else files.placeOf base) route.steps

/-! ## Looking -/

/-- The directory that a path leads to. -/
def findDirectory (base : DirId) (path : Bytes) : Except IoError DirId := do
  match ← files.find true base path with
  | .directory place =>
    match files.idAt? place with
    | some id => pure id
    | none => throw (.system .noEntry)
  | .leaf _ _ _ => throw (.system .notDirectory)
  | .vacant _ _ => throw (.system .noEntry)

/-- The node that a path leads to; a removed directory counts as an empty one. -/
def findNode (follow : Bool) (base : DirId) (path : Bytes) : Except IoError Node := do
  match ← files.find follow base path with
  | .directory (.linked trail) =>
    match files.root.at? trail with
    | some node => pure node
    | none => throw (.system .noEntry)
  | .directory (.removed id) => pure (.directory id [])
  | .leaf _ _ node => pure node
  | .vacant _ _ => throw (.system .noEntry)

/-- Whether a path leads to a regular file. -/
def isFile (base : DirId) (path : Bytes) : Bool :=
  match files.findNode true base path with
  | .ok (.file _ _) => true
  | .ok (.program _) => true
  | _ => false

/-- The content of the file that a path leads to. -/
def contentAt (base : DirId) (path : Bytes) : Except IoError Bytes := do
  match ← files.findNode true base path with
  | .file _ content => pure content
  | .directory _ _ => throw (.system .isDirectory)
  | _ => pure []

/-- The absolute path of a directory. -/
def pathOf (id : DirId) : Except IoError Bytes :=
  match files.placeOf id with
  | .linked trail => .ok (pathOfTrail trail)
  | .removed _ => .error (.system .noEntry)

/-- The absolute path, free of links, of what a path leads to. -/
def canonical (base : DirId) (path : Bytes) : Except IoError Bytes := do
  let found ← match ← files.find true base path with
    | .directory (.linked trail) => pure (pathOfTrail trail)
    | .directory (.removed _) => throw (.system .noEntry)
    | .leaf trail name _ => pure (pathOfTrail (trail ++ [name]))
    | .vacant _ _ => throw (.system .noEntry)
  if Route.maxLength < found.length then throw (.system .nameTooLong)
  pure found

end Files

end BenchHarness
