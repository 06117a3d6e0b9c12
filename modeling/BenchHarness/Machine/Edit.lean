import BenchHarness.Machine.Files

/-!
# Changing file systems

Making, writing, linking, moving and removing.
-/

namespace BenchHarness.Files

/-- Changes the children of the directory that some names lead to. -/
def modifyChildren (files : Files) (trail : List Bytes)
    (f : List (Bytes × Node) → List (Bytes × Node)) : Files :=
  let change : Node → Node
    | .directory id children => .directory id (f children)
    | n => n
  { files with root := files.root.modify change trail }

/-- Puts a node under a name that is free. -/
def insert (files : Files) (trail : List Bytes) (name : Bytes) (node : Node) : Files :=
  files.modifyChildren trail (· ++ [(name, node)])

/-- Puts a node in the place of another. -/
def replace (files : Files) (trail : List Bytes) (name : Bytes) (node : Node) : Files :=
  files.modifyChildren trail (·.map fun (k, c) => if k = name then (k, node) else (k, c))

/-- Takes a name out of a directory. -/
def erase (files : Files) (trail : List Bytes) (name : Bytes) : Files :=
  files.modifyChildren trail (·.filter (·.1 ≠ name))

/-- Takes a tree out of a directory for good; its directories become removed ones. -/
def discard (files : Files) (trail : List Bytes) (name : Bytes) : Files :=
  match files.idAt? (.linked trail), files.root.at? (trail ++ [name]) with
  | some parent, some node =>
    let files := files.erase trail name
    { files with removed := node.directories parent ++ files.removed }
  | _, _ => files

/-- The permission bits of a new file. -/
def usualMode : Nat := 0o644

/-! ## Files -/

/-- Writes a file: its new content is `f` of the old one, which is empty if there is no file. -/
def updateFile (files : Files) (base : DirId) (path : Bytes) (f : Bytes → Bytes) :
    Except IoError Files := do
  match ← files.find true base path with
  | .directory _ => throw (.system .isDirectory)
  | .leaf trail name (.file mode content) =>
    pure (files.replace trail name (.file mode (f content)))
  | .leaf _ _ (.device .full) => throw (.system .noSpace)
  | .leaf _ _ _ => pure files
  | .vacant trail name => pure (files.insert trail name (.file usualMode (f [])))

/-- Gives a file a content. -/
def writeFile (files : Files) (base : DirId) (path : Bytes) (content : Bytes) :
    Except IoError Files :=
  files.updateFile base path fun _ => content

/-- Sets the permission bits of a file. -/
def setMode (files : Files) (base : DirId) (path : Bytes) (mode : Nat) : Except IoError Files := do
  match ← files.find true base path with
  | .leaf trail name (.file _ content) => pure (files.replace trail name (.file mode content))
  | .vacant _ _ => throw (.system .noEntry)
  | _ => pure files

/-! ## Directories, links and pipes -/

/-- Drops separators from the end of a path. -/
def dropSlashes (path : Bytes) : Bytes :=
  let kept := (path.reverse.dropWhile (· = Route.slash)).reverse
  if kept = [] then path else kept

/-- Makes a directory. -/
def makeDirectory (files : Files) (base : DirId) (path : Bytes) : Except IoError Files := do
  match ← files.find false base (dropSlashes path) with
  | .vacant trail name =>
    let files := files.insert trail name (.directory files.next [])
    pure { files with next := files.next + 1 }
  | _ => throw (.system .alreadyExists)

/-- The prefixes of a path that end with one of its steps, shortest first. -/
def pathPrefixes (path : Bytes) : List Bytes :=
  let pieces := Pieces.split Route.slash path
  (List.range pieces.length).filterMap fun n =>
    if pieces[n]? = some [] then none else some (Pieces.glue Route.slash (pieces.take (n + 1)))

/-- Makes a directory and those on the way to it; it may exist already. -/
def makeDirectories (files : Files) (base : DirId) (path : Bytes) : Except IoError Files := do
  let step (files : Files) (path : Bytes) : Except IoError Files :=
    match files.findNode true base path with
    | .ok (.directory _ _) => .ok files
    | .ok _ => .error (.system .alreadyExists)
    | .error _ => files.makeDirectory base path
  (pathPrefixes path).foldlM step files

/-- Makes a symbolic link. -/
def makeLink (files : Files) (base : DirId) (path target : Bytes) : Except IoError Files := do
  match ← files.find false base path with
  | .vacant trail name => pure (files.insert trail name (.link target))
  | _ => throw (.system .alreadyExists)

/-- Makes a named pipe. -/
def makePipe (files : Files) (base : DirId) (path : Bytes) : Except IoError Files := do
  match ← files.find false base path with
  | .vacant trail name => pure (files.insert trail name .pipe)
  | _ => throw (.system .alreadyExists)

/-! ## Removing and moving -/

/-- Removes whatever a path names, with all that is in it. -/
def removeTree (files : Files) (base : DirId) (path : Bytes) : Except IoError Files := do
  match ← files.find false base path with
  | .leaf trail name _ => pure (files.discard trail name)
  | .directory (.linked trail) =>
    match trail.getLast? with
    | some name => pure (files.discard trail.dropLast name)
    | none => throw (.system .invalid)
  | .directory (.removed _) => throw (.system .noEntry)
  | .vacant _ _ => throw (.system .noEntry)

/-- Removes an empty directory. -/
def removeDirectory (files : Files) (base : DirId) (path : Bytes) : Except IoError Files := do
  match ← files.find false base path with
  | .directory (.linked trail) =>
    match trail.getLast?, files.root.at? trail with
    | some name, some (.directory _ []) => pure (files.discard trail.dropLast name)
    | some _, some _ => throw (.system .notEmpty)
    | _, _ => throw (.system .invalid)
  | .directory (.removed _) => throw (.system .noEntry)
  | .leaf _ _ _ => throw (.system .notDirectory)
  | .vacant _ _ => throw (.system .noEntry)

/-- Removes a name that is no directory. -/
def removeFile (files : Files) (base : DirId) (path : Bytes) : Except IoError Files := do
  match ← files.find false base path with
  | .leaf trail name _ => pure (files.discard trail name)
  | .directory _ => throw (.system .isDirectory)
  | .vacant _ _ => throw (.system .noEntry)

/-- Where a path ends and what is there: the directory's names, the last name, and the node. -/
def origin? : Files → Found → Option (List Bytes × Bytes × Node)
  | _, .leaf trail name node => some (trail, name, node)
  | files, .directory (.linked trail) =>
    match trail.getLast?, files.root.at? trail with
    | some name, some node => some (trail.dropLast, name, node)
    | _, _ => none
  | _, _ => none

/-- Gives what a path names another path. A file takes the place of a file, and a directory that of
an empty directory; nothing can be moved into itself. -/
def rename (files : Files) (base : DirId) (old new : Bytes) : Except IoError Files := do
  let some (trail, name, node) := files.origin? (← files.find false base old)
    | throw (.system .noEntry)
  let source := trail ++ [name]
  let isDirectory := match node with
    | .directory _ _ => true
    | _ => false
  let move (files : Files) (trail' : List Bytes) (name' : Bytes) : Except IoError Files :=
    if isDirectory && source.isPrefixOf trail' then .error (.system .invalid)
    else .ok ((files.erase trail name).insert trail' name' node)
  let target ← files.find false base (if isDirectory then dropSlashes new else new)
  match target with
  | .vacant trail' name' => move files trail' name'
  | .leaf trail' name' _ =>
    if isDirectory then throw (.system .notDirectory)
    else if trail' ++ [name'] = source then pure files
    else move (files.discard trail' name') trail' name'
  | .directory place =>
    if ! isDirectory then throw (.system .isDirectory)
    else
      match place with
      | .removed _ => throw (.system .noEntry)
      | .linked there =>
        if there = source then pure files
        else
          match there.getLast?, files.root.at? there with
          | some name', some (.directory _ []) =>
            move (files.discard there.dropLast name') there.dropLast name'
          | some _, some _ => throw (.system .notEmpty)
          | _, _ => throw (.system .invalid)

end BenchHarness.Files
