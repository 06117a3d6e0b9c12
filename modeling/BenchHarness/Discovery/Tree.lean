import BenchHarness.Machine.Files

/-!
# Directory trees as discovery sees them

A snapshot of what lies below a discovery root: which nodes are files, which links lead to files,
and which directories can be read. `Tree.visits` is the walk over it: every node in turn, a
directory before what it holds, and the nodes of a directory sorted by name.
-/

namespace BenchHarness

/-- A node below a discovery root. -/
inductive Tree where
  /-- A regular file. -/
  | file
  /-- A symbolic link, and whether it leads to a regular file. -/
  | link (toFile : Bool)
  /-- Neither a file, a link nor a directory. -/
  | special
  /-- A directory that cannot be read. -/
  | unreadable (error : IoError)
  | directory (children : List (Bytes × Tree))

/-- What is met on a walk. -/
inductive NodeKind where
  | file
  | link (toFile : Bool)
  | special
  | directory
  /-- Reading the directory that was met just before failed. -/
  | failure (error : IoError)
  deriving DecidableEq, Repr

/-- A step of a walk: the names that lead to a node from the root, and what it is. -/
structure Visit where
  names : List Bytes
  kind : NodeKind
  deriving DecidableEq, Repr

/-! ## Order of names -/

/-- Whether a name comes before or with another: byte by byte, a shorter name first. -/
def nameLe : Bytes → Bytes → Bool
  | [], _ => true
  | _ :: _, [] => false
  | a :: s, b :: t => a < b || (a = b && nameLe s t)

/-- Puts a named item among sorted ones. -/
def insertByName {α : Type} (item : Bytes × α) : List (Bytes × α) → List (Bytes × α)
  | [] => [item]
  | other :: rest =>
    if nameLe item.1 other.1 then item :: other :: rest else other :: insertByName item rest

/-- Named items sorted by name. -/
def sortByName {α : Type} (items : List (Bytes × α)) : List (Bytes × α) :=
  items.foldr insertByName []

namespace Tree

mutual

/-- The walk over a node that some names lead to. -/
def visitsFrom (names : List Bytes) : Tree → List Visit
  | .file => [⟨names, .file⟩]
  | .link toFile => [⟨names, .link toFile⟩]
  | .special => [⟨names, .special⟩]
  | .unreadable error => [⟨names, .directory⟩, ⟨names, .failure error⟩]
  | .directory children =>
    ⟨names, .directory⟩ :: ((sortByName (visitsOfEach names children)).flatMap (·.2))

/-- The walk over each of the nodes in a directory, with the node's name. -/
def visitsOfEach (names : List Bytes) : List (Bytes × Tree) → List (Bytes × List Visit)
  | [] => []
  | (name, node) :: rest =>
    (name, visitsFrom (names ++ [name]) node) :: visitsOfEach names rest

end

/-- The walk over what a directory holds. -/
def visitsBelow (children : List (Bytes × Tree)) : List Visit :=
  (sortByName (visitsOfEach [] children)).flatMap (·.2)

end Tree

/-- What a discovery root turns out to be. -/
inductive RootView where
  | missing
  | notDirectory
  /-- It cannot be looked at. -/
  | inaccessible (error : IoError)
  /-- A directory, or a link to one, that cannot be read. -/
  | unreadable (viaLink : Bool) (error : IoError)
  /-- A directory, or a link to one, and what it holds. -/
  | directory (viaLink : Bool) (children : List (Bytes × Tree))

namespace RootView

/-- The first step of a walk: the root itself. A root that is a link is met as a link. -/
def top (viaLink : Bool) : Visit := ⟨[], if viaLink then .link false else .directory⟩

/-- The walk over a root: the root itself, then what it holds, also if the root is a link. -/
def visits : RootView → List Visit
  | .directory viaLink children => top viaLink :: Tree.visitsBelow children
  | .unreadable viaLink _ => [top viaLink]
  | _ => []

end RootView

/-! ## Snapshots of a file system -/

/-- The path of an entry of a directory. -/
def childPath (path name : Bytes) : Bytes :=
  if path = [] ∨ path.getLast? = some Route.slash then path ++ name
  else path ++ [Route.slash] ++ name

/-- Why a directory that is reached under a path cannot be listed, if it cannot. -/
def Files.listingError (files : Files) (path : Bytes) (id : DirId) : Option IoError :=
  if Route.maxLength < path.length then some (.system .nameTooLong) else files.unlisted.lookup id

mutual

/-- A snapshot of a node at a place, reached under a path. -/
def Files.snapshot (files : Files) (base : DirId) (path : Bytes) : Node → Tree
  | .file _ _ => .file
  | .program _ => .file
  | .link _ => .link (files.isFile base path)
  | .pipe => .special
  | .device _ => .special
  | .directory id children =>
    match files.listingError path id with
    | some e => .unreadable e
    | none => .directory (Files.snapshotEach files base path children)

/-- Snapshots of the nodes in a directory. -/
def Files.snapshotEach (files : Files) (base : DirId) (path : Bytes) :
    List (Bytes × Node) → List (Bytes × Tree)
  | [] => []
  | (name, node) :: rest =>
    (name, Files.snapshot files base (childPath path name) node) ::
      Files.snapshotEach files base path rest

end

/-- What a discovery root turns out to be in a file system, seen from a working directory. -/
def Files.rootView (files : Files) (base : DirId) (root : String) : RootView :=
  let path := Utf8.encode root
  match files.findNode true base path with
  | .error (.system .noEntry) => .missing
  | .error e => .inaccessible e
  | .ok (.directory id children) =>
    let viaLink := match files.findNode false base path with
      | .ok (.link _) => true
      | _ => false
    match files.listingError path id with
    | some e => .unreadable viaLink e
    | none => .directory viaLink (files.snapshotEach base path children)
  | .ok _ => .notDirectory

end BenchHarness
