import BenchHarness.Classifier
import BenchHarness.Discovery.Tree
import BenchHarness.Entry
import BenchHarness.Log
import BenchHarness.Path
import BenchHarness.Text.Octets

/-!
# Discovery

The walk over a root is searched for test benches. Files that are not collected are passed over, and
what a reader may want to know about is noted.
-/

namespace BenchHarness

/-- Why no tests can be discovered. -/
inductive DiscoveryError where
  | rootNotFound (root : String)
  | rootUnreadable (root : String) (cause : IoError)
  deriving DecidableEq, Repr

namespace DiscoveryError

/-- The wording of the error itself. -/
def message : DiscoveryError → String
  | .rootNotFound root =>
    "discovery root \x60" ++ root ++ "\x60 does not exist or is not a directory"
  | .rootUnreadable root _ => "failed to read discovery root \x60" ++ root ++ "\x60"

/-- What caused the error. -/
def causes : DiscoveryError → List IoError
  | .rootNotFound _ => []
  | .rootUnreadable _ e => [e]

end DiscoveryError

namespace Discovery

/-! ## Paths

The walk spells the path of a node as the root is spelled. Classifiers see the part below the root. -/

/-- The path of a node on the walk over a root. -/
def walkedPath (root : String) (names : List Bytes) : Bytes :=
  names.foldl childPath (Utf8.encode root)

/-- The components of a path whose bytes need not be text. -/
def componentsOf (path : Bytes) : List Path.Component :=
  Path.componentsOf (Path.pieces (Octets.ofBytes path))

/-- The part of a path below a root, `/` between the names and the root itself the empty text, if it
is text. -/
def normalize? (root : String) (path : Bytes) : Option String := do
  let below ← Path.remainder? (componentsOf (Utf8.encode root)) (componentsOf path)
  Utf8.decode? (Octets.toBytes (Pieces.glue '/' (below.map Path.Component.text)))

/-- The text before the last `/` of a path, empty if there is none, and the text after it. -/
def splitName (path : String) : String × String :=
  let pieces := Path.pieces path.toList
  (String.ofList (Pieces.glue '/' pieces.dropLast), String.ofList (pieces.getLastD []))

/-- The path of a node on the walk, as messages show it. -/
def shownPath (root : String) (names : List Bytes) : String :=
  Utf8.decodeLossy (walkedPath root names)

/-- The error of a walk that cannot go on at a node. -/
def walkError (root : String) (names : List Bytes) (error : IoError) : IoError :=
  .wrapped ("IO error for operation on " ++ shownPath root names ++ ": " ++ error.message)
    error.chain

/-! ## Findings -/

/-- What has been found on a part of a walk. -/
structure Findings where
  /-- The directories met whose files are not collected. -/
  excluded : List String
  entries : List Entry
  notes : List LogRecord

namespace Findings

/-- Nothing. -/
def none : Findings := ⟨[], [], []⟩

/-- Something to be noted. -/
def note (level : Level) (message : String) : Findings :=
  ⟨[], [], [⟨level, .discovery, message⟩]⟩

/-- A test. -/
def test (path : String) : Findings :=
  { note .debug ("discovered test \x60" ++ path ++ "\x60") with entries := [⟨path⟩] }

/-- A directory whose files are not collected. -/
def exclusion (dir : String) : Findings :=
  { note .debug ("not collecting files in blacklisted directory \x60" ++ dir ++ "\x60") with
    excluded := [dir] }

/-- What has been found on two parts of a walk. -/
def append (f g : Findings) : Findings :=
  ⟨f.excluded ++ g.excluded, f.entries ++ g.entries, f.notes ++ g.notes⟩

end Findings

/-- Looks at a file: it is a test if its directory is not excluded, the classifier accepts it and it
has the entry point's name. -/
def examineFile (c : Classifier) (isExcluded : String → Bool) (path : String) : Findings :=
  let (dir, name) := splitName path
  if isExcluded dir || ! c.accepts path then .none
  else if name ≠ c.entryPoint then
    .note .warn
      ("skipping \x60" ++ path ++ "\x60: file name is not \x60" ++ c.entryPoint ++ "\x60")
  else .test path

/-- Looks at a step of the walk. -/
def examine (c : Classifier) (root : String) (isExcluded : String → Bool) (v : Visit) : Findings :=
  match v.kind with
  | .failure error =>
    .note .warn
      ("skipping unreadable path during discovery: " ++ (walkError root v.names error).message)
  | kind =>
    match normalize? root (walkedPath root v.names) with
    | none =>
      .note .warn ("skipping non-UTF-8 path during discovery: " ++ shownPath root v.names)
    | some path =>
      match kind with
      | .directory => if c.excludesDir path then .exclusion path else .none
      | .link false =>
        .note .debug ("skipping symlink \x60" ++ path ++ "\x60 that does not point to a file")
      | .link true | .file => examineFile c isExcluded path
      | .special | .failure _ => .none

/-- Takes a step of the walk into account. -/
def step (c : Classifier) (root : String) (f : Findings) (v : Visit) : Findings :=
  f.append (examine c root (f.excluded.contains ·) v)

/-- Searches a walk. -/
def search (c : Classifier) (root : String) (visits : List Visit) : Findings :=
  visits.foldl (step c root) .none

end Discovery

/-- Discovers the tests below a root that turned out to be something, with the notes made. A root that
cannot be read is met before that is found out, so there may be notes also if there are no tests. -/
def TestList.discover (c : Classifier) (root : String) (view : RootView) :
    Except (DiscoveryError × List LogRecord) (TestList × List LogRecord) :=
  match view with
  | .missing | .notDirectory => .error (.rootNotFound root, [])
  | .inaccessible e => .error (.rootUnreadable root e, [])
  | .unreadable _ e =>
    .error (.rootUnreadable root (Discovery.walkError root [] e),
      (Discovery.search c root view.visits).notes)
  | .directory _ _ =>
    let found := Discovery.search c root view.visits
    .ok (⟨root, found.entries⟩, found.notes)

end BenchHarness
