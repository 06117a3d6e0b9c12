import BenchHarness.Path

/-!
# Test entries

A test is named by the path of its entry point, relative to the discovery root.
-/

namespace BenchHarness

/-- A runnable test. -/
structure Entry where
  /-- The entry point's path, relative to the discovery root. -/
  path : String
  deriving DecidableEq, Repr

namespace Entry

/-- The directory the entry point lies in, relative to the discovery root; empty for the root. -/
def dir (e : Entry) : String := (Path.parent? e.path).getD ""

/-- The directory the test runs in, for a given discovery root. -/
def workingDir (e : Entry) (root : String) : String :=
  if e.dir = "" then root else Path.join root e.dir

/-- The entry point's own name: the whole path if its last component is no name. -/
def fileName (e : Entry) : String := (Path.fileName? e.path).getD e.path

/-- Entries are equal if their paths have the same components, and so have their directories. -/
def same (e f : Entry) : Bool := Path.same e.path f.path && Path.same e.dir f.dir

end Entry

/-- The tests found under a root, in walk order. -/
structure TestList where
  root : String
  entries : List Entry
  deriving DecidableEq, Repr

end BenchHarness
