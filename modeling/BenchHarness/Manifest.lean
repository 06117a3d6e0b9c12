import BenchHarness.Json.Layout
import BenchHarness.Report

/-!
# Manifests

A manifest is the machine-readable form of a test list. It can be written in two JSON layouts.
-/

namespace BenchHarness

/-- A test in a manifest. -/
structure ManifestEntry where
  path : String
  dir : String
  deriving DecidableEq, Repr

/-- The machine-readable form of a test list. -/
structure Manifest where
  root : String
  /-- How many tests there are, as a 64-bit count. -/
  testCount : UInt64
  tests : List ManifestEntry
  deriving DecidableEq, Repr

namespace Manifest

/-- The manifest of some tests under a root. -/
def ofTests (root : String) (tests : List ManifestEntry) : Manifest :=
  ⟨root, UInt64.ofNat tests.length, tests⟩

/-- A test as JSON. -/
def entryText (l : Json.Layout) (depth : Nat) (e : ManifestEntry) : String :=
  l.object depth [("path", Json.quote e.path), ("dir", Json.quote e.dir)]

/-- A manifest as JSON. -/
def text (l : Json.Layout) (m : Manifest) : String :=
  l.object 0 [
    ("root", Json.quote m.root),
    ("test-count", toString m.testCount.toNat),
    ("tests", l.array 1 (m.tests.map (entryText l 2)))]

end Manifest

/-- The machine-readable form of an entry. -/
def Entry.manifest (e : Entry) : ManifestEntry := ⟨e.path, e.dir⟩

namespace TestList

/-- The machine-readable form of a list. -/
def manifest (list : TestList) : Manifest :=
  Manifest.ofTests list.root (list.entries.map Entry.manifest)

end TestList

/-- How a test list is written out. -/
inductive ListFormat where
  /-- A list of paths for a reader. -/
  | plain
  /-- Compact JSON. -/
  | json
  /-- Indented JSON. -/
  | jsonPretty
  deriving DecidableEq, Repr

namespace ListFormat

/-- The name of a format. -/
def name : ListFormat → String
  | .plain => "plain"
  | .json => "json"
  | .jsonPretty => "json-pretty"

/-- The format of a name. -/
def ofName? (name : String) : Option ListFormat :=
  [ListFormat.plain, .json, .jsonPretty].find? (·.name = name)

end ListFormat

namespace TestList

variable {σ : Type}

/-- Writes a JSON text and a line end; only an error at the line end is a plain output error. -/
def writeJson (put : Put σ) (text : String) (s : σ) : Option WriteError × σ :=
  match put (Utf8.encode text) s with
  | (some error, s) => (some (.json error), s)
  | (none, s) =>
    let (error, s) := put (Utf8.encode "\n") s
    (error.map .io, s)

/-- Writes a list in a format. -/
def write (put : Put σ) (list : TestList) (theme : Theme) (format : ListFormat) (s : σ) :
    Option WriteError × σ :=
  match format with
  | .plain => Report.write put (Report.testList theme list) s
  | .json => writeJson put (list.manifest.text .compact) s
  | .jsonPretty => writeJson put (list.manifest.text .indented) s

end TestList

end BenchHarness
