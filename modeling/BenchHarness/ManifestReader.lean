import BenchHarness.Json.Record
import BenchHarness.Manifest

/-!
# Reading manifests

A manifest is read back from its JSON form. Members with other names are passed over; the known ones
must all be there, once.
-/

namespace BenchHarness

namespace Manifest

/-- How a path is described in messages. -/
def pathWanted : String := "a UTF-8 path string"

/-- A test being read. -/
structure EntryDraft where
  path : Option String
  dir : Option String

/-- The fields of a test. -/
def entryShape : Json.Shape EntryDraft where
  wanted := "struct TestEntrySummary"
  empty := ⟨none, none⟩
  fields := [
    { name := "path", isSet := fun d => d.path.isSome
      read := fun d s => do
        let (x, s) ← Json.readText pathWanted s
        pure ({ d with path := some x }, s) },
    { name := "dir", isSet := fun d => d.dir.isSome
      read := fun d s => do
        let (x, s) ← Json.readText pathWanted s
        pure ({ d with dir := some x }, s) }]

/-- Reads a test. -/
def readEntry : Json.Reader ManifestEntry := fun s => do
  let (d, s) ← entryShape.read s
  pure (⟨d.path.getD "", d.dir.getD ""⟩, s)

/-- A manifest being read. -/
structure Draft where
  root : Option String
  testCount : Option UInt64
  tests : Option (List ManifestEntry)

/-- The fields of a manifest. -/
def shape : Json.Shape Draft where
  wanted := "struct TestListSummary"
  empty := ⟨none, none, none⟩
  fields := [
    { name := "root", isSet := fun d => d.root.isSome
      read := fun d s => do
        let (x, s) ← Json.readText pathWanted s
        pure ({ d with root := some x }, s) },
    { name := "test-count", isSet := fun d => d.testCount.isSome
      read := fun d s => do
        let (x, s) ← Json.readCount "usize" s
        pure ({ d with testCount := some x }, s) },
    { name := "tests", isSet := fun d => d.tests.isSome
      read := fun d s => do
        let (x, s) ← Json.readArray readEntry s
        pure ({ d with tests := some x }, s) }]

/-- Reads a manifest. -/
def read : Json.Reader Manifest := fun s => do
  let (d, s) ← shape.read s
  pure (⟨d.root.getD "", d.testCount.getD 0, d.tests.getD []⟩, s)

/-- The manifest that a JSON text holds. -/
def parse (text : String) : Except Json.Fault Manifest := Json.readAll read (Utf8.encode text)

end Manifest

end BenchHarness
