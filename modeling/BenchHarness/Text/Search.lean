/-!
# Searching in sequences

Whether one sequence starts, ends or contains another, and how often it occurs without overlap.
-/

namespace BenchHarness.Search

variable {α : Type} [DecidableEq α]

/-- Whether `needle` occurs in the sequence as a contiguous part. -/
def contains (needle : List α) : List α → Bool
  | [] => needle.isEmpty
  | a :: rest => needle.isPrefixOf (a :: rest) || contains needle rest

/-- Counts matches from left to right after skipping `skip` elements: a match ends before the next
one is looked for. -/
def countAfter (needle : List α) : (skip : Nat) → List α → Nat
  | _, [] => 0
  | skip + 1, _ :: rest => countAfter needle skip rest
  | 0, a :: rest =>
    if needle.isPrefixOf (a :: rest) then countAfter needle (needle.length - 1) rest + 1
    else countAfter needle 0 rest

/-- The number of non-overlapping occurrences of a non-empty `needle`, found greedily from the
left. -/
def occurrences (needle hay : List α) : Nat := countAfter needle 0 hay

end BenchHarness.Search

namespace BenchHarness.Text

/-- Whether `needle` is a substring of `hay`. -/
def contains (needle hay : String) : Bool := Search.contains needle.toList hay.toList

/-- Whether `hay` starts with `start`. -/
def startsWith (hay start : String) : Bool := start.toList.isPrefixOf hay.toList

/-- Whether `hay` ends with `finish`. -/
def endsWith (hay finish : String) : Bool := finish.toList.isSuffixOf hay.toList

end BenchHarness.Text
