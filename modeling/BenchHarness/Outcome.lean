import BenchHarness.Entry
import BenchHarness.IoError

/-!
# Outcomes and their summary

An outcome is what was observed when one test ran. A summary folds the outcomes of a run into
counts, the failed directories and a verdict.
-/

namespace BenchHarness

/-- What went wrong with a test, so that it is not judged on its output. -/
inductive Failure where
  /-- Its directory could not be entered. -/
  | changeDir (dir : String) (cause : IoError)
  /-- Its launcher could not be started. -/
  | spawn (command : String) (cause : IoError)
  /-- Its standard output could not be read to the end. -/
  | readStdout (cause : IoError)
  /-- Its standard error could not be read to the end. -/
  | readStderr (cause : IoError)
  /-- The end of its process could not be waited for. -/
  | wait (cause : IoError)
  deriving DecidableEq, Repr

namespace Failure

/-- The wording of the failure itself. -/
def message : Failure → String
  | .changeDir dir _ => "failed to change directory to \x60" ++ dir ++ "\x60"
  | .spawn command _ => "failed to spawn \x60" ++ command ++ "\x60"
  | .readStdout _ => "error reading standard output"
  | .readStderr _ => "error reading standard error"
  | .wait _ => "error waiting for test process to exit"

/-- What caused the failure. -/
def cause : Failure → IoError
  | .changeDir _ e => e
  | .spawn _ e => e
  | .readStdout e => e
  | .readStderr e => e
  | .wait e => e

/-- The causes of the failure, the outermost one first. -/
def causes (f : Failure) : List String := f.cause.chain

end Failure

/-- The result of running one test. -/
structure Outcome where
  entry : Entry
  /-- How often the success marker was found on standard output. -/
  markers : Nat
  /-- The lines on standard output, decoded. -/
  stdout : List String
  /-- The lines on standard error, decoded. -/
  stderr : List String
  /-- The exit code, if the end of the test's process was seen and no signal brought it about. -/
  exitCode : Option Nat
  /-- How long the test took, in nanoseconds. -/
  elapsed : Nat
  /-- What went wrong with the test, if anything did. What had been read until then is kept. -/
  failure : Option Failure
  deriving DecidableEq, Repr

/-- A test passes if nothing went wrong with it and it printed the success marker; its exit code does
not matter. -/
def Outcome.passed (o : Outcome) : Bool := o.failure.isNone && decide (0 < o.markers)

/-- The results of a run. -/
structure Summary where
  total : Nat
  passed : Nat
  failed : Nat
  /-- The directories of the failed tests, in run order. -/
  failedDirs : List String
  deriving DecidableEq, Repr

namespace Summary

/-- The summary of no outcomes. -/
def empty : Summary := ⟨0, 0, 0, []⟩

/-- Takes one more outcome into account. -/
def add (s : Summary) (o : Outcome) : Summary :=
  if o.passed then { s with total := s.total + 1, passed := s.passed + 1 }
  else { s with
    total := s.total + 1
    failed := s.failed + 1
    failedDirs := s.failedDirs ++ [o.entry.dir] }

/-- The summary of some outcomes. -/
def ofOutcomes (outcomes : List Outcome) : Summary := outcomes.foldl add empty

/-- Whether nothing failed; a run of no tests succeeds. -/
def isSuccess (s : Summary) : Bool := s.failed = 0

/-- The exit code of a run: 0 for success, 1 for failure. -/
def exitCode (s : Summary) : Nat := if s.isSuccess then 0 else 1

end Summary

end BenchHarness
