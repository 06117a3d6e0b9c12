import BenchHarness.Outcome
import BenchHarness.Selection

/-!
# Run events

What happens during a run, in the order it is told to whoever follows it.
-/

namespace BenchHarness

/-- Something that happened during a run. -/
inductive Event where
  /-- The run of a selection started. -/
  | runStarted (selection : Selection)
  /-- A test is about to run in a directory. -/
  | testStarted (entry : Entry) (workingDir : String)
  /-- A test ended. -/
  | testFinished (outcome : Outcome)
  /-- The run ended after some nanoseconds. -/
  | runFinished (summary : Summary) (elapsed : Nat)
  deriving DecidableEq, Repr

end BenchHarness
