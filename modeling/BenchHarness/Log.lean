/-!
# Log records

What the harness notes while it works, apart from its output: each record has a level, the part of
the harness it comes from, and a message.
-/

namespace BenchHarness

/-- How important a record is, the most important first. -/
inductive Level where
  | error
  | warn
  | info
  | debug
  | trace
  deriving DecidableEq, Repr

/-- The rank of a level: more important levels have smaller ranks. -/
def Level.rank : Level → Nat
  | .error => 1
  | .warn => 2
  | .info => 3
  | .debug => 4
  | .trace => 5

/-- The part of the harness that notes something. -/
inductive Topic where
  | discovery
  | selection
  | running
  | workingDirectory
  | commandLine
  | failure
  /-- A cause of a failure, shown without a heading. -/
  | cause
  deriving DecidableEq, Repr

/-- The name a log filter knows a topic by. -/
def Topic.target : Topic → String
  | .discovery => "simtest_runner::discovery"
  | .selection => "simtest_runner::selection"
  | .running => "simtest_runner::runner"
  | .workingDirectory => "simtest_runner::runner::cwd"
  | .commandLine => "simtest::dispatch"
  | .failure => "simtest::errors"
  | .cause => "simtest::no_heading"

/-- A note. -/
structure LogRecord where
  level : Level
  topic : Topic
  message : String
  deriving DecidableEq, Repr

end BenchHarness
