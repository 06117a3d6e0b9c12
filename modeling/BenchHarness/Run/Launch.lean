import BenchHarness.Machine.Basic
import BenchHarness.Output.Lines

/-!
# Launching

How a process is started, and what is seen of it. What a command does is not fixed here: it is a
function of the command and the file system, which may refuse to start it.
-/

namespace BenchHarness

/-- A command to be started. -/
structure Command where
  /-- The program and its arguments. -/
  words : List String
  environment : List (String × String)
  /-- The directory it starts in. -/
  directory : DirId

/-- What goes wrong while a process is watched. -/
structure Faults where
  /-- Why nothing more can be read from standard output after what has arrived. -/
  stdout : Option IoError
  /-- Why nothing more can be read from standard error after what has arrived. -/
  stderr : Option IoError
  /-- Why the process cannot be killed, which is tried if it cannot be read. -/
  kill : Option IoError
  /-- Why the end of the process cannot be waited for. -/
  wait : Option IoError
  deriving DecidableEq, Repr

namespace Faults

/-- Nothing goes wrong. -/
def none : Faults := ⟨.none, .none, .none, .none⟩

/-- Why a stream cannot be read to its end, if it cannot. -/
def reading (f : Faults) : Stream → Option IoError
  | .stdout => f.stdout
  | .stderr => f.stderr

end Faults

/-- What is seen of a process that was started. If reading it fails it is killed, and what is seen of
it, like the files it leaves, is what a killed process shows. -/
structure ChildRun where
  /-- What arrives from its standard output, in the chunks in which it does. -/
  stdout : List Bytes
  /-- What arrives from its standard error, in the chunks in which it does. -/
  stderr : List Bytes
  /-- Which stream has something to read, time after time; what is left at the end is read from
  standard output first. -/
  order : List Stream
  /-- Its exit code, unless a signal ended it. -/
  exitCode : Option Nat
  /-- How many nanoseconds it runs. -/
  duration : Nat
  faults : Faults

namespace ChildRun

/-- What arrives from a stream. -/
def chunks (run : ChildRun) : Stream → List Bytes
  | .stdout => run.stdout
  | .stderr => run.stderr

/-- The exit code, if the end of the process is seen. -/
def seenExitCode (run : ChildRun) : Option Nat :=
  if run.faults.wait.isNone then run.exitCode else none

end ChildRun

/-- What commands do: a command is refused, or it runs and leaves another file system. -/
abbrev Launch := Command → Files → Except IoError (ChildRun × Files)

end BenchHarness
