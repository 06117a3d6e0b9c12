import BenchHarness.Outcome
import BenchHarness.Output.Console
import BenchHarness.Run.Launch
import BenchHarness.Text.Search

/-!
# Collecting output

The two streams of a running test are read segment by segment as they arrive. Each line is echoed
and kept; on standard output the success marker is counted. The end of a stream is a delivery of its
own, and reading is over when both streams have ended, or when one of them cannot be read any more.
-/

namespace BenchHarness

/-- Something read from a stream: a segment, or its end. Of a stream that cannot be read to its end,
the failure comes in place of the end. -/
structure Delivery where
  stream : Stream
  segment : Option Bytes
  deriving DecidableEq, Repr

/-- What has been collected. -/
structure Capture where
  markers : Nat
  /-- The decoded lines of standard output. -/
  stdout : List String
  /-- The decoded lines of standard error. -/
  stderr : List String
  /-- Whether an echo has failed. -/
  echoFailed : Bool
  deriving DecidableEq, Repr

namespace Capture

/-- Nothing collected yet. -/
def empty : Capture := ⟨0, [], [], false⟩

/-- Echoes a line. The first failure is noted, further ones are not. -/
def echo (stream : Stream) (line : Bytes) (c : Capture) (console : Console) : Capture × Console :=
  match console.echo stream line with
  | (none, console) => (c, console)
  | (some error, console) =>
    if c.echoFailed then (c, console)
    else
      ({ c with echoFailed := true },
        console.note ⟨.warn, .running, "failed to echo test output: " ++ error.message⟩)

/-- Takes a delivery. Lines are put in front of those before them; `finish` turns them around. -/
def receive (marker : Bytes) (state : Capture × Console) (d : Delivery) : Capture × Console :=
  let (c, console) := state
  match d.segment with
  | none => (c, console)
  | some segment =>
    let line := Lines.trim segment
    match d.stream with
    | .stdout =>
      let (c, console) := echo .stdout line
        { c with markers := c.markers + Search.occurrences marker line } console
      ({ c with stdout := Utf8.decodeLossy line :: c.stdout }, console)
    | .stderr =>
      let (c, console) := echo .stderr line c console
      ({ c with stderr := Utf8.decodeLossy line :: c.stderr }, console)

/-- The capture with its lines in the order in which they were read. -/
def finish (c : Capture) : Capture :=
  { c with stdout := c.stdout.reverse, stderr := c.stderr.reverse }

end Capture

namespace Delivery

/-- The deliveries of a stream: its segments and its end. -/
def ofSegments (stream : Stream) (segments : List Bytes) : List Delivery :=
  segments.map (⟨stream, some ·⟩) ++ [⟨stream, none⟩]

/-- The deliveries of a stream of a process. -/
def ofStream (run : ChildRun) (stream : Stream) : List Delivery :=
  ofSegments stream
    (if (run.faults.reading stream).isNone then Lines.segments (run.chunks stream)
    else Lines.complete (run.chunks stream))

/-- Merges the deliveries of both streams. At each step of `order` the next delivery of that stream
comes, if it has not ended; at last what is left. -/
def merge : (order : List Stream) → (out err : List Delivery) → List Delivery
  | [], out, err => out ++ err
  | .stdout :: order, d :: out, err => d :: merge order out err
  | .stderr :: order, out, d :: err => d :: merge order out err
  | .stdout :: order, [], err => merge order [] err
  | .stderr :: order, out, [] => merge order out []

/-- What both streams of a process have to deliver, in the order in which it comes. -/
def offered (run : ChildRun) : List Delivery :=
  merge run.order (ofStream run .stdout) (ofStream run .stderr)

/-- How reading fails at a delivery, if it does. -/
def failure? (faults : Faults) (d : Delivery) : Option Failure :=
  match d.segment, d.stream with
  | some _, _ => none
  | none, .stdout => faults.stdout.map .readStdout
  | none, .stderr => faults.stderr.map .readStderr

/-- The deliveries of a process that are taken: reading is over with the first one that fails. -/
def ofRun (run : ChildRun) : List Delivery :=
  (offered run).takeWhile fun d => (failure? run.faults d).isNone

end Delivery

namespace ChildRun

/-- Collects the output of a process, echoing it to a console, until it ends or cannot be read. -/
def collect (run : ChildRun) (marker : Bytes) (console : Console) : Capture × Console :=
  let (c, console) := (Delivery.ofRun run).foldl (Capture.receive marker) (.empty, console)
  (c.finish, console)

/-- How reading the output of a process fails, if it does. -/
def readFailure (run : ChildRun) : Option Failure :=
  (Delivery.offered run).findSome? (Delivery.failure? run.faults)

/-- What goes wrong with a process that was started. It is waited for even if it could not be read,
but the first failure counts. -/
def failure (run : ChildRun) : Option Failure :=
  run.readFailure.or (run.faults.wait.map .wait)

/-- What is noted when a process that cannot be read cannot be killed either. -/
def notes (run : ChildRun) : List LogRecord :=
  match run.readFailure, run.faults.kill with
  | some _, some e => [⟨.debug, .running, "failed to kill test process: " ++ e.message⟩]
  | _, _ => []

end ChildRun

end BenchHarness
