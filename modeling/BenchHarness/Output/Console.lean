import BenchHarness.Log
import BenchHarness.Output.Lines
import BenchHarness.Output.Sink

/-!
# Consoles

Where the harness shows what happens: two sinks, and a journal of notes. A note may also be shown as
a line on standard error.
-/

namespace BenchHarness

/-- Two sinks and a journal. -/
structure Console where
  stdout : Sink
  stderr : Sink
  /-- Every note so far. -/
  journal : List LogRecord
  /-- The line a note shows as on standard error, if it is shown. -/
  shown : LogRecord → Option Bytes

namespace Console

/-- A console that keeps everything and shows no notes. -/
def buffers : Console := ⟨.buffer, .buffer, [], fun _ => none⟩

/-- The sink of a stream. -/
def sink (c : Console) : Stream → Sink
  | .stdout => c.stdout
  | .stderr => c.stderr

/-- Writes to the sink of a stream. -/
def write (c : Console) (stream : Stream) (data : Bytes) : Option IoError × Console :=
  match stream with
  | .stdout =>
    let (error, sink) := c.stdout.write data
    (error, { c with stdout := sink })
  | .stderr =>
    let (error, sink) := c.stderr.write data
    (error, { c with stderr := sink })

/-- Notes something. A line that cannot be shown is lost. -/
def note (c : Console) (record : LogRecord) : Console :=
  let c := { c with journal := c.journal ++ [record] }
  match c.shown record with
  | none => c
  | some line => (c.write .stderr line).2

/-- Notes several things in order. -/
def noteAll (c : Console) (records : List LogRecord) : Console := records.foldl note c

/-- Echoes a line of output to the sink of its stream. -/
def echo (c : Console) (stream : Stream) (line : Bytes) : Option IoError × Console :=
  c.write stream (line ++ [Lines.lineEnd])

end Console

end BenchHarness
