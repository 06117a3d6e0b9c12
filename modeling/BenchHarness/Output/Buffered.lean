import BenchHarness.Output.Console

/-!
# Buffered output

Standard output is written through a buffer, which is handed on when it would overflow and whenever
it is flushed. What a console shows is never reordered by that: the buffer is flushed before
anything else is written to the stream.
-/

namespace BenchHarness

/-- A console and the bytes for its standard output that have not been handed on yet. -/
structure Buffered where
  console : Console
  pending : Bytes

namespace Buffered

/-- How many bytes the buffer holds. -/
def capacity : Nat := 8192

/-- A console with nothing pending. -/
def ofConsole (console : Console) : Buffered := ⟨console, []⟩

/-- Hands on what is pending; after an error it stays pending. -/
def flush (b : Buffered) : Option IoError × Buffered :=
  if b.pending = [] then (none, b)
  else
    match b.console.write .stdout b.pending with
    | (none, console) => (none, ⟨console, []⟩)
    | (some error, console) => (some error, { b with console := console })

/-- Writes to the buffer. What does not fit makes it hand on what it has; what fits in no buffer is
handed on at once. -/
def write (b : Buffered) (data : Bytes) : Option IoError × Buffered :=
  if b.pending.length + data.length ≤ capacity then (none, { b with pending := b.pending ++ data })
  else
    match b.flush with
    | (some error, b) => (some error, b)
    | (none, b) =>
      if data.length ≤ capacity then (none, { b with pending := data })
      else
        let (error, console) := b.console.write .stdout data
        (error, { b with console := console })

/-- Writing to a buffered console. -/
def put : Put Buffered := fun data b => b.write data

/-- The console when the buffer is given up: what is pending is handed on if that is possible. -/
def close (b : Buffered) : Console := b.flush.2.console

end Buffered

end BenchHarness
