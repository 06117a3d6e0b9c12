import BenchHarness.Text.Utf8

/-!
# Lines of a stream

A stream arrives in chunks and is cut into segments at line ends, wherever the chunks end. A segment
is what stands before a line end, or what is left at the end of the stream; a carriage return at its
end is dropped.
-/

namespace BenchHarness

/-- One of the two output streams of a process. -/
inductive Stream where
  | stdout
  | stderr
  deriving DecidableEq, Repr

namespace Lines

/-- The line end. -/
def lineEnd : UInt8 := 0x0a

/-- The carriage return. -/
def carriageReturn : UInt8 := 0x0d

/-- The complete lines at the front of some bytes, and what follows the last of them. -/
def cut : Bytes → List Bytes × Bytes
  | [] => ([], [])
  | b :: rest =>
    let (lines, left) := cut rest
    if b = lineEnd then ([] :: lines, left)
    else
      match lines with
      | [] => ([], b :: left)
      | line :: more => ((b :: line) :: more, left)

/-- The segments of a stream given in chunks; `held` is what has arrived of the current one. -/
def read (held : Bytes) : List Bytes → List Bytes
  | [] => if held = [] then [] else [held]
  | chunk :: rest =>
    match cut chunk with
    | ([], left) => read (held ++ left) rest
    | (line :: more, left) => (held ++ line) :: (more ++ read left rest)

/-- The segments of a stream given in chunks. -/
def segments (chunks : List Bytes) : List Bytes := read [] chunks

/-- The segments of a stream that a line end closes. They have been given when reading it fails; what
is left after the last of them is given only at the end of the stream. -/
def complete (chunks : List Bytes) : List Bytes := (cut chunks.flatten).1

/-- A segment without the carriage return at its end. -/
def trim (segment : Bytes) : Bytes :=
  if segment.getLast? = some carriageReturn then segment.dropLast else segment

end Lines

end BenchHarness
