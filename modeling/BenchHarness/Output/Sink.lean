import BenchHarness.IoError
import BenchHarness.Text.Utf8

/-!
# Writing

What is written goes somewhere in pieces, and writing stops at the first error. A sink is a place
for bytes whose behaviour is a rule: it takes all of the data, or takes the first few bytes and
fails. The rule may depend on what was written before, which covers a buffer that never fails, a
writer with a limited capacity, a full device, and a terminal that fails now and then.
-/

namespace BenchHarness

/-- A way to write: what writing some bytes does to whatever takes them, with the error if not all
of them were taken. -/
abbrev Put (σ : Type) := Bytes → σ → Option IoError × σ

/-- Writes several pieces in order, up to the first error. -/
def Put.all {σ : Type} (put : Put σ) : List Bytes → σ → Option IoError × σ
  | [], s => (none, s)
  | data :: rest, s =>
    match put data s with
    | (some error, s) => (some error, s)
    | (none, s) => Put.all put rest s

/-- A destination for bytes. -/
structure Sink where
  /-- Given the number of earlier writes, the number of bytes taken so far and the data of a write:
  `none` if all of it is taken, otherwise how many bytes are taken before which error. -/
  rule : Nat → Nat → Bytes → Option (Nat × IoError)
  /-- How many writes there have been. -/
  writes : Nat
  /-- How many bytes have been taken. -/
  size : Nat
  /-- What has been taken, the latest piece first. -/
  pieces : List Bytes

namespace Sink

/-- Everything the sink has taken, in order. -/
def contents (s : Sink) : Bytes := s.pieces.reverse.flatten

/-- A sink that takes everything. -/
def buffer : Sink := ⟨fun _ _ _ => none, 0, 0, []⟩

/-- A sink that takes `capacity` bytes in total and then fails. -/
def limited (capacity : Nat) (error : IoError) : Sink where
  rule := fun _ size data =>
    if size + data.length ≤ capacity then none else some (capacity - size, error)
  writes := 0
  size := 0
  pieces := []

/-- A sink whose writes fail, taking nothing, where `faults` says so. -/
def flaky (faults : Nat → Option IoError) : Sink where
  rule := fun writes _ _ => (faults writes).map (0, ·)
  writes := 0
  size := 0
  pieces := []

/-- A device on which no write succeeds. -/
def fullDevice : Sink := flaky fun _ => some (.system .noSpace)

/-- Writes data, with the error if not all of it was taken. -/
def write (s : Sink) (data : Bytes) : Option IoError × Sink :=
  match s.rule s.writes s.size data with
  | none => (none, { s with
      writes := s.writes + 1, size := s.size + data.length, pieces := data :: s.pieces })
  | some (count, error) =>
    let taken := data.take count
    (some error, { s with
      writes := s.writes + 1, size := s.size + taken.length, pieces := taken :: s.pieces })

/-- Writing to a sink. -/
def put : Put Sink := fun data s => s.write data

end Sink

/-- Why text could not be written out. -/
inductive WriteError where
  /-- The output failed. -/
  | io (cause : IoError)
  /-- The output failed while JSON was being written. -/
  | json (cause : IoError)
  deriving DecidableEq, Repr

namespace WriteError

/-- The wording of the error itself. -/
def message : WriteError → String
  | .io _ => "error writing to output"
  | .json _ => "error serializing to JSON"

/-- What caused the error. -/
def cause : WriteError → IoError
  | .io e => e
  | .json e => e

end WriteError

end BenchHarness
