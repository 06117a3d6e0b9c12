import BenchHarness.CommandLine.Basic
import BenchHarness.Shell.Launch

/-!
# The program

The command line on a fresh machine. A script on standard input says what the machine holds: its
shell runs it first.
-/

open BenchHarness

/-- Everything on a stream, after what has been read already. -/
partial def readAll (input : IO.FS.Stream) (read : ByteArray) : IO ByteArray := do
  let more ← input.read 65536
  if more.isEmpty then pure read else readAll input (read ++ more)

/-- Writes bytes to a stream. -/
def writeBytes (output : IO.FS.Stream) (bytes : Bytes) : IO Unit := do
  output.write (ByteArray.mk bytes.toArray)
  output.flush

/-- Sets up a machine and runs the command line on it. -/
def main (words : List String) : IO UInt32 := do
  let script ← readAll (← IO.getStdin) ByteArray.empty
  let machine := Machine.fresh.afterScript (Utf8.decodeLossy script.toList)
  let (code, world) := CommandLine.run .ready Shell.launch words ⟨machine, .buffers⟩
  writeBytes (← IO.getStdout) world.console.stdout.contents
  writeBytes (← IO.getStderr) world.console.stderr.contents
  pure code.toUInt32
