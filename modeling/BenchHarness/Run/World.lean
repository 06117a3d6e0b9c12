import BenchHarness.Machine.Basic
import BenchHarness.Output.Console

/-!
# The world of a run

A run changes a machine and a console. The working directory of the machine is changed for one test
at a time and restored afterwards.
-/

namespace BenchHarness

/-- A machine and a console. -/
structure World where
  machine : Machine
  console : Console

namespace World

/-- Notes something on the console. -/
def note (w : World) (level : Level) (topic : Topic) (message : String) : World :=
  { w with console := w.console.note ⟨level, topic, message⟩ }

/-- Does something in a directory and returns to the working directory. Nothing is done if the
working directory has no path or the directory cannot be entered; if there is no way back, that is
noted. -/
def inDirectory {α : Type} (dir : String) (act : World → α × World) (w : World) :
    Except IoError α × World :=
  match w.machine.currentDir with
  | .error e => (.error e, w)
  | .ok start =>
    match w.machine.changeDir (Utf8.encode dir) with
    | .error e => (.error e, w)
    | .ok machine =>
      let (result, w) := act { w with machine := machine }
      match w.machine.changeDir start with
      | .ok machine => (.ok result, { w with machine := machine })
      | .error e =>
        (.ok result, w.note .error .workingDirectory
          ("failed to restore working directory after running in \x60" ++ dir ++ "\x60: " ++
            e.message))

end World

end BenchHarness
