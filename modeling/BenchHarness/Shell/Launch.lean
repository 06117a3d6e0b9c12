import BenchHarness.Run.Launch
import BenchHarness.Shell.Execution

/-!
# Launching on a machine with a shell

What the commands of a fresh machine do when the harness launches them. Standard input is empty, and
a process is seen until all that it has started has ended.
-/

namespace BenchHarness.Shell

/-- How deep the tasks of a process may be nested. -/
def maxNesting : Nat := 20000

/-- The identity of the first process. -/
def firstPid : Nat := 1000

/-- The process and the host that a command starts with. -/
def initialState (environment : List (Octets × Octets)) (cwd : DirId) (files : Files) : State where
  process := {
    name := []
    arguments := []
    bindings := environment
    exported := environment.map (·.1)
    fixed := []
    functions := []
    descriptors := [(0, 0), (1, 1), (2, 2)]
    cwd := cwd
    line := 0
    speaker := none
    status := 0
    outputStatus := 0
    pid := firstPid
    around := []
    lastJob := none
    exitOnError := false
    trace := false
    showsLines := false
    readsOnly := false
    strict := false
    keepsPatterns := false
    tested := false
    loops := 0
    traps := []
    pending := []
    depth := 0
    shadowed := [] }
  host := {
    files := files
    opened := #[.device .null, .stream .stdout, .stream .stderr]
    written := []
    elapsed := 0
    nextPid := firstPid + 1
    jobs := []
    ended := []
    sent := [] }

/-- The pieces that were written on a stream, in order. -/
def piecesOf (stream : Stream) (written : List (Stream × Bytes)) : List Bytes :=
  (written.filter (·.1 = stream)).map (·.2)

/-- Starts a command. -/
def launch : Launch := fun command files => do
  if command.words.any fun w => w.toList.contains '\x00' then throw .nulInCommand
  let words := command.words.map Octets.ofString
  let environment := command.environment.map fun (name, value) =>
    (Octets.ofString name, Octets.ofString value)
  let search := (environment.lookup "PATH".toList).getD []
  let invocation ← (Invocation.find files command.directory search (words.headD []) words).2
  let whole : Act Unit := do
    let departure ← tryCatch (do
      perform maxNesting (.program invocation)
      pure none) fun d => pure (some d)
    let status := (← Act.process).status
    perform maxNesting .jobs
    Act.setStatus status
    match departure with
    | some d => throw d
    | none => pure ()
  let (result, state) := (whole.run).run (initialState environment command.directory files)
  let written := state.host.written.reverse
  let run : ChildRun := {
    stdout := piecesOf .stdout written
    stderr := piecesOf .stderr written
    order := written.map (·.1)
    exitCode := match result with
      | .error (.killed _) => none
      | _ => some (state.process.status % 256)
    duration := state.host.elapsed
    faults := .none }
  pure (run, state.host.files)

end BenchHarness.Shell

namespace BenchHarness

/-- The machine after its shell has run a script in the working directory. -/
def Machine.afterScript (m : Machine) (script : String) : Machine :=
  match Shell.launch ⟨["sh", "-c", script], m.environment, m.cwd⟩ m.files with
  | .ok (run, files) => { m with files := files, now := m.now + run.duration }
  | .error _ => m

end BenchHarness
