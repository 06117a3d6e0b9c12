import BenchHarness.Config.Basic
import BenchHarness.Event
import BenchHarness.Run.Collect
import BenchHarness.Run.World

/-!
# Running tests

Tests run one at a time. Each runs in its own directory, its output is echoed and searched for the
success marker, and whatever goes wrong with a test makes it fail without stopping the run. Whoever
follows the run is told every event and may end the run at any of them.
-/

namespace BenchHarness

/-- How tests are launched and judged. -/
structure Runner where
  launcher : Launcher
  marker : String
  deriving DecidableEq, Repr

/-- The runner of a configuration. -/
def Config.runner (c : Config) : Runner := ⟨c.launcher, c.marker⟩

/-- What a runner is made with. Neither part is fixed here: each says why it cannot be had, if it
cannot. -/
structure Engine where
  /-- Why nothing that searches for a marker can be made. -/
  matcher : String → Option String
  /-- Why there is no runtime to wait for processes with. -/
  runtime : Option IoError

/-- An engine that makes every runner. -/
def Engine.ready : Engine := ⟨fun _ => none, none⟩

/-- Why a runner cannot be made. -/
inductive RunnerError where
  /-- Nothing that searches for the marker can be made, for a reason. -/
  | matcher (marker reason : String)
  /-- There is no runtime to wait for processes with. -/
  | runtime (cause : IoError)
  deriving DecidableEq, Repr

namespace RunnerError

/-- The wording of the error itself. -/
def message : RunnerError → String
  | .matcher marker _ => "error building matcher for success marker \x60" ++ marker ++ "\x60"
  | .runtime _ => "error creating Tokio runtime"

/-- What caused the error, the outermost cause first. -/
def causes : RunnerError → List String
  | .matcher _ reason => [reason]
  | .runtime e => e.chain

end RunnerError

/-- Makes the runner of a configuration. -/
def Config.makeRunner (engine : Engine) (c : Config) : Except RunnerError Runner :=
  match engine.matcher c.marker, engine.runtime with
  | some reason, _ => .error (.matcher c.marker reason)
  | none, some e => .error (.runtime e)
  | none, none => .ok c.runner

/-- What was observed of a test's process. -/
structure Observation where
  capture : Capture
  exitCode : Option Nat
  failure : Option Failure

namespace Observation

/-- Nothing but a failure. -/
def failed (failure : Failure) : Observation := ⟨.empty, none, some failure⟩

end Observation

/-- A run in progress: the world and what the follower keeps. -/
structure RunState (κ : Type) where
  world : World
  follower : κ

/-- A follower: it is told an event, may write to the console, and may object. -/
abbrev Follower (ε κ : Type) := Event → Console × κ → (Console × κ) × Option ε

namespace Runner

/-- The variable that is set for every test. -/
def flagVariable : String × String := ("SIMTEST", "1")

/-- The variable that holds a test's directory. -/
def dirVariable : String := "SIMTEST_TEST_DIR"

/-- Sets environment variables over others. -/
def withVariables (added old : List (String × String)) : List (String × String) :=
  old.filter (fun v => ! added.any (·.1 = v.1)) ++ added

/-- The words of the command that launches an entry point. -/
def commandWords (r : Runner) (entry : Entry) : List String :=
  r.launcher.words ++ ["./" ++ entry.fileName]

/-- The command that launches an entry point from the working directory. -/
def command (r : Runner) (entry : Entry) (testDir : String) (m : Machine) : Command where
  words := r.commandWords entry
  environment := withVariables [flagVariable, (dirVariable, testDir)] m.environment
  directory := m.cwd

/-- Launches an entry point in the working directory, collects its output and waits for its end. What
was collected is kept, also if the process cannot be read or waited for. -/
def runChild (r : Runner) (launch : Launch) (entry : Entry) (testDir : String) (w : World) :
    Observation × World :=
  match launch (r.command entry testDir w.machine) w.machine.files with
  | .error e => (.failed (.spawn (Words.join (r.commandWords entry)) e), w)
  | .ok (run, files) =>
    let (capture, console) := run.collect (Utf8.encode r.marker) w.console
    let machine := { w.machine with files := files, now := w.machine.now + run.duration }
    (⟨capture, run.seenExitCode, run.failure⟩, ⟨machine, console.noteAll run.notes⟩)

/-- The directory a test is told it runs in: free of links if that can be found out. -/
def testDir (m : Machine) (workingDir : String) : String :=
  match m.canonical (Utf8.encode workingDir) with
  | .ok path => (Utf8.decode? path).getD workingDir
  | .error _ => workingDir

/-- Runs a test in a directory. -/
def runInDir (r : Runner) (launch : Launch) (entry : Entry) (workingDir : String) (w : World) :
    Outcome × World :=
  let start := w.machine.now
  let w := w.note .debug .running
    ("running \x60" ++ entry.path ++ "\x60 in \x60" ++ workingDir ++ "\x60")
  let dir := testDir w.machine workingDir
  let (result, w) := w.inDirectory workingDir (r.runChild launch entry dir)
  let o := match result with
    | .ok o => o
    | .error e => .failed (.changeDir workingDir e)
  (⟨entry, o.capture.markers, o.capture.stdout, o.capture.stderr, o.exitCode,
    w.machine.now - start, o.failure⟩, w)

/-- Runs a test whose paths are relative to a root. -/
def runTest (r : Runner) (launch : Launch) (root : String) (entry : Entry) (w : World) :
    Outcome × World :=
  r.runInDir launch entry (entry.workingDir root) w

/-! ## Whole runs -/

variable {ε κ : Type}

/-- Tells the follower an event. -/
def tell (follower : Follower ε κ) (e : Event) (s : RunState κ) : RunState κ × Option ε :=
  let ((console, k), objection) := follower e (s.world.console, s.follower)
  (⟨{ s.world with console := console }, k⟩, objection)

/-- Runs tests one after the other, until the follower objects. -/
def runEntries (r : Runner) (launch : Launch) (follower : Follower ε κ) (root : String) :
    List Entry → List Outcome → RunState κ → Except ε (List Outcome) × RunState κ
  | [], outcomes, s => (.ok outcomes, s)
  | entry :: rest, outcomes, s =>
    let workingDir := entry.workingDir root
    match tell follower (.testStarted entry workingDir) s with
    | (s, some objection) => (.error objection, s)
    | (s, none) =>
      let (outcome, world) := r.runInDir launch entry workingDir s.world
      match tell follower (.testFinished outcome) { s with world := world } with
      | (s, some objection) => (.error objection, s)
      | (s, none) => runEntries r launch follower root rest (outcomes ++ [outcome]) s

/-- Runs every test of a selection, in order, until the follower objects. -/
def tryExecute (r : Runner) (launch : Launch) (follower : Follower ε κ) (selection : Selection)
    (s : RunState κ) : Except ε Summary × RunState κ :=
  let start := s.world.machine.now
  match tell follower (.runStarted selection) s with
  | (s, some objection) => (.error objection, s)
  | (s, none) =>
    match r.runEntries launch follower selection.root selection.entries [] s with
    | (.error objection, s) => (.error objection, s)
    | (.ok outcomes, s) =>
      let summary := Summary.ofOutcomes outcomes
      match tell follower (.runFinished summary (s.world.machine.now - start)) s with
      | (s, some objection) => (.error objection, s)
      | (s, none) => (.ok summary, s)

/-- A follower that never objects. -/
def quiet (follower : Event → Console × κ → Console × κ) : Follower Empty κ :=
  fun e s => (follower e s, none)

/-- Runs every test of a selection, in order. -/
def execute (r : Runner) (launch : Launch) (follower : Event → Console × κ → Console × κ)
    (selection : Selection) (s : RunState κ) : Summary × RunState κ :=
  match r.tryExecute launch (quiet follower) selection s with
  | (.ok summary, s) => (summary, s)
  | (.error never, _) => nomatch never

end Runner

end BenchHarness
