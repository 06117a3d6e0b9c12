import BenchHarness.Proofs.Capture
import BenchHarness.Run.Runner

/-!
# Attempts

Running a test touches a machine and a console, but the console has no say in what comes of it: the
outcome and the machine afterwards are those of `Runner.attempt`, which knows the machine only
(`Runner.runTest_eq_attempt`). The outcome of a test whose process was started is that of the process
(`Runner.attempt_of_started`), which may have failed after it had printed markers.
-/

namespace BenchHarness

namespace World

theorem inDirectory_of_noPath {α : Type} {w : World} {e : IoError}
    (noPath : w.machine.currentDir = .error e) (dir : String) (act : World → α × World) :
    w.inDirectory dir act = (.error e, w) := by
  rw [inDirectory, noPath]

theorem inDirectory_of_refused {α : Type} {w : World} {start : Bytes} {e : IoError} {dir : String}
    (path : w.machine.currentDir = .ok start)
    (refused : w.machine.changeDir (Utf8.encode dir) = .error e) (act : World → α × World) :
    w.inDirectory dir act = (.error e, w) := by
  simp only [inDirectory, path, refused]

end World

/-- The machine in the directory it started from, if there is a way back. -/
def Machine.returnTo (start : Bytes) (m : Machine) : Machine :=
  match m.changeDir start with
  | .ok back => back
  | .error _ => m

/-- What was done in a directory, and the way back. -/
theorem World.inDirectory_of_entered {α : Type} {w : World} {start : Bytes} {inside : Machine}
    {dir : String} (path : w.machine.currentDir = .ok start)
    (entered : w.machine.changeDir (Utf8.encode dir) = .ok inside) (act : World → α × World) :
    (w.inDirectory dir act).1 = .ok (act { w with machine := inside }).1 ∧
      (w.inDirectory dir act).2.machine =
        (act { w with machine := inside }).2.machine.returnTo start := by
  simp only [inDirectory, path, entered, Machine.returnTo]
  cases (act { w with machine := inside }).2.machine.changeDir start with
  | ok back => exact ⟨rfl, rfl⟩
  | error e => exact ⟨rfl, rfl⟩

theorem Machine.now_of_changeDir {m inside : Machine} {path : Bytes}
    (entered : m.changeDir path = .ok inside) : inside.now = m.now := by
  unfold changeDir at entered
  cases h : m.files.findDirectory m.cwd path with
  | error e => simp [h, bind, Except.bind] at entered
  | ok id =>
    simp only [h, bind, Except.bind, pure, Except.pure, Except.ok.injEq] at entered
    rw [← entered]

theorem Machine.returnTo_now (start : Bytes) (m : Machine) : (m.returnTo start).now = m.now := by
  unfold returnTo
  split
  · rename_i back h
    exact now_of_changeDir h
  · rfl

namespace Outcome

/-- The outcome of a test whose process was started: what was read of the process, its exit code if its
end was seen, and what went wrong with it. -/
def ofRun (marker : Bytes) (entry : Entry) (run : ChildRun) : Outcome where
  entry := entry
  markers := Capture.countIn marker (run.segments .stdout)
  stdout := (run.segments .stdout).map Capture.lineOf
  stderr := (run.segments .stderr).map Capture.lineOf
  exitCode := run.seenExitCode
  elapsed := run.duration
  failure := run.failure

/-- The outcome of a test for which no process was started. -/
def ofFailure (entry : Entry) (failure : Failure) : Outcome :=
  ⟨entry, 0, [], [], none, 0, some failure⟩

end Outcome

namespace Runner

variable (r : Runner) (launch : Launch) (root : String) (entry : Entry)

theorem runChild_of_refused {testDir : String} {w : World} {e : IoError}
    (refused : launch (r.command entry testDir w.machine) w.machine.files = .error e) :
    r.runChild launch entry testDir w =
      (.failed (.spawn (Words.join (r.commandWords entry)) e), w) := by
  rw [runChild, refused]

/-- What is observed of a process that was started, and the machine it leaves. -/
theorem runChild_of_started {testDir : String} (w : World) {run : ChildRun} {files : Files}
    (started : launch (r.command entry testDir w.machine) w.machine.files = .ok (run, files)) :
    ∃ console, r.runChild launch entry testDir w =
      (⟨(run.collect (Utf8.encode r.marker) w.console).1, run.seenExitCode, run.failure⟩,
        ⟨{ w.machine with files := files, now := w.machine.now + run.duration }, console⟩) := by
  rw [runChild, started]
  exact ⟨_, rfl⟩

/-- What a test gives and what it makes of a machine. -/
def attempt (m : Machine) : Outcome × Machine :=
  let dir := entry.workingDir root
  match m.currentDir with
  | .error e => (.ofFailure entry (.changeDir dir e), m)
  | .ok start =>
    match m.changeDir (Utf8.encode dir) with
    | .error e => (.ofFailure entry (.changeDir dir e), m)
    | .ok inside =>
      match launch (r.command entry (testDir m dir) inside) inside.files with
      | .error e =>
        (.ofFailure entry (.spawn (Words.join (r.commandWords entry)) e), inside.returnTo start)
      | .ok (run, files) =>
        (.ofRun (Utf8.encode r.marker) entry run,
          { inside with files := files, now := inside.now + run.duration }.returnTo start)

/-- The outcome of a test and the machine it leaves do not depend on the console. -/
theorem runTest_eq_attempt (w : World) :
    (r.runTest launch root entry w).1 = (r.attempt launch root entry w.machine).1 ∧
      (r.runTest launch root entry w).2.machine =
        (r.attempt launch root entry w.machine).2 := by
  unfold runTest runInDir attempt
  generalize hnoted : w.note .debug .running _ = noted
  -- the note about the test touches the console only
  have hm : noted.machine = w.machine := by rw [← hnoted]; rfl
  rw [← hm]
  simp only []
  cases path : noted.machine.currentDir with
  | error e =>
    rw [World.inDirectory_of_noPath path]
    simp [Outcome.ofFailure, Observation.failed, Capture.empty]
  | ok start =>
    cases entered : noted.machine.changeDir (Utf8.encode (entry.workingDir root)) with
    | error e =>
      rw [World.inDirectory_of_refused path entered]
      simp [Outcome.ofFailure, Observation.failed, Capture.empty]
    | ok inside =>
      have hnow := Machine.now_of_changeDir entered
      obtain ⟨hresult, hmachine⟩ := World.inDirectory_of_entered path entered
        (r.runChild launch entry (testDir noted.machine (entry.workingDir root)))
      cases started : launch (r.command entry (testDir noted.machine (entry.workingDir root)) inside)
          inside.files with
      | error e =>
        rw [r.runChild_of_refused launch entry started] at hresult hmachine
        simp only [hresult, hmachine, Machine.returnTo_now]
        simp [Outcome.ofFailure, Observation.failed, Capture.empty, hnow, started]
      | ok left =>
        obtain ⟨run, files⟩ := left
        obtain ⟨console, hchild⟩ :=
          r.runChild_of_started launch entry { noted with machine := inside } started
        rw [hchild] at hresult hmachine
        simp only [hresult, hmachine, Machine.returnTo_now]
        simp [Outcome.ofRun, ChildRun.collect_markers, ChildRun.collect_stdout,
          ChildRun.collect_stderr, hnow, started]

/-- A process was started for a test: the working directory has a path to come back to, the test's
directory was entered, and the command was not refused there. -/
def Started (m : Machine) (run : ChildRun) : Prop :=
  ∃ start inside files, m.currentDir = .ok start ∧
    m.changeDir (Utf8.encode (entry.workingDir root)) = .ok inside ∧
    launch (r.command entry (testDir m (entry.workingDir root)) inside) inside.files =
      .ok (run, files)

variable {r launch root entry}

theorem attempt_of_started {m : Machine} {run : ChildRun}
    (started : r.Started launch root entry m run) :
    (r.attempt launch root entry m).1 = .ofRun (Utf8.encode r.marker) entry run := by
  obtain ⟨start, inside, files, path, entered, launched⟩ := started
  simp only [attempt, path, entered, launched]

end Runner

end BenchHarness
