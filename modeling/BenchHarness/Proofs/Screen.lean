import BenchHarness.Proofs.Arrival
import BenchHarness.Proofs.Isolation
import BenchHarness.Proofs.Schedule
import BenchHarness.Proofs.Verdict

/-!
# What stands on the screen

Reports reach standard output through a buffer and the lines of the tests do not, and still all of it
stands there in the order in which it happened: what is announced of a test, then the lines it wrote
on standard output, then its verdict. What a test wrote on standard error stands on standard error,
between notes (`CommandLine.run_screen`).
-/

namespace BenchHarness

/-! ## The turn of a test -/

/-- What a test comes to: its process if one is started, its outcome, and what is noted if its process
cannot be killed or there is no way back from its directory. -/
structure Turn where
  entry : Entry
  child : Option ChildRun
  outcome : Outcome
  complaints : List LogRecord

namespace Turn

/-- The lines that are read from standard output. -/
def outLines (t : Turn) : List Bytes := t.child.elim [] (·.segments .stdout)

/-- The lines that are read from standard error. -/
def errLines (t : Turn) : List Bytes := t.child.elim [] (·.segments .stderr)

/-- A process that is read to the end has all its lines read. -/
theorem lines_of_readToEnd {t : Turn} {run : ChildRun} (child : t.child = some run)
    (read : run.ReadToEnd) :
    t.outLines = Lines.ofBytes run.stdout.flatten ∧ t.errLines = Lines.ofBytes run.stderr.flatten := by
  rw [outLines, errLines, child, ← Lines.segments_eq_ofBytes, ← Lines.segments_eq_ofBytes]
  exact ⟨read.segments_eq .stdout, read.segments_eq .stderr⟩

/-- What stands on standard output about a test. -/
def screen (theme : Theme) (root : String) (t : Turn) : Bytes :=
  Report.text theme (.testStarted t.entry (t.entry.workingDir root)) ++ Lines.shown t.outLines ++
    Report.text theme (.testFinished t.outcome)

/-- What stands on standard error about a test, if notes are shown in some way. -/
def margin (shown : LogRecord → Option Bytes) (root : String) (t : Turn) : Bytes :=
  Console.noted shown [Runner.announcement root t.entry] ++ Lines.shown t.errLines ++
    Console.noted shown t.complaints

end Turn

theorem Console.takes_kept : Kept Takes := by
  constructor
  · intro c stream data takes
    cases stream with
    | stdout => exact ⟨(takes.stdout.write data).2.1, takes.stderr⟩
    | stderr => exact ⟨takes.stdout, (takes.stderr.write data).2.1⟩
  · intro c record takes
    exact (takes.prints_note record).takes

theorem ChildRun.collect_prints (run : ChildRun) (marker : Bytes) {console : Console}
    (takes : console.Takes) :
    console.Prints (run.collect marker console).2
      (Lines.shown (run.segments .stdout)) (Lines.shown (run.segments .stderr)) := by
  have apart : console.Apart := Or.inr ⟨takes.stdout, takes.stderr⟩
  refine ⟨?_, ?_, ?_, ?_⟩
  · exact Capture.foldl_receive_kept Console.takes_kept marker _ takes
  · exact Capture.foldl_receive_kept (Console.shown_kept console.shown) marker _ rfl
  · exact (congrArg Sink.contents (Capture.foldl_receive_stdout marker _ _)).trans
      (takes.stdout.contents_echoed _)
  · exact (congrArg Sink.contents (Capture.foldl_receive_stderr marker _ apart)).trans
      (takes.stderr.contents_echoed _)

namespace Runner

variable (r : Runner) (launch : Launch) (root : String) (entry : Entry)

/-- What is noted when a directory has been left for good. -/
def complaintsAfter (start : Bytes) (dir : String) (m : Machine) : List LogRecord :=
  match m.changeDir start with
  | .ok _ => []
  | .error e => [⟨.error, .workingDirectory,
      "failed to restore working directory after running in \x60" ++ dir ++ "\x60: " ++ e.message⟩]

/-- The turn of a test on a machine. -/
def turn (m : Machine) : Turn :=
  let dir := entry.workingDir root
  let outcome := (r.attempt launch root entry m).1
  match m.currentDir with
  | .error _ => ⟨entry, none, outcome, []⟩
  | .ok start =>
    match m.changeDir (Utf8.encode dir) with
    | .error _ => ⟨entry, none, outcome, []⟩
    | .ok inside =>
      match launch (r.command entry (testDir m dir) inside) inside.files with
      | .error _ => ⟨entry, none, outcome, complaintsAfter start dir inside⟩
      | .ok (run, files) => ⟨entry, some run, outcome, run.notes ++ complaintsAfter start dir
          { inside with files := files, now := inside.now + run.duration }⟩

/-- The turns of several tests, each on the machine that the one before it left. -/
def turns : List Entry → Machine → List Turn
  | [], _ => []
  | entry :: rest, m =>
    r.turn launch root entry m :: turns rest (r.attempt launch root entry m).2

/-- However far a test gets, its turn is about it and has its outcome. -/
theorem turn_shape (m : Machine) : ∃ child complaints, r.turn launch root entry m =
    ⟨entry, child, (r.attempt launch root entry m).1, complaints⟩ := by
  unfold turn
  simp only []
  split
  · exact ⟨_, _, rfl⟩
  · split
    · exact ⟨_, _, rfl⟩
    · split
      · exact ⟨_, _, rfl⟩
      · exact ⟨_, _, rfl⟩

theorem turn_entry (m : Machine) : (r.turn launch root entry m).entry = entry := by
  obtain ⟨child, complaints, shape⟩ := r.turn_shape launch root entry m
  rw [shape]

theorem turn_outcome (m : Machine) :
    (r.turn launch root entry m).outcome = (r.attempt launch root entry m).1 := by
  obtain ⟨child, complaints, shape⟩ := r.turn_shape launch root entry m
  rw [shape]

theorem map_turns (entries : List Entry) :
    ∀ w : World, (r.turns launch root entries w.machine).map (fun t => (t.entry, t.outcome)) =
      entries.zip (r.runEach launch root entries w).1 := by
  induction entries with
  | nil =>
    intro w
    rfl
  | cons entry rest ih =>
    intro w
    obtain ⟨houtcome, hmachine⟩ := r.runTest_eq_attempt launch root entry w
    rw [turns, runEach, List.map_cons, List.zip_cons_cons, ← hmachine, ih, turn_entry, turn_outcome,
      ← houtcome]

/-! ## What a test prints -/

/-- Whoever comes back from a directory has something to complain about if there is no way back. -/
theorem prints_inDirectory {α : Type} {w : World} {start : Bytes} {inside : Machine} {dir : String}
    {act : World → α × World} {out err : Bytes} (path : w.machine.currentDir = .ok start)
    (entered : w.machine.changeDir (Utf8.encode dir) = .ok inside)
    (prints : w.console.Prints (act { w with machine := inside }).2.console out err) :
    w.console.Prints (w.inDirectory dir act).2.console out
      (err ++ Console.noted w.console.shown
        (complaintsAfter start dir (act { w with machine := inside }).2.machine)) := by
  simp only [World.inDirectory, path, entered, complaintsAfter]
  cases (act { w with machine := inside }).2.machine.changeDir start with
  | ok back =>
    rw [Console.noted, List.flatMap_nil, List.append_nil]
    exact prints
  | error e =>
    have noted := prints.takes.prints_note ⟨.error, .workingDirectory,
      "failed to restore working directory after running in \x60" ++ dir ++ "\x60: " ++ e.message⟩
    rw [prints.shown] at noted
    have both := prints.trans noted
    rwa [List.append_nil] at both

/-- A process that is started for a test shows its lines, and a note if it cannot be killed. -/
theorem runChild_prints {testDir : String} {w : World} (takes : w.console.Takes) {run : ChildRun}
    {files : Files}
    (started : launch (r.command entry testDir w.machine) w.machine.files = .ok (run, files)) :
    (r.runChild launch entry testDir w).2.machine =
        { w.machine with files := files, now := w.machine.now + run.duration } ∧
      w.console.Prints (r.runChild launch entry testDir w).2.console
        (Lines.shown (run.segments .stdout))
        (Lines.shown (run.segments .stderr) ++ Console.noted w.console.shown run.notes) := by
  have collected := run.collect_prints (Utf8.encode r.marker) takes
  have noted := collected.takes.prints_noteAll run.notes
  rw [collected.shown] at noted
  have both := collected.trans noted
  rw [List.append_nil] at both
  rw [runChild, started]
  exact ⟨rfl, both⟩

theorem prints_test {w : World} (takes : w.console.Takes) :
    let t := r.turn launch root entry w.machine
    w.console.Prints
      (w.inDirectory (entry.workingDir root) (r.runChild launch entry
        (testDir w.machine (entry.workingDir root)))).2.console
      (Lines.shown t.outLines)
      (Lines.shown t.errLines ++ Console.noted w.console.shown t.complaints) := by
  intro t
  let outcome := (r.attempt launch root entry w.machine).1
  cases path : w.machine.currentDir with
  | error e =>
    have ht : t = ⟨entry, none, outcome, []⟩ := by simp only [t, turn, path, outcome]
    rw [World.inDirectory_of_noPath path, ht]
    exact .refl takes
  | ok start =>
    cases entered : w.machine.changeDir (Utf8.encode (entry.workingDir root)) with
    | error e =>
      have ht : t = ⟨entry, none, outcome, []⟩ := by simp only [t, turn, path, entered, outcome]
      rw [World.inDirectory_of_refused path entered, ht]
      exact .refl takes
    | ok inside =>
      generalize hcommand : r.command entry (testDir w.machine (entry.workingDir root)) inside =
        command
      have takesInside : (World.mk inside w.console).console.Takes := takes
      cases launched : launch command inside.files with
      | error e =>
        have ht : t = ⟨entry, none, outcome,
            complaintsAfter start (entry.workingDir root) inside⟩ := by
          simp only [t, turn, path, entered, hcommand, launched, outcome]
        rw [← hcommand] at launched
        have idle : r.runChild launch entry (testDir w.machine (entry.workingDir root))
            ⟨inside, w.console⟩ = (.failed _, ⟨inside, w.console⟩) :=
          r.runChild_of_refused launch entry launched
        have silent : w.console.Prints (r.runChild launch entry
            (testDir w.machine (entry.workingDir root)) ⟨inside, w.console⟩).2.console [] [] := by
          rw [idle]
          exact .refl takes
        have prints := prints_inDirectory path entered silent
        rw [idle] at prints
        rw [ht]
        exact prints
      | ok left =>
        obtain ⟨run, files⟩ := left
        have ht : t = ⟨entry, some run, outcome, run.notes ++
            complaintsAfter start (entry.workingDir root)
              { inside with files := files, now := inside.now + run.duration }⟩ := by
          simp only [t, turn, path, entered, hcommand, launched, outcome]
        rw [← hcommand] at launched
        obtain ⟨hmachine, hprints⟩ := r.runChild_prints launch entry takesInside launched
        have prints := prints_inDirectory path entered hprints
        rw [hmachine, List.append_assoc] at prints
        rw [ht]
        dsimp only
        rw [Console.noted_append]
        exact prints

/-- A test shows the lines of its process, between notes on standard error. -/
theorem runTest_prints {w : World} (takes : w.console.Takes) :
    w.console.Prints (r.runTest launch root entry w).2.console
      (Lines.shown (r.turn launch root entry w.machine).outLines)
      ((r.turn launch root entry w.machine).margin w.console.shown root) := by
  have announced := takes.prints_note (announcement root entry)
  have tested := r.prints_test launch root entry (w := w.note .debug .running
    ("running \x60" ++ entry.path ++ "\x60 in \x60" ++ entry.workingDir root ++ "\x60"))
    announced.takes
  have both := announced.trans tested
  rw [show (w.note .debug .running _).console.shown = w.console.shown from announced.shown,
    ← List.append_assoc] at both
  rw [Turn.margin, turn_entry]
  exact both

/-! ## Runs -/

variable (theme : Theme)

/-- A run that is reported on standard output, between two events: nothing waits in the buffer. -/
structure Flushed (s : RunState Bytes) : Prop where
  takes : s.world.console.Takes
  empty : s.follower = []

/-- An event is shown by its text. -/
theorem perform_tell_prints (e : Event) {s : RunState Bytes} (flushed : Flushed s) :
    let s' := r.perform launch root (CommandLine.reporter theme) s (.tell e)
    Flushed s' ∧ s'.world.machine = s.world.machine ∧
      s.world.console.Prints s'.world.console (Report.text theme e) [] := by
  obtain ⟨⟨machine, console⟩, pending⟩ := s
  obtain ⟨takes, rfl⟩ := flushed
  obtain ⟨-, hempty, prints⟩ := CommandLine.reporter_prints takes theme e
  exact ⟨⟨prints.takes, hempty⟩, rfl, prints⟩

theorem perform_test_prints {s : RunState Bytes} (flushed : Flushed s) :
    let s' := r.perform launch root (CommandLine.reporter theme) s (.test entry)
    let t := r.turn launch root entry s.world.machine
    Flushed s' ∧ s'.world.machine = (r.attempt launch root entry s.world.machine).2 ∧
      s.world.console.Prints s'.world.console (Lines.shown t.outLines)
        (t.margin s.world.console.shown root) := by
  have prints := r.runTest_prints launch root entry flushed.takes
  exact ⟨⟨prints.takes, flushed.empty⟩, (r.runTest_eq_attempt launch root entry s.world).2, prints⟩

/-- The deeds about a test: it is announced, run and reported. -/
def turnDeeds (t : Turn) : List Deed :=
  [.tell (.testStarted t.entry (t.entry.workingDir root)), .test t.entry,
    .tell (.testFinished t.outcome)]

theorem testDeeds_eq_flatMap (turns : List Turn) :
    testDeeds root (turns.map fun t => (t.entry, t.outcome)) = turns.flatMap (turnDeeds root) := by
  induction turns with
  | nil => rfl
  | cons t rest ih =>
    rw [List.flatMap_cons, ← ih]
    rfl

/-- The deeds about a test show its turn. -/
theorem foldl_turnDeeds_prints {s : RunState Bytes} (flushed : Flushed s) :
    let t := r.turn launch root entry s.world.machine
    let s' := (turnDeeds root t).foldl (r.perform launch root (CommandLine.reporter theme)) s
    Flushed s' ∧ s'.world.machine = (r.attempt launch root entry s.world.machine).2 ∧
      s.world.console.Prints s'.world.console (t.screen theme root)
        (t.margin s.world.console.shown root) := by
  intro t s'
  obtain ⟨flushed₁, hmachine₁, announced⟩ := r.perform_tell_prints launch root theme
    (.testStarted t.entry (t.entry.workingDir root)) flushed
  obtain ⟨flushed₂, hmachine₂, tested⟩ := r.perform_test_prints launch root entry theme flushed₁
  obtain ⟨flushed₃, hmachine₃, reported⟩ := r.perform_tell_prints launch root theme
    (.testFinished t.outcome) flushed₂
  rw [hmachine₁] at hmachine₂ tested
  rw [announced.shown] at tested
  have all := (announced.trans tested).trans reported
  rw [List.nil_append, List.append_nil] at all
  have hs' : s' = [Deed.tell (.testStarted t.entry (t.entry.workingDir root)), .test entry,
      .tell (.testFinished t.outcome)].foldl
        (r.perform launch root (CommandLine.reporter theme)) s := by
    simp only [s', turnDeeds]
    rw [show t.entry = entry from r.turn_entry launch root entry s.world.machine]
  rw [hs']
  exact ⟨flushed₃, hmachine₃.trans hmachine₂, all⟩

/-- The deeds about some tests show their turns. -/
theorem foldl_testDeeds_prints (shown : LogRecord → Option Bytes) (entries : List Entry) :
    ∀ {s : RunState Bytes}, Flushed s → s.world.console.shown = shown →
      let turns := r.turns launch root entries s.world.machine
      let s' := (turns.flatMap (turnDeeds root)).foldl
        (r.perform launch root (CommandLine.reporter theme)) s
      Flushed s' ∧ s.world.console.Prints s'.world.console
        (turns.flatMap (Turn.screen theme root)) (turns.flatMap (Turn.margin shown root)) := by
  induction entries with
  | nil =>
    intro s flushed _
    exact ⟨flushed, .refl flushed.takes⟩
  | cons entry rest ih =>
    intro s flushed hshown
    obtain ⟨flushed', hmachine, prints⟩ :=
      r.foldl_turnDeeds_prints launch root entry theme flushed
    obtain ⟨done, others⟩ := ih flushed' (prints.shown.trans hshown)
    rw [hmachine] at done others
    rw [hshown] at prints
    simp only [turns, List.flatMap_cons, List.foldl_append]
    exact ⟨done, prints.trans others⟩

theorem map_outcome_turns (entries : List Entry) (w : World) :
    (r.turns launch root entries w.machine).map (·.outcome) =
      (r.runEach launch root entries w).1 := by
  have hsecond := congrArg (List.map Prod.snd) (r.map_turns launch root entries w)
  rw [List.map_map, List.map_snd_zip (by rw [r.length_runEach])] at hsecond
  exact hsecond

theorem plan_eq (selection : Selection) (w : World) :
    let turns := r.turns launch selection.root selection.entries w.machine
    let elapsed := (r.runEach launch selection.root selection.entries w).2.machine.now -
      w.machine.now
    r.plan launch selection w = .tell (.runStarted selection) ::
      (turns.flatMap (turnDeeds selection.root) ++
        [.tell (.runFinished (Summary.ofOutcomes (turns.map (·.outcome))) elapsed)]) := by
  intro turns elapsed
  rw [← testDeeds_eq_flatMap, map_turns, map_outcome_turns]
  rfl

end Runner

namespace CommandLine

open Runner

/-- What stands on standard output after a run. -/
def runScreen (theme : Theme) (selection : Selection) (turns : List Turn) (elapsed : Nat) : Bytes :=
  Report.text theme (.runStarted selection) ++ turns.flatMap (Turn.screen theme selection.root) ++
    Report.text theme (.runFinished (Summary.ofOutcomes (turns.map (·.outcome))) elapsed)

/-- A run that is carried out as planned shows its events and what the tests write in between. -/
theorem report_prints (launch : Launch) (colours : Colours) (runner : Runner)
    (selection : Selection) {w : World} (takes : w.console.Takes) :
    let turns := runner.turns launch selection.root selection.entries w.machine
    let elapsed := (runner.runEach launch selection.root selection.entries w).2.machine.now -
      w.machine.now
    w.console.Prints
      (report launch colours runner selection.root (runner.plan launch selection w) w).console
      (runScreen (.ofColour colours.stdout) selection turns elapsed)
      (turns.flatMap (Turn.margin w.console.shown selection.root)) := by
  intro turns elapsed
  have flushed : Flushed ⟨w, []⟩ := ⟨takes, rfl⟩
  obtain ⟨flushed₁, hmachine₁, started⟩ := runner.perform_tell_prints launch selection.root
    (.ofColour colours.stdout) (.runStarted selection) flushed
  obtain ⟨flushed₂, tested⟩ := runner.foldl_testDeeds_prints launch selection.root
    (.ofColour colours.stdout) w.console.shown selection.entries flushed₁ started.shown
  rw [hmachine₁] at flushed₂ tested
  obtain ⟨flushed₃, -, finished⟩ := runner.perform_tell_prints launch selection.root
    (.ofColour colours.stdout)
    (.runFinished (Summary.ofOutcomes (turns.map (·.outcome))) elapsed) flushed₂
  have all := (started.trans tested).trans finished
  rw [List.nil_append, List.append_nil] at all
  rw [report, runner.plan_eq launch selection w, List.foldl_cons, List.foldl_append, leave,
    Buffered.close_of_pending flushed₃.empty]
  exact all

theorem runTests_prints (launch : Launch) (colours : Colours) (runner : Runner)
    (selection : Selection) {w : World} (takes : w.console.Takes) :
    let turns := runner.turns launch selection.root selection.entries w.machine
    let elapsed := (runner.runEach launch selection.root selection.entries w).2.machine.now -
      w.machine.now
    w.console.Prints (runTests launch colours (.ok runner) selection w).2.console
      (runScreen (.ofColour colours.stdout) selection turns elapsed)
      (Console.noted w.console.shown selection.notes ++
        turns.flatMap (Turn.margin w.console.shown selection.root)) := by
  intro turns elapsed
  obtain ⟨noted, hmachine, hconsole, hrun⟩ :=
    runTests_of_writable colours launch runner selection takes.stdout
  have notes := takes.prints_noteAll selection.notes
  rw [← hconsole] at notes
  have reported := report_prints launch colours runner selection notes.takes
  obtain ⟨-, hlast⟩ := runner.runEach_congr launch selection.root selection.entries hmachine
  rw [hmachine, hlast, notes.shown] at reported
  rw [hrun]
  exact notes.trans reported

/-! ## Commands -/

theorem conclude_prints (colours : Colours) {result : Except CommandFailure Nat × World}
    (takes : result.2.console.Takes) :
    ∃ closing, result.2.console.Prints (conclude colours result).2.console []
      (Console.noted result.2.console.shown closing) := by
  obtain ⟨e | code, w⟩ := result
  · exact ⟨_, takes.prints_noteAll _⟩
  · exact ⟨[], .refl takes⟩

variable {a : Arguments} {colours : Colours} {w : World} {engine : Engine}

theorem afterWriting_prints {write : Buffered → Option WriteError × Buffered} {bytes : Bytes}
    (emits : (Buffered.channel w.console).Emits write bytes) (takes : w.console.Takes) :
    w.console.Prints (afterWriting w (writeOut write w.console)).2.console bytes [] := by
  rw [afterWriting_snd]
  exact (writeOut_prints emits takes).2

theorem showModes_prints (takes : w.console.Takes) :
    w.console.Prints (showModes colours w).2.console
      (Utf8.encode (Help.modeList colours.stdout).render) [] := by
  unfold showModes
  generalize Utf8.encode (Help.modeList colours.stdout).render = text
  exact afterWriting_prints ((Buffered.carries_put text).map WriteError.io) takes

theorem listTests_prints (takes : w.console.Takes) (format : ListFormat) (tests : TestList) :
    w.console.Prints (listTests colours format tests w).2.console
      (Utf8.encode (tests.text (.ofColour colours.stdout) format)) [] :=
  afterWriting_prints (.list Buffered.carries_put tests _ format) takes

/-- Notes that are made on the way to what a command shows come before it on standard error. -/
theorem prints_of_prepared {config : Config} {tests : TestList} {w' : World}
    (prepared : prepare a w = .ok (config, tests, w')) (takes : w.console.Takes) :
    w'.machine = w.machine ∧ ∃ opening,
      w.console.Prints w'.console [] (Console.noted w.console.shown opening) := by
  obtain ⟨-, -, notes, -, -, -, rfl⟩ := prepare_eq_ok prepared
  exact ⟨rfl, notes, takes.prints_noteAll notes⟩

/-- What a run command shows, if it gets as far as running tests. -/
theorem run_prints {config : Config} {tests : TestList} {w' : World} {runner : Runner}
    (launch : Launch) (takes : w.console.Takes) (noHelp : a.mode ≠ some helpMode)
    (noList : a.mode ≠ some listMode) (noFormat : a.format = none)
    (prepared : prepare a w = .ok (config, tests, w')) (made : config.makeRunner engine = .ok runner) :
    let selection := Selection.ofAction tests a.action
    let turns := runner.turns launch tests.root selection.entries w.machine
    let elapsed := (runner.runEach launch tests.root selection.entries w).2.machine.now -
      w.machine.now
    ∃ opening closing,
      w.console.Prints (conclude colours (execute engine launch a colours w)).2.console
        (runScreen (.ofColour colours.stdout) selection turns elapsed)
        (Console.noted w.console.shown opening ++
          turns.flatMap (Turn.margin w.console.shown tests.root) ++
            Console.noted w.console.shown closing) := by
  intro selection turns elapsed
  have hselection : selection = ⟨tests.root, a.action, selectedBy a.mode tests.entries⟩ := by
    cases a.means with
    | help mode action => exact absurd mode noHelp
    | list mode action => exact absurd mode noList
    | run _ _ runs picks => rw [← picks]; rfl
  obtain ⟨hmachine, opening, opened⟩ := prints_of_prepared prepared takes
  have ran := runTests_prints launch colours runner selection opened.takes
  obtain ⟨-, hlast⟩ := runner.runEach_congr launch selection.root selection.entries hmachine
  rw [hmachine, hlast, opened.shown] at ran
  rw [hselection, ← made, ← execute_of_run noHelp noList noFormat prepared launch,
    ← hselection] at ran
  have both := opened.trans ran
  obtain ⟨closing, closed⟩ := conclude_prints colours both.takes
  rw [both.shown] at closed
  have all := both.trans closed
  refine ⟨opening ++ selection.notes, closing, ?_⟩
  rw [Console.noted_append, List.append_assoc, List.append_assoc]
  rw [List.nil_append, List.append_nil, List.append_assoc, List.append_assoc] at all
  exact all

/-- A run command whose runner cannot be made shows nothing on standard output. -/
theorem unmade_prints {config : Config} {tests : TestList} {w' : World} {e : RunnerError}
    (launch : Launch) (takes : w.console.Takes) (noHelp : a.mode ≠ some helpMode)
    (noList : a.mode ≠ some listMode) (noFormat : a.format = none)
    (prepared : prepare a w = .ok (config, tests, w')) (unmade : config.makeRunner engine = .error e) :
    ∃ notes, w.console.Prints (conclude colours (execute engine launch a colours w)).2.console []
      (Console.noted w.console.shown notes) := by
  obtain ⟨-, opening, opened⟩ := prints_of_prepared prepared takes
  let selection : Selection := ⟨tests.root, a.action, selectedBy a.mode tests.entries⟩
  have noted := opened.takes.prints_noteAll selection.notes
  rw [opened.shown] at noted
  have failed := opened.trans noted
  have hexecute : (execute engine launch a colours w).2.console =
      w'.console.noteAll selection.notes := by
    rw [execute_of_unmade noHelp noList noFormat prepared unmade launch]
  rw [← hexecute] at failed
  obtain ⟨closing, closed⟩ := conclude_prints colours failed.takes
  rw [failed.shown] at closed
  refine ⟨opening ++ selection.notes ++ closing, ?_⟩
  rw [Console.noted_append, Console.noted_append]
  exact failed.trans closed

/-- What a list command shows, if it finds tests to list. -/
theorem list_prints {config : Config} {tests : TestList} {w' : World} (launch : Launch)
    (takes : w.console.Takes) (list : a.mode = some listMode)
    (prepared : prepare a w = .ok (config, tests, w')) :
    ∃ notes, w.console.Prints (conclude colours (execute engine launch a colours w)).2.console
      (Utf8.encode (tests.text (.ofColour colours.stdout) (a.format.getD .plain)))
      (Console.noted w.console.shown notes) := by
  have action : a.action = .listOnly := by
    cases a.means with
    | help mode action => simp [list, helpMode, listMode] at mode
    | list mode action => exact action
    | run noHelp noList runs picks => exact absurd list noList
  obtain ⟨-, opening, opened⟩ := prints_of_prepared prepared takes
  have listing :
      w'.console.Prints (listTests colours (a.format.getD .plain) tests w').2.console _ [] :=
    listTests_prints opened.takes _ tests
  have listed := opened.trans listing
  have hexecute : execute engine launch a colours w =
      listTests colours (a.format.getD .plain) tests w' := by
    rw [execute_of_ordinary (.inl list), prepared]
    simp only [action]
  rw [← hexecute] at listed
  obtain ⟨closing, closed⟩ := conclude_prints colours listed.takes
  rw [listed.shown] at closed
  refine ⟨opening ++ closing, ?_⟩
  rw [Console.noted_append]
  have all := listed.trans closed
  rwa [List.nil_append, List.append_nil, List.append_nil] at all

/-- What the help command shows. -/
theorem help_prints (launch : Launch) (takes : w.console.Takes) (help : a.mode = some helpMode) :
    ∃ notes, w.console.Prints (conclude colours (execute engine launch a colours w)).2.console
      (Utf8.encode (Help.modeList colours.stdout).render) (Console.noted w.console.shown notes) := by
  have hexecute : execute engine launch a colours w = showModes colours w := by
    unfold execute
    cases a.means with
    | help mode action => rw [action]
    | list mode action => simp [help, helpMode, listMode] at mode
    | run noHelp noList runs picks => exact absurd help noHelp
  have shown : w.console.Prints (showModes colours w).2.console _ [] := showModes_prints takes
  rw [← hexecute] at shown
  obtain ⟨closing, closed⟩ := conclude_prints colours shown.takes
  rw [shown.shown] at closed
  have all := shown.trans closed
  rw [List.append_nil, List.nil_append] at all
  exact ⟨closing, all⟩

/-- What stands on the two streams when the program is done, if they take everything. The list of
modes and a list of tests stand on standard output as a whole. After a run there stand what is going
to run, the announcement, the lines and the verdict of every test in turn, and the summary; what the
tests wrote on standard error stands on standard error, with notes before, between and after. The lines
of a test are those that are read of its process. A run for which no runner can be made leaves nothing
on standard output. -/
theorem run_screen (engine : Engine) (launch : Launch) {words : List String} {filter : LogFilter}
    (parsed : Arguments.parse w.machine.environment words = .ok a)
    (filtered : filterFor w.machine.environment a.verbose = some filter)
    (takes : w.console.Takes) :
    let colour := a.colour.isOn w.machine.environment
    let theme := Theme.ofColour colour
    let noted := Console.noted fun r => if filter.admits r then some (r.line colour) else none
    let out := (run engine launch words w).2.console.stdout.contents
    let err := (run engine launch words w).2.console.stderr.contents
    let discovered (root : String) (config : Config) := TestList.discover config.rule.classifier
      root (w.machine.files.rootView w.machine.cwd root)
    (a.mode = some helpMode →
      out = w.console.stdout.contents ++ Utf8.encode (Help.modeList colour).render) ∧
    ∀ root config tests notes, resolveRoot w.machine a.root = .ok root →
      Config.fromSources w.machine.files w.machine.cwd root a.configFile = .ok config →
      discovered root config = .ok (tests, notes) →
      (a.mode = some listMode → out = w.console.stdout.contents ++
        Utf8.encode (tests.text theme (a.format.getD .plain))) ∧
      (a.mode ≠ some helpMode → a.mode ≠ some listMode → a.format = none →
        (∀ e, config.makeRunner engine = .error e → out = w.console.stdout.contents) ∧
        ∀ runner, config.makeRunner engine = .ok runner →
        let selection := Selection.ofAction tests a.action
        let turns := runner.turns launch tests.root selection.entries w.machine
        let elapsed := (runner.runEach launch tests.root selection.entries w).2.machine.now -
          w.machine.now
        out = w.console.stdout.contents ++ (Report.text theme (.runStarted selection) ++
          (turns.flatMap fun t =>
            Report.text theme (.testStarted t.entry (t.entry.workingDir tests.root)) ++
              Lines.shown t.outLines ++ Report.text theme (.testFinished t.outcome)) ++
          Report.text theme (.runFinished (Summary.ofOutcomes (turns.map (·.outcome))) elapsed)) ∧
        (∀ t ∈ turns, ∀ child, t.child = some child → child.ReadToEnd →
          t.outLines = Lines.ofBytes child.stdout.flatten ∧
            t.errLines = Lines.ofBytes child.stderr.flatten) ∧
        ∃ opening closing, err = w.console.stderr.contents ++ (noted opening ++
          (turns.flatMap fun t => noted [Runner.announcement tests.root t.entry] ++
            Lines.shown t.errLines ++ noted t.complaints) ++ noted closing)) := by
  intro colour theme noted out err discovered
  let shown (r : LogRecord) : Option Bytes := if filter.admits r then some (r.line colour) else none
  let started : World := { w with console := { w.console with shown := shown } }
  have hrun : run engine launch words w =
      conclude ⟨colour, colour⟩ (execute engine launch a ⟨colour, colour⟩ started) := by
    unfold run
    simp only [parsed, filtered]
    rfl
  have starts : started.console.Takes := ⟨takes.stdout, takes.stderr⟩
  refine ⟨?_, ?_⟩
  · intro help
    obtain ⟨notes, prints⟩ := @help_prints a ⟨colour, colour⟩ started engine launch starts help
    rw [← hrun] at prints
    exact prints.stdout
  intro root config tests notes resolved configured found
  obtain ⟨w', prepared, -, -⟩ :=
    prepare_of_ok (w := started) resolved configured found starts.stdout
  refine ⟨?_, ?_⟩
  · intro list
    obtain ⟨notes, prints⟩ :=
      @list_prints a ⟨colour, colour⟩ started engine config tests w' launch starts list prepared
    rw [← hrun] at prints
    exact prints.stdout
  · intro noHelp noList noFormat
    refine ⟨?_, ?_⟩
    · intro e unmade
      obtain ⟨notes, prints⟩ :=
        @unmade_prints a ⟨colour, colour⟩ started engine config tests w' e launch starts noHelp
          noList noFormat prepared unmade
      rw [← hrun] at prints
      exact prints.stdout.trans (List.append_nil _)
    · intro runner made selection turns elapsed
      obtain ⟨opening, closing, prints⟩ :=
        @run_prints a ⟨colour, colour⟩ started engine config tests w' runner launch starts noHelp
          noList noFormat prepared made
      rw [← hrun] at prints
      have hlast := (runner.runEach_congr launch tests.root selection.entries
        (show started.machine = w.machine from rfl)).2
      rw [hlast] at prints
      exact ⟨prints.stdout, fun t _ child => t.lines_of_readToEnd, opening, closing, prints.stderr⟩

/-- A test that writes on both streams: its line on standard output stands between its announcement
and its verdict, the one on standard error does not. -/
theorem run_screen_of_one_test :
    let machine : Machine := ⟨⟨.directory 0 [([0x73, 0x69, 0x6d], .directory 1
      [([0x67, 0x6f, 0x2e, 0x73, 0x68], .file 0 [])])], [], 2, []⟩, 0, [], 0⟩
    let child : ChildRun := ⟨[[0x61], [0x0d, 0x0a]], [[0x62]], [.stderr], some 3, 0, .none⟩
    let launch : Launch := fun _ files => .ok (child, files)
    let test : Entry := ⟨"sim/go.sh"⟩
    let outcome : Outcome := ⟨test, 0, ["a"], ["b"], some 3, 0, none⟩
    let w : World := ⟨machine, .buffers⟩
    (run .ready launch ["--root", "/"] w).2.console.stdout.contents =
      Report.text .plain (.runStarted ⟨"/", .runAll, [test]⟩) ++
        (Report.text .plain (.testStarted test "/sim") ++ [0x61, 0x0a] ++
          Report.text .plain (.testFinished outcome)) ++
        Report.text .plain (.runFinished ⟨1, 0, 1, ["sim"]⟩ 0) := by
  intro machine child launch test outcome w
  let a : Arguments := ⟨none, some "/", none, none, false, .auto⟩
  have parsed : Arguments.parse w.machine.environment ["--root", "/"] = .ok a := by decide +kernel
  have filtered : filterFor w.machine.environment a.verbose = some (.upTo .info) := by
    decide +kernel
  have takes : w.console.Takes := ⟨fun _ _ _ => rfl, fun _ _ _ => rfl⟩
  obtain ⟨notes, discovered⟩ : ∃ notes, TestList.discover Config.default.rule.classifier "/"
    (machine.files.rootView 0 "/") = .ok (⟨"/", [test]⟩, notes) := ⟨_, rfl⟩
  obtain ⟨-, found⟩ := run_screen .ready launch parsed filtered takes
  have configured : Config.fromSources machine.files 0 "/" none = .ok .default := rfl
  obtain ⟨-, ran⟩ := found "/" .default ⟨"/", [test]⟩ notes rfl configured discovered
  obtain ⟨hout, -⟩ := (ran (by decide) (by decide) rfl).2 Config.default.runner rfl
  -- the command has one test in `/sim`, and it fails there
  have selection : Selection.ofAction ⟨"/", [test]⟩ a.action = ⟨"/", .runAll, [test]⟩ := by
    decide +kernel
  have dir : test.workingDir "/" = "/sim" := by decide +kernel
  have path : machine.currentDir = .ok [0x2f] := rfl
  have entered : machine.changeDir (Utf8.encode "/sim") = .ok { machine with cwd := 1 } := rfl
  have ended : (Config.default.runner.attempt launch "/" test machine).1 = outcome := by
    decide +kernel
  have turn : Config.default.runner.turn launch "/" test machine =
      ⟨test, some child, outcome, []⟩ := by
    rw [← ended]
    simp only [Runner.turn, path, dir, entered]
    rfl
  have turns : Config.default.runner.turns launch "/" [test] w.machine =
      [⟨test, some child, outcome, []⟩] := by
    rw [Runner.turns, turn, Runner.turns]
  have elapsed : (Config.default.runner.runEach launch "/" [test] w).2.machine.now -
      w.machine.now = 0 := by decide +kernel
  have theme : Theme.ofColour (a.colour.isOn w.machine.environment) = .plain := by decide +kernel
  have empty : w.console.stdout.contents = [] := rfl
  have shown : Lines.shown (Turn.outLines ⟨test, some child, outcome, []⟩) = [0x61, 0x0a] := by
    decide +kernel
  have summary : Summary.ofOutcomes [outcome] = ⟨1, 0, 1, ["sim"]⟩ := by decide +kernel
  simp only [selection, turns, elapsed, theme, dir, shown, summary, empty, List.map_singleton,
    List.flatMap_singleton, List.nil_append] at hout
  exact hout

end CommandLine

end BenchHarness
