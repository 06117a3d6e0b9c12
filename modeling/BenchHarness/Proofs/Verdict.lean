import BenchHarness.Proofs.Discovery
import BenchHarness.Proofs.Output
import BenchHarness.Proofs.Snapshot
import BenchHarness.Proofs.Summary

/-!
# The verdict

What the exit code of a command says. As long as standard output takes what is written, it is 0 or 1,
and 0 only for help, for a list, and for a run in which nothing went wrong with any test that the mode
selects and each of them printed the success marker (`CommandLine.exitCode_verdict`). A command that
does not come to a run launches nothing: what it does is the same whatever launching would do
(`CommandLine.Settled`).
-/

namespace BenchHarness

open Buffered

/-- The tests that a mode selects: all of them, or those whose path contains it. -/
def selectedBy (mode : Option String) (entries : List Entry) : List Entry :=
  match mode with
  | none => entries
  | some text => entries.filter fun e => Text.contains text e.path

theorem mem_selectedBy_iff (mode : Option String) (entries : List Entry) (e : Entry) :
    e ∈ selectedBy mode entries ↔
      e ∈ entries ∧ ∀ text, mode = some text → text.toList <:+: e.path.toList := by
  cases mode with
  | none => simp [selectedBy]
  | some text => simp [selectedBy, Text.contains_iff]

theorem selectedBy_sublist (mode : Option String) (entries : List Entry) :
    (selectedBy mode entries).Sublist entries := by
  cases mode with
  | none => exact List.Sublist.refl entries
  | some text => exact List.filter_sublist

/-- A mode is that of help, that of a list, or one that runs the tests it selects. -/
inductive Arguments.Means (a : Arguments) : Prop where
  | help (mode : a.mode = some helpMode) (action : a.action = .showHelp)
  | list (mode : a.mode = some listMode) (action : a.action = .listOnly)
  | run (noHelp : a.mode ≠ some helpMode) (noList : a.mode ≠ some listMode)
      (runs : a.action = .runAll ∨ ∃ text, a.action = .runFiltered text)
      (picks : ∀ entries, a.action.pick entries = selectedBy a.mode entries)

theorem Arguments.means (a : Arguments) : a.Means := by
  cases hmode : a.mode with
  | none =>
    have haction : a.action = .runAll := by rw [action, hmode, Action.ofMode]
    refine .run (by simp [hmode]) (by simp [hmode]) (Or.inl haction) ?_
    intro entries
    rw [haction, hmode]
    rfl
  | some text =>
    by_cases help : text = helpMode
    · exact .help (help ▸ hmode) (by rw [action, hmode, Action.ofMode, if_pos help])
    by_cases list : text = listMode
    · exact .list (list ▸ hmode) (by rw [action, hmode, Action.ofMode, if_neg help, if_pos list])
    have haction : a.action = .runFiltered text := by
      rw [action, hmode, Action.ofMode, if_neg help, if_neg list]
    refine .run (by simpa [hmode] using help) (by simpa [hmode] using list)
      (Or.inr ⟨text, haction⟩) ?_
    intro entries
    rw [haction, hmode]
    rfl

/-- Every failure ends with the same exit code. -/
theorem CommandFailure.exitCode_eq (e : CommandFailure) : e.exitCode = 1 := by
  cases e <;> rfl

namespace CommandLine

/-! ## Commands that launch nothing -/

/-- A command ends with an exit code, leaves the machine alone, and does the same whatever launching
would do. -/
structure Settled (engine : Engine) (a : Arguments) (colours : Colours) (w : World) (code : Nat) :
    Prop where
  code : ∀ launch, (conclude colours (execute engine launch a colours w)).1 = code
  machine : ∀ launch, (conclude colours (execute engine launch a colours w)).2.machine = w.machine
  launchless : ∀ launch launch', execute engine launch a colours w = execute engine launch' a colours w

variable {engine : Engine} {a : Arguments} {colours : Colours} {w : World}

/-- What a failure comes to, if it is the same whatever launching would do. -/
theorem settled_of_error {w' : World} {e : CommandFailure} (same : w'.machine = w.machine)
    (result : ∀ launch, execute engine launch a colours w = (.error e, w')) :
    Settled engine a colours w 1 := by
  refine ⟨?_, ?_, ?_⟩
  · intro launch
    rw [result]
    exact e.exitCode_eq
  · intro launch
    rw [result]
    exact same
  · intro launch launch'
    rw [result, result]

theorem afterWriting_snd (w : World) (result : Option WriteError × Console) :
    (afterWriting w result).2 = { w with console := result.2 } := by
  obtain ⟨_, _⟩ := result
  rfl

/-- What writing comes to, if all of it is taken. -/
theorem afterWriting_of_succeeds {write : Buffered → Option WriteError × Buffered}
    (succeeds : Succeeds write) (writable : w.console.Writable) :
    (afterWriting w (writeOut write w.console)).1 = .ok 0 ∧
      (afterWriting w (writeOut write w.console)).2.machine = w.machine := by
  have hnone := (writeOut_succeeds succeeds writable).1
  generalize writeOut write w.console = result at hnone ⊢
  obtain ⟨error, console⟩ := result
  obtain rfl : error = none := hnone
  exact ⟨rfl, rfl⟩

theorem showModes_of_writable (colours : Colours) (writable : w.console.Writable) :
    (showModes colours w).1 = .ok 0 ∧ (showModes colours w).2.machine = w.machine := by
  unfold showModes
  generalize Utf8.encode (Help.modeList colours.stdout).render = text
  refine afterWriting_of_succeeds ?_ writable
  intro b hb
  obtain ⟨hnone, hkept⟩ := put_succeeds text b hb
  refine ⟨?_, hkept⟩
  show (put text b).1.map WriteError.io = none
  rw [hnone]
  rfl

theorem listTests_of_writable (colours : Colours) (writable : w.console.Writable)
    (format : ListFormat) (tests : TestList) :
    (listTests colours format tests w).1 = .ok 0 ∧
      (listTests colours format tests w).2.machine = w.machine :=
  afterWriting_of_succeeds (tests.write_succeeds _ format) writable

/-- What success comes to, if it does not depend on what launching would do. -/
theorem settled_of_ok {result : Except CommandFailure Nat × World}
    (ok : result.1 = .ok 0) (same : result.2.machine = w.machine)
    (always : ∀ launch, execute engine launch a colours w = result) :
    Settled engine a colours w 0 := by
  obtain ⟨answer, w'⟩ := result
  obtain rfl : answer = .ok 0 := ok
  refine ⟨?_, ?_, ?_⟩
  · intro launch
    rw [always]
    rfl
  · intro launch
    rw [always]
    exact same
  · intro launch launch'
    rw [always, always]

theorem settled_of_help (writable : w.console.Writable) (help : a.mode = some helpMode) :
    Settled engine a colours w 0 := by
  obtain ⟨ok, same⟩ := showModes_of_writable colours writable
  refine settled_of_ok ok same ?_
  intro launch
  unfold execute
  cases a.means with
  | help mode action => rw [action]
  | list mode action => simp [help, helpMode, listMode] at mode
  | run noHelp noList runs picks => exact absurd help noHelp

/-! ## Preparation -/

/-- A command that lists tests, or runs them and names no format for lists. -/
def Ordinary (a : Arguments) : Prop :=
  a.mode = some listMode ∨ (a.mode ≠ some helpMode ∧ a.format = none)

theorem execute_of_ordinary (ordinary : Ordinary a) (launch : Launch) :
    execute engine launch a colours w =
      match prepare a w with
      | .error (e, w) => (.error e, w)
      | .ok (config, tests, w) =>
        match a.action with
        | .listOnly => listTests colours (a.format.getD .plain) tests w
        | action =>
          runTests launch colours (config.makeRunner engine) (.ofAction tests action) w := by
  unfold execute
  cases a.means with
  | help mode action =>
    rcases ordinary with list | ⟨noHelp, -⟩
    · simp [mode, helpMode, listMode] at list
    · exact absurd mode noHelp
  | list mode action =>
    rewrite [action]
    cases a.format with
    | none => rfl
    | some format => rfl
  | run noHelp noList runs picks =>
    rcases ordinary with list | ⟨-, hformat⟩
    · exact absurd list noList
    · rw [hformat]
      rcases runs with haction | ⟨text, haction⟩
      · rewrite [haction]
        rfl
      · rewrite [haction]
        rfl

theorem settled_of_prepare_error (ordinary : Ordinary a) {e : CommandFailure} {w' : World}
    (failed : prepare a w = .error (e, w')) (same : w'.machine = w.machine) :
    Settled engine a colours w 1 := by
  have hexecute : ∀ launch, execute engine launch a colours w = (.error e, w') := by
    intro launch
    rw [execute_of_ordinary ordinary, failed]
  exact settled_of_error same hexecute

theorem prepare_of_root_error {e : CommandFailure}
    (failed : resolveRoot w.machine a.root = .error e) : prepare a w = .error (e, w) := by
  rw [prepare, failed]
  rfl

theorem prepare_of_config_error {root : String} {e : ConfigError}
    (resolved : resolveRoot w.machine a.root = .ok root)
    (failed : Config.fromSources w.machine.files w.machine.cwd root a.configFile = .error e) :
    prepare a w = .error (.config e, w) := by
  simp only [prepare, resolved, Except.mapError, bind, Except.bind, failed]

theorem prepare_of_discovery_error {root : String} {config : Config} {e : DiscoveryError}
    {notes : List LogRecord} (resolved : resolveRoot w.machine a.root = .ok root)
    (configured : Config.fromSources w.machine.files w.machine.cwd root a.configFile = .ok config)
    (failed : TestList.discover config.rule.classifier root
      (w.machine.files.rootView w.machine.cwd root) = .error (e, notes)) :
    prepare a w = .error (.discovery e, { w with console := w.console.noteAll notes }) := by
  simp only [prepare, resolved, configured, bind, Except.bind, Except.mapError, failed]

/-- Preparing a command only makes notes. -/
theorem prepare_of_ok {root : String} {config : Config} {tests : TestList}
    {notes : List LogRecord} (resolved : resolveRoot w.machine a.root = .ok root)
    (configured : Config.fromSources w.machine.files w.machine.cwd root a.configFile = .ok config)
    (discovered : TestList.discover config.rule.classifier root
      (w.machine.files.rootView w.machine.cwd root) = .ok (tests, notes))
    (writable : w.console.Writable) :
    ∃ w', prepare a w = .ok (config, tests, w') ∧ w'.machine = w.machine ∧
      w'.console.Writable := by
  have hnoted := Console.noteAll_kept Console.writable_kept notes writable
  refine ⟨World.note { w with console := w.console.noteAll notes } .debug .commandLine
    ("discovered " ++ toString tests.entries.length ++ " tests under \x60" ++ root ++ "\x60"),
    ?_, rfl, Console.writable_kept.note _ hnoted⟩
  simp only [prepare, resolved, configured, bind, Except.bind, Except.mapError, discovered]
  rfl

/-- What preparing a command comes from, and that nothing but notes are made on the way. -/
theorem prepare_eq_ok {config : Config} {tests : TestList} {w' : World}
    (prepared : prepare a w = .ok (config, tests, w')) :
    ∃ root notes notes', resolveRoot w.machine a.root = .ok root ∧
      Config.fromSources w.machine.files w.machine.cwd root a.configFile = .ok config ∧
      TestList.discover config.rule.classifier root
        (w.machine.files.rootView w.machine.cwd root) = .ok (tests, notes) ∧
      w' = { w with console := w.console.noteAll notes' } := by
  cases resolved : resolveRoot w.machine a.root with
  | error e => rw [prepare_of_root_error resolved] at prepared; cases prepared
  | ok root =>
    cases configured : Config.fromSources w.machine.files w.machine.cwd root a.configFile with
    | error e => rw [prepare_of_config_error resolved configured] at prepared; cases prepared
    | ok config' =>
      cases discovered : TestList.discover config'.rule.classifier root
        (w.machine.files.rootView w.machine.cwd root) with
      | error failed =>
        rw [prepare_of_discovery_error resolved configured discovered] at prepared
        cases prepared
      | ok found =>
        simp only [prepare, resolved, configured, bind, Except.bind, Except.mapError, discovered,
          pure, Except.pure, Except.ok.injEq, Prod.mk.injEq] at prepared
        obtain ⟨rfl, rfl, rfl⟩ := prepared
        refine ⟨root, found.2, found.2 ++ [⟨.debug, .commandLine, "discovered " ++
          toString found.1.entries.length ++ " tests under \x60" ++ root ++ "\x60"⟩], rfl,
          configured, discovered, ?_⟩
        rw [Console.noteAll_concat]
        rfl

/-! ## Runs -/

/-- The world that a run leaves when what is still buffered has been written out. -/
def leave (s : RunState Bytes) : World :=
  { s.world with console := Buffered.close ⟨s.world.console, s.follower⟩ }

/-- What some deeds make of a world if they are reported on standard output. -/
def report (launch : Launch) (colours : Colours) (runner : Runner) (root : String)
    (deeds : List Runner.Deed) (w : World) : World :=
  leave (deeds.foldl (runner.perform launch root (reporter (.ofColour colours.stdout))) ⟨w, []⟩)

/-- A run does all that it plans, and it succeeds if each of its tests passed. -/
theorem runTests_of_writable (colours : Colours) (launch : Launch) (runner : Runner)
    (selection : Selection) (writable : w.console.Writable) :
    ∃ noted : World, noted.machine = w.machine ∧
      noted.console = w.console.noteAll selection.notes ∧
      runTests launch colours (.ok runner) selection w =
        (if ∀ o ∈ (runner.runEach launch selection.root selection.entries w).1, o.passed = true
          then .ok 0 else .error .testsFailed,
        report launch colours runner selection.root (runner.plan launch selection noted) noted) := by
  unfold runTests
  simp only []
  generalize hnoted : ({ w with console := w.console.noteAll selection.notes } : World) = noted
  have hmachine : noted.machine = w.machine := by rw [← hnoted]
  have hwritable : noted.console.Writable := by
    rw [← hnoted]
    exact Console.noteAll_kept Console.writable_kept selection.notes writable
  refine ⟨noted, hmachine, by rw [← hnoted], ?_⟩
  obtain ⟨houtcomes, -⟩ := runner.runEach_congr launch selection.root selection.entries hmachine
  -- neither a report nor a test stops standard output from taking everything
  have quiet := (runner.follow_quiet launch selection.root
    (reporter (.ofColour colours.stdout)) (fun e console k h => reporter_quiet _ e k h)
    (fun entry w h => runner.runTest_kept Console.writable_kept launch selection.root entry h)
    (runner.plan launch selection noted) ⟨noted, []⟩ hwritable).1
  have hdone := runner.follow_of_quiet launch selection.root _ _ _ quiet
  obtain ⟨hresult, -⟩ := runner.tryExecute_of_quiet launch
    (reporter (.ofColour colours.stdout)) selection ⟨noted, []⟩ quiet
  rw [hresult, hdone]
  simp only [houtcomes, report, leave]
  generalize (runner.runEach launch selection.root selection.entries w).1 = outcomes
  by_cases hall : ∀ o ∈ outcomes, o.passed = true
  · have hsuccess := (Summary.isSuccess_iff outcomes).mpr hall
    rw [if_pos hall, if_pos hsuccess, Summary.exitCode, if_pos hsuccess]
  · rw [if_neg hall, if_neg (mt (Summary.isSuccess_iff outcomes).mp hall)]

/-- A run leaves the machine that its tests leave one after another. -/
theorem machine_report (launch : Launch) (colours : Colours) (runner : Runner)
    (selection : Selection) (w : World) :
    (report launch colours runner selection.root (runner.plan launch selection w) w).machine =
      (runner.runEach launch selection.root selection.entries w).2.machine := by
  show (RunState.world (List.foldl _ _ _)).machine = _
  rw [Runner.foldl_perform_machine, Runner.tested_plan]

/-- What is promised of running the tests that the mode selects from a list: they are run one after
another in the order of the list, and the exit code is 0 exactly if nothing went wrong with any of
them and each printed the success marker. -/
structure RunsSelected (engine : Engine) (launch : Launch) (a : Arguments) (colours : Colours)
    (w : World) (runner : Runner) (tests : TestList) : Prop where
  inOrder : (selectedBy a.mode tests.entries).Sublist tests.entries
  selected : ∀ e, e ∈ selectedBy a.mode tests.entries ↔
    e ∈ tests.entries ∧ ∀ text, a.mode = some text → text.toList <:+: e.path.toList
  /-- The tests are run as planned, in the world with some more notes in it. -/
  attempted : ∃ (noted : World) (deeds : List Runner.Deed), noted.machine = w.machine ∧
    Runner.tested deeds = selectedBy a.mode tests.entries ∧
      (execute engine launch a colours w).2 = report launch colours runner tests.root deeds noted
  outcomes : (runner.runEach launch tests.root (selectedBy a.mode tests.entries) w).1.map
    (·.entry) = selectedBy a.mode tests.entries
  machine : (conclude colours (execute engine launch a colours w)).2.machine =
    (runner.runEach launch tests.root (selectedBy a.mode tests.entries) w).2.machine
  success : (conclude colours (execute engine launch a colours w)).1 = 0 ↔
    ∀ o ∈ (runner.runEach launch tests.root (selectedBy a.mode tests.entries) w).1,
      o.failure = none ∧ 0 < o.markers

theorem execute_of_run (noHelp : a.mode ≠ some helpMode) (noList : a.mode ≠ some listMode)
    (noFormat : a.format = none) {config : Config} {tests : TestList} {w' : World}
    (prepared : prepare a w = .ok (config, tests, w')) (launch : Launch) :
    execute engine launch a colours w = runTests launch colours (config.makeRunner engine)
      ⟨tests.root, a.action, selectedBy a.mode tests.entries⟩ w' := by
  rw [execute_of_ordinary (Or.inr ⟨noHelp, noFormat⟩), prepared]
  cases a.means with
  | help mode action => exact absurd mode noHelp
  | list mode action => exact absurd mode noList
  | run _ _ runs picks =>
    rw [← picks]
    rcases runs with haction | ⟨text, haction⟩
    · rewrite [haction]
      rfl
    · rewrite [haction]
      rfl

theorem machine_conclude (colours : Colours) (result : Except CommandFailure Nat × World) :
    (conclude colours result).2.machine = result.2.machine := by
  obtain ⟨_ | _, w⟩ := result
  · rfl
  · rfl

theorem runsSelected_of_prepare (launch : Launch) {config : Config} {tests : TestList}
    {w' : World} (noHelp : a.mode ≠ some helpMode) (noList : a.mode ≠ some listMode)
    (noFormat : a.format = none) (prepared : prepare a w = .ok (config, tests, w'))
    (same : w'.machine = w.machine) (writable : w'.console.Writable) {runner : Runner}
    (made : config.makeRunner engine = .ok runner) :
    RunsSelected engine launch a colours w runner tests := by
  obtain ⟨noted, hnoted, -, hrun⟩ := runTests_of_writable colours launch runner
    ⟨tests.root, a.action, selectedBy a.mode tests.entries⟩ writable
  have hexecute : execute engine launch a colours w = _ :=
    (execute_of_run noHelp noList noFormat prepared launch).trans (made ▸ hrun)
  obtain ⟨houtcomes, -⟩ := runner.runEach_congr launch tests.root
    (selectedBy a.mode tests.entries) same
  obtain ⟨-, hlast⟩ := runner.runEach_congr launch tests.root
    (selectedBy a.mode tests.entries) (hnoted.trans same)
  constructor
  · exact selectedBy_sublist _ _
  · exact mem_selectedBy_iff _ _
  · refine ⟨noted, runner.plan launch ⟨tests.root, a.action, _⟩ noted, hnoted.trans same,
      runner.tested_plan launch _ noted, ?_⟩
    exact congrArg Prod.snd hexecute
  · exact runner.map_entry_runEach launch tests.root _ w
  · rw [machine_conclude, hexecute]
    exact (machine_report launch colours runner _ noted).trans hlast
  · rw [hexecute]
    simp only [houtcomes, ← Outcome.passed_iff]
    split
    · rename_i passed
      exact iff_of_true rfl passed
    · rename_i failed
      exact iff_of_false (by simp [conclude, CommandFailure.exitCode_eq]) failed

/-- A command that would run tests notes what it selects, even if no runner can be made. -/
theorem execute_of_unmade (noHelp : a.mode ≠ some helpMode) (noList : a.mode ≠ some listMode)
    (noFormat : a.format = none) {config : Config} {tests : TestList} {w' : World}
    (prepared : prepare a w = .ok (config, tests, w')) {e : RunnerError}
    (unmade : config.makeRunner engine = .error e) (launch : Launch) :
    let selection : Selection := ⟨tests.root, a.action, selectedBy a.mode tests.entries⟩
    execute engine launch a colours w =
      (.error (.runner e), { w' with console := w'.console.noteAll selection.notes }) := by
  rw [execute_of_run noHelp noList noFormat prepared launch, unmade]
  rfl

/-- A command that would run tests launches nothing if no runner can be made. -/
theorem settled_of_unmade {config : Config} {tests : TestList} {w' : World}
    (noHelp : a.mode ≠ some helpMode) (noList : a.mode ≠ some listMode) (noFormat : a.format = none)
    (prepared : prepare a w = .ok (config, tests, w')) (same : w'.machine = w.machine)
    {e : RunnerError} (unmade : config.makeRunner engine = .error e) :
    Settled engine a colours w 1 := by
  refine settled_of_error ?_ (execute_of_unmade noHelp noList noFormat prepared unmade)
  exact same

/-! ## Exit codes -/

theorem afterWriting_ok {write : Option WriteError × Console} {code : Nat}
    (h : (afterWriting w write).1 = .ok code) : code = 0 := by
  obtain ⟨_ | e, console⟩ := write
  · exact (Except.ok.inj h).symm
  · cases h

theorem runTests_ok {launch : Launch} {made : Except RunnerError Runner} {selection : Selection}
    {code : Nat} (h : (runTests launch colours made selection w).1 = .ok code) : code = 0 := by
  unfold runTests at h
  simp only [] at h
  split at h
  · cases h
  · split at h
    · cases h
    · rename_i summary _
      split at h
      · rename_i success
        rw [← Except.ok.inj h, Summary.exitCode, if_pos success]
      · cases h

/-- A command that does not fail ends with the exit code for success. -/
theorem execute_ok {launch : Launch} {code : Nat}
    (h : (execute engine launch a colours w).1 = .ok code) : code = 0 := by
  unfold execute at h
  split at h
  · rw [showModes] at h
    exact afterWriting_ok h
  · cases h
  · cases h
  · split at h
    · cases h
    · split at h
      · rw [listTests] at h
        exact afterWriting_ok h
      · exact runTests_ok h

theorem conclude_code (engine : Engine) (launch : Launch) (a : Arguments) (colours : Colours)
    (w : World) :
    (conclude colours (execute engine launch a colours w)).1 = 0 ∨
      (conclude colours (execute engine launch a colours w)).1 = 1 := by
  have hok := @execute_ok engine a colours w launch
  generalize execute engine launch a colours w = result at hok ⊢
  obtain ⟨e | code, w'⟩ := result
  · exact Or.inr e.exitCode_eq
  · exact Or.inl (hok rfl)

/-- What is promised of a run mode with a format for lists: it is refused before anything is
looked at. -/
theorem execute_of_formatWithoutList (noHelp : a.mode ≠ some helpMode)
    (noList : a.mode ≠ some listMode) {format : ListFormat} (hformat : a.format = some format)
    (launch : Launch) :
    execute engine launch a colours w = (.error (.formatWithoutList format), w) := by
  unfold execute
  rw [hformat]
  cases a.means with
  | help mode action => exact absurd mode noHelp
  | list mode action => exact absurd mode noList
  | run _ _ runs picks =>
    rcases runs with haction | ⟨text, haction⟩
    · rewrite [haction]
      rfl
    · rewrite [haction]
      rfl

theorem settled_of_list (list : a.mode = some listMode) {config : Config} {tests : TestList}
    {w' : World} (prepared : prepare a w = .ok (config, tests, w'))
    (same : w'.machine = w.machine) (writable : w'.console.Writable) :
    Settled engine a colours w 0 := by
  obtain ⟨ok, left⟩ :=
    listTests_of_writable colours writable (a.format.getD .plain) tests
  refine settled_of_ok ok (left.trans same) ?_
  intro launch
  rw [execute_of_ordinary (Or.inl list), prepared]
  cases a.means with
  | help mode action => simp [list, helpMode, listMode] at mode
  | list mode action => rw [action]
  | run noHelp noList runs picks => exact absurd list noList

/-- What the exit code of a command says, if everything written on standard output is taken. It is
0 or 1. Help succeeds, and a run mode with a format for lists fails, whatever the machine holds. If
the root, the configuration or the discovery fails then so does the command, and nothing is launched.
A list succeeds and launches nothing. If no runner can be made then a run fails and launches nothing;
otherwise it attempts each of the selected tests once, in discovery order, and succeeds exactly if
nothing went wrong with any of them and all printed the success marker. -/
theorem exitCode_verdict (engine : Engine) (launch : Launch) (a : Arguments) (colours : Colours)
    (w : World) (writable : w.console.Writable) :
    let done := conclude colours (execute engine launch a colours w)
    let discovered (root : String) (config : Config) := TestList.discover config.rule.classifier
      root (w.machine.files.rootView w.machine.cwd root)
    (done.1 = 0 ∨ done.1 = 1) ∧
    (a.mode = some helpMode → Settled engine a colours w 0) ∧
    (a.mode ≠ some helpMode → a.mode ≠ some listMode → ∀ format, a.format = some format →
      execute engine launch a colours w = (.error (.formatWithoutList format), w) ∧
        Settled engine a colours w 1) ∧
    (Ordinary a →
      (∀ e, resolveRoot w.machine a.root = .error e → Settled engine a colours w 1) ∧
      ∀ root, resolveRoot w.machine a.root = .ok root →
        (∀ e, Config.fromSources w.machine.files w.machine.cwd root a.configFile = .error e →
          Settled engine a colours w 1) ∧
        ∀ config,
          Config.fromSources w.machine.files w.machine.cwd root a.configFile = .ok config →
          (∀ failed, discovered root config = .error failed → Settled engine a colours w 1) ∧
          ∀ tests notes, discovered root config = .ok (tests, notes) →
            (a.mode = some listMode → Settled engine a colours w 0) ∧
            (a.mode ≠ some listMode →
              (∀ e, config.makeRunner engine = .error e → Settled engine a colours w 1) ∧
              ∀ runner, config.makeRunner engine = .ok runner →
                RunsSelected engine launch a colours w runner tests ∧
                  (w.machine.files.root.Legal →
                    ((selectedBy a.mode tests.entries).map (·.path)).Nodup))) := by
  intro done discovered
  refine ⟨conclude_code engine launch a colours w, settled_of_help writable, ?_, ?_⟩
  · intro noHelp noList format hformat
    have refused : ∀ launch,
        execute engine launch a colours w = (.error (.formatWithoutList format), w) :=
      execute_of_formatWithoutList noHelp noList hformat
    exact ⟨refused launch, settled_of_error rfl refused⟩
  · intro ordinary
    refine ⟨?_, ?_⟩
    · intro e unresolved
      exact settled_of_prepare_error ordinary (prepare_of_root_error unresolved) rfl
    intro root resolved
    refine ⟨?_, ?_⟩
    · intro e rejected
      exact settled_of_prepare_error ordinary (prepare_of_config_error resolved rejected) rfl
    intro config configured
    refine ⟨?_, ?_⟩
    · intro failed undiscovered
      exact settled_of_prepare_error ordinary
        (prepare_of_discovery_error resolved configured undiscovered) rfl
    intro tests notes found
    obtain ⟨w', prepared, same, writable'⟩ :=
      prepare_of_ok resolved configured found writable
    refine ⟨fun list => settled_of_list list prepared same writable', ?_⟩
    intro noList
    -- what is left is a run, and it names no format
    rcases ordinary with list | ⟨noHelp, noFormat⟩
    · exact absurd list noList
    refine ⟨fun e unmade => settled_of_unmade noHelp noList noFormat prepared same unmade, ?_⟩
    intro runner made
    refine ⟨runsSelected_of_prepare launch noHelp noList noFormat prepared same writable' made, ?_⟩
    intro legal
    have hnodup := TestList.nodup_of_discover (fun _ _ => Files.rootView_legal legal) found
    exact hnodup.sublist ((selectedBy_sublist a.mode tests.entries).map (·.path))

/-- The same command succeeds if its one test prints the marker, whatever the test's exit code is. It
fails if the test cannot be launched, and also if the test prints the marker but its standard error
cannot be read; and it fails without a test if the root cannot be listed or there is no runtime. -/
theorem exitCode_verdict_of_one_test :
    let files (unlisted : List (DirId × IoError)) : Files := ⟨.directory 0 [([0x73, 0x69, 0x6d],
      .directory 1 [([0x67, 0x6f, 0x2e, 0x73, 0x68], .file 0 [])])], [], 2, unlisted⟩
    let world (unlisted : List (DirId × IoError)) : World := ⟨⟨files unlisted, 0, [], 0⟩, .buffers⟩
    let a : Arguments := ⟨some "im/g", some "/", none, none, false, .never⟩
    let printing (faults : Faults) : Launch := fun _ files =>
      .ok (⟨[Utf8.encode "<<TB_SUCCESS>>"], [], [], some 3, 0, faults⟩, files)
    let refusing : Launch := fun _ _ => .error (.system .noEntry)
    let torn : Faults := ⟨none, some (.system .badDescriptor), none, none⟩
    let hidden := [(0, IoError.system .accessDenied)]
    let idle : Engine := ⟨fun _ => none, some (.system .noSpace)⟩
    let code (engine : Engine) (launch : Launch) (w : World) :=
      (conclude ⟨false, false⟩ (execute engine launch a ⟨false, false⟩ w)).1
    (world []).console.Writable ∧ code .ready (printing .none) (world []) = 0 ∧
      code .ready refusing (world []) = 1 ∧ code .ready (printing torn) (world []) = 1 ∧
      code .ready (printing .none) (world hidden) = 1 ∧
      code idle (printing .none) (world []) = 1 := by
  intro files world a printing refusing torn hidden idle code
  have writable : ∀ unlisted, (world unlisted).console.Writable := fun _ _ _ _ => rfl
  have ordinary : Ordinary a := Or.inr ⟨by decide, rfl⟩
  have noList : a.mode ≠ some listMode := by decide
  have configured : ∀ unlisted, Config.fromSources (files unlisted) 0 "/" none = .ok .default :=
    fun _ => rfl
  obtain ⟨notes, discovered⟩ : ∃ notes, TestList.discover Config.default.rule.classifier "/"
    ((files []).rootView 0 "/") = .ok (⟨"/", [⟨"sim/go.sh"⟩]⟩, notes) := ⟨_, rfl⟩
  obtain ⟨failed, undiscovered⟩ : ∃ failed, TestList.discover Config.default.rule.classifier "/"
    ((files hidden).rootView 0 "/") = .error failed := ⟨_, rfl⟩
  have selects : selectedBy a.mode [⟨"sim/go.sh"⟩] = [⟨"sim/go.sh"⟩] := by decide
  let machine : Machine := (world []).machine
  -- the exit code is about one test, so it is that of its outcome
  have verdict : ∀ launch, (code .ready launch (world []) = 0 ∨ code .ready launch (world []) = 1) ∧
      (code .ready launch (world []) = 0 ↔
        (Config.default.runner.attempt launch "/" ⟨"sim/go.sh"⟩ machine).1.failure = none ∧
        0 < (Config.default.runner.attempt launch "/" ⟨"sim/go.sh"⟩ machine).1.markers) := by
    intro launch
    obtain ⟨binary, -, -, run⟩ :=
      exitCode_verdict .ready launch a ⟨false, false⟩ (world []) (writable [])
    obtain ⟨-, found⟩ := ((run ordinary).2 "/" rfl).2 .default (configured [])
    obtain ⟨-, ran⟩ := (found _ notes discovered).2 noList
    obtain ⟨selected, -⟩ := ran Config.default.runner rfl
    have each : (Config.default.runner.runEach launch "/"
        (selectedBy a.mode [⟨"sim/go.sh"⟩]) (world [])).1 =
          [(Config.default.runner.attempt launch "/" ⟨"sim/go.sh"⟩ machine).1] := by
      rewrite [selects, Runner.runEach, (Runner.runTest_eq_attempt _ _ _ _ _).1]
      rfl
    have success := selected.success
    rw [each] at success
    simp only [List.forall_mem_singleton] at success
    exact ⟨binary, success⟩
  have started (faults : Faults) : Config.default.runner.Started (printing faults) "/"
      ⟨"sim/go.sh"⟩ machine ⟨[Utf8.encode "<<TB_SUCCESS>>"], [], [], some 3, 0, faults⟩ :=
    ⟨_, _, _, rfl, rfl, rfl⟩
  refine ⟨writable [], (verdict _).2.mpr ?_, (verdict _).1.resolve_left (mt (verdict _).2.mp ?_),
    (verdict _).1.resolve_left (mt (verdict _).2.mp ?_), ?_, ?_⟩
  · rewrite [Runner.attempt_of_started (started .none)]
    exact ⟨by decide, by decide⟩
  · rintro ⟨-, printed⟩
    exact absurd printed (by decide)
  · rintro ⟨sound, -⟩
    rewrite [Runner.attempt_of_started (started torn)] at sound
    exact absurd sound (by decide)
  · obtain ⟨-, -, -, run⟩ :=
      exitCode_verdict .ready (printing .none) a ⟨false, false⟩ (world hidden) (writable hidden)
    obtain ⟨settled, -⟩ := ((run ordinary).2 "/" rfl).2 .default (configured hidden)
    exact (settled failed undiscovered).code (printing .none)
  · obtain ⟨-, -, -, run⟩ :=
      exitCode_verdict idle (printing .none) a ⟨false, false⟩ (world []) (writable [])
    obtain ⟨-, found⟩ := ((run ordinary).2 "/" rfl).2 .default (configured [])
    obtain ⟨settled, -⟩ := (found _ notes discovered).2 noList
    exact (settled (.runtime (.system .noSpace)) rfl).code (printing .none)

end CommandLine

end BenchHarness
