import BenchHarness.Proofs.Output
import BenchHarness.Proofs.Protocol
import BenchHarness.Proofs.WayBack

/-!
# Tests that cannot be run

A test whose directory cannot be entered, or whose command is refused there, leaves the world as it
was but for a note in the journal (`Runner.runTest_of_blocked`). So a run with such a test among
others tells what the run without it tells, with the two events about the test put in at its place
(`Runner.tryExecute_blocked`).
-/

namespace BenchHarness

/-- The directory that a process works in can be entered by its path. -/
def Machine.Enterable (m : Machine) : Prop :=
  ∃ path back, m.currentDir = .ok path ∧ m.changeDir path = .ok back

/-- Nothing is left of what does nothing in a directory, if the way back leads to where it began. -/
theorem World.inDirectory_of_idle {α : Type} {w : World} {start : Bytes} {inside : Machine}
    {dir : String} {act : World → α × World} {result : α} (path : w.machine.currentDir = .ok start)
    (entered : w.machine.changeDir (Utf8.encode dir) = .ok inside)
    (idle : act { w with machine := inside } = (result, { w with machine := inside }))
    (back : inside.changeDir start = .ok w.machine) :
    w.inDirectory dir act = (.ok result, w) := by
  simp only [inDirectory, path, entered, idle, back]

/-- How notes are shown is settled when a console is made. -/
theorem Console.shown_kept (shown : LogRecord → Option Bytes) :
    Kept fun c => c.shown = shown := by
  have hwrite : ∀ {c : Console} (stream : Stream) (data : Bytes), c.shown = shown →
      (c.write stream data).2.shown = shown := by
    intro c stream data h
    cases stream with
    | stdout => exact h
    | stderr => exact h
  refine ⟨hwrite, ?_⟩
  intro c record h
  unfold note
  simp only []
  split
  · exact h
  · exact hwrite _ _ h

/-- A note that is not shown goes to the journal only. -/
theorem Console.agree_note {c : Console} {record : LogRecord} (unseen : c.shown record = none) :
    c.Agree (c.note record) := by
  simp only [note, unseen]
  exact ⟨rfl, rfl, rfl⟩

namespace Runner

variable (r : Runner) (launch : Launch) (root : String) (entry : Entry)

/-! ## One test -/

/-- A test cannot be run on a machine: its directory cannot be entered, or its command cannot be
started there. -/
inductive Blocked (m : Machine) : Failure → Prop where
  | closed {e : IoError}
      (refused : m.changeDir (Utf8.encode (entry.workingDir root)) = .error e) :
      Blocked m (.changeDir (entry.workingDir root) e)
  | idle {inside : Machine} {e : IoError}
      (entered : m.changeDir (Utf8.encode (entry.workingDir root)) = .ok inside)
      (refused : launch (r.command entry (testDir m (entry.workingDir root)) inside) inside.files =
        .error e) :
      Blocked m (.spawn (Words.join (r.commandWords entry)) e)

/-- What is noted when a test is about to be run. -/
def announcement : LogRecord :=
  ⟨.debug, .running,
    "running \x60" ++ entry.path ++ "\x60 in \x60" ++ entry.workingDir root ++ "\x60"⟩

/-- A world in which nothing has happened but the announcement of a test. -/
def announced (w : World) : World :=
  { w with console := w.console.note (announcement root entry) }

variable {r launch root entry}

/-- A test that cannot be run has a failure for an outcome, and leaves nothing but a note. -/
theorem runTest_of_blocked {w : World} {failure : Failure} (legal : w.machine.files.root.Legal)
    (enterable : w.machine.Enterable) (blocked : r.Blocked launch root entry w.machine failure) :
    r.runTest launch root entry w = (.ofFailure entry failure, announced root entry w) := by
  obtain ⟨path, back, hpath, hback⟩ := enterable
  have hnoted : w.note .debug .running
      ("running \x60" ++ entry.path ++ "\x60 in \x60" ++ entry.workingDir root ++ "\x60") =
      { w with console := w.console.note (announcement root entry) } := rfl
  simp only [runTest, runInDir, announced, hnoted]
  -- from here on the console does not matter
  generalize w.console.note (announcement root entry) = console
  have hpath' : (World.mk w.machine console).machine.currentDir = .ok path := hpath
  cases blocked with
  | closed refused =>
    rw [World.inDirectory_of_refused hpath' refused]
    simp [Outcome.ofFailure, Observation.failed, Capture.empty]
  | @idle inside e entered refused =>
    -- the process has left, and comes back by the path of the directory it was in
    obtain ⟨id, -, rfl⟩ := Machine.changeDir_eq_ok entered
    have hreturn := Machine.changeDir_currentDir legal hpath hback id
    rw [World.inDirectory_of_idle hpath' entered (r.runChild_of_refused launch entry refused) hreturn]
    simp [Outcome.ofFailure, Observation.failed, Capture.empty]

/-! ## Several tests -/

variable (r launch root)

theorem runEach_append (before after : List Entry) :
    ∀ w : World, r.runEach launch root (before ++ after) w =
      ((r.runEach launch root before w).1 ++
          (r.runEach launch root after (r.runEach launch root before w).2).1,
        (r.runEach launch root after (r.runEach launch root before w).2).2) := by
  induction before with
  | nil =>
    intro w
    rfl
  | cons entry rest ih =>
    intro w
    rw [List.cons_append, runEach, ih]
    rfl

/-- Several tests keep what writing and noting keep. -/
theorem runEach_kept {P : Console → Prop} (kept : Console.Kept P) (entries : List Entry) :
    ∀ {w : World}, P w.console → P (r.runEach launch root entries w).2.console := by
  induction entries with
  | nil =>
    intro w h
    exact h
  | cons entry rest ih =>
    intro w h
    exact ih (r.runTest_kept kept launch root entry h)

/-- The world when some tests have been run and it is the turn of the next one. Whoever follows a run,
it comes to the same machine (`foldl_perform_machine`). -/
def turnAfter (before : List Entry) (w : World) : World := (r.runEach launch root before w).2

variable {r launch root}

/-- A test that cannot be run adds its outcome to those of the others, and changes nothing for them. -/
theorem runEach_of_blocked {before : List Entry} {w : World} {failure : Failure}
    (legal : (r.turnAfter launch root before w).machine.files.root.Legal)
    (enterable : (r.turnAfter launch root before w).machine.Enterable)
    (blocked : r.Blocked launch root entry (r.turnAfter launch root before w).machine failure)
    (after : List Entry) :
    let without := r.runEach launch root (before ++ after) w
    let whole := r.runEach launch root (before ++ entry :: after) w
    ∃ done others, done.length = before.length ∧ others.length = after.length ∧
      without.1 = done ++ others ∧ whole.1 = done ++ .ofFailure entry failure :: others ∧
      whole.2.machine = without.2.machine ∧
      (w.console.shown (announcement root entry) = none → without.2.Agree whole.2) := by
  intro without whole
  have hwithout : without = _ := r.runEach_append launch root before after w
  have hwhole : whole = _ := r.runEach_append launch root before (entry :: after) w
  rw [runEach, ← turnAfter, runTest_of_blocked legal enterable blocked] at hwhole
  rw [← turnAfter] at hwithout
  -- the tests after it start from a world that differs in the console only
  have hcongr : (r.turnAfter launch root before w).machine =
      (announced root entry (r.turnAfter launch root before w)).machine := rfl
  obtain ⟨houtcomes, hmachine⟩ := r.runEach_congr launch root after hcongr
  refine ⟨_, _, r.length_runEach launch root before w, r.length_runEach launch root after
    (r.turnAfter launch root before w), ?_, ?_, ?_, ?_⟩
  · rw [hwithout]
  · rw [hwhole, houtcomes]
  · rw [hwhole, hwithout]
    exact hmachine.symm
  · intro unseen
    have hshown := r.runEach_kept launch root (Console.shown_kept w.console.shown) before
      (w := w) rfl
    have hunseen : (r.turnAfter launch root before w).console.shown (announcement root entry) =
        none := by
      rw [turnAfter, hshown, unseen]
    have hagree : (r.turnAfter launch root before w).Agree
        (announced root entry (r.turnAfter launch root before w)) :=
      ⟨rfl, Console.agree_note hunseen⟩
    rw [hwhole, hwithout]
    exact (r.runEach_agree launch root after hagree).2

/-! ## What is told -/

/-- The directories of the failed tests that some events report. -/
def failedDirs (events : List Event) : List String :=
  (Summary.ofOutcomes (reported events)).failedDirs

theorem failedDirs_testDeeds (root : String) {entries : List Entry} {outcomes : List Outcome}
    (hlen : outcomes.length = entries.length) :
    failedDirs (told (testDeeds root (entries.zip outcomes))) =
      (Summary.ofOutcomes outcomes).failedDirs := by
  rw [failedDirs, told_testDeeds, reported_tests, List.map_snd_zip hlen.le]

theorem length_told_testDeeds (root : String) {entries : List Entry} {outcomes : List Outcome}
    (hlen : outcomes.length = entries.length) :
    (told (testDeeds root (entries.zip outcomes))).length = 2 * entries.length := by
  rw [told_testDeeds, List.length_flatMap]
  simp [hlen, Nat.mul_comm]

/-- The events about some tests come before those about the tests after them. -/
theorem trace_append (root : String) (action : Action) {before : List Entry} (after : List Entry)
    {done : List Outcome} (hlen : done.length = before.length) (others : List Outcome)
    (elapsed : Nat) :
    trace ⟨root, action, before ++ after⟩ (done ++ others) elapsed =
      .runStarted ⟨root, action, before ++ after⟩ ::
        (told (testDeeds root (before.zip done)) ++ told (testDeeds root (after.zip others))) ++
        [.runFinished (Summary.ofOutcomes (done ++ others)) elapsed] := by
  rw [trace, List.zip_append hlen.symm, List.flatMap_append, told_testDeeds, told_testDeeds]

section

variable {ε κ : Type} {follower : Follower ε κ} {selection : Selection} {s : RunState κ}

/-- A follower that never objects lets a run tell everything. -/
theorem completed_of_patient (patient : ∀ e state, (follower e state).2 = none) :
    r.Completed launch follower selection s :=
  r.completed_of_quiet launch follower selection s
    (r.quiet_of_patient launch follower selection s patient)

theorem Completed.result_eq (completed : r.Completed launch follower selection s) :
    (r.tryExecute launch follower selection s).1 =
      .ok (Summary.ofOutcomes (r.runEach launch selection.root selection.entries s.world).1) := by
  obtain ⟨summary, elapsed, hresult, -, hsummary, -⟩ := completed.result
  rw [hresult, hsummary, completed.outcomes]

end

variable {ε κ : Type} (r launch root entry) (follower : Follower ε κ)

/-- A test that cannot be run fails by itself. It has neither lines nor markers and nothing is echoed
for it; the run it is in tells the follower what it would tell without the test, in the same order, but
for the two events about the test, and counts one failure more. The machine, and what the other tests
echo, are the same at the end. -/
theorem tryExecute_blocked (patient : ∀ e state, (follower e state).2 = none) (action : Action)
    (before after : List Entry) (s : RunState κ) {failure : Failure}
    (legal : (r.turnAfter launch root before s.world).machine.files.root.Legal)
    (enterable : (r.turnAfter launch root before s.world).machine.Enterable)
    (blocked : r.Blocked launch root entry (r.turnAfter launch root before s.world).machine failure) :
    let turn := r.turnAfter launch root before s.world
    let rest : Selection := ⟨root, action, before ++ after⟩
    let whole : Selection := ⟨root, action, before ++ entry :: after⟩
    let outcome : Outcome := ⟨entry, 0, [], [], none, 0, some failure⟩
    outcome.passed = false ∧
      (∀ w : World, w.machine = turn.machine →
        r.runTest launch root entry w = (outcome, announced root entry w) ∧
        (w.console.shown (announcement root entry) = none → w.Agree (announced root entry w))) ∧
      (∃ early late summary elapsed,
        let summary' : Summary := ⟨summary.total + 1, summary.passed, summary.failed + 1,
          failedDirs early ++ entry.dir :: failedDirs late⟩
        early.length = 2 * before.length ∧ late.length = 2 * after.length ∧
        summary.failedDirs = failedDirs early ++ failedDirs late ∧
        (r.log launch follower rest s).map (·.1) =
          .runStarted rest :: (early ++ late) ++ [.runFinished summary elapsed] ∧
        (r.log launch follower whole s).map (·.1) =
          .runStarted whole :: (early ++ .testStarted entry (entry.workingDir root) ::
            .testFinished outcome :: late) ++ [.runFinished summary' elapsed] ∧
        (r.tryExecute launch follower rest s).1 = .ok summary ∧
        (r.tryExecute launch follower whole s).1 = .ok summary') ∧
      (r.tryExecute launch follower whole s).2.world.machine =
        (r.tryExecute launch follower rest s).2.world.machine ∧
      (WritesElsewhere follower → s.world.console.shown (announcement root entry) = none →
        World.Agree (r.tryExecute launch follower rest s).2.world
          (r.tryExecute launch follower whole s).2.world) := by
  intro turn rest whole outcome
  have hrest : r.Completed launch follower rest s := completed_of_patient patient
  have hwhole : r.Completed launch follower whole s := completed_of_patient patient
  obtain ⟨done, others, hdone, hothers, houtcomes, houtcomes', hmachine, hshown⟩ :=
    runEach_of_blocked legal enterable blocked after
  refine ⟨rfl, ?_, ?_, ?_, ?_⟩
  · intro w hw
    have hturn : w.machine = (r.turnAfter launch root before s.world).machine := hw
    rw [← hturn] at legal enterable blocked
    exact ⟨runTest_of_blocked legal enterable blocked, fun unseen => ⟨rfl, Console.agree_note unseen⟩⟩
  · -- both traces are cut at the place of the test
    have hearly := failedDirs_testDeeds root hdone
    have hlate := failedDirs_testDeeds root hothers
    have hsummary := Summary.ofOutcomes_insert (o := outcome) rfl done others
    rw [← hearly, ← hlate] at hsummary
    refine ⟨told (testDeeds root (before.zip done)), told (testDeeds root (after.zip others)),
      Summary.ofOutcomes (done ++ others),
      (r.runEach launch root (before ++ after) s.world).2.machine.now - s.world.machine.now,
      length_told_testDeeds root hdone, length_told_testDeeds root hothers, ?_, ?_, ?_, ?_, ?_⟩
    · rw [hearly, hlate, Summary.failedDirs_append]
    · rw [hrest.heard, foreseen, houtcomes]
      exact trace_append root action after hdone others _
    · rw [hwhole.heard, foreseen, houtcomes', ← hsummary, ← hmachine]
      exact trace_append root action (entry :: after) hdone (outcome :: others) _
    · rw [hrest.result_eq]
      exact congrArg (Except.ok ∘ Summary.ofOutcomes) houtcomes
    · rw [hwhole.result_eq, ← hsummary]
      exact congrArg (Except.ok ∘ Summary.ofOutcomes) houtcomes'
  · rw [hwhole.machine, hrest.machine]
    exact hmachine
  · intro elsewhere unseen
    -- each run shows what its tests show one after another, and these show the same
    have hagree := hrest.shown elsewhere
    have hagree' := hwhole.shown elsewhere
    have hbetween := hshown unseen
    exact ⟨hagree.machine.trans (hbetween.machine.trans hagree'.machine.symm),
      hagree.console.trans (hbetween.console.trans hagree'.console.symm)⟩

/-- The command of the second of three tests is refused; its directory is found from a relative root. -/
theorem tryExecute_blocked_of_refused :
    let r : Runner := ⟨⟨"sh", []⟩, "ok"⟩
    let files : Files := ⟨.directory 0 [([0x77], .directory 1
      [([0x61], .directory 2 []), ([0x62], .directory 3 []), ([0x63], .directory 4 [])])], [], 5, []⟩
    let launch : Launch := fun c files =>
      if c.directory = 3 then .error (.system .accessDenied)
      else .ok (⟨[[0x6f, 0x6b, 0x0a]], [], [], some 0, 1, .none⟩, files)
    let follower : Follower Empty Unit := fun _ state => (state, none)
    let s : RunState Unit := ⟨⟨⟨files, 1, [], 0⟩, .buffers⟩, ()⟩
    let rest : Selection := ⟨".", .runAll, [⟨"a/go"⟩, ⟨"c/go"⟩]⟩
    let whole : Selection := ⟨".", .runAll, [⟨"a/go"⟩, ⟨"b/go"⟩, ⟨"c/go"⟩]⟩
    World.Agree (r.tryExecute launch follower rest s).2.world
        (r.tryExecute launch follower whole s).2.world ∧
      ∃ summary dirs, (r.tryExecute launch follower rest s).1 = .ok summary ∧
        (Entry.mk "b/go").dir ∈ dirs ∧ (r.tryExecute launch follower whole s).1 =
          .ok ⟨summary.total + 1, summary.passed, summary.failed + 1, dirs⟩ := by
  intro r files launch follower s rest whole
  have legal : files.root.Legal := by
    have hw : Node.Legal (.directory 1
        [([0x61], .directory 2 []), ([0x62], .directory 3 []), ([0x63], .directory 4 [])]) := by
      refine .directory (by decide) (by decide) ?_
      have hempty : ∀ id, Node.Legal (.directory id []) :=
        fun id => .directory (by simp) (by simp) (by simp)
      simpa using ⟨hempty 2, hempty 3, hempty 4⟩
    exact .directory (by decide) (by decide) (by simpa using hw)
  have enterable : (r.turnAfter launch "." [⟨"a/go"⟩] s.world).machine.Enterable :=
    ⟨[0x2f, 0x77], _, by rfl, by rfl⟩
  have entered : (r.turnAfter launch "." [⟨"a/go"⟩] s.world).machine.changeDir
      (Utf8.encode ((Entry.mk "b/go").workingDir ".")) = .ok ⟨files, 3, [], 1⟩ := by rfl
  have blocked : r.Blocked launch "." ⟨"b/go"⟩ (r.turnAfter launch "." [⟨"a/go"⟩] s.world).machine
      (.spawn (Words.join (r.commandWords ⟨"b/go"⟩)) (.system .accessDenied)) :=
    .idle entered (by rfl)
  obtain ⟨-, -, ⟨early, late, summary, elapsed, -, -, -, -, -, hrest, hwhole⟩, -, hshown⟩ :=
    r.tryExecute_blocked launch "." ⟨"b/go"⟩ follower (fun _ _ => rfl) .runAll [⟨"a/go"⟩] [⟨"c/go"⟩] s
      legal enterable blocked
  have elsewhere : WritesElsewhere follower := fun _ c _ => .refl c
  have hagree := hshown elsewhere rfl
  simp only [List.singleton_append] at hrest hwhole hagree
  refine ⟨?_, summary, _, hrest, ?_, hwhole⟩
  · -- the runs are compared as they are written, and not carried out
    with_reducible exact hagree
  · exact List.mem_append_right _ List.mem_cons_self

end Runner

end BenchHarness
