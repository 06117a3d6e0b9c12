import BenchHarness.Proofs.Screen

/-!
# Echoes that fail

An echo may fail at any line, on either stream, and go through again at the next one. What is collected
of a process does not depend on that, and of all the echoes of a test that fail one is noted, the first
(`Capture.foldl_receive_journal`). So a test has the outcome that it has where every echo goes through,
and one warning more if one of them did not (`Runner.collect_any_echo`).
-/

namespace BenchHarness

namespace Capture

/-! ## What is noted -/

/-- What the writes that echo some deliveries answer, one answer for each line. -/
def answers (marker : Bytes) : List Delivery → Capture × Console → List (Option IoError)
  | [], _ => []
  | d :: rest, state =>
    let others := answers marker rest (receive marker state d)
    match d.segment with
    | none => others
    | some segment => (state.2.echo d.stream (Lines.trim segment)).1 :: others

/-- The warning about an echo that failed. -/
def warning (error : IoError) : LogRecord :=
  ⟨.warn, .running, "failed to echo test output: " ++ error.message⟩

/-- What is noted about some echoes: the first one that failed. -/
def warnings (answers : List (Option IoError)) : List LogRecord :=
  ((answers.findSome? id).map warning).toList

/-- One warning has been added to a journal if some echo failed, and none otherwise. -/
structure WarnsOnce (answers : List (Option IoError)) (before after : List LogRecord) : Prop where
  silent : (∀ answer ∈ answers, answer = none) → after = before
  once : ∀ error, some error ∈ answers →
    ∃ first, some first ∈ answers ∧ after = before ++ [warning first]

theorem warnsOnce_warnings (answers : List (Option IoError)) (before : List LogRecord) :
    WarnsOnce answers before (before ++ warnings answers) := by
  cases h : answers.findSome? id with
  | none =>
    have passed := List.findSome?_eq_none_iff.mp h
    constructor
    · intro _
      simp [warnings, h]
    · intro error member
      exact absurd (passed _ member) (Option.some_ne_none error)
  | some first =>
    obtain ⟨answer, member, rfl⟩ := List.exists_of_findSome?_eq_some h
    constructor
    · intro passed
      exact absurd (passed _ member) (Option.some_ne_none first)
    · intro error _
      exact ⟨first, member, by simp [warnings, h]⟩

/-- An echo that fails is noted if none has failed before. -/
theorem echo_journal (stream : Stream) (line : Bytes) (c : Capture) (console : Console) :
    let answer := (console.echo stream line).1
    (echo stream line c console).1.echoFailed = (c.echoFailed || answer.isSome) ∧
      (echo stream line c console).2.journal =
        console.journal ++ if c.echoFailed then [] else warnings [answer] := by
  have hwritten := console.journal_write stream (line ++ [Lines.lineEnd])
  unfold echo Console.echo
  generalize console.write stream (line ++ [Lines.lineEnd]) = written at hwritten ⊢
  obtain ⟨answer, written⟩ := written
  replace hwritten : written.journal = console.journal := hwritten
  cases answer with
  | none => simp [hwritten, warnings]
  | some error =>
    cases failed : c.echoFailed with
    | true => simp [hwritten, failed]
    | false => simp [hwritten, Console.journal_note, warnings, warning]

theorem receive_journal (marker : Bytes) (stream : Stream) (segment : Bytes) (c : Capture)
    (console : Console) :
    let answer := (console.echo stream (Lines.trim segment)).1
    let after := receive marker (c, console) ⟨stream, some segment⟩
    after.1.echoFailed = (c.echoFailed || answer.isSome) ∧
      after.2.journal = console.journal ++ if c.echoFailed then [] else warnings [answer] := by
  cases stream with
  | stdout => exact echo_journal .stdout _ { c with markers := _ } console
  | stderr => exact echo_journal .stderr _ c console

/-- Of all echoes that fail the first one is noted, unless one has failed before. -/
theorem foldl_receive_journal (marker : Bytes) (deliveries : List Delivery) :
    ∀ (c : Capture) (console : Console),
      (deliveries.foldl (receive marker) (c, console)).2.journal =
        console.journal ++
          if c.echoFailed then [] else warnings (answers marker deliveries (c, console)) := by
  induction deliveries with
  | nil =>
    intro c console
    simp [answers, warnings]
  | cons d rest ih =>
    intro c console
    rcases d with ⟨stream, _ | segment⟩
    · exact ih c console
    · obtain ⟨hfailed, hjournal⟩ := receive_journal marker stream segment c console
      rw [List.foldl_cons]
      simp only [answers]
      generalize (console.echo stream (Lines.trim segment)).1 = answer at hfailed hjournal ⊢
      generalize receive marker (c, console) ⟨stream, some segment⟩ = after at hfailed hjournal ⊢
      obtain ⟨c', console'⟩ := after
      replace hfailed : c'.echoFailed = _ := hfailed
      replace hjournal : console'.journal = _ := hjournal
      rw [ih, hfailed, hjournal]
      -- once an echo has failed, nothing is noted about the others
      cases c.echoFailed with
      | true => simp
      | false =>
        cases answer with
        | none => simp [warnings]
        | some error => simp [warnings]

/-- Where everything is taken no echo fails. -/
theorem answers_of_takes (marker : Bytes) (deliveries : List Delivery) :
    ∀ {state : Capture × Console}, state.2.Takes →
      ∀ answer ∈ answers marker deliveries state, answer = none := by
  induction deliveries with
  | nil =>
    intro state _ answer member
    cases member
  | cons d rest ih =>
    intro state takes answer member
    have others := @ih (receive marker state d)
      (foldl_receive_kept Console.takes_kept marker [d] takes)
    rcases d with ⟨stream, _ | segment⟩
    · exact others answer member
    · rcases List.mem_cons.mp member with rfl | member
      · cases stream with
        | stdout => exact (takes.stdout.write _).1
        | stderr => exact (takes.stderr.write _).1
      · exact others answer member

end Capture

/-! ## What is collected -/

/-- Two captures hold the same, if perhaps an echo has failed for one of them only. -/
structure Capture.SameOutput (c c' : Capture) : Prop where
  markers : c.markers = c'.markers
  stdout : c.stdout = c'.stdout
  stderr : c.stderr = c'.stderr

/-- What has been collected of two streams does not depend on the console. -/
theorem Collected.sameOutput {marker out err : Bytes} {before after before' after' : Console}
    {c c' : Capture} (collected : Collected marker out err before after c)
    (collected' : Collected marker out err before' after' c') : c.SameOutput c' := by
  constructor
  · rw [collected.markers, collected'.markers]
  · rw [collected.stdout, collected'.stdout]
  · rw [collected.stderr, collected'.stderr]

namespace Reading

variable {marker : Bytes} {out err : List Bytes} {console : Console} {deliveries : List Delivery}
  {s : Reading}

theorem Reads.warnsOnce (reads : Reads marker (start out err console) deliveries s) :
    Capture.WarnsOnce (Capture.answers marker deliveries (.empty, console)) console.journal
      s.console.journal := by
  have hconsole : s.console = (deliveries.foldl (Capture.receive marker) (.empty, console)).2 :=
    congrArg Prod.snd reads.received
  rw [hconsole, Capture.foldl_receive_journal]
  exact Capture.warnsOnce_warnings _ _

/-- A schedule comes to an end, and until then it can go on. -/
theorem Reads.goes_on (reads : Reads marker (start out err console) deliveries s) :
    deliveries.length ≤
        ((Lines.ofBytes out.flatten).length + 1) + ((Lines.ofBytes err.flatten).length + 1) ∧
      (¬ s.Finished → ∃ d s', Step marker s d s') := by
  constructor
  · have hlength := reads.length_add_pending
    have hout : ((start out err console).out.pending .stdout).length =
        (Lines.ofBytes out.flatten).length + 1 := length_pending_start out .stdout
    have herr : ((start out err console).err.pending .stderr).length =
        (Lines.ofBytes err.flatten).length + 1 := length_pending_start err .stderr
    rw [hout, herr] at hlength
    omega
  · intro unfinished
    cases hout : s.out.ended with
    | false => exact ⟨_, _, .stdout hout⟩
    | true =>
      cases herr : s.err.ended with
      | false => exact ⟨_, _, .stderr herr⟩
      | true => exact absurd ⟨hout, herr⟩ unfinished

/-- A finished schedule is one for any other console, too. -/
theorem Reads.exists_other (reads : Reads marker (start out err console) deliveries s)
    (finished : s.Finished) (other : Console) :
    ∃ s', Reads marker (start out err other) deliveries s' ∧ s'.Finished ∧
      s.capture.finish.SameOutput s'.capture.finish := by
  -- what a pipe still has to give says nothing about consoles
  have given : ∀ stream, given stream deliveries =
      ((start out err other).pipe stream).pending stream := by
    intro stream
    rw [reads.finished_iff_given.mp finished stream]
    cases stream <;> rfl
  obtain ⟨s', reads', finished'⟩ : ∃ s', Reads marker (start out err other) deliveries s' ∧
      s'.Finished := exists_reads_iff.mpr given
  exact ⟨s', reads', finished', (reads.exhausted finished).collected.sameOutput
    (reads'.exhausted finished').collected⟩

end Reading

/-! ## Tests -/

namespace Runner

variable {r : Runner} {launch : Launch} {root : String} {entry : Entry}

/-- The warnings in a journal. -/
def warningsIn (journal : List LogRecord) : List LogRecord :=
  journal.filter (·.level = .warn)

theorem warningsIn_append (before after : List LogRecord) :
    warningsIn (before ++ after) = warningsIn before ++ warningsIn after := List.filter_append _ _

theorem warningsIn_warnings (answers : List (Option IoError)) :
    warningsIn (Capture.warnings answers) = Capture.warnings answers := by
  unfold warningsIn Capture.warnings
  cases answers.findSome? id <;> rfl

/-- That a process cannot be killed is no warning. -/
theorem warningsIn_notes (run : ChildRun) : warningsIn run.notes = [] := by
  unfold ChildRun.notes
  split
  · rfl
  · rfl

/-- A test warns about its echoes, and about nothing else. -/
theorem warningsIn_runTest {w : World} {run : ChildRun}
    (started : r.Started launch root entry w.machine run) :
    warningsIn (r.runTest launch root entry w).2.console.journal =
      warningsIn w.console.journal ++
        Capture.warnings (Capture.answers (Utf8.encode r.marker) (Delivery.ofRun run)
          (.empty, w.console.note (announcement root entry))) := by
  obtain ⟨start, inside, files, path, entered, launched⟩ := started
  obtain ⟨machine, console⟩ := w
  have hnoted : (World.mk machine console).note .debug .running
      ("running \x60" ++ entry.path ++ "\x60 in \x60" ++ entry.workingDir root ++ "\x60") =
        ⟨machine, console.note (announcement root entry)⟩ := rfl
  have hannounced : warningsIn (console.note (announcement root entry)).journal =
      warningsIn console.journal := by
    rw [Console.journal_note, warningsIn_append]
    exact List.append_nil _
  simp only [runTest, runInDir, hnoted]
  generalize console.note (announcement root entry) = announced at hannounced ⊢
  have hcollected : (run.collect (Utf8.encode r.marker) announced).2.journal = announced.journal ++
      Capture.warnings (Capture.answers (Utf8.encode r.marker) (Delivery.ofRun run)
        (.empty, announced)) :=
    Capture.foldl_receive_journal _ _ .empty announced
  simp only [World.inDirectory, path, entered, runChild, launched]
  rw [← hannounced, ← warningsIn_warnings, ← warningsIn_append, ← hcollected]
  have hkilled : ∀ collected : Console,
      warningsIn (collected.noteAll run.notes).journal = warningsIn collected.journal := by
    intro collected
    rw [Console.journal_noteAll, warningsIn_append, warningsIn_notes, List.append_nil]
  generalize run.collect (Utf8.encode r.marker) announced = collected
  -- a way back that is missing is an error, not a warning
  cases Machine.changeDir { inside with files := files, now := inside.now + run.duration } start with
  | ok back => exact hkilled collected.2
  | error e =>
    rw [show (World.note _ _ _ _).console = Console.note _ _ from rfl, Console.journal_note,
      warningsIn_append]
    exact (List.append_nil _).trans (hkilled collected.2)

/-- However the echoes of a process go, in whatever schedule its output is read, what is collected is
what is collected in the same schedule where every echo goes through, and one warning tells that some
of them did not. A test whose process was started has the same outcome and leaves the same machine,
nothing goes wrong with it but what goes wrong with its process, and it warns as often. -/
theorem collect_any_echo :
    (∀ (marker : Bytes) (out err : List Bytes) (console : Console) (deliveries : List Delivery)
      (s : Reading), Reading.Reads marker (.start out err console) deliveries s →
        (deliveries.length ≤
            ((Lines.ofBytes out.flatten).length + 1) + ((Lines.ofBytes err.flatten).length + 1) ∧
          (¬ s.Finished → ∃ d s', Reading.Step marker s d s')) ∧
        Capture.WarnsOnce (Capture.answers marker deliveries (.empty, console)) console.journal
          s.console.journal ∧
        (s.Finished → ∀ sound : Console, sound.Takes →
          ∃ s', Reading.Reads marker (.start out err sound) deliveries s' ∧ s'.Finished ∧
            s'.console.journal = sound.journal ∧
            s.capture.finish.SameOutput s'.capture.finish)) ∧
    ∀ (r : Runner) (launch : Launch) (root : String) (entry : Entry) (machine : Machine)
      (run : ChildRun), r.Started launch root entry machine run →
        ∀ console sound : Console, sound.Takes →
          let broken := r.runTest launch root entry ⟨machine, console⟩
          let whole := r.runTest launch root entry ⟨machine, sound⟩
          broken.1 = whole.1 ∧ broken.1.failure = run.failure ∧
          (run.ReadToEnd → run.faults.wait = none → broken.1.failure = none) ∧
          broken.2.machine = whole.2.machine ∧
          Capture.WarnsOnce
            (Capture.answers (Utf8.encode r.marker) (Delivery.ofRun run)
              (.empty, console.note (announcement root entry)))
            (warningsIn console.journal) (warningsIn broken.2.console.journal) ∧
          warningsIn whole.2.console.journal = warningsIn sound.journal := by
  refine ⟨?_, ?_⟩
  · intro marker out err console deliveries s reads
    refine ⟨reads.goes_on, reads.warnsOnce, ?_⟩
    intro finished sound takes
    obtain ⟨s', reads', finished', same⟩ := reads.exists_other finished sound
    exact ⟨s', reads', finished',
      reads'.warnsOnce.silent (Capture.answers_of_takes marker deliveries takes), same⟩
  · intro r launch root entry machine run started console sound takes broken whole
    obtain ⟨houtcome, hmachine⟩ : broken.1 = whole.1 ∧ broken.2.machine = whole.2.machine :=
      r.runTest_congr launch root entry rfl
    have hattempt := (r.runTest_eq_attempt launch root entry ⟨machine, console⟩).1
    have hwarned := warningsIn_runTest (w := ⟨machine, console⟩) started
    have hcalm := warningsIn_runTest (w := ⟨machine, sound⟩) started
    have hfailure : broken.1.failure = run.failure := by
      rw [show broken.1 = _ from hattempt, attempt_of_started started]
      rfl
    refine ⟨houtcome, hfailure, ?_, hmachine, ?_, ?_⟩
    · intro read waited
      rw [hfailure, ChildRun.failure_eq_none_iff]
      exact ⟨read, waited⟩
    · rw [show warningsIn broken.2.console.journal = _ from hwarned]
      exact Capture.warnsOnce_warnings _ _
    · have announced := (takes.prints_note (announcement root entry)).takes
      rw [show warningsIn whole.2.console.journal = _ from hcalm]
      exact (Capture.warnsOnce_warnings _ _).silent
        (Capture.answers_of_takes _ (Delivery.ofRun run) announced)

/-- Every second echo on standard output fails, and every one on standard error: the same is collected as
where none does, and the test passes as it would, with one warning. -/
theorem collect_any_echo_of_every_second :
    let r : Runner := ⟨⟨"sh", []⟩, "ok"⟩
    let files : Files := ⟨.directory 0 [([0x61], .directory 1 [])], [], 2, []⟩
    let child : ChildRun :=
      ⟨[[0x6f], [0x6b, 10, 10], [0x6f, 0x6b]], [[0x62, 10, 0x63]], [.stderr, .stdout], some 0, 7, .none⟩
    let launch : Launch := fun _ files => .ok (child, files)
    let error : IoError := .system .noSpace
    let console : Console := ⟨.flaky fun n => if n % 2 = 0 then none else some error,
      .flaky fun _ => some error, [], fun _ => none⟩
    let machine : Machine := ⟨files, 0, [], 0⟩
    (∃ s s', Reading.Reads (Utf8.encode "ok") (.start child.stdout child.stderr console)
          (Delivery.ofRun child) s ∧
        Reading.Reads (Utf8.encode "ok") (.start child.stdout child.stderr .buffers)
          (Delivery.ofRun child) s' ∧
        s.capture.finish.SameOutput s'.capture.finish ∧
        s.console.journal = [Capture.warning error] ∧ s'.console.journal = []) ∧
      (r.runTest launch "/" ⟨"a/go"⟩ ⟨machine, console⟩).1 =
        ⟨⟨"a/go"⟩, 2, ["ok", "", "ok"], ["b", "c"], some 0, 7, none⟩ ∧
      warningsIn (r.runTest launch "/" ⟨"a/go"⟩ ⟨machine, console⟩).2.console.journal =
        [Capture.warning error] := by
  intro r files child launch error console machine
  have started : r.Started launch "/" ⟨"a/go"⟩ machine child :=
    ⟨[0x2f], { machine with cwd := 1 }, files, rfl, rfl, rfl⟩
  have takes : Console.buffers.Takes := ⟨fun _ _ _ => rfl, fun _ _ _ => rfl⟩
  -- the schedule in which the output of the process is read
  obtain ⟨s, reads, finished, -⟩ := child.reads_collect (Utf8.encode "ok") console
  obtain ⟨-, noted, sound⟩ := collect_any_echo.1 _ _ _ console _ s reads
  obtain ⟨s', reads', -, calm, output⟩ := sound (finished.mpr ⟨rfl, rfl⟩) .buffers takes
  have read : Capture.answers (Utf8.encode "ok") (Delivery.ofRun child) (.empty, console) =
      [some error, none, some error, none, some error] := by decide +kernel
  rw [read] at noted
  obtain ⟨first, member, hnoted⟩ := noted.once error (by simp)
  obtain rfl : first = error := by simpa using member
  refine ⟨⟨s, s', reads, reads', output, hnoted, calm⟩, ?_⟩
  obtain ⟨same, -, -, -, warned, -⟩ :=
    collect_any_echo.2 r launch "/" ⟨"a/go"⟩ machine child started console .buffers takes
  have whole : (r.runTest launch "/" ⟨"a/go"⟩ ⟨machine, .buffers⟩).1 =
      ⟨⟨"a/go"⟩, 2, ["ok", "", "ok"], ["b", "c"], some 0, 7, none⟩ := by decide +kernel
  have answered : Capture.answers (Utf8.encode r.marker) (Delivery.ofRun child)
      (.empty, console.note (announcement "/" ⟨"a/go"⟩)) =
        [some error, none, some error, none, some error] := by decide +kernel
  rw [answered] at warned
  obtain ⟨first, member, hwarned⟩ := warned.once error (by simp)
  obtain rfl : first = error := by simpa using member
  have empty : warningsIn console.journal = [] := rfl
  rw [empty, List.nil_append] at hwarned
  rw [whole] at same
  exact ⟨same, hwarned⟩

end Runner

end BenchHarness
