import BenchHarness.Proofs.Run

/-!
# What tests show

Whoever follows a run may note things in between the tests. The journal of a console is only ever
written to, so consoles that agree up to their journals still do after a test (`runTest_agree`), and
after a run whose follower writes to nothing but the journal both sinks hold what the tests echo one
after another (`Runner.foldl_perform_agree`).
-/

namespace BenchHarness

/-- Consoles that differ in their journals only. -/
structure Console.Agree (c c' : Console) : Prop where
  stdout : c.stdout = c'.stdout
  stderr : c.stderr = c'.stderr
  shown : c.shown = c'.shown

/-- Worlds that differ in the journals of their consoles only. -/
structure World.Agree (w w' : World) : Prop where
  machine : w.machine = w'.machine
  console : w.console.Agree w'.console

/-- A computation gives the same in worlds that agree, and they still agree afterwards. -/
def World.Keeps {α : Type} (act : World → α × World) : Prop :=
  ∀ {w w' : World}, w.Agree w' → (act w).1 = (act w').1 ∧ (act w).2.Agree (act w').2

namespace Console

theorem journal_write (c : Console) (stream : Stream) (data : Bytes) :
    (c.write stream data).2.journal = c.journal := by
  cases stream <;> rfl

theorem journal_note (c : Console) (record : LogRecord) :
    (c.note record).journal = c.journal ++ [record] := by
  unfold note
  simp only []
  cases c.shown record with
  | none => rfl
  | some line => rfl

theorem journal_noteAll (records : List LogRecord) :
    ∀ c : Console, (c.noteAll records).journal = c.journal ++ records := by
  induction records with
  | nil =>
    intro c
    exact (List.append_nil _).symm
  | cons record rest ih =>
    intro c
    have hrest : ((c.note record).noteAll rest).journal = (c.note record).journal ++ rest := ih _
    rw [journal_note, List.append_assoc] at hrest
    exact hrest

theorem Agree.refl (c : Console) : c.Agree c := ⟨rfl, rfl, rfl⟩

theorem Agree.symm {c c' : Console} (agree : c.Agree c') : c'.Agree c :=
  ⟨agree.stdout.symm, agree.stderr.symm, agree.shown.symm⟩

theorem Agree.trans {c c' c'' : Console} (agree : c.Agree c') (agree' : c'.Agree c'') :
    c.Agree c'' :=
  ⟨agree.stdout.trans agree'.stdout, agree.stderr.trans agree'.stderr,
    agree.shown.trans agree'.shown⟩

theorem Agree.write {c c' : Console} (agree : c.Agree c') (stream : Stream) (data : Bytes) :
    (c.write stream data).1 = (c'.write stream data).1 ∧
      (c.write stream data).2.Agree (c'.write stream data).2 := by
  obtain ⟨hout, herr, hshown⟩ := agree
  cases stream with
  | stdout =>
    simp only [Console.write, hout]
    exact ⟨trivial, rfl, herr, hshown⟩
  | stderr =>
    simp only [Console.write, herr]
    exact ⟨trivial, hout, rfl, hshown⟩

theorem Agree.note {c c' : Console} (agree : c.Agree c') (record : LogRecord) :
    (c.note record).Agree (c'.note record) := by
  have hnoted : Console.Agree { c with journal := c.journal ++ [record] }
      { c' with journal := c'.journal ++ [record] } :=
    ⟨agree.stdout, agree.stderr, agree.shown⟩
  have hline : c.shown record = c'.shown record := by rw [agree.shown]
  cases h : c'.shown record with
  | none =>
    simp only [Console.note, hline, h]
    exact hnoted
  | some line =>
    simp only [Console.note, hline, h]
    exact (hnoted.write .stderr line).2

theorem Agree.noteAll (records : List LogRecord) :
    ∀ {c c' : Console}, c.Agree c' → (c.noteAll records).Agree (c'.noteAll records) := by
  induction records with
  | nil => exact fun agree => agree
  | cons record rest ih => exact fun agree => ih (agree.note record)

end Console

/-! ## Collecting -/

theorem Capture.echo_agree {console console' : Console} (agree : console.Agree console')
    (stream : Stream) (line : Bytes) (c : Capture) :
    (c.echo stream line console).1 = (c.echo stream line console').1 ∧
      (c.echo stream line console).2.Agree (c.echo stream line console').2 := by
  obtain ⟨herror, hwritten⟩ := agree.write stream (line ++ [Lines.lineEnd])
  unfold echo Console.echo
  generalize console.write stream (line ++ [Lines.lineEnd]) = written at herror hwritten ⊢
  generalize console'.write stream (line ++ [Lines.lineEnd]) = written' at herror hwritten ⊢
  obtain ⟨error, written⟩ := written
  obtain ⟨error', written'⟩ := written'
  obtain rfl : error = error' := herror
  cases error with
  | none => exact ⟨rfl, hwritten⟩
  | some error =>
    by_cases failed : c.echoFailed
    · simp only [failed, if_true]
      exact ⟨trivial, hwritten⟩
    · simp only [failed]
      exact ⟨rfl, hwritten.note _⟩

theorem Capture.receive_agree {console console' : Console} (agree : console.Agree console')
    (marker : Bytes) (c : Capture) (d : Delivery) :
    (receive marker (c, console) d).1 = (receive marker (c, console') d).1 ∧
      (receive marker (c, console) d).2.Agree (receive marker (c, console') d).2 := by
  rcases d with ⟨stream, _ | segment⟩
  · exact ⟨rfl, agree⟩
  · cases stream with
    | stdout =>
      obtain ⟨hcapture, hconsole⟩ := echo_agree agree .stdout (Lines.trim segment)
        { c with markers := c.markers + Search.occurrences marker (Lines.trim segment) }
      simp only [receive, hcapture]
      exact ⟨trivial, hconsole⟩
    | stderr =>
      obtain ⟨hcapture, hconsole⟩ := echo_agree agree .stderr (Lines.trim segment) c
      simp only [receive, hcapture]
      exact ⟨trivial, hconsole⟩

theorem Capture.foldl_receive_agree (marker : Bytes) (deliveries : List Delivery) :
    ∀ (c : Capture) {console console' : Console}, console.Agree console' →
      (deliveries.foldl (receive marker) (c, console)).1 =
          (deliveries.foldl (receive marker) (c, console')).1 ∧
        (deliveries.foldl (receive marker) (c, console)).2.Agree
          (deliveries.foldl (receive marker) (c, console')).2 := by
  induction deliveries with
  | nil =>
    intro c console console' agree
    exact ⟨rfl, agree⟩
  | cons d rest ih =>
    intro c console console' agree
    obtain ⟨hcapture, hconsole⟩ := receive_agree agree marker c d
    rw [List.foldl_cons, List.foldl_cons]
    generalize receive marker (c, console) d = received at hcapture hconsole ⊢
    generalize receive marker (c, console') d = received' at hcapture hconsole ⊢
    obtain ⟨c₁, console₁⟩ := received
    obtain ⟨c₁', console₁'⟩ := received'
    obtain rfl : c₁ = c₁' := hcapture
    exact ih c₁ hconsole

theorem ChildRun.collect_agree (run : ChildRun) (marker : Bytes) {console console' : Console}
    (agree : console.Agree console') :
    (run.collect marker console).1 = (run.collect marker console').1 ∧
      (run.collect marker console).2.Agree (run.collect marker console').2 := by
  obtain ⟨hcapture, hconsole⟩ :=
    Capture.foldl_receive_agree marker (Delivery.ofRun run) .empty agree
  exact ⟨congrArg Capture.finish hcapture, hconsole⟩

/-! ## Running -/

namespace World

theorem Agree.note {w w' : World} (agree : w.Agree w') (level : Level) (topic : Topic)
    (message : String) : (w.note level topic message).Agree (w'.note level topic message) :=
  ⟨agree.machine, agree.console.note _⟩

theorem Agree.withMachine {w w' : World} (agree : w.Agree w') (m : Machine) :
    World.Agree { w with machine := m } { w' with machine := m } := ⟨rfl, agree.console⟩

/-- Going to a directory and back does not look at the console. -/
theorem inDirectory_keeps {α : Type} (dir : String) {act : World → α × World}
    (keeps : Keeps act) : Keeps (inDirectory dir act) := by
  intro w w' agree
  unfold inDirectory
  rw [agree.machine]
  cases w'.machine.currentDir with
  | error e => exact ⟨rfl, agree⟩
  | ok start =>
    cases w'.machine.changeDir (Utf8.encode dir) with
    | error e => exact ⟨rfl, agree⟩
    | ok inside =>
      obtain ⟨hresult, hafter⟩ := keeps (agree.withMachine inside)
      simp only [hresult, hafter.machine]
      cases (act { w' with machine := inside }).2.machine.changeDir start with
      | ok back => exact ⟨rfl, hafter.withMachine back⟩
      | error e => exact ⟨rfl, hafter.note _ _ _⟩

end World

namespace Runner

variable {ε κ : Type} (r : Runner) (launch : Launch) (root : String)

theorem runChild_keeps (entry : Entry) (testDir : String) :
    World.Keeps (r.runChild launch entry testDir) := by
  intro w w' agree
  unfold runChild
  rw [agree.machine]
  cases launch (r.command entry testDir w'.machine) w'.machine.files with
  | error e => exact ⟨rfl, agree⟩
  | ok left =>
    obtain ⟨hcapture, hconsole⟩ := left.1.collect_agree (Utf8.encode r.marker) agree.console
    simp only [hcapture]
    exact ⟨trivial, rfl, hconsole.noteAll _⟩

theorem runTest_agree (entry : Entry) : World.Keeps (r.runTest launch root entry) := by
  intro w w' agree
  have hnoted := agree.note .debug .running
    ("running \x60" ++ entry.path ++ "\x60 in \x60" ++ entry.workingDir root ++ "\x60")
  unfold runTest runInDir
  generalize w.note .debug .running _ = noted at hnoted ⊢
  generalize w'.note .debug .running _ = noted' at hnoted ⊢
  obtain ⟨hresult, hafter⟩ := World.inDirectory_keeps (entry.workingDir root)
    (r.runChild_keeps launch entry (testDir noted'.machine (entry.workingDir root))) hnoted
  simp only [hnoted.machine, agree.machine, hresult, hafter.machine]
  exact ⟨trivial, hafter⟩

theorem runEach_agree (entries : List Entry) : World.Keeps (r.runEach launch root entries) := by
  induction entries with
  | nil =>
    intro w w' agree
    exact ⟨rfl, agree⟩
  | cons entry rest ih =>
    intro w w' agree
    obtain ⟨hfirst, hafter⟩ := r.runTest_agree launch root entry agree
    obtain ⟨hothers, hlast⟩ := ih hafter
    refine ⟨?_, hlast⟩
    show _ :: _ = _ :: _
    rw [hfirst, hothers]

/-- A follower that writes to nothing but the journal. -/
def WritesElsewhere (follower : Follower ε κ) : Prop :=
  ∀ e c k, Console.Agree c (follower e (c, k)).1.1

/-- The sinks after some deeds hold what their tests show one after another, if the follower writes
elsewhere. -/
theorem foldl_perform_agree {follower : Follower ε κ} (elsewhere : WritesElsewhere follower)
    (deeds : List Deed) :
    ∀ s : RunState κ, World.Agree (deeds.foldl (r.perform launch root follower) s).world
      (r.runEach launch root (tested deeds) s.world).2 := by
  induction deeds with
  | nil =>
    intro s
    exact ⟨rfl, .refl _⟩
  | cons deed deeds ih =>
    intro s
    cases deed with
    | test entry => exact ih _
    | tell e =>
      have htold : World.Agree (tell follower e s).1.world s.world :=
        ⟨rfl, (elsewhere e s.world.console s.follower).symm⟩
      have hrest := ih (r.perform launch root follower s (.tell e))
      have hsame := (r.runEach_agree launch root (tested deeds) htold).2
      exact ⟨hrest.machine.trans hsame.machine, hrest.console.trans hsame.console⟩

end Runner

end BenchHarness
