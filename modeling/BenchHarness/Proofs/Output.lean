import BenchHarness.CommandLine.Basic
import BenchHarness.Proofs.Run

/-!
# Output that can be written

What a test shows goes to a console by writing and noting only, so whatever both keep true of a
console is kept true by a test (`Runner.runTest_kept`). Taking everything on standard output is such
a thing, and as long as it holds no listing and no report fails (`CommandLine.reporter_quiet`).
-/

namespace BenchHarness

/-- Something about consoles that neither writing nor noting changes. -/
structure Console.Kept (P : Console → Prop) : Prop where
  write : ∀ {c : Console} (stream : Stream) (data : Bytes), P c → P (c.write stream data).2
  note : ∀ {c : Console} (record : LogRecord), P c → P (c.note record)

theorem Console.noteAll_concat (c : Console) (records : List LogRecord) (record : LogRecord) :
    c.noteAll (records ++ [record]) = (c.noteAll records).note record := by
  simp [noteAll]

section

variable {P : Console → Prop} (kept : Console.Kept P)

include kept

theorem Console.noteAll_kept (records : List LogRecord) :
    ∀ {c : Console}, P c → P (c.noteAll records) := by
  induction records with
  | nil =>
    intro c h
    exact h
  | cons record rest ih =>
    intro c h
    exact ih (kept.note record h)

theorem Capture.echo_kept {console : Console} (h : P console) (stream : Stream) (line : Bytes)
    (c : Capture) : P (c.echo stream line console).2 := by
  have hwritten := kept.write stream (line ++ [Lines.lineEnd]) h
  unfold echo Console.echo
  generalize console.write stream (line ++ [Lines.lineEnd]) = written at hwritten ⊢
  obtain ⟨_ | error, written⟩ := written
  · exact hwritten
  · by_cases failed : c.echoFailed
    · simp only [failed, if_true]
      exact hwritten
    · simp only [failed]
      exact kept.note _ hwritten

theorem Capture.foldl_receive_kept (marker : Bytes) (deliveries : List Delivery) :
    ∀ {state : Capture × Console}, P state.2 → P (deliveries.foldl (receive marker) state).2 := by
  induction deliveries with
  | nil =>
    intro state h
    exact h
  | cons d rest ih =>
    intro state h
    refine ih ?_
    obtain ⟨c, console⟩ := state
    rcases d with ⟨stream, _ | segment⟩
    · exact h
    · cases stream with
      | stdout => exact echo_kept kept h _ _ _
      | stderr => exact echo_kept kept h _ _ _

theorem World.inDirectory_kept {α : Type} {dir : String} {act : World → α × World}
    (hact : ∀ w : World, P w.console → P (act w).2.console) {w : World} (h : P w.console) :
    P (w.inDirectory dir act).2.console := by
  unfold inDirectory
  cases w.machine.currentDir with
  | error e => exact h
  | ok start =>
    cases w.machine.changeDir (Utf8.encode dir) with
    | error e => exact h
    | ok inside =>
      have hafter := hact { w with machine := inside } h
      simp only []
      cases (act { w with machine := inside }).2.machine.changeDir start with
      | ok back => exact hafter
      | error e => exact kept.note _ hafter

theorem Runner.runChild_kept (r : Runner) (launch : Launch) (entry : Entry) (testDir : String)
    {w : World} (h : P w.console) : P (r.runChild launch entry testDir w).2.console := by
  unfold runChild
  cases launch (r.command entry testDir w.machine) w.machine.files with
  | error e => exact h
  | ok left => exact Console.noteAll_kept kept _ (Capture.foldl_receive_kept kept _ _ h)

/-- A test keeps what writing and noting keep. -/
theorem Runner.runTest_kept (r : Runner) (launch : Launch) (root : String) (entry : Entry)
    {w : World} (h : P w.console) : P (r.runTest launch root entry w).2.console := by
  unfold runTest runInDir
  generalize hnoted : w.note .debug .running _ = noted
  have hkept : P noted.console := by
    rw [← hnoted]
    exact kept.note _ h
  simp only []
  exact World.inDirectory_kept kept (fun _ => r.runChild_kept kept launch entry _) hkept

end

/-! ## Sinks that take everything -/

/-- A sink takes everything that is written to it. -/
def Sink.Takes (s : Sink) : Prop := ∀ writes size data, s.rule writes size data = none

theorem Sink.Takes.write {s : Sink} (takes : s.Takes) (data : Bytes) :
    (s.write data).1 = none ∧ (s.write data).2.Takes ∧
      (s.write data).2.contents = s.contents ++ data := by
  have hwrite : s.write data = (none, { s with
      writes := s.writes + 1, size := s.size + data.length, pieces := data :: s.pieces }) := by
    rw [Sink.write, takes]
  rw [hwrite]
  refine ⟨rfl, takes, ?_⟩
  simp [contents]

/-! ## Standard output -/

/-- Everything that is written on standard output is taken. -/
def Console.Writable (c : Console) : Prop := ∀ writes size data, c.stdout.rule writes size data = none

namespace Console

theorem stdout_rule_write (c : Console) (stream : Stream) (data : Bytes) :
    (c.write stream data).2.stdout.rule = c.stdout.rule := by
  cases stream with
  | stderr => rfl
  | stdout =>
    show (c.stdout.write data).2.rule = _
    unfold Sink.write
    split <;> rfl

theorem stdout_rule_note (c : Console) (record : LogRecord) :
    (c.note record).stdout.rule = c.stdout.rule := by
  unfold note
  simp only []
  cases c.shown record with
  | none => rfl
  | some line => exact stdout_rule_write _ .stderr line

theorem writable_kept : Kept Writable := by
  constructor
  · intro c stream data h
    unfold Writable
    rw [stdout_rule_write]
    exact h
  · intro c record h
    unfold Writable
    rw [stdout_rule_note]
    exact h

theorem Writable.write_eq_none {c : Console} (writable : c.Writable) (data : Bytes) :
    (c.write .stdout data).1 = none := by
  show (c.stdout.write data).1 = none
  rw [Sink.write, writable]

end Console

/-! ## Buffered writing -/

/-- Writing never fails on a console whose standard output takes everything, and leaves it so. -/
def Buffered.Succeeds {ε : Type} (act : Buffered → Option ε × Buffered) : Prop :=
  ∀ b : Buffered, b.console.Writable → (act b).1 = none ∧ (act b).2.console.Writable

namespace Buffered

theorem flush_succeeds : Succeeds flush := by
  intro b writable
  unfold flush
  by_cases hempty : b.pending = []
  · rw [if_pos hempty]
    exact ⟨rfl, writable⟩
  · rw [if_neg hempty]
    have hnone := writable.write_eq_none b.pending
    have hkept := Console.writable_kept.write .stdout b.pending writable
    generalize b.console.write .stdout b.pending = written at hnone hkept ⊢
    obtain ⟨error, console⟩ := written
    obtain rfl : error = none := hnone
    exact ⟨rfl, hkept⟩

theorem put_succeeds (data : Bytes) : Succeeds (put data) := by
  intro b writable
  unfold put write
  split
  · exact ⟨rfl, writable⟩
  · obtain ⟨hnone, hkept⟩ := flush_succeeds b writable
    generalize b.flush = flushed at hnone hkept ⊢
    obtain ⟨error, b'⟩ := flushed
    obtain rfl : error = none := hnone
    simp only []
    split
    · exact ⟨rfl, hkept⟩
    · exact ⟨hkept.write_eq_none data, Console.writable_kept.write .stdout data hkept⟩

theorem close_writable {b : Buffered} (writable : b.console.Writable) : b.close.Writable :=
  (flush_succeeds b writable).2

theorem all_succeeds (pieces : List Bytes) : Succeeds (Put.all put pieces) := by
  induction pieces with
  | nil =>
    intro b writable
    exact ⟨rfl, writable⟩
  | cons data rest ih =>
    intro b writable
    obtain ⟨hnone, hkept⟩ := put_succeeds data b writable
    unfold Put.all
    generalize put data b = result at hnone hkept ⊢
    obtain ⟨error, b'⟩ := result
    obtain rfl : error = none := hnone
    exact ih b' hkept

end Buffered

open Buffered

theorem Report.write_succeeds (text : Styled) : Succeeds (Report.write put text) := by
  intro b writable
  obtain ⟨hnone, hkept⟩ := all_succeeds (text.map fun span => Utf8.encode span.render) b writable
  unfold Report.write
  exact ⟨by simp [hnone], hkept⟩

theorem TestList.writeJson_succeeds (text : String) : Succeeds (TestList.writeJson put text) := by
  intro b writable
  obtain ⟨hnone, hkept⟩ := put_succeeds (Utf8.encode text) b writable
  unfold writeJson
  generalize put (Utf8.encode text) b = result at hnone hkept ⊢
  generalize Utf8.encode "\n" = lineEnd
  obtain ⟨error, b'⟩ := result
  obtain rfl : error = none := hnone
  obtain ⟨hnone', hkept'⟩ := put_succeeds lineEnd b' hkept
  exact ⟨by simp [hnone'], hkept'⟩

theorem TestList.write_succeeds (list : TestList) (theme : Theme) (format : ListFormat) :
    Succeeds (list.write put theme format) := by
  cases format with
  | plain =>
    show Succeeds (Report.write put (Report.testList theme list))
    exact Report.write_succeeds _
  | json =>
    show Succeeds (writeJson put (list.manifest.text .compact))
    exact writeJson_succeeds _
  | jsonPretty =>
    show Succeeds (writeJson put (list.manifest.text .indented))
    exact writeJson_succeeds _

namespace CommandLine

theorem writeOut_succeeds {write : Buffered → Option WriteError × Buffered}
    (succeeds : Succeeds write) {console : Console} (writable : console.Writable) :
    (writeOut write console).1 = none ∧ (writeOut write console).2.Writable := by
  obtain ⟨hnone, hkept⟩ := succeeds (.ofConsole console) writable
  unfold writeOut
  generalize write (.ofConsole console) = result at hnone hkept ⊢
  obtain ⟨error, b⟩ := result
  obtain rfl : error = none := hnone
  obtain ⟨hnone', hkept'⟩ := flush_succeeds b hkept
  exact ⟨by simp [hnone'], close_writable hkept'⟩

/-- A reporter does not object as long as its output is taken. -/
theorem reporter_quiet (theme : Theme) (e : Event) {console : Console} (pending : Bytes)
    (writable : console.Writable) :
    (reporter theme e (console, pending)).2 = none ∧
      (reporter theme e (console, pending)).1.1.Writable := by
  obtain ⟨hnone, hkept⟩ := Report.write_succeeds (Report.event theme e) ⟨console, pending⟩ writable
  unfold reporter Report.writeEvent
  simp only []
  generalize Report.write put (Report.event theme e) ⟨console, pending⟩ = result at hnone hkept ⊢
  obtain ⟨error, b⟩ := result
  obtain rfl : error = none := hnone
  obtain ⟨hnone', hkept'⟩ := flush_succeeds b hkept
  exact ⟨by simp [hnone'], hkept'⟩

end CommandLine

end BenchHarness
