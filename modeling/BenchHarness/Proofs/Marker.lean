import BenchHarness.Proofs.Attempt
import BenchHarness.Proofs.Summary
import BenchHarness.Proofs.Utf8

/-!
# The success marker

The marker of a runner is a text, and it is looked for in trimmed lines. For a marker that a line
can hold, neither of this shows: what is counted in a test is the largest number of occurrences of
the marker's bytes on standard output that do not overlap (`Runner.isGreatest_markers`).
-/

namespace BenchHarness

namespace Utf8

/-- A text without line ends has none in its bytes. -/
theorem lineEnd_not_mem_encode {s : String} (noEnd : '\n' ∉ s.toList) :
    Lines.lineEnd ∉ encode s := by
  have hbyte : Lines.lineEnd = asciiByte '\n' := by decide
  rw [hbyte, mem_encode_iff (by decide)]
  exact noEnd

/-- A text that does not end with a carriage return does not do so in its bytes. -/
theorem getLast?_encode_ne_carriageReturn {s : String} (noReturn : s.toList.getLast? ≠ some '\r') :
    (encode s).getLast? ≠ some Lines.carriageReturn := by
  have hbyte : Lines.carriageReturn = asciiByte '\r' := by decide
  rw [hbyte, Ne, getLast?_encode_eq_iff (by decide)]
  exact noReturn

end Utf8

/-- A test whose process was started has passed if nothing went wrong and the marker was counted. -/
theorem Outcome.passed_ofRun (marker : Bytes) (entry : Entry) (run : ChildRun) :
    (Outcome.ofRun marker entry run).passed = true ↔
      run.failure = none ∧ 0 < Capture.countIn marker (run.segments .stdout) :=
  Outcome.passed_iff _

/-- A test whose process was read to the end and waited for has passed if the marker was counted. -/
theorem Outcome.passed_ofRun_of_read (marker : Bytes) (entry : Entry) {run : ChildRun}
    (read : run.ReadToEnd) (waited : run.faults.wait = none) :
    (Outcome.ofRun marker entry run).passed = true ↔
      0 < Capture.countIn marker (Lines.segments run.stdout) := by
  rw [passed_ofRun, read.segments_eq, ChildRun.chunks]
  exact and_iff_right (run.failure_eq_none_iff.mpr ⟨read, waited⟩)

namespace Runner

variable {r : Runner} {launch : Launch} {root : String} {entry : Entry}

/-- However the standard output of a process is cut into chunks and lines, and whatever comes in
between on standard error, if both are read to the end then the markers counted are as many as can be
found on it without overlap; and the test passes if there are any, since the process is waited for. -/
theorem isGreatest_markers (w : World) {run : ChildRun}
    (started : r.Started launch root entry w.machine run) (read : run.ReadToEnd)
    (nonempty : r.marker ≠ "") (noEnd : '\n' ∉ r.marker.toList)
    (noReturn : r.marker.toList.getLast? ≠ some '\r') :
    let marker := Utf8.encode r.marker
    let outcome := (r.runTest launch root entry w).1
    IsGreatest {n | ∃ P, Search.Packing marker run.stdout.flatten P ∧ P.card = n}
        outcome.markers ∧
      outcome.markers = Capture.countIn marker (Lines.segments run.stdout) ∧
      outcome.markers = Search.occurrences marker run.stdout.flatten ∧
      (run.faults.wait = none → (outcome.passed = true ↔ marker <:+: run.stdout.flatten)) := by
  intro marker outcome
  have hne : marker ≠ [] := fun h => nonempty ((Utf8.encode_eq_nil_iff r.marker).mp h)
  have houtcome : outcome = .ofRun marker entry run := by
    show (r.runTest launch root entry w).1 = _
    rw [(r.runTest_eq_attempt launch root entry w).1, attempt_of_started started]
  have hcount : Capture.countIn marker (Lines.segments run.stdout) =
      Search.occurrences marker run.stdout.flatten :=
    Lines.sum_occurrences_trim hne (Utf8.lineEnd_not_mem_encode noEnd)
      (Utf8.getLast?_encode_ne_carriageReturn noReturn) run.stdout
  have hlines : outcome.markers = Capture.countIn marker (Lines.segments run.stdout) := by
    rw [houtcome, Outcome.ofRun, read.segments_eq, ChildRun.chunks]
  have hmarkers : outcome.markers = Search.occurrences marker run.stdout.flatten :=
    hlines.trans hcount
  refine ⟨?_, hlines, hmarkers, ?_⟩
  · rw [hmarkers]
    exact Search.isGreatest_occurrences hne run.stdout.flatten
  · intro waited
    rw [houtcome, Outcome.passed_ofRun_of_read marker entry read waited, hcount]
    exact Search.occurrences_pos_iff hne run.stdout.flatten

/-- A marker that overlaps itself, on lines that the chunks cut through. -/
theorem isGreatest_markers_overlapping :
    let r : Runner := ⟨⟨"sh", []⟩, "aba"⟩
    let run : ChildRun :=
      ⟨[[0x78, 0x61, 0x62], [0x61, 0x62, 0x61, 0x0d, 0x0a, 0x61], [0x62, 0x61]], [], [.stderr],
        some 3, 7, .none⟩
    let launch : Launch := fun _ files => .ok (run, files)
    let w : World := ⟨⟨⟨.directory 0 [([0x74], .directory 1 [])], [], 2, []⟩, 0, [], 0⟩, .buffers⟩
    IsGreatest {n | ∃ P, Search.Packing (Utf8.encode "aba") run.stdout.flatten P ∧ P.card = n} 2 ∧
      (r.runTest launch "/" ⟨"t/go.sh"⟩ w).1.passed = true := by
  intro r run launch w
  have started : r.Started launch "/" ⟨"t/go.sh"⟩ w.machine run := ⟨_, _, _, rfl, rfl, rfl⟩
  obtain ⟨greatest, -, hmarkers, hpassed⟩ :=
    isGreatest_markers w started ⟨rfl, rfl⟩ (by decide) (by decide) (by decide)
  have hcount : Search.occurrences (Utf8.encode "aba") run.stdout.flatten = 2 := by decide
  rw [hmarkers] at greatest
  exact ⟨hcount ▸ greatest,
    (hpassed rfl).mpr ⟨[0x78], [0x62, 0x61, 0x0d, 0x0a, 0x61, 0x62, 0x61], by decide⟩⟩

end Runner

end BenchHarness
