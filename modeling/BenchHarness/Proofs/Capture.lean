import BenchHarness.Proofs.Lines
import BenchHarness.Run.Collect

/-!
# What is collected from a process

The deliveries of two streams may come in any order, and an echo may fail at any of them. What has
been collected depends on neither: after every delivery it is what the segments of each stream give
by themselves (`Capture.Tallied`), and merging leaves the deliveries of a stream as they were
(`Delivery.filter_offered`). Reading a stream may fail as well. What has been read until then is the
front of both streams (`ChildRun.segments_prefix`), and all of them if nothing fails
(`ChildRun.ReadToEnd.segments_eq`).
-/

namespace BenchHarness

namespace Delivery

/-- The segments of a stream among some deliveries. -/
def segmentsOf (stream : Stream) (deliveries : List Delivery) : List Bytes :=
  (deliveries.filter (·.stream = stream)).filterMap (·.segment)

theorem segmentsOf_append (stream : Stream) (before after : List Delivery) :
    segmentsOf stream (before ++ after) = segmentsOf stream before ++ segmentsOf stream after := by
  simp [segmentsOf]

/-! ## Merging -/

/-- Merging keeps the deliveries of the first stream and their order. -/
theorem filter_merge_out {p : Delivery → Bool} {err : List Delivery} (order : List Stream)
    (out : List Delivery) (hout : ∀ d ∈ out, p d = true) (herr : ∀ d ∈ err, p d = false) :
    (merge order out err).filter p = out := by
  induction order, out, err using merge.induct with
  | case1 out err =>
    have hnone : err.filter p = [] := by simpa [List.filter_eq_nil_iff] using herr
    rw [merge, List.filter_append, List.filter_eq_self.mpr hout, hnone, List.append_nil]
  | case2 order d out err ih =>
    rw [merge, List.filter_cons_of_pos (hout d List.mem_cons_self),
      ih (fun e he => hout e (List.mem_cons_of_mem d he)) herr]
  | case3 order out d err ih =>
    have hd : ¬ p d = true := by simp [herr d List.mem_cons_self]
    rw [merge, List.filter_cons_of_neg hd]
    exact ih hout fun e he => herr e (List.mem_cons_of_mem d he)
  | case4 order err ih =>
    rw [merge]
    exact ih hout herr
  | case5 order out ih =>
    rw [merge]
    exact ih hout herr

/-- Merging keeps the deliveries of the second stream and their order. -/
theorem filter_merge_err {p : Delivery → Bool} {out : List Delivery} (order : List Stream)
    (err : List Delivery) (hout : ∀ d ∈ out, p d = false) (herr : ∀ d ∈ err, p d = true) :
    (merge order out err).filter p = err := by
  induction order, out, err using merge.induct with
  | case1 out err =>
    have hnone : out.filter p = [] := by simpa [List.filter_eq_nil_iff] using hout
    rw [merge, List.filter_append, List.filter_eq_self.mpr herr, hnone, List.nil_append]
  | case2 order d out err ih =>
    have hd : ¬ p d = true := by simp [hout d List.mem_cons_self]
    rw [merge, List.filter_cons_of_neg hd]
    exact ih (fun e he => hout e (List.mem_cons_of_mem d he)) herr
  | case3 order out d err ih =>
    rw [merge, List.filter_cons_of_pos (herr d List.mem_cons_self),
      ih hout (fun e he => herr e (List.mem_cons_of_mem d he))]
  | case4 order err ih =>
    rw [merge]
    exact ih hout herr
  | case5 order out ih =>
    rw [merge]
    exact ih hout herr

theorem stream_of_mem_ofSegments {stream : Stream} {segments : List Bytes} {d : Delivery}
    (hd : d ∈ ofSegments stream segments) : d.stream = stream := by
  rcases List.mem_append.mp hd with hd | hd
  · obtain ⟨segment, -, rfl⟩ := List.mem_map.mp hd
    rfl
  · rw [List.mem_singleton.mp hd]

theorem filterMap_segment_ofSegments (stream : Stream) (segments : List Bytes) :
    (ofSegments stream segments).filterMap (·.segment) = segments := by
  simp [ofSegments, List.filterMap_map]

theorem stream_of_mem_ofStream {run : ChildRun} {stream : Stream} {d : Delivery}
    (hd : d ∈ ofStream run stream) : d.stream = stream := stream_of_mem_ofSegments hd

/-- The deliveries of a stream are offered in their order, whatever comes in between. -/
theorem filter_offered (run : ChildRun) (stream : Stream) :
    (offered run).filter (·.stream = stream) = ofStream run stream := by
  cases stream with
  | stdout =>
    refine filter_merge_out run.order _ ?_ ?_
    · intro d hd
      simp [stream_of_mem_ofStream hd]
    · intro d hd
      simp [stream_of_mem_ofStream hd]
  | stderr =>
    refine filter_merge_err run.order _ ?_ ?_
    · intro d hd
      simp [stream_of_mem_ofStream hd]
    · intro d hd
      simp [stream_of_mem_ofStream hd]

/-! ## Where reading stops -/

theorem failure?_of_segment {d : Delivery} {segment : Bytes} (h : d.segment = some segment)
    (faults : Faults) : failure? faults d = none := by
  rw [failure?, h]

theorem failure?_end (faults : Faults) (stream : Stream) :
    failure? faults ⟨stream, none⟩ = none ↔ faults.reading stream = none := by
  cases stream with
  | stdout => exact Option.map_eq_none_iff
  | stderr => exact Option.map_eq_none_iff

/-- Nothing that is taken is a failure. -/
theorem failure?_of_mem_ofRun {run : ChildRun} {d : Delivery} (hd : d ∈ ofRun run) :
    failure? run.faults d = none := by
  simpa using List.mem_takeWhile_imp hd

theorem end_mem_offered (run : ChildRun) (stream : Stream) : ⟨stream, none⟩ ∈ offered run := by
  have hmem : (⟨stream, none⟩ : Delivery) ∈ (offered run).filter (·.stream = stream) := by
    rw [filter_offered]
    exact List.mem_append_right _ List.mem_cons_self
  exact (List.mem_filter.mp hmem).1

/-- The deliveries of a stream that are taken are the first ones of the whole stream. -/
theorem filter_ofRun_prefix (run : ChildRun) (stream : Stream) :
    (ofRun run).filter (·.stream = stream) <+:
      ofSegments stream (Lines.segments (run.chunks stream)) := by
  have taken : (ofRun run).filter (·.stream = stream) <+: (offered run).filter (·.stream = stream) :=
    (List.takeWhile_prefix _).filter _
  rw [filter_offered, ofStream] at taken
  cases hfault : run.faults.reading stream with
  | none =>
    rw [hfault] at taken
    exact taken
  | some e =>
    rw [hfault, Option.isNone_some, if_neg Bool.false_ne_true, ofSegments] at taken
    -- the failure is not taken, so what is taken are segments that line ends close
    rcases List.prefix_concat_iff.mp taken with whole | before
    · have hend : (⟨stream, none⟩ : Delivery) ∈ (ofRun run).filter (·.stream = stream) := by
        rw [whole]
        exact List.mem_append_right _ List.mem_cons_self
      have sound := failure?_of_mem_ofRun (List.mem_filter.mp hend).1
      rw [failure?_end, hfault] at sound
      cases sound
    · exact (before.trans ((Lines.complete_prefix _).map _)).trans (List.prefix_append _ _)

end Delivery

namespace ChildRun

variable (run : ChildRun)

/-- Both streams of a process are read to their ends. -/
structure ReadToEnd : Prop where
  stdout : run.faults.stdout = none
  stderr : run.faults.stderr = none

variable {run}

theorem ReadToEnd.reading (read : run.ReadToEnd) (stream : Stream) :
    run.faults.reading stream = none := by
  cases stream with
  | stdout => exact read.stdout
  | stderr => exact read.stderr

variable (run)

theorem readFailure_eq_none_iff : run.readFailure = none ↔ run.ReadToEnd := by
  rw [readFailure, List.findSome?_eq_none_iff]
  constructor
  · intro h
    exact ⟨(Delivery.failure?_end run.faults .stdout).mp (h _ (Delivery.end_mem_offered run .stdout)),
      (Delivery.failure?_end run.faults .stderr).mp (h _ (Delivery.end_mem_offered run .stderr))⟩
  · rintro read ⟨stream, _ | segment⟩ -
    · exact (Delivery.failure?_end run.faults stream).mpr (read.reading stream)
    · exact Delivery.failure?_of_segment rfl run.faults

/-- Nothing goes wrong with a process exactly if it is read to the end and waited for. -/
theorem failure_eq_none_iff : run.failure = none ↔ run.ReadToEnd ∧ run.faults.wait = none := by
  rw [failure, Option.or_eq_none_iff, readFailure_eq_none_iff, Option.map_eq_none_iff]

/-- What goes wrong with a process that was started is neither that its directory could not be entered
nor that it could not be started. -/
theorem failure_cases {f : Failure} (failed : run.failure = some f) :
    ∃ e, f = .readStdout e ∨ f = .readStderr e ∨ f = .wait e := by
  rw [failure, Option.or_eq_some_iff] at failed
  rcases failed with reading | ⟨-, waiting⟩
  · obtain ⟨⟨stream, _ | segment⟩, -, hd⟩ := List.exists_of_findSome?_eq_some reading
    · cases stream with
      | stdout =>
        obtain ⟨e, -, rfl⟩ := Option.map_eq_some_iff.mp hd
        exact ⟨e, .inl rfl⟩
      | stderr =>
        obtain ⟨e, -, rfl⟩ := Option.map_eq_some_iff.mp hd
        exact ⟨e, .inr (.inl rfl)⟩
    · rw [Delivery.failure?_of_segment rfl] at hd
      cases hd
  · obtain ⟨e, -, rfl⟩ := Option.map_eq_some_iff.mp waiting
    exact ⟨e, .inr (.inr rfl)⟩

/-- The segments of a stream that are read. -/
def segments (stream : Stream) : List Bytes :=
  Delivery.segmentsOf stream (Delivery.ofRun run)

/-- What is read of a stream is the front of what arrives, cut into segments. -/
theorem segments_prefix (stream : Stream) :
    run.segments stream <+: Lines.segments (run.chunks stream) := by
  have taken := (Delivery.filter_ofRun_prefix run stream).filterMap (·.segment)
  rwa [Delivery.filterMap_segment_ofSegments] at taken

variable {run}

/-- A process that is read to the end offers nothing that is not taken. -/
theorem ReadToEnd.ofRun_eq (read : run.ReadToEnd) : Delivery.ofRun run = Delivery.offered run := by
  rw [Delivery.ofRun, List.takeWhile_eq_self_iff]
  intro d hd
  have sound := List.findSome?_eq_none_iff.mp (run.readFailure_eq_none_iff.mpr read) d hd
  rw [sound, Option.isNone_none]

/-- Of a process that is read to the end the whole of each stream is taken. -/
theorem ReadToEnd.filter_ofRun (read : run.ReadToEnd) (stream : Stream) :
    (Delivery.ofRun run).filter (·.stream = stream) =
      Delivery.ofSegments stream (Lines.segments (run.chunks stream)) := by
  rw [read.ofRun_eq, Delivery.filter_offered, Delivery.ofStream, read.reading]
  rfl

/-- Of a process that is read to the end each stream is read as it was cut. -/
theorem ReadToEnd.segments_eq (read : run.ReadToEnd) (stream : Stream) :
    run.segments stream = Lines.segments (run.chunks stream) := by
  rw [segments, Delivery.segmentsOf, read.filter_ofRun, Delivery.filterMap_segment_ofSegments]

variable (run)

/-- A process is read to the end exactly if the whole of each stream is taken. -/
theorem readToEnd_iff : run.ReadToEnd ↔ ∀ stream,
    (Delivery.ofRun run).filter (·.stream = stream) =
      Delivery.ofSegments stream (Lines.segments (run.chunks stream)) := by
  constructor
  · exact fun read stream => read.filter_ofRun stream
  · intro whole
    have sound : ∀ stream, run.faults.reading stream = none := by
      intro stream
      have hend : (⟨stream, none⟩ : Delivery) ∈ (Delivery.ofRun run).filter (·.stream = stream) := by
        rw [whole stream]
        exact List.mem_append_right _ List.mem_cons_self
      exact (Delivery.failure?_end _ _).mp
        (Delivery.failure?_of_mem_ofRun (List.mem_filter.mp hend).1)
    exact ⟨sound .stdout, sound .stderr⟩

end ChildRun

namespace Capture

/-- The text that is kept of a segment. -/
def lineOf (segment : Bytes) : String := Utf8.decodeLossy (Lines.trim segment)

/-- How often the marker is counted in some segments. -/
def countIn (marker : Bytes) (segments : List Bytes) : Nat :=
  (segments.map fun s => Search.occurrences marker (Lines.trim s)).sum

/-- What a capture holds after some deliveries, its lines still turned around. -/
structure Tallied (marker : Bytes) (deliveries : List Delivery) (c : Capture) : Prop where
  markers : c.markers = countIn marker (Delivery.segmentsOf .stdout deliveries)
  stdout : c.stdout = ((Delivery.segmentsOf .stdout deliveries).map lineOf).reverse
  stderr : c.stderr = ((Delivery.segmentsOf .stderr deliveries).map lineOf).reverse

theorem tallied_empty (marker : Bytes) : Tallied marker [] empty := ⟨rfl, rfl, rfl⟩

/-- An echo changes nothing of what has been read. -/
theorem echo_fst (stream : Stream) (line : Bytes) (c : Capture) (console : Console) :
    ∃ failed, (echo stream line c console).1 = { c with echoFailed := failed } := by
  unfold echo
  split
  · exact ⟨c.echoFailed, rfl⟩
  · split
    · exact ⟨c.echoFailed, rfl⟩
    · exact ⟨true, rfl⟩

/-- One more delivery. -/
theorem Tallied.receive {marker : Bytes} {before : List Delivery} {c : Capture}
    (tallied : Tallied marker before c) (console : Console) (d : Delivery) :
    Tallied marker (before ++ [d]) (Capture.receive marker (c, console) d).1 := by
  obtain ⟨hmarkers, hstdout, hstderr⟩ := tallied
  rcases d with ⟨stream, _ | segment⟩
  · -- the end of a stream brings nothing
    have hsame : ∀ s, Delivery.segmentsOf s (before ++ [⟨stream, none⟩]) =
        Delivery.segmentsOf s before := by
      intro s
      rw [Delivery.segmentsOf_append]
      by_cases h : stream = s <;> simp [Delivery.segmentsOf, h]
    constructor
    · rw [hsame]
      exact hmarkers
    · rw [hsame]
      exact hstdout
    · rw [hsame]
      exact hstderr
  · cases stream with
    | stdout =>
      obtain ⟨failed, hecho⟩ := echo_fst .stdout (Lines.trim segment)
        { c with markers := c.markers + Search.occurrences marker (Lines.trim segment) } console
      simp only [Capture.receive, hecho]
      constructor
      · simp [Delivery.segmentsOf, hmarkers, countIn]
      · simp [Delivery.segmentsOf, hstdout, lineOf]
      · simp [Delivery.segmentsOf, hstderr]
    | stderr =>
      obtain ⟨failed, hecho⟩ := echo_fst .stderr (Lines.trim segment) c console
      simp only [Capture.receive, hecho]
      constructor
      · simp [Delivery.segmentsOf, hmarkers]
      · simp [Delivery.segmentsOf, hstdout]
      · simp [Delivery.segmentsOf, hstderr, lineOf]

/-- Any number of further deliveries. -/
theorem Tallied.foldl_receive {marker : Bytes} (deliveries : List Delivery) :
    ∀ {before : List Delivery} {c : Capture}, Tallied marker before c → ∀ console : Console,
      Tallied marker (before ++ deliveries)
        (deliveries.foldl (Capture.receive marker) (c, console)).1 := by
  induction deliveries with
  | nil =>
    intro before c tallied console
    rw [List.append_nil]
    exact tallied
  | cons d rest ih =>
    intro before c tallied console
    rw [List.foldl_cons, List.append_cons]
    exact ih (tallied.receive console d) _

end Capture

namespace ChildRun

variable (run : ChildRun) (marker : Bytes) (console : Console)

theorem tallied_collect :
    Capture.Tallied marker (Delivery.ofRun run)
      ((Delivery.ofRun run).foldl (Capture.receive marker) (.empty, console)).1 :=
  (Capture.tallied_empty marker).foldl_receive (Delivery.ofRun run) console

/-- The marker is counted in the segments of standard output that are read. -/
theorem collect_markers :
    (run.collect marker console).1.markers = Capture.countIn marker (run.segments .stdout) :=
  (run.tallied_collect marker console).markers

/-- The lines of standard output are the trimmed segments that are read, in order. -/
theorem collect_stdout :
    (run.collect marker console).1.stdout = (run.segments .stdout).map Capture.lineOf := by
  show List.reverse _ = _
  rw [(run.tallied_collect marker console).stdout, List.reverse_reverse]
  rfl

/-- The lines of standard error are the trimmed segments that are read, in order. -/
theorem collect_stderr :
    (run.collect marker console).1.stderr = (run.segments .stderr).map Capture.lineOf := by
  show List.reverse _ = _
  rw [(run.tallied_collect marker console).stderr, List.reverse_reverse]
  rfl

end ChildRun

end BenchHarness
