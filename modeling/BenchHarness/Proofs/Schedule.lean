import BenchHarness.Proofs.Capture
import BenchHarness.Proofs.Output
import BenchHarness.Proofs.Pieces

/-!
# Schedules

Output is collected in a loop: whichever of the two pipes has not ended may give its next segment or
its end, and the loop is over when both have ended. Every such schedule ends, after one delivery for
each line and one for each end (`Reading.Reads.length_add_pending`), and the schedules that have ended
are the interleavings of what the two pipes give (`Reading.exists_reads_iff`). What has been collected
by then is said by the bytes of the streams alone, whatever the schedule and the chunks
(`ChildRun.collect_any_schedule`).
-/

namespace BenchHarness

namespace Lines

/-! ## Lines -/

/-- The lines of a stream: what stands between its line ends, without the nothing that is left after
the last one. -/
def ofBytes (bytes : Bytes) : List Bytes :=
  let pieces := Pieces.split lineEnd bytes
  if pieces.getLast? = some [] then pieces.dropLast else pieces

theorem split_eq_cut (bytes : Bytes) :
    Pieces.split lineEnd bytes = (cut bytes).1 ++ [(cut bytes).2] := by
  induction bytes with
  | nil => rfl
  | cons b rest ih =>
    rw [Pieces.split, cut, ih]
    -- a line end begins a new piece; any other byte belongs to the first one
    by_cases hb : b = lineEnd
    · simp [hb]
    · cases h : cut rest with
      | mk lines left => cases lines <;> simp [hb]

/-- Reading a stream in chunks gives its lines. -/
theorem segments_eq_ofBytes (chunks : List Bytes) : segments chunks = ofBytes chunks.flatten := by
  rw [segments_eq, ofBytes, split_eq_cut]
  simp only [close, List.getLast?_concat, List.dropLast_concat, Option.some.injEq]

theorem segments_congr {chunks others : List Bytes} (same : chunks.flatten = others.flatten) :
    segments chunks = segments others := by
  rw [segments_eq, segments_eq, same]

/-- The next segment of a stream given in chunks, and the chunks after it; `held` is what has arrived
of the segment. There is none at the end of the stream. -/
def next? : (held : Bytes) → List Bytes → Option (Bytes × List Bytes)
  | held, [] => if held = [] then none else some (held, [])
  | held, chunk :: rest =>
    match chunk.dropWhile (· ≠ lineEnd) with
    | [] => next? (held ++ chunk) rest
    | _ :: left => some (held ++ chunk.takeWhile (· ≠ lineEnd), left :: rest)

/-- What stands before the first line end has none, and only the line end comes after it. -/
theorem takeWhile_append_of_dropWhile {chunk left : Bytes} {b : UInt8}
    (h : chunk.dropWhile (· ≠ lineEnd) = b :: left) :
    lineEnd ∉ chunk.takeWhile (· ≠ lineEnd) ∧
      chunk = chunk.takeWhile (· ≠ lineEnd) ++ lineEnd :: left := by
  have hb : b = lineEnd := by
    have hhead := List.head?_dropWhile_not (· ≠ lineEnd) chunk
    rw [h] at hhead
    simpa using hhead
  refine ⟨?_, ?_⟩
  · intro hmem
    simpa using List.mem_takeWhile_imp hmem
  · calc chunk = chunk.takeWhile (· ≠ lineEnd) ++ chunk.dropWhile (· ≠ lineEnd) :=
          List.takeWhile_append_dropWhile.symm
      _ = chunk.takeWhile (· ≠ lineEnd) ++ lineEnd :: left := by rw [h, hb]

/-- Segments are read one after the other. -/
theorem segments_eq_next? (chunks : List Bytes) :
    ∀ held, lineEnd ∉ held → segments (held :: chunks) =
      match next? held chunks with
      | none => []
      | some (segment, rest) => segment :: segments rest := by
  induction chunks with
  | nil =>
    intro held absent
    rw [segments_last absent, next?]
    by_cases h : held = []
    · rw [if_pos h, if_pos h]
    · rw [if_neg h, if_neg h]
      rfl
  | cons chunk rest ih =>
    intro held absent
    rw [next?]
    cases h : chunk.dropWhile (· ≠ lineEnd) with
    | nil =>
      -- a chunk without a line end belongs to the segment that is being read
      have hchunk : lineEnd ∉ chunk := by
        intro hmem
        simpa using List.dropWhile_eq_nil_iff.mp h lineEnd hmem
      have hboth : lineEnd ∉ held ++ chunk := by simp [absent, hchunk]
      rw [← ih _ hboth]
      exact segments_congr (by simp)
    | cons b left =>
      obtain ⟨hplain, hchunk⟩ := takeWhile_append_of_dropWhile h
      have hline : lineEnd ∉ held ++ chunk.takeWhile (· ≠ lineEnd) := by
        rw [List.mem_append, not_or]
        exact ⟨absent, hplain⟩
      have hwhole : (held :: chunk :: rest).flatten =
          [held ++ chunk.takeWhile (· ≠ lineEnd) ++
            lineEnd :: (left :: rest).flatten].flatten := by
        conv_lhs => rw [hchunk]
        simp
      have hrest : segments [(left :: rest).flatten] = segments (left :: rest) :=
        segments_congr (by simp)
      rw [segments_congr hwhole, segments_line hline, hrest]

end Lines

/-! ## Pipes -/

/-- A pipe that is being read. -/
structure Pipe where
  /-- What is still to be read, in the chunks in which it arrives. -/
  chunks : List Bytes
  /-- Whether the end of the stream has been read. -/
  ended : Bool

namespace Pipe

/-- Reads the next segment of a pipe, or its end. -/
def read (p : Pipe) : Option Bytes × Pipe :=
  match Lines.next? [] p.chunks with
  | none => (none, { p with ended := true })
  | some (segment, rest) => (some segment, { p with chunks := rest })

/-- The deliveries of a pipe that are still to come. -/
def pending (stream : Stream) (p : Pipe) : List Delivery :=
  if p.ended then [] else Delivery.ofSegments stream (Lines.segments p.chunks)

variable {p : Pipe} (stream : Stream)

theorem pending_eq_nil_iff : p.pending stream = [] ↔ p.ended = true := by
  cases h : p.ended with
  | true => simp [pending, h]
  | false => simp [pending, h, Delivery.ofSegments]

/-- What is read of a pipe is the first delivery still to come. -/
theorem pending_of_open (isOpen : p.ended = false) :
    p.pending stream = ⟨stream, p.read.1⟩ :: p.read.2.pending stream := by
  have hsegments := Lines.segments_eq_next? p.chunks [] List.not_mem_nil
  have hsame : Lines.segments ([] :: p.chunks) = Lines.segments p.chunks :=
    Lines.segments_congr (by simp)
  rw [hsame] at hsegments
  unfold pending read
  rw [hsegments, isOpen]
  cases Lines.next? [] p.chunks with
  | none => rfl
  | some found => simp [Delivery.ofSegments]

end Pipe

/-! ## The loop -/

/-- Where collecting the output of a process stands. -/
structure Reading where
  out : Pipe
  err : Pipe
  capture : Capture
  console : Console

namespace Reading

/-- Nothing has been read yet. -/
def start (out err : List Bytes) (console : Console) : Reading :=
  ⟨⟨out, false⟩, ⟨err, false⟩, .empty, console⟩

/-- The pipe of a stream. -/
def pipe (s : Reading) : Stream → Pipe
  | .stdout => s.out
  | .stderr => s.err

/-- Both streams have ended. -/
def Finished (s : Reading) : Prop := s.out.ended = true ∧ s.err.ended = true

/-- Takes what a pipe has given. -/
def receive (marker : Bytes) (s : Reading) (d : Delivery) : Reading :=
  let (capture, console) := Capture.receive marker (s.capture, s.console) d
  { s with capture := capture, console := console }

/-- A turn of the loop: a pipe that has not ended gives its next segment or its end. -/
inductive Step (marker : Bytes) (s : Reading) : Delivery → Reading → Prop where
  | stdout (isOpen : s.out.ended = false) : Step marker s ⟨.stdout, s.out.read.1⟩
      (receive marker { s with out := s.out.read.2 } ⟨.stdout, s.out.read.1⟩)
  | stderr (isOpen : s.err.ended = false) : Step marker s ⟨.stderr, s.err.read.1⟩
      (receive marker { s with err := s.err.read.2 } ⟨.stderr, s.err.read.1⟩)

/-- Any number of turns. -/
inductive Reads (marker : Bytes) : Reading → List Delivery → Reading → Prop where
  | done (s : Reading) : Reads marker s [] s
  | more {s s' s'' : Reading} {d : Delivery} {rest : List Delivery}
      (first : Step marker s d s') (others : Reads marker s' rest s'') :
      Reads marker s (d :: rest) s''

variable {marker : Bytes} {s s' : Reading}

/-- The deliveries of a stream among others. -/
def given (stream : Stream) (deliveries : List Delivery) : List Delivery :=
  deliveries.filter (·.stream = stream)

/-- A turn takes the first delivery still to come off one of the pipes, and leaves the other one
alone. -/
theorem Step.pending {d : Delivery} (step : Step marker s d s') (stream : Stream) :
    (s.pipe stream).pending stream = given stream [d] ++ (s'.pipe stream).pending stream := by
  -- for the stream that was not read both sides are what they were
  cases step with
  | stdout isOpen =>
    cases stream with
    | stdout => exact Pipe.pending_of_open .stdout isOpen
    | stderr => rfl
  | stderr isOpen =>
    cases stream with
    | stdout => rfl
    | stderr => exact Pipe.pending_of_open .stderr isOpen

theorem Step.received {d : Delivery} (step : Step marker s d s') :
    (s'.capture, s'.console) = Capture.receive marker (s.capture, s.console) d := by
  cases step with
  | stdout isOpen => rfl
  | stderr isOpen => rfl

/-- A pipe that has not ended may come next. -/
theorem exists_step (stream : Stream) (isOpen : (s.pipe stream).ended = false) :
    ∃ d s', Step marker s d s' ∧ d.stream = stream := by
  cases stream with
  | stdout => exact ⟨_, _, .stdout isOpen, rfl⟩
  | stderr => exact ⟨_, _, .stderr isOpen, rfl⟩

theorem not_step_of_finished (finished : s.Finished) (d : Delivery) : ¬ Step marker s d s' := by
  intro step
  cases step with
  | stdout isOpen => simp [finished.1] at isOpen
  | stderr isOpen => simp [finished.2] at isOpen

theorem finished_iff : s.Finished ↔ ∀ stream, (s.pipe stream).pending stream = [] := by
  simp only [Pipe.pending_eq_nil_iff]
  constructor
  · rintro ⟨hout, herr⟩ (_ | _)
    · exact hout
    · exact herr
  · intro h
    exact ⟨h .stdout, h .stderr⟩

/-! ## Schedules -/

variable {deliveries : List Delivery}

/-- What has been delivered and what is still to come make up the stream. -/
theorem Reads.pending (reads : Reads marker s deliveries s') (stream : Stream) :
    (s.pipe stream).pending stream =
      given stream deliveries ++ (s'.pipe stream).pending stream := by
  induction reads with
  | done s => rfl
  | more first others ih =>
    rw [first.pending stream, ih, ← List.append_assoc]
    exact congrArg (· ++ _) (List.filter_append [_] _).symm

/-- A schedule has ended exactly if each pipe has given all it had. -/
theorem Reads.finished_iff_given (reads : Reads marker s deliveries s') :
    s'.Finished ↔ ∀ stream, given stream deliveries = (s.pipe stream).pending stream := by
  refine finished_iff.trans (forall_congr' fun stream => ?_)
  rw [reads.pending stream, List.self_eq_append_right]

theorem Reads.received (reads : Reads marker s deliveries s') :
    (s'.capture, s'.console) =
      deliveries.foldl (Capture.receive marker) (s.capture, s.console) := by
  induction reads with
  | done s => rfl
  | more first others ih => rw [ih, first.received, List.foldl_cons]

/-- Every delivery is one of either stream. -/
theorem length_given_add (deliveries : List Delivery) :
    (given .stdout deliveries).length + (given .stderr deliveries).length = deliveries.length := by
  induction deliveries with
  | nil => rfl
  | cons d rest ih =>
    rw [List.length_cons, ← ih]
    rcases d with ⟨_ | _, segment⟩
    · simp [given]
      omega
    · simp [given]
      omega

/-- A schedule comes to an end: every delivery is one less to come. -/
theorem Reads.length_add_pending (reads : Reads marker s deliveries s') :
    deliveries.length + ((s'.out.pending .stdout).length + (s'.err.pending .stderr).length) =
      (s.out.pending .stdout).length + (s.err.pending .stderr).length := by
  have hout := congrArg List.length (reads.pending .stdout)
  have herr := congrArg List.length (reads.pending .stderr)
  have hboth := length_given_add deliveries
  rw [List.length_append] at hout herr
  simp only [pipe] at hout herr
  omega

/-- An interleaving of the first deliveries still to come can be read. -/
theorem exists_reads (deliveries : List Delivery) :
    ∀ {s : Reading}, (∀ stream, given stream deliveries <+: (s.pipe stream).pending stream) →
      ∃ s', Reads marker s deliveries s' := by
  induction deliveries with
  | nil =>
    intro s _
    exact ⟨s, .done s⟩
  | cons d rest ih =>
    intro s hgiven
    -- the pipe of `d` has a delivery to come, so it has not ended and gives `d`
    have hcons : given d.stream (d :: rest) = d :: given d.stream rest := by simp [given]
    obtain ⟨later, hhead⟩ := hgiven d.stream
    rw [hcons, List.cons_append] at hhead
    have isOpen : (s.pipe d.stream).ended = false := by
      rw [← Bool.not_eq_true, ← Pipe.pending_eq_nil_iff d.stream, ← hhead]
      exact List.cons_ne_nil _ _
    obtain ⟨d', s₁, step, hstream⟩ : ∃ d' s₁, Step marker s d' s₁ ∧ d'.stream = d.stream :=
      exists_step d.stream isOpen
    have hd : d' = d := by
      have hfirst := step.pending d.stream
      have hsingle : given d.stream [d'] = [d'] := by simp [given, hstream]
      rw [← hhead, hsingle] at hfirst
      exact (List.cons.inj hfirst).1.symm
    subst hd
    obtain ⟨s₂, reads⟩ := @ih s₁ fun stream => by
      have hafter := hgiven stream
      rw [step.pending stream, given, given, ← List.singleton_append, List.filter_append] at hafter
      exact (List.prefix_append_right_inj _).mp hafter
    exact ⟨s₂, .more step reads⟩

/-- The schedules that have ended are the interleavings of what the two pipes give. -/
theorem exists_reads_iff :
    (∃ s', Reads marker s deliveries s' ∧ s'.Finished) ↔
      ∀ stream, given stream deliveries = (s.pipe stream).pending stream := by
  constructor
  · rintro ⟨s', reads, finished⟩
    exact reads.finished_iff_given.mp finished
  · intro hgiven
    obtain ⟨s', reads⟩ : ∃ s', Reads marker s deliveries s' :=
      exists_reads deliveries fun stream => (hgiven stream) ▸ List.prefix_rfl
    exact ⟨s', reads, reads.finished_iff_given.mpr hgiven⟩

end Reading

/-- Deliveries are put together again by the order of their streams. -/
theorem Delivery.merge_given (deliveries : List Delivery) :
    merge (deliveries.map (·.stream)) (Reading.given .stdout deliveries)
      (Reading.given .stderr deliveries) = deliveries := by
  induction deliveries with
  | nil => rfl
  | cons d rest ih =>
    rcases d with ⟨_ | _, segment⟩
    · have hout : Reading.given .stdout (⟨.stdout, segment⟩ :: rest) =
          ⟨.stdout, segment⟩ :: Reading.given .stdout rest := by simp [Reading.given]
      have herr : Reading.given .stderr (⟨.stdout, segment⟩ :: rest) =
          Reading.given .stderr rest := by simp [Reading.given]
      rw [List.map_cons, hout, herr, merge, ih]
    · have hout : Reading.given .stdout (⟨.stderr, segment⟩ :: rest) =
          Reading.given .stdout rest := by simp [Reading.given]
      have herr : Reading.given .stderr (⟨.stderr, segment⟩ :: rest) =
          ⟨.stderr, segment⟩ :: Reading.given .stderr rest := by simp [Reading.given]
      rw [List.map_cons, hout, herr, merge, ih]

/-! ## What is echoed -/

/-- A sink to which lines have been echoed. -/
def Sink.echoed (s : Sink) (lines : List Bytes) : Sink :=
  lines.foldl (fun s line => (s.write (Lines.trim line ++ [Lines.lineEnd])).2) s

/-- The text that echoing some lines gives. -/
def Lines.shown (lines : List Bytes) : Bytes := lines.flatMap (trim · ++ [lineEnd])

theorem Sink.Takes.contents_echoed (lines : List Bytes) :
    ∀ {s : Sink}, s.Takes → (s.echoed lines).contents = s.contents ++ Lines.shown lines := by
  induction lines with
  | nil =>
    intro s takes
    exact (List.append_nil _).symm
  | cons line rest ih =>
    intro s takes
    obtain ⟨-, htakes, hcontents⟩ := takes.write (Lines.trim line ++ [Lines.lineEnd])
    calc (s.echoed (line :: rest)).contents
        = (s.write (Lines.trim line ++ [Lines.lineEnd])).2.contents ++ Lines.shown rest :=
          ih htakes
      _ = s.contents ++ Lines.shown (line :: rest) := by
          rw [hcontents, List.append_assoc]
          rfl

/-- Nothing but lines comes to standard error while output is echoed: notes are not shown there, or
there are none to show because no echo fails. -/
def Console.Apart (c : Console) : Prop :=
  (∀ record, c.shown record = none) ∨ (c.stdout.Takes ∧ c.stderr.Takes)

namespace Console

theorem stdout_note (c : Console) (record : LogRecord) : (c.note record).stdout = c.stdout := by
  unfold note
  simp only []
  cases c.shown record with
  | none => rfl
  | some line => rfl

theorem Apart.write {c : Console} (apart : c.Apart) (stream : Stream) (data : Bytes) :
    (c.write stream data).2.Apart := by
  rcases apart with unseen | ⟨hout, herr⟩
  · cases stream with
    | stdout => exact Or.inl unseen
    | stderr => exact Or.inl unseen
  · cases stream with
    | stdout => exact Or.inr ⟨(hout.write data).2.1, herr⟩
    | stderr => exact Or.inr ⟨hout, (herr.write data).2.1⟩

end Console

namespace Capture

/-- An echo writes a line; if that fails, it may be noted besides. -/
theorem echo_snd (stream : Stream) (line : Bytes) (c : Capture) (console : Console) :
    (echo stream line c console).2 = (console.echo stream line).2 ∨
      (console.echo stream line).1 ≠ none ∧
        ∃ record, (echo stream line c console).2 = (console.echo stream line).2.note record := by
  unfold echo
  generalize console.echo stream line = written
  obtain ⟨_ | error, console⟩ := written
  · exact Or.inl rfl
  · by_cases failed : c.echoFailed
    · simp only [failed, if_true]
      exact Or.inl trivial
    · simp only [failed]
      exact Or.inr ⟨Option.some_ne_none error, _, rfl⟩

/-- An echo shows a line, and nothing else if only lines come to standard error. -/
theorem echo_apart {console : Console} (apart : console.Apart) (stream : Stream) (line : Bytes)
    (c : Capture) :
    (echo stream line c console).2.stderr = (console.echo stream line).2.stderr ∧
      (echo stream line c console).2.Apart := by
  have hwritten : (console.echo stream line).2.Apart := apart.write _ _
  rcases echo_snd stream line c console with h | ⟨failed, record, h⟩
  · rw [h]
    exact ⟨rfl, hwritten⟩
  · rcases apart with unseen | ⟨hout, herr⟩
    · have hunseen : (console.echo stream line).2.shown record = none := by
        cases stream with
        | stdout => exact unseen record
        | stderr => exact unseen record
      rw [h, Console.note]
      simp only [hunseen]
      exact ⟨trivial, hwritten⟩
    · -- both sinks take the line, so the echo does not fail
      exfalso
      cases stream with
      | stdout => exact failed (hout.write _).1
      | stderr => exact failed (herr.write _).1

/-- A delivery is echoed to the sink of its stream, and to no other. -/
theorem receive_stdout (marker : Bytes) (c : Capture) (console : Console) (d : Delivery) :
    (receive marker (c, console) d).2.stdout =
      console.stdout.echoed (Delivery.segmentsOf .stdout [d]) := by
  have hecho : ∀ stream line c, (echo stream line c console).2.stdout =
      (console.echo stream line).2.stdout := by
    intro stream line c
    rcases echo_snd stream line c console with h | ⟨-, record, h⟩
    · rw [h]
    · rw [h, Console.stdout_note]
  rcases d with ⟨stream, _ | segment⟩
  · cases stream <;> rfl
  · cases stream with
    | stdout => exact hecho _ _ _
    | stderr => exact hecho _ _ _

theorem receive_stderr {console : Console} (apart : console.Apart) (marker : Bytes) (c : Capture)
    (d : Delivery) :
    (receive marker (c, console) d).2.stderr =
        console.stderr.echoed (Delivery.segmentsOf .stderr [d]) ∧
      (receive marker (c, console) d).2.Apart := by
  rcases d with ⟨stream, _ | segment⟩
  · cases stream <;> exact ⟨rfl, apart⟩
  · cases stream with
    | stdout => exact echo_apart apart _ _ _
    | stderr => exact echo_apart apart _ _ _

theorem foldl_receive_stdout (marker : Bytes) (deliveries : List Delivery) :
    ∀ state : Capture × Console, (deliveries.foldl (receive marker) state).2.stdout =
      state.2.stdout.echoed (Delivery.segmentsOf .stdout deliveries) := by
  induction deliveries with
  | nil =>
    intro state
    rfl
  | cons d rest ih =>
    intro state
    have hsegments : Delivery.segmentsOf .stdout (d :: rest) =
        Delivery.segmentsOf .stdout [d] ++ Delivery.segmentsOf .stdout rest :=
      Delivery.segmentsOf_append .stdout [d] rest
    rw [List.foldl_cons, ih, receive_stdout, hsegments]
    exact List.foldl_append.symm

theorem foldl_receive_stderr (marker : Bytes) (deliveries : List Delivery) :
    ∀ {state : Capture × Console}, state.2.Apart →
      (deliveries.foldl (receive marker) state).2.stderr =
        state.2.stderr.echoed (Delivery.segmentsOf .stderr deliveries) := by
  induction deliveries with
  | nil =>
    intro state apart
    rfl
  | cons d rest ih =>
    intro state apart
    have hsegments : Delivery.segmentsOf .stderr (d :: rest) =
        Delivery.segmentsOf .stderr [d] ++ Delivery.segmentsOf .stderr rest :=
      Delivery.segmentsOf_append .stderr [d] rest
    obtain ⟨hstderr, hapart⟩ := receive_stderr apart marker state.1 d
    rw [List.foldl_cons, ih hapart, hstderr, hsegments]
    exact List.foldl_append.symm

end Capture

/-! ## What is collected -/

/-- What has been collected of two streams and echoed to a console, said by their bytes: what is kept
of standard output by those of standard output, and what is kept of standard error by those of
standard error. -/
structure Collected (marker out err : Bytes) (before after : Console) (c : Capture) : Prop where
  markers : c.markers = Capture.countIn marker (Lines.ofBytes out)
  stdout : c.stdout = (Lines.ofBytes out).map Capture.lineOf
  stderr : c.stderr = (Lines.ofBytes err).map Capture.lineOf
  echoedOut : after.stdout = before.stdout.echoed (Lines.ofBytes out)
  echoedErr : before.Apart → after.stderr = before.stderr.echoed (Lines.ofBytes err)
  shownOut : before.stdout.Takes →
    after.stdout.contents = before.stdout.contents ++ Lines.shown (Lines.ofBytes out)
  shownErr : before.Apart → before.stderr.Takes →
    after.stderr.contents = before.stderr.contents ++ Lines.shown (Lines.ofBytes err)

/-- Deliveries that bring the lines of two streams give what is to be collected of them. -/
theorem Collected.of_segmentsOf (marker : Bytes) (console : Console) {out err : Bytes}
    {deliveries : List Delivery}
    (hout : Delivery.segmentsOf .stdout deliveries = Lines.ofBytes out)
    (herr : Delivery.segmentsOf .stderr deliveries = Lines.ofBytes err) :
    let state := deliveries.foldl (Capture.receive marker) (.empty, console)
    Collected marker out err console state.2 state.1.finish := by
  intro state
  have tallied : Capture.Tallied marker deliveries state.1 :=
    (Capture.tallied_empty marker).foldl_receive deliveries console
  have hstdout : state.2.stdout = console.stdout.echoed (Lines.ofBytes out) := by
    rw [← hout]
    exact Capture.foldl_receive_stdout marker deliveries _
  have hstderr : console.Apart → state.2.stderr = console.stderr.echoed (Lines.ofBytes err) := by
    intro apart
    rw [← herr]
    exact Capture.foldl_receive_stderr marker deliveries apart
  constructor
  · rw [← hout]
    exact tallied.markers
  · show state.1.stdout.reverse = _
    rw [tallied.stdout, List.reverse_reverse, hout]
  · show state.1.stderr.reverse = _
    rw [tallied.stderr, List.reverse_reverse, herr]
  · exact hstdout
  · exact hstderr
  · intro takes
    rw [hstdout]
    exact takes.contents_echoed _
  · intro apart takes
    rw [hstderr apart]
    exact takes.contents_echoed _

namespace Reading

variable {marker : Bytes} {out err : List Bytes} {console : Console} {deliveries : List Delivery}
  {s : Reading}

/-- What a schedule that has ended comes to: nothing is left to be read, each stream has been given
line by line, and both the deliveries and what has been collected are those of collecting the output
of any process with these streams, for some order in which they have something to read. -/
structure Exhausted (marker : Bytes) (out err : List Bytes) (console : Console)
    (deliveries : List Delivery) (s : Reading) : Prop where
  stuck : ∀ d s', ¬ Step marker s d s'
  outLines : Delivery.segmentsOf .stdout deliveries = Lines.ofBytes out.flatten
  errLines : Delivery.segmentsOf .stderr deliveries = Lines.ofBytes err.flatten
  collected : Collected marker out.flatten err.flatten console s.console s.capture.finish
  run : ∃ order, ∀ run : ChildRun, run.stdout = out → run.stderr = err → run.order = order →
    run.ReadToEnd → Delivery.ofRun run = deliveries ∧
      run.collect marker console = (s.capture.finish, s.console)

theorem length_pending_start (chunks : List Bytes) (stream : Stream) :
    (Pipe.pending stream ⟨chunks, false⟩).length = (Lines.ofBytes chunks.flatten).length + 1 := by
  simp [Pipe.pending, Delivery.ofSegments, Lines.segments_eq_ofBytes]

/-- A finished schedule has given each stream line by line. -/
theorem Reads.segmentsOf (reads : Reads marker (start out err console) deliveries s)
    (finished : s.Finished) (stream : Stream) :
    Delivery.segmentsOf stream deliveries =
      Lines.ofBytes (((start out err console).pipe stream).chunks.flatten) := by
  have hgiven := reads.finished_iff_given.mp finished stream
  show (given stream deliveries).filterMap _ = _
  rw [hgiven, ← Lines.segments_eq_ofBytes]
  cases stream with
  | stdout => exact Delivery.filterMap_segment_ofSegments _ _
  | stderr => exact Delivery.filterMap_segment_ofSegments _ _

theorem Reads.exhausted (reads : Reads marker (start out err console) deliveries s)
    (finished : s.Finished) : Exhausted marker out err console deliveries s := by
  have hout := reads.segmentsOf finished .stdout
  have herr := reads.segmentsOf finished .stderr
  have hstate := reads.received
  have hgiven := reads.finished_iff_given.mp finished
  constructor
  · exact fun d s' => not_step_of_finished finished d
  · exact hout
  · exact herr
  · have collected := Collected.of_segmentsOf marker console hout herr
    simp only [start, pipe] at hstate collected
    rwa [← hstate] at collected
  · -- the order in which the deliveries came puts them together again
    refine ⟨deliveries.map (·.stream), ?_⟩
    rintro run rfl rfl horder read
    have hrun : Delivery.ofRun run = deliveries := by
      have hmerge := Delivery.merge_given deliveries
      rw [hgiven .stdout, hgiven .stderr, ← horder] at hmerge
      rw [read.ofRun_eq, Delivery.offered, Delivery.ofStream, Delivery.ofStream, read.reading,
        read.reading]
      exact hmerge
    refine ⟨hrun, ?_⟩
    simp only [start] at hstate
    rw [ChildRun.collect, hrun, ← hstate]

end Reading

namespace ChildRun

/-- Collecting the output of a process is a schedule, and one that ends unless reading fails. -/
theorem reads_collect (run : ChildRun) (marker : Bytes) (console : Console) :
    ∃ s, Reading.Reads marker (.start run.stdout run.stderr console) (Delivery.ofRun run) s ∧
      (s.Finished ↔ run.ReadToEnd) ∧ run.collect marker console = (s.capture.finish, s.console) := by
  have hpending : ∀ stream, ((Reading.start run.stdout run.stderr console).pipe stream).pending stream =
      Delivery.ofSegments stream (Lines.segments (run.chunks stream)) := by
    intro stream
    cases stream with
    | stdout => rfl
    | stderr => rfl
  obtain ⟨s, reads⟩ : ∃ s, Reading.Reads marker (.start run.stdout run.stderr console)
      (Delivery.ofRun run) s := Reading.exists_reads _ fun stream => by
    rw [hpending]
    exact Delivery.filter_ofRun_prefix run stream
  refine ⟨s, reads, ?_, ?_⟩
  · rw [reads.finished_iff_given, run.readToEnd_iff]
    simp only [hpending, Reading.given]
  · have hstate := reads.received
    simp only [Reading.start] at hstate
    rw [collect, ← hstate]

/-- Whichever pipe comes next at every turn, and however the streams are cut into chunks, reading ends
after one delivery for each line and one for each end; as long as a pipe has not ended it may come
next. What has been collected at the end is said by the bytes of the streams: it is the same for all
schedules, and it is what `collect` gives for each of them. -/
theorem collect_any_schedule (marker : Bytes) (console : Console) (out err : List Bytes) :
    let start := Reading.start out err console
    let total := ((Lines.ofBytes out.flatten).length + 1) + ((Lines.ofBytes err.flatten).length + 1)
    (∀ deliveries s, Reading.Reads marker start deliveries s →
      deliveries.length ≤ total ∧
      (s.Finished ↔ deliveries.length = total) ∧
      (∀ stream, (s.pipe stream).ended = false →
        ∃ d s', Reading.Step marker s d s' ∧ d.stream = stream) ∧
      (s.Finished → Reading.Exhausted marker out err console deliveries s)) ∧
    ∀ run : ChildRun, run.stdout = out → run.stderr = err →
      ∃ s, Reading.Reads marker start (Delivery.ofRun run) s ∧ (s.Finished ↔ run.ReadToEnd) ∧
        run.collect marker console = (s.capture.finish, s.console) := by
  intro start total
  refine ⟨?_, ?_⟩
  · intro deliveries s reads
    have hlength := reads.length_add_pending
    have hout : (start.out.pending .stdout).length = (Lines.ofBytes out.flatten).length + 1 :=
      Reading.length_pending_start out .stdout
    have herr : (start.err.pending .stderr).length = (Lines.ofBytes err.flatten).length + 1 :=
      Reading.length_pending_start err .stderr
    rw [hout, herr] at hlength
    -- what has come and what is to come add up, so nothing is to come exactly if all has come
    refine ⟨?_, ?_, fun stream => Reading.exists_step stream, reads.exhausted⟩
    · show deliveries.length ≤ (_ + 1) + (_ + 1)
      omega
    · rw [Reading.Finished, ← Pipe.pending_eq_nil_iff .stdout, ← Pipe.pending_eq_nil_iff .stderr,
        ← List.length_eq_zero_iff, ← List.length_eq_zero_iff]
      show _ ↔ deliveries.length = (_ + 1) + (_ + 1)
      omega
  · rintro run rfl rfl
    exact run.reads_collect marker console

/-- Standard error ends before standard output has given its first line, which comes in two chunks. -/
theorem collect_any_schedule_of_early_end :
    ∃ s, Reading.Reads [33] (.start [[97], [33, 13, 10, 33]] [[33]] .buffers)
        [⟨.stderr, some [33]⟩, ⟨.stderr, none⟩, ⟨.stdout, some [97, 33, 13]⟩,
          ⟨.stdout, some [33]⟩, ⟨.stdout, none⟩] s ∧
      s.capture.markers = 2 ∧ s.console.stdout.contents = [97, 33, 10, 33, 10] := by
  obtain ⟨s, reads⟩ : ∃ s, Reading.Reads [33] (.start [[97], [33, 13, 10, 33]] [[33]] .buffers)
      [⟨.stderr, some [33]⟩, ⟨.stderr, none⟩, ⟨.stdout, some [97, 33, 13]⟩,
        ⟨.stdout, some [33]⟩, ⟨.stdout, none⟩] s :=
    ⟨_, .more (.stderr rfl) (.more (.stderr rfl) (.more (.stdout rfl) (.more (.stdout rfl)
      (.more (.stdout rfl) (.done _)))))⟩
  obtain ⟨-, finished, -, exhausted⟩ :=
    (collect_any_schedule [33] .buffers [[97], [33, 13, 10, 33]] [[33]]).1 _ s reads
  have collected := (exhausted (finished.mpr (by decide))).collected
  refine ⟨s, reads, ?_, ?_⟩
  · rw [show s.capture.markers = s.capture.finish.markers from rfl, collected.markers]
    decide
  · rw [collected.shownOut fun _ _ _ => rfl]
    decide

end ChildRun

end BenchHarness
