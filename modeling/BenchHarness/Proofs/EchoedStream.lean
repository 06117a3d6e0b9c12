import BenchHarness.Proofs.AcceptedMarkers
import BenchHarness.Proofs.Decoded
import BenchHarness.Proofs.Screen

/-!
# Streams and their echoes

What is echoed of a stream is the stream itself but for its line ends: a carriage return in front of
one is dropped, and a last line without one gets it (`Lines.shown_ofBytes`). The lines that are kept
are the lines of the echo, decoded one by one, and decoding the echo as a whole gives the same text
(`Lines.join_decoded`). In a run, what each test has echoed stands in the buffers one after another
(`Runner.streams_mirrored`). Of a stream that cannot be read to its end the same is true of its front
(`Turn.ReadsFrom`).
-/

namespace BenchHarness

namespace Lines

/-! ## The echo of a stream -/

/-- A stream without the carriage returns that stand right before a line end or at its end. -/
def withoutReturns : Bytes → Bytes
  | [] => []
  | b :: rest =>
    if b = carriageReturn ∧ (rest = [] ∨ rest.head? = some lineEnd) then withoutReturns rest
    else b :: withoutReturns rest

/-- What a stream is echoed as: its carriage returns before line ends are dropped, and its last line
is ended if it is not. -/
def echoOf (bytes : Bytes) : Bytes :=
  withoutReturns bytes ++ if bytes = [] ∨ bytes.getLast? = some lineEnd then [] else [lineEnd]

theorem trim_cons (b : UInt8) {rest : Bytes} (nonempty : rest ≠ []) :
    trim (b :: rest) = b :: trim rest := by
  rw [trim, trim, List.getLast?_cons_of_ne_nil nonempty, List.dropLast_cons_of_ne_nil nonempty]
  split
  · rfl
  · rfl

/-- A carriage return is dropped from a line where the line ends, and from nowhere else. -/
theorem withoutReturns_append {line : Bytes} (absent : lineEnd ∉ line) {after : Bytes}
    (ended : after = [] ∨ after.head? = some lineEnd) :
    withoutReturns (line ++ after) = trim line ++ withoutReturns after := by
  induction line with
  | nil => rfl
  | cons b line ih =>
    rw [List.mem_cons, not_or] at absent
    cases line with
    | nil =>
      by_cases h : b = carriageReturn
      · simp [withoutReturns, trim, h, ended]
      · simp [withoutReturns, trim, h]
    | cons c line =>
      have hc : c ≠ lineEnd := fun h => absent.2 (by simp [h])
      have kept : ¬ (b = carriageReturn ∧
          (c :: line ++ after = [] ∨ (c :: line ++ after).head? = some lineEnd)) := by
        simp [hc]
      rw [List.cons_append, withoutReturns, if_neg kept, ih absent.2,
        trim_cons b (List.cons_ne_nil c line), List.cons_append]

theorem withoutReturns_cons_lineEnd (rest : Bytes) :
    withoutReturns (lineEnd :: rest) = lineEnd :: withoutReturns rest :=
  if_neg fun h => absurd h.1 (by decide)

theorem shown_cons (line : Bytes) (lines : List Bytes) :
    shown (line :: lines) = trim line ++ lineEnd :: shown lines := by
  simp [shown]

theorem ofBytes_last {bytes : Bytes} (absent : lineEnd ∉ bytes) :
    ofBytes bytes = if bytes = [] then [] else [bytes] := by
  rw [← segments_last absent, segments_eq_ofBytes, List.flatten_singleton]

theorem ofBytes_line {line : Bytes} (absent : lineEnd ∉ line) (rest : Bytes) :
    ofBytes (line ++ lineEnd :: rest) = line :: ofBytes rest := by
  have hcut := segments_line absent rest
  rwa [segments_eq_ofBytes, segments_eq_ofBytes, List.flatten_singleton,
    List.flatten_singleton] at hcut

/-- Echoing the lines of a stream one by one echoes the stream. -/
theorem shown_ofBytes (bytes : Bytes) : shown (ofBytes bytes) = echoOf bytes := by
  induction bytes using stream_induction with
  | last bytes absent =>
    have hdropped := withoutReturns_append absent (Or.inl rfl)
    rw [List.append_nil, withoutReturns, List.append_nil] at hdropped
    rw [ofBytes_last absent, echoOf, hdropped]
    by_cases hempty : bytes = []
    · subst hempty
      rfl
    · have hlast : bytes.getLast? ≠ some lineEnd := fun h => absent (List.mem_of_getLast? h)
      simp [hempty, hlast, shown]
  | line line rest absent ih =>
    have hdropped : withoutReturns (line ++ lineEnd :: rest) =
        trim line ++ lineEnd :: withoutReturns rest := by
      rw [withoutReturns_append absent (Or.inr rfl), withoutReturns_cons_lineEnd]
    rw [ofBytes_line absent, shown_cons, ih, echoOf, echoOf, hdropped]
    -- the last byte is that of what comes after the line, or the line end itself
    cases rest with
    | nil => simp [withoutReturns]
    | cons b rest => simp [List.getLast?_append, List.getLast?_cons_cons]

/-! ## The front of a stream -/

/-- The front of a stream that some lines take up, each with the line end after it. -/
def front (lines : List Bytes) (bytes : Bytes) : Bytes :=
  bytes.take (lines.map (·.length + 1)).sum

theorem front_line (line : Bytes) (lines : List Bytes) (rest : Bytes) :
    front (line :: lines) (line ++ lineEnd :: rest) = line ++ lineEnd :: front lines rest := by
  have hsum : ((line :: lines).map (·.length + 1)).sum =
      line.length + ((lines.map (·.length + 1)).sum + 1) := by
    rw [List.map_cons, List.sum_cons]
    omega
  rw [front, hsum, List.take_length_add_append, List.take_succ_cons]
  rfl

theorem front_last (bytes : Bytes) : front [bytes] bytes = bytes :=
  List.take_of_length_le (Nat.le_succ _)

/-- The front that the first lines of a stream take up has these lines. -/
theorem ofBytes_front {bytes : Bytes} :
    ∀ {lines : List Bytes}, lines <+: ofBytes bytes → ofBytes (front lines bytes) = lines := by
  have hnone : ∀ bytes, ofBytes (front [] bytes) = [] := fun bytes => rfl
  induction bytes using stream_induction with
  | last bytes absent =>
    intro lines first
    rw [ofBytes_last absent] at first
    cases lines with
    | nil => exact hnone bytes
    | cons line lines =>
      by_cases hempty : bytes = []
      · rw [if_pos hempty] at first
        cases List.prefix_nil.mp first
      · rw [if_neg hempty] at first
        obtain ⟨rfl, rest⟩ := List.cons_prefix_cons.mp first
        rw [List.prefix_nil.mp rest, front_last, ofBytes_last absent, if_neg hempty]
  | line line rest absent ih =>
    intro lines first
    rw [ofBytes_line absent] at first
    cases lines with
    | nil => exact hnone _
    | cons line' lines =>
      obtain ⟨rfl, others⟩ := List.cons_prefix_cons.mp first
      rw [front_line, ofBytes_line absent, ih others]

/-- All its lines take up the whole of a stream. -/
theorem front_ofBytes (bytes : Bytes) : front (ofBytes bytes) bytes = bytes := by
  induction bytes using stream_induction with
  | last bytes absent =>
    rw [ofBytes_last absent]
    by_cases hempty : bytes = []
    · rw [hempty]
      rfl
    · rw [if_neg hempty, front_last]
  | line line rest absent ih => rw [ofBytes_line absent, front_line, ih]

/-! ## The lines of an echo -/

theorem lineEnd_not_mem_trim {line : Bytes} (absent : lineEnd ∉ line) : lineEnd ∉ trim line := by
  rw [trim]
  split
  · exact fun h => absent (List.mem_of_mem_dropLast h)
  · exact absent

theorem lineEnd_not_mem_of_mem_ofBytes {bytes line : Bytes} (member : line ∈ ofBytes bytes) :
    lineEnd ∉ line := by
  have hsegments := segments_eq_ofBytes [bytes]
  rw [List.flatten_singleton] at hsegments
  rw [← hsegments] at member
  exact lineEnd_not_mem_of_mem_segments member

/-- The lines of what is echoed are the lines that were read, trimmed. -/
theorem ofBytes_shown {lines : List Bytes} (absent : ∀ line ∈ lines, lineEnd ∉ line) :
    ofBytes (shown lines) = lines.map trim := by
  induction lines with
  | nil => rfl
  | cons line rest ih =>
    rw [List.forall_mem_cons] at absent
    rw [shown_cons, ofBytes_line (lineEnd_not_mem_trim absent.1), ih absent.2, List.map_cons]

/-- Lines may be decoded one by one or together. -/
theorem join_decoded (lines : List Bytes) :
    String.join (lines.map fun line => Utf8.decodeLossy line ++ "\n") =
      Utf8.decodeLossy (lines.flatMap (· ++ [lineEnd])) := by
  induction lines with
  | nil => rfl
  | cons line rest ih =>
    have hline : Utf8.decode (line ++ lineEnd :: rest.flatMap (· ++ [lineEnd])) =
        Utf8.decode line ++ some '\n' :: Utf8.decode (rest.flatMap (· ++ [lineEnd])) :=
      Utf8.decode_append_ascii (c := '\n') (by decide) line _
    refine String.toList_inj.mp ?_
    replace ih := congrArg String.toList ih
    rw [String.toList_join, Utf8.toList_decodeLossy] at ih
    rw [String.toList_join, List.map_cons, List.flatMap_cons, ih, List.flatMap_cons,
      List.append_assoc, List.singleton_append, Utf8.toList_decodeLossy, hline, String.toList_append,
      Utf8.toList_decodeLossy, List.map_append, List.map_cons, List.append_assoc]
    rfl

/-- What is echoed of a stream and what is kept of it: the echo is the stream but for its line ends,
what is kept are the lines of the echo, decoded one for one, and together they are the echo decoded. -/
structure Mirrored (bytes echo : Bytes) (kept : List String) : Prop where
  echoed : echo = echoOf bytes
  lined : (ofBytes echo).flatMap (· ++ [lineEnd]) = echo
  decoded : kept = (ofBytes echo).map Utf8.decodeLossy
  joined : String.join (kept.map (· ++ "\n")) = Utf8.decodeLossy echo

theorem mirrored_ofBytes (bytes : Bytes) :
    Mirrored bytes (shown (ofBytes bytes)) ((ofBytes bytes).map Capture.lineOf) := by
  have hlines : ofBytes (shown (ofBytes bytes)) = (ofBytes bytes).map trim :=
    ofBytes_shown fun line => lineEnd_not_mem_of_mem_ofBytes
  have hkept : (ofBytes bytes).map Capture.lineOf =
      ((ofBytes bytes).map trim).map Utf8.decodeLossy := by
    rw [List.map_map]
    rfl
  have hshown : ((ofBytes bytes).map trim).flatMap (· ++ [lineEnd]) = shown (ofBytes bytes) := by
    rw [List.flatMap_map, shown]
  constructor
  · exact shown_ofBytes bytes
  · rw [hlines, hshown]
  · rw [hlines, hkept]
  · rw [hkept, List.map_map, ← hshown]
    exact join_decoded _

end Lines

open Lines

/-- Both streams of a process are mirrored, whatever the schedule in which they are read. -/
theorem Reading.Reads.mirrored {marker : Bytes} {out err : List Bytes} {console : Console}
    {deliveries : List Delivery} {s : Reading}
    (reads : Reads marker (start out err console) deliveries s) (finished : s.Finished)
    (takes : console.Takes) :
    ∃ outEcho errEcho,
      s.console.stdout.contents = console.stdout.contents ++ outEcho ∧
      s.console.stderr.contents = console.stderr.contents ++ errEcho ∧
      Mirrored out.flatten outEcho s.capture.finish.stdout ∧
      Mirrored err.flatten errEcho s.capture.finish.stderr := by
  have collected := (reads.exhausted finished).collected
  refine ⟨_, _, collected.shownOut takes.stdout,
    collected.shownErr (Or.inr ⟨takes.stdout, takes.stderr⟩) takes.stderr, ?_, ?_⟩
  · rw [collected.stdout]
    exact mirrored_ofBytes out.flatten
  · rw [collected.stderr]
    exact mirrored_ofBytes err.flatten

/-! ## What is read of a process -/

namespace ChildRun

variable (run : ChildRun) (stream : Stream)

/-- The bytes of a stream that are read in lines: all of them, unless reading fails. -/
def bytesRead : Bytes := front (run.segments stream) (run.chunks stream).flatten

theorem ofBytes_bytesRead : ofBytes (run.bytesRead stream) = run.segments stream := by
  have first := run.segments_prefix stream
  rw [segments_eq_ofBytes] at first
  exact ofBytes_front first

theorem bytesRead_prefix : run.bytesRead stream <+: (run.chunks stream).flatten :=
  List.take_prefix _ _

variable {run}

theorem ReadToEnd.bytesRead_eq (read : run.ReadToEnd) :
    run.bytesRead stream = (run.chunks stream).flatten := by
  rw [bytesRead, read.segments_eq, segments_eq_ofBytes, front_ofBytes]

end ChildRun

/-! ## Turns -/

namespace Turn

/-- What is read from standard output of the process of a test. -/
def outBytes (t : Turn) : Bytes := t.child.elim [] (·.bytesRead .stdout)

/-- What is read from standard error of the process of a test. -/
def errBytes (t : Turn) : Bytes := t.child.elim [] (·.bytesRead .stderr)

theorem outLines_eq (t : Turn) : t.outLines = ofBytes t.outBytes := by
  cases h : t.child with
  | none => simp [outLines, outBytes, h, ofBytes, Pieces.split]
  | some run => simp [outLines, outBytes, h, run.ofBytes_bytesRead]

theorem errLines_eq (t : Turn) : t.errLines = ofBytes t.errBytes := by
  cases h : t.child with
  | none => simp [errLines, errBytes, h, ofBytes, Pieces.split]
  | some run => simp [errLines, errBytes, h, run.ofBytes_bytesRead]

/-- What is read of a test is the front of what its process wrote, and all of it if the process is read
to the end. -/
structure ReadsFrom (t : Turn) (run : ChildRun) : Prop where
  outFront : t.outBytes <+: run.stdout.flatten
  errFront : t.errBytes <+: run.stderr.flatten
  whole : run.ReadToEnd → t.outBytes = run.stdout.flatten ∧ t.errBytes = run.stderr.flatten

theorem readsFrom {t : Turn} {run : ChildRun} (child : t.child = some run) : t.ReadsFrom run := by
  have hout : t.outBytes = run.bytesRead .stdout := by rw [outBytes, child, Option.elim_some]
  have herr : t.errBytes = run.bytesRead .stderr := by rw [errBytes, child, Option.elim_some]
  constructor
  · rw [hout]
    exact run.bytesRead_prefix .stdout
  · rw [herr]
    exact run.bytesRead_prefix .stderr
  · intro read
    rw [hout, herr]
    exact ⟨read.bytesRead_eq .stdout, read.bytesRead_eq .stderr⟩

/-- Where no notes are shown, nothing but the lines of the tests comes to standard error. -/
theorem margin_of_silent {shown : LogRecord → Option Bytes} (silent : ∀ record, shown record = none)
    (root : String) (t : Turn) : t.margin shown root = echoOf t.errBytes := by
  have hnoted : ∀ records, Console.noted shown records = [] := by
    intro records
    simp [Console.noted, silent]
  rw [margin, hnoted, hnoted, errLines_eq, shown_ofBytes, List.nil_append, List.append_nil]

end Turn

namespace Runner

section

variable (r : Runner) (launch : Launch) (root : String)

/-- The outcome of a test keeps the lines that are read of its process. -/
theorem turn_kept (entry : Entry) (m : Machine) :
    let t := r.turn launch root entry m
    t.outcome.stdout = t.outLines.map Capture.lineOf ∧
      t.outcome.stderr = t.errLines.map Capture.lineOf := by
  unfold turn attempt
  simp only []
  cases m.currentDir with
  | error e => exact ⟨rfl, rfl⟩
  | ok start =>
    cases m.changeDir (Utf8.encode (entry.workingDir root)) with
    | error e => exact ⟨rfl, rfl⟩
    | ok inside =>
      simp only []
      cases launch (r.command entry (testDir m (entry.workingDir root)) inside) inside.files with
      | error e => exact ⟨rfl, rfl⟩
      | ok left => simp [Turn.outLines, Turn.errLines, Outcome.ofRun]

theorem turn_mirrored (entry : Entry) (m : Machine) :
    let t := r.turn launch root entry m
    Mirrored t.outBytes (echoOf t.outBytes) t.outcome.stdout ∧
      Mirrored t.errBytes (echoOf t.errBytes) t.outcome.stderr := by
  intro t
  obtain ⟨hout, herr⟩ := r.turn_kept launch root entry m
  rw [← shown_ofBytes, ← shown_ofBytes, hout, herr, Turn.outLines_eq, Turn.errLines_eq]
  exact ⟨mirrored_ofBytes _, mirrored_ofBytes _⟩

theorem exists_turn_of_mem (entries : List Entry) :
    ∀ (m : Machine) {t : Turn}, t ∈ r.turns launch root entries m →
      ∃ entry m', t = r.turn launch root entry m' := by
  induction entries with
  | nil =>
    intro m t member
    cases member
  | cons entry rest ih =>
    intro m t member
    rcases List.mem_cons.mp member with rfl | member
    · exact ⟨entry, m, rfl⟩
    · exact ih _ member

/-- Tests that are run one after another show what each of them shows, one after another. -/
theorem runEach_prints (shown : LogRecord → Option Bytes) (entries : List Entry) :
    ∀ {w : World}, w.console.Takes → w.console.shown = shown →
      let turns := r.turns launch root entries w.machine
      w.console.Prints (r.runEach launch root entries w).2.console
        (turns.flatMap fun t => Lines.shown t.outLines) (turns.flatMap (Turn.margin shown root)) := by
  induction entries with
  | nil =>
    intro w takes _
    exact .refl takes
  | cons entry rest ih =>
    intro w takes hshown
    have first := r.runTest_prints launch root entry takes
    have others := ih first.takes (first.shown.trans hshown)
    rw [(r.runTest_eq_attempt launch root entry w).2] at others
    rw [hshown] at first
    exact first.trans others

end

/-! ## Runs -/

variable {ε κ : Type} (r : Runner) (launch : Launch) (follower : Follower ε κ)
  (selection : Selection) (s : RunState κ)

/-- The outcomes that a follower is told of in a run. -/
def toldOutcomes : List Outcome := reported ((r.log launch follower selection s).map (·.1))

theorem reported_take_tests (root : String) (summary : Summary) (elapsed : Nat)
    (tests : List (Entry × Outcome)) :
    ∀ k, reported ((told (testDeeds root tests) ++ [Event.runFinished summary elapsed]).take k) =
      (tests.map (·.2)).take (k / 2) := by
  induction tests with
  | nil =>
    intro k
    cases k <;> simp [told, testDeeds, reported]
  | cons test rest ih =>
    intro k
    -- a test has two events, and its outcome is in the second one
    rcases k with _ | _ | k
    · rfl
    · rfl
    · rw [show (k + 2) / 2 = k / 2 + 1 by omega, List.map_cons, List.take_succ_cons, ← ih k]
      rfl

/-- Among the first events of a run every second one after the first tells an outcome. -/
theorem reported_take_trace {selection : Selection} {outcomes : List Outcome}
    (hlen : outcomes.length = selection.entries.length) (elapsed n : Nat) :
    reported ((trace selection outcomes elapsed).take (n + 1)) = outcomes.take (n / 2) := by
  have hsecond : (selection.entries.zip outcomes).map (·.2) = outcomes :=
    List.map_snd_zip (by omega)
  rw [trace, ← told_testDeeds, List.cons_append, List.take_succ_cons]
  conv_rhs => rw [← hsecond]
  exact reported_take_tests _ _ _ _ n

theorem runEach_take (root : String) (entries : List Entry) :
    ∀ (k : Nat) (w : World),
      (r.runEach launch root (entries.take k) w).1 =
        (r.runEach launch root entries w).1.take k := by
  induction entries with
  | nil =>
    intro k w
    simp [runEach]
  | cons entry rest ih =>
    intro k w
    cases k with
    | zero => rfl
    | succ k =>
      rw [List.take_succ_cons, runEach, runEach, List.take_succ_cons, ih]

/-- The tests that have been run when a run ends are those whose outcomes have been told. -/
theorem exists_ran (elsewhere : WritesElsewhere follower) :
    ∃ ran, ran <+: selection.entries ∧
      ((∀ heard ∈ r.log launch follower selection s, heard.2 = none) → ran = selection.entries) ∧
      r.toldOutcomes launch follower selection s =
        (r.runEach launch selection.root ran s.world).1 ∧
      World.Agree (r.tryExecute launch follower selection s).2.world
        (r.runEach launch selection.root ran s.world).2 := by
  by_cases quiet : ∀ heard ∈ r.log launch follower selection s, heard.2 = none
  · have completed := r.completed_of_quiet launch follower selection s quiet
    exact ⟨selection.entries, List.prefix_rfl, fun _ => rfl, completed.outcomes,
      completed.shown elsewhere⟩
  · obtain ⟨n, objection, first⟩ : ∃ n objection,
        FirstObjection (r.log launch follower selection s) n objection := by
      have ending := (r.tryExecute_logged launch follower selection s).2
      generalize r.follow launch selection.root follower (r.plan launch selection s.world) s = final
        at ending
      generalize r.log launch follower selection s = log at ending quiet ⊢
      cases ending with
      | done => exact absurd (by simp) quiet
      | stopped before e after objection split =>
        exact ⟨_, objection, _, e, [], rfl, rfl, by simp⟩
    obtain ⟨-, heard, -, deeds, -, -, htested, -, hfinal⟩ :=
      r.stopped_of_firstObjection launch follower selection s first
    obtain ⟨before, -, -, -, hn, -⟩ := first
    refine ⟨tested deeds, ?_, fun h => absurd h quiet, ?_, ?_⟩
    · rw [htested]
      exact List.take_prefix _ _
    · have hlen := r.length_runEach launch selection.root selection.entries s.world
      rw [toldOutcomes, heard, htested, runEach_take, ← hn, foreseen, Nat.add_sub_cancel]
      exact reported_take_trace hlen _ _
    · rw [hfinal]
      exact r.foldl_perform_agree launch selection.root elsewhere deeds s

/-- The echo and what is kept of a process, in any schedule and with both echoes going to sinks that
take everything; and the echoes of a run, whose follower leaves the sinks alone, in buffers that notes
are not shown in: whether the run goes to its end or is stopped, they hold what the tests that were run
have echoed of what is read of them, one after another. -/
theorem streams_mirrored :
    (∀ (marker : Bytes) (out err : List Bytes) (console : Console), console.Takes →
      ∀ (deliveries : List Delivery) (s : Reading),
        Reading.Reads marker (.start out err console) deliveries s → s.Finished →
          ∃ outEcho errEcho,
            s.console.stdout.contents = console.stdout.contents ++ outEcho ∧
            s.console.stderr.contents = console.stderr.contents ++ errEcho ∧
            Mirrored out.flatten outEcho s.capture.finish.stdout ∧
            Mirrored err.flatten errEcho s.capture.finish.stderr) ∧
    ∀ {ε κ : Type} (r : Runner) (launch : Launch) (follower : Follower ε κ) (selection : Selection)
      (s : RunState κ), s.world.console.Takes → (∀ record, s.world.console.shown record = none) →
      WritesElsewhere follower →
        let outcomes := r.toldOutcomes launch follower selection s
        let ran := outcomes.map (·.entry)
        let turns := r.turns launch selection.root ran s.world.machine
        let final := (r.tryExecute launch follower selection s).2.world.console
        ran <+: selection.entries ∧
        ((∀ heard ∈ r.log launch follower selection s, heard.2 = none) →
          ran = selection.entries) ∧
        turns.map (·.outcome) = outcomes ∧
        final.stdout.contents =
          s.world.console.stdout.contents ++ turns.flatMap (fun t => echoOf t.outBytes) ∧
        final.stderr.contents =
          s.world.console.stderr.contents ++ turns.flatMap (fun t => echoOf t.errBytes) ∧
        ∀ t ∈ turns, Mirrored t.outBytes (echoOf t.outBytes) t.outcome.stdout ∧
          Mirrored t.errBytes (echoOf t.errBytes) t.outcome.stderr ∧
          ∀ run, t.child = some run → t.ReadsFrom run := by
  refine ⟨fun marker out err console takes deliveries s reads finished =>
    reads.mirrored finished takes, ?_⟩
  intro ε κ r launch follower selection s takes silent elsewhere outcomes ran turns final
  obtain ⟨tests, within, complete, houtcomes, hagree⟩ :=
    r.exists_ran launch follower selection s elsewhere
  have hran : ran = tests := by
    show outcomes.map (·.entry) = tests
    rw [show outcomes = _ from houtcomes, map_entry_runEach]
  have hturns : turns = r.turns launch selection.root tests s.world.machine := by
    simp only [turns, hran]
  have prints := r.runEach_prints launch selection.root s.world.console.shown tests takes rfl
  have hout : (fun t : Turn => Lines.shown t.outLines) = fun t => echoOf t.outBytes := by
    funext t
    rw [Turn.outLines_eq, shown_ofBytes]
  have herr : Turn.margin s.world.console.shown selection.root = fun t => echoOf t.errBytes :=
    funext fun t => t.margin_of_silent silent selection.root
  refine ⟨hran ▸ within, fun quiet => hran.trans (complete quiet), ?_, ?_, ?_, ?_⟩
  · rw [hturns, map_outcome_turns]
    exact houtcomes.symm
  · rw [show final.stdout = _ from hagree.console.stdout, prints.stdout, hout, hturns]
  · rw [show final.stderr = _ from hagree.console.stderr, prints.stderr, herr, hturns]
  · intro t member
    obtain ⟨entry, m, rfl⟩ := r.exists_turn_of_mem launch selection.root ran _ member
    obtain ⟨hout, herr⟩ := r.turn_mirrored launch selection.root entry m
    exact ⟨hout, herr, fun run => Turn.readsFrom⟩

/-- One test writes carriage returns in front of a line end, alone in a line and at its end, and a byte
that is no text; the other one cannot be launched. -/
theorem streams_mirrored_of_returns :
    let r : Runner := ⟨⟨"sh", []⟩, "ok"⟩
    let files : Files := ⟨.directory 0 [([0x61], .directory 1 []), ([0x62], .directory 2 [])], [], 3, []⟩
    let child : ChildRun := ⟨[[0x61, 13], [13, 10, 13], [10, 0xff, 13]], [[10]], [], some 0, 1, .none⟩
    let launch : Launch := fun c files =>
      if c.directory = 1 then .ok (child, files) else .error (.system .noEntry)
    let follower : Follower Unit Nat := fun _ state => (state, none)
    let selection : Selection := ⟨"/", .runAll, [⟨"a/go"⟩, ⟨"b/go"⟩]⟩
    let s : RunState Nat := ⟨⟨⟨files, 0, [], 0⟩, .buffers⟩, 0⟩
    let outcomes := r.toldOutcomes launch follower selection s
    let final := (r.tryExecute launch follower selection s).2.world.console
    (∃ reading, Reading.Reads (Utf8.encode "ok") (.start child.stdout child.stderr .buffers)
          (Delivery.ofRun child) reading ∧
        reading.console.stdout.contents = [0x61, 13, 10, 10, 0xff, 10] ∧
        reading.capture.finish.stdout = ["a\x0d", "", "\ufffd"]) ∧
      final.stdout.contents = [0x61, 13, 10, 10, 0xff, 10] ∧ final.stderr.contents = [10] ∧
      outcomes.map (·.stdout) = [["a\x0d", "", "\ufffd"], []] := by
  intro r files child launch follower selection s outcomes final
  have takes : Console.buffers.Takes := ⟨fun _ _ _ => rfl, fun _ _ _ => rfl⟩
  obtain ⟨reading, reads, finished, -⟩ := child.reads_collect (Utf8.encode "ok") .buffers
  obtain ⟨outEcho, -, echoed, -, mirrored, -⟩ :=
    streams_mirrored.1 _ _ _ .buffers takes _ reading reads (finished.mpr ⟨rfl, rfl⟩)
  have decoded := mirrored.decoded
  rw [mirrored.echoed] at decoded echoed
  refine ⟨⟨reading, reads, echoed.trans (by decide +kernel), decoded.trans (by decide +kernel)⟩, ?_⟩
  have elsewhere : WritesElsewhere follower := fun _ c _ => .refl c
  obtain ⟨-, -, -, hout, herr, -⟩ := streams_mirrored.2 r launch follower selection s takes
    (fun _ => rfl) elsewhere
  let turns := r.turns launch selection.root (outcomes.map (·.entry)) s.world.machine
  have outEchoes : turns.flatMap (fun t => echoOf t.outBytes) = [0x61, 13, 10, 10, 0xff, 10] := by
    decide +kernel
  have errEchoes : turns.flatMap (fun t => echoOf t.errBytes) = [10] := by decide +kernel
  have outEmpty : s.world.console.stdout.contents = [] := rfl
  have errEmpty : s.world.console.stderr.contents = [] := rfl
  have kept : outcomes.map (·.stdout) = [["a\x0d", "", "\ufffd"], []] := by decide +kernel
  rw [outEmpty, List.nil_append, outEchoes] at hout
  rw [errEmpty, List.nil_append, errEchoes] at herr
  exact ⟨hout, herr, kept⟩

end Runner

end BenchHarness
