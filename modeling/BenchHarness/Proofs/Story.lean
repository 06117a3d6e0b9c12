import BenchHarness.Proofs.Paths
import BenchHarness.Proofs.Protocol
import BenchHarness.Proofs.ReportLines

/-!
# What a report tells

A reporter writes the text of every event of a run. Read on their own, the texts of a run that came
to its end agree with one another and with the summary it gives (`Story`): the header, the
announcements, the verdicts, the counts, the banner and the list of failed tests are about the same
tests (`Runner.tryExecute_story`).
-/

namespace BenchHarness

/-! ## Directories of entry points -/

/-- A directory is written with what the path is written with. -/
theorem Entry.mem_dir {e : Entry} {c : Char} (member : c ∈ e.dir.toList) :
    c = '/' ∨ c ∈ e.path.toList := by
  have piece : ∀ piece ∈ Path.pieces e.path.toList, c ∈ piece → c ∈ e.path.toList :=
    fun _ hpiece h => Pieces.mem_of_mem_split hpiece h
  unfold Entry.dir Path.parent? at member
  generalize Path.pieces e.path.toList = pieces at piece member
  cases pieces with
  | nil => simp at member
  | cons first rest =>
    cases ends : rest.reverse.dropWhile Path.isBlank with
    | nil =>
      simp only [ends] at member
      split at member
      · simp at member
      · simp at member
    | cons last before =>
      simp only [ends] at member
      split at member
      · exact .inl (by simpa using member)
      · rw [Option.getD_some, String.toList_ofList] at member
        rcases Pieces.mem_of_mem_glue member with h | ⟨p, hp, h⟩
        · exact .inl h
        · rcases List.mem_cons.mp hp with rfl | hp
          · exact .inr (piece p List.mem_cons_self h)
          · -- what is kept in front of the last component are parts of the path
            exact .inr (piece p (List.mem_cons_of_mem first (Path.mem_of_ends ends hp)) h)

/-! ## Reporters -/

/-- What is kept where every event is reported: the state of the follower that is also told them,
where the report goes, and the text that each event has come to. -/
structure Reported (κ : Type) where
  follower : κ
  sink : Sink
  record : List (Event × Bytes)

namespace Runner

variable {ε κ : Type}

/-- A follower that reports every event and then does what another one does. -/
def reporting (theme : Theme) (follower : Follower ε κ) : Follower (WriteError ⊕ ε) (Reported κ) :=
  fun e (console, k) =>
    match Report.writeEvent Sink.put theme e k.sink with
    | (some error, sink) => ((console, { k with sink := sink }), some (.inl error))
    | (none, sink) =>
      let ((console, own), objection) := follower e (console, k.follower)
      let written := sink.contents.drop k.sink.contents.length
      ((console, ⟨own, sink, k.record ++ [(e, written)]⟩), objection.map .inr)

variable (r : Runner) (launch : Launch) (root : String) (theme : Theme) (follower : Follower ε κ)

/-- An event that is told is written, and the other follower is heard. -/
theorem tell_reporting (e : Event) {s : RunState (Reported κ)} (takes : s.follower.sink.Takes) :
    let told := tell (reporting theme follower) e s
    told.1.follower.sink.Takes ∧
      told.1.follower.record = s.follower.record ++ [(e, Report.text theme e)] ∧
      told.2 = (follower e (s.world.console, s.follower.follower)).2.map .inr := by
  obtain ⟨hnone, htakes, hcontents⟩ :=
    Channel.Emits.write Sink.carries_put (Report.event theme e) s.follower.sink takes
  simp only [tell, reporting, Report.writeEvent]
  generalize Report.write Sink.put (Report.event theme e) s.follower.sink = result
    at hnone htakes hcontents ⊢
  obtain ⟨error, sink⟩ := result
  obtain rfl : error = none := hnone
  have grown : sink.contents = s.follower.sink.contents ++ Report.text theme e := hcontents
  refine ⟨htakes, ?_, rfl⟩
  show _ ++ [(e, sink.contents.drop _)] = _
  rw [grown, List.drop_left]

/-- Deeds are reported one after the other. -/
theorem foldl_perform_reporting (deeds : List Deed) :
    ∀ s : RunState (Reported κ), s.follower.sink.Takes →
      (deeds.foldl (r.perform launch root (reporting theme follower)) s).follower.record =
        s.follower.record ++ (told deeds).map fun e => (e, Report.text theme e) := by
  induction deeds with
  | nil =>
    intro s _
    exact (List.append_nil _).symm
  | cons deed deeds ih =>
    intro s takes
    rw [List.foldl_cons]
    cases deed with
    | test entry => exact ih _ takes
    | tell e =>
      obtain ⟨htakes, hrecord, -⟩ := tell_reporting theme follower e takes
      rw [perform, ih _ htakes, hrecord, List.append_assoc]
      rfl

theorem follow_reporting_quiet (patient : ∀ e state, (follower e state).2 = none)
    (deeds : List Deed) : ∀ s : RunState (Reported κ), s.follower.sink.Takes →
      (r.follow launch root (reporting theme follower) deeds s).1 = none := by
  induction deeds with
  | nil =>
    intro s _
    rfl
  | cons deed deeds ih =>
    intro s takes
    cases deed with
    | test entry => exact ih _ takes
    | tell e =>
      obtain ⟨htakes, -, hanswer⟩ := tell_reporting theme follower e takes
      rw [patient] at hanswer
      rw [follow_tell_of_quiet hanswer]
      exact ih _ htakes

/-- Nothing but the other follower can end a run whose report is taken. -/
theorem tryExecute_reporting_of_patient (selection : Selection)
    (patient : ∀ e state, (follower e state).2 = none) {s : RunState (Reported κ)}
    (takes : s.follower.sink.Takes) :
    (r.tryExecute launch (reporting theme follower) selection s).1 = .ok (Summary.ofOutcomes
      (r.runEach launch selection.root selection.entries s.world).1) := by
  have quiet := r.follow_reporting_quiet launch selection.root theme follower patient
    (r.plan launch selection s.world) s takes
  rw [(r.tryExecute_of_quiet launch (reporting theme follower) selection s quiet).1]

/-- A completed run has been reported from its first event to its last. -/
theorem record_of_completed {selection : Selection} {s : RunState (Reported κ)} {summary : Summary}
    (takes : s.follower.sink.Takes)
    (completed : (r.tryExecute launch (reporting theme follower) selection s).1 = .ok summary) :
    summary = Summary.ofOutcomes (r.runEach launch selection.root selection.entries s.world).1 ∧
      (r.tryExecute launch (reporting theme follower) selection s).2.follower.record =
        s.follower.record ++
          (r.foreseen launch selection s.world).map fun e => (e, Report.text theme e) := by
  have hresult := r.tryExecute_eq_follow launch (reporting theme follower) selection s
  have hdone := r.follow_of_quiet launch selection.root (reporting theme follower)
    (r.plan launch selection s.world) s
  have hrecord := r.foldl_perform_reporting launch selection.root theme follower
    (r.plan launch selection s.world) s takes
  rw [told_plan] at hrecord
  rw [hresult] at completed ⊢
  generalize r.follow launch selection.root (reporting theme follower)
    (r.plan launch selection s.world) s = final at completed hdone ⊢
  obtain ⟨_ | objection, s'⟩ := final
  · have hs' : s' = _ := hdone rfl
    refine ⟨(Except.ok.inj completed).symm, ?_⟩
    show s'.follower.record = _
    rw [hs', hrecord]
  · exact nomatch completed

end Runner

/-! ## The story -/

open Report

/-- The events of a report that are about something of a kind, each as what it is about and its
text. -/
def textsOn {α : Type} (subject? : Event → Option α) (record : List (Event × Bytes)) :
    List (α × Bytes) :=
  record.filterMap fun (e, text) => (subject? e).map (·, text)

namespace Event

/-- The selection whose run starts. -/
def selection? : Event → Option Selection
  | .runStarted selection => some selection
  | _ => none

/-- The test that is announced. -/
def announced? : Event → Option Entry
  | .testStarted entry _ => some entry
  | _ => none

/-- The outcome that is reported. -/
def outcome? : Event → Option Outcome
  | .testFinished outcome => some outcome
  | _ => none

/-- The summary of a run that ended. -/
def summary? : Event → Option Summary
  | .runFinished summary _ => some summary
  | _ => none

end Event

/-- Whether a verdict is headed by a mark. -/
def marked (mark : String) (verdict : Outcome × Bytes) : Bool := headedBy mark verdict.2

/-- The texts of a run agree with one another and with its exit code. -/
structure Story (header : Bytes) (announced : List (Entry × Bytes))
    (verdicts : List (Outcome × Bytes)) (closing : Bytes) (exitCode : Nat) : Prop where
  announcement : ∀ entry text, (entry, text) ∈ announced →
    ∃ dir, read text = announcement entry.path dir
  /-- The header lists the tests that are announced, in their order. -/
  bullets : headerBullets header = announced.map (·.1.path.toList)
  tests : verdicts.map (·.1.entry) = announced.map (·.1)
  starting : ("    Starting " ++ toString verdicts.length ++ " tests under ").toList <+:
    startingLine header
  /-- A verdict is headed in one of two ways, and names the test. -/
  headed : ∀ verdict ∈ verdicts, marked passMark verdict = ! marked failMark verdict
  named : ∀ outcome text, (outcome, text) ∈ verdicts →
    (outcome.entry.path ++ ": ").toList <+: afterDuration (read text)
  counted : countsOf closing = counts verdicts.length (verdicts.countP (marked passMark))
    (verdicts.countP (marked failMark))
  allPassed : banner.toList ∈ linesOf closing ↔ ∀ verdict ∈ verdicts, ¬ marked failMark verdict
  exit : exitCode = 0 ↔ ∀ verdict ∈ verdicts, ¬ marked failMark verdict
  /-- Where a test failed, the failed directories are listed in run order, one for each failure. -/
  failures : (∃ verdict ∈ verdicts, marked failMark verdict) →
    failedHeading.toList ∈ linesOf closing ∧ failedBullets closing =
      (verdicts.filter (marked failMark)).map (shownDir ·.1.entry.dir)

namespace Runner

variable {selection : Selection} {outcomes : List Outcome}

/-- A report without colour, event by event. -/
def recordOf (events : List Event) : List (Event × Bytes) :=
  events.map fun e => (e, Report.text .plain e)

theorem textsOn_append {α : Type} (subject? : Event → Option α) (events more : List Event) :
    textsOn subject? (recordOf (events ++ more)) =
      textsOn subject? (recordOf events) ++ textsOn subject? (recordOf more) := by
  rw [recordOf, List.map_append]
  exact List.filterMap_append

theorem textsOn_tests {α : Type} (subject? : Event → Option α) (root : String)
    (tests : List (Entry × Outcome)) :
    textsOn subject? (recordOf (tests.flatMap fun (entry, outcome) =>
      [.testStarted entry (entry.workingDir root), .testFinished outcome])) =
        tests.flatMap fun (entry, outcome) => textsOn subject? (recordOf
          [.testStarted entry (entry.workingDir root), .testFinished outcome]) := by
  induction tests with
  | nil => rfl
  | cons test rest ih => rw [List.flatMap_cons, textsOn_append, ih, List.flatMap_cons]

/-- What a report says on anything, by the outcomes of the run. -/
theorem textsOn_trace {α : Type} (subject? : Event → Option α) (elapsed : Nat)
    (same : outcomes.map (·.entry) = selection.entries) :
    textsOn subject? (recordOf (trace selection outcomes elapsed)) =
      textsOn subject? (recordOf [.runStarted selection]) ++
        outcomes.flatMap (fun o => textsOn subject? (recordOf
          [.testStarted o.entry (o.entry.workingDir selection.root), .testFinished o])) ++
        textsOn subject? (recordOf [.runFinished (Summary.ofOutcomes outcomes) elapsed]) := by
  have paired : selection.entries.zip outcomes = outcomes.map fun o => (o.entry, o) := by
    have hzip : (outcomes.map (·.entry)).zip (outcomes.map id) =
        outcomes.map fun o => (o.entry, o) := List.zip_map'
    rwa [List.map_id, same] at hzip
  rw [trace, ← List.singleton_append, textsOn_append, textsOn_append, textsOn_tests, paired,
    List.flatMap_map]

theorem marked_text (o : Outcome) :
    marked passMark (o, Report.text .plain (.testFinished o)) = o.passed ∧
      marked failMark (o, Report.text .plain (.testFinished o)) = ! o.passed := headedBy_text o

/-- The report of a trace tells one story. -/
theorem story_trace (elapsed : Nat)
    (runs : selection.action.runsTests = true) (rootLine : '\n' ∉ selection.root.toList)
    (pathLines : ∀ e ∈ selection.entries, '\n' ∉ e.path.toList)
    (same : outcomes.map (·.entry) = selection.entries) :
    let record := recordOf (trace selection outcomes elapsed)
    ∃ header closing, textsOn Event.selection? record = [(selection, header)] ∧
      textsOn Event.summary? record = [(Summary.ofOutcomes outcomes, closing)] ∧
      Story header (textsOn Event.announced? record) (textsOn Event.outcome? record) closing
        (Summary.ofOutcomes outcomes).exitCode := by
  intro record
  have hheader : textsOn Event.selection? record =
      [(selection, Report.text .plain (.runStarted selection))] := by
    rw [textsOn_trace _ elapsed same]
    show [_] ++ outcomes.flatMap (fun _ => []) ++ [] = [_]
    simp
  have hclosing : textsOn Event.summary? record = [(Summary.ofOutcomes outcomes,
      Report.text .plain (.runFinished (Summary.ofOutcomes outcomes) elapsed))] := by
    rw [textsOn_trace _ elapsed same]
    show [] ++ outcomes.flatMap (fun _ => []) ++ [_] = [_]
    simp
  have hannouncements : textsOn Event.announced? record = outcomes.map fun o => (o.entry,
      Report.text .plain (.testStarted o.entry (o.entry.workingDir selection.root))) := by
    rw [textsOn_trace _ elapsed same, List.map_eq_flatMap]
    exact List.append_nil _
  have hverdicts : textsOn Event.outcome? record =
      outcomes.map fun o => (o, Report.text .plain (.testFinished o)) := by
    rw [textsOn_trace _ elapsed same, List.map_eq_flatMap]
    exact List.append_nil _
  refine ⟨_, _, hheader, hclosing, ?_⟩
  have hlen : selection.entries.length = outcomes.length := by rw [← same, List.length_map]
  have dirLines : ∀ dir ∈ (Summary.ofOutcomes outcomes).failedDirs, '\n' ∉ dir.toList := by
    rw [Summary.ofOutcomes_eq]
    intro dir hdir member
    obtain ⟨o, ho, rfl⟩ := List.mem_map.mp hdir
    have hentry : o.entry ∈ selection.entries := by
      rw [← same]
      exact List.mem_map_of_mem (List.mem_of_mem_filter ho)
    rcases Entry.mem_dir member with h | h
    · exact absurd h (by decide)
    · exact pathLines o.entry hentry h
  have clean : (∀ verdict ∈ textsOn Event.outcome? record, ¬ marked failMark verdict) ↔
      (Summary.ofOutcomes outcomes).isSuccess = true := by
    rw [Summary.isSuccess_iff, hverdicts]
    simp [marked_text]
  constructor
  case announcement =>
    intro entry text member
    rw [hannouncements] at member
    obtain ⟨o, -, ho⟩ := List.mem_map.mp member
    cases ho
    exact ⟨_, read_testStarted o.entry _⟩
  case bullets =>
    rw [headerBullets_text runs rootLine pathLines, hannouncements, ← same]
    simp
  case tests =>
    rw [hannouncements, hverdicts]
    simp
  case starting =>
    rw [startingLine_text runs rootLine pathLines, hlen, hverdicts, List.length_map]
    refine ⟨selection.root.toList, ?_⟩
    rw [Report.starting, ← String.toList_append]
  case headed =>
    intro verdict member
    rw [hverdicts] at member
    obtain ⟨o, -, rfl⟩ := List.mem_map.mp member
    obtain ⟨hpass, hfail⟩ := marked_text o
    rw [hpass, hfail, Bool.not_not]
  case named =>
    intro outcome text member
    rw [hverdicts] at member
    obtain ⟨o, -, ho⟩ := List.mem_map.mp member
    cases ho
    exact path_prefix_text outcome
  case counted =>
    rw [countsOf_text dirLines, hverdicts, Summary.ofOutcomes_eq]
    simp [List.countP_map, Function.comp_def, marked_text]
  case allPassed => rw [banner_mem_text_iff dirLines, clean]
  case exit =>
    rw [clean, Summary.exitCode]
    simp
  case failures =>
    rintro ⟨verdict, member, failed⟩
    have unsuccessful : (Summary.ofOutcomes outcomes).isSuccess = false := by
      rw [← Bool.not_eq_true, ← clean]
      exact fun h => h verdict member failed
    refine ⟨(failedHeading_mem_text_iff dirLines elapsed).mpr unsuccessful, ?_⟩
    rw [failedBullets_text dirLines elapsed unsuccessful, hverdicts, Summary.ofOutcomes_eq]
    simp [List.filter_map, Function.comp_def, marked_text]

variable {ε κ : Type} (r : Runner) (launch : Launch) (follower : Follower ε κ)

/-- Every completed run whose events are all reported without colour tells one story. -/
theorem tryExecute_story {selection : Selection} (runs : selection.action.runsTests = true)
    (rootLine : '\n' ∉ selection.root.toList)
    (pathLines : ∀ e ∈ selection.entries, '\n' ∉ e.path.toList) {s : RunState (Reported κ)}
    (takes : s.follower.sink.Takes) (fresh : s.follower.record = []) {summary : Summary}
    (completed : (r.tryExecute launch (reporting .plain follower) selection s).1 = .ok summary) :
    let record :=
      (r.tryExecute launch (reporting .plain follower) selection s).2.follower.record
    ∃ header closing, textsOn Event.selection? record = [(selection, header)] ∧
      textsOn Event.summary? record = [(summary, closing)] ∧
      Story header (textsOn Event.announced? record) (textsOn Event.outcome? record) closing
        summary.exitCode := by
  intro record
  obtain ⟨hsummary, hrecord⟩ := r.record_of_completed launch .plain follower takes completed
  have hwhole : record = recordOf (r.foreseen launch selection s.world) := by
    rw [fresh, List.nil_append] at hrecord
    exact hrecord
  rw [hwhole, hsummary]
  exact story_trace _ runs rootLine pathLines
    (r.map_entry_runEach launch selection.root selection.entries s.world)

/-- The first of two tests passes. The one at the root prints the marker and exits as if it had passed,
but its standard error cannot be read to the end. -/
theorem tryExecute_story_of_two_tests :
    let r : Runner := ⟨⟨"sh", []⟩, "ok"⟩
    let torn : IoError := .system .noEntry
    let child (faults : Faults) : ChildRun := ⟨[[0x6f, 0x6b]], [[0x61]], [], some 0, 5, faults⟩
    let launch : Launch := fun command files =>
      .ok (child (if command.directory = 1 then .none else ⟨none, some torn, none, none⟩), files)
    let follower : Follower Unit Nat := fun _ (console, told) => ((console, told + 1), none)
    let selection : Selection := ⟨"/", .runFiltered "go", [⟨"a/go.sh"⟩, ⟨"go.sh"⟩]⟩
    let machine : Machine := ⟨⟨.directory 0 [([0x61], .directory 1 [])], [], 2, []⟩, 0, [], 0⟩
    let s : RunState (Reported Nat) := ⟨⟨machine, .buffers⟩, ⟨0, .buffer, []⟩⟩
    let outcomes := (r.runEach launch selection.root selection.entries s.world).1
    let record :=
      (r.tryExecute launch (reporting .plain follower) selection s).2.follower.record
    outcomes.map (fun o => (o.markers, o.exitCode, o.failure)) =
        [(1, some 0, none), (1, some 0, some (.readStderr torn))] ∧
      ∃ header closing, textsOn Event.selection? record = [(selection, header)] ∧
        textsOn Event.summary? record = [(⟨2, 1, 1, [""]⟩, closing)] ∧
        Story header (textsOn Event.announced? record) (textsOn Event.outcome? record) closing 1 := by
  intro r torn child launch follower selection machine s outcomes
  have takes : s.follower.sink.Takes := fun _ _ _ => rfl
  have summary : Summary.ofOutcomes (r.runEach launch selection.root selection.entries s.world).1 =
      ⟨2, 1, 1, [""]⟩ := by decide +kernel
  have completed := r.tryExecute_reporting_of_patient launch .plain follower selection
    (fun _ _ => rfl) takes
  rw [summary] at completed
  have pathLines : ∀ e ∈ selection.entries, '\n' ∉ e.path.toList := by decide
  refine ⟨by decide +kernel, ?_⟩
  exact r.tryExecute_story launch follower rfl (by decide) pathLines takes rfl completed

end Runner

end BenchHarness
