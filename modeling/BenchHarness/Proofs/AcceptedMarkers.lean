import BenchHarness.Config.Sources
import BenchHarness.Proofs.Marker

/-!
# The markers a configuration may have

A configuration is accepted if its marker is not empty. The marker is meant to be any text that a
test prints, but it is looked for in trimmed lines, and two kinds of accepted markers do not fit
there. One with a line end is never found, so that no test can pass (`Config.not_passed_of_two_lines`). One
that ends with a carriage return is only found where the line goes on. For every other marker a test
passes exactly if it prints the marker (`Config.passed_iff_found`).
-/

namespace BenchHarness

/-! ## Segments that hold a needle -/

namespace Lines

open Search

variable {needle : Bytes}

theorem segments_eq_flatten (chunks : List Bytes) :
    segments chunks = segments [chunks.flatten] := by
  rw [segments_eq, segments_eq, List.flatten_singleton]

theorem lineEnd_not_mem_of_mem_segments {bytes segment : Bytes}
    (member : segment ∈ segments [bytes]) : lineEnd ∉ segment := by
  induction bytes using stream_induction with
  | last bytes absent =>
    rw [segments_last absent] at member
    split at member
    · cases member
    · rw [List.mem_singleton.mp member]
      exact absent
  | line line rest absent ih =>
    rw [segments_line absent] at member
    rcases List.mem_cons.mp member with rfl | later
    · exact absent
    · exact ih later

/-- What has no line end lies in a stream exactly if it lies in one of its segments. -/
theorem exists_segment_iff (nonempty : needle ≠ []) (noEnd : lineEnd ∉ needle) (bytes : Bytes) :
    (∃ segment ∈ segments [bytes], needle <:+: segment) ↔ needle <:+: bytes := by
  induction bytes using stream_induction with
  | last bytes absent =>
    rw [segments_last absent]
    split
    · rename_i empty
      simp [empty, nonempty]
    · simp
  | line line rest absent ih =>
    -- the needle does not reach over the line end
    have hcut : needle <:+: line ++ lineEnd :: rest ↔ needle <:+: line ∨ needle <:+: rest := by
      rw [← occurrences_pos_iff nonempty, occurrences_append_cons nonempty noEnd,
        ← occurrences_pos_iff nonempty line, ← occurrences_pos_iff nonempty rest]
      omega
    rw [segments_line absent, List.exists_mem_cons_iff, ih, hcut]

theorem infix_of_trim (segment : Bytes) : trim segment <:+: segment := by
  rw [trim]
  split
  · exact (List.dropLast_prefix segment).isInfix
  · exact List.infix_refl segment

/-- What does not end with a carriage return lies in a segment exactly if it lies in what is left of
it when it is trimmed. -/
theorem infix_trim_iff (nonempty : needle ≠ []) (noReturn : needle.getLast? ≠ some carriageReturn)
    (segment : Bytes) : needle <:+: trim segment ↔ needle <:+: segment := by
  rw [← occurrences_pos_iff nonempty, occurrences_trim nonempty noReturn,
    occurrences_pos_iff nonempty]

/-- What ends with a carriage return lies in a trimmed segment exactly if the segment goes on after
it. -/
theorem infix_trim_iff_goes_on (ends : needle.getLast? = some carriageReturn) (segment : Bytes) :
    needle <:+: trim segment ↔ ∃ b, needle ++ [b] <:+: segment := by
  constructor
  · rintro ⟨before, after, hsplit⟩
    cases after with
    | cons b after =>
      have inTrimmed : needle ++ [b] <:+: trim segment :=
        ⟨before, after, by rw [← hsplit]; simp⟩
      exact ⟨b, inTrimmed.trans (infix_of_trim segment)⟩
    | nil =>
      -- the trimmed segment still ends with a carriage return, so another one was dropped
      have hlast : (trim segment).getLast? = some carriageReturn := by
        rw [← hsplit, List.append_nil, List.getLast?_append, ends]
        rfl
      have hreturn : segment.getLast? = some carriageReturn := by
        by_contra h
        rw [trim, if_neg h] at hlast
        exact h hlast
      obtain ⟨init, rfl⟩ := List.getLast?_eq_some_iff.mp hreturn
      rw [trim, if_pos hreturn, List.dropLast_concat] at hsplit
      exact ⟨carriageReturn, before, [], by rw [← hsplit]; simp⟩
  · rintro ⟨b, before, after, hsplit⟩
    rw [trim]
    split
    · refine ⟨before, (b :: after).dropLast, ?_⟩
      rw [← hsplit, ← List.dropLast_append_of_ne_nil (List.cons_ne_nil b after)]
      simp
    · exact ⟨before, b :: after, by rw [← hsplit]; simp⟩

/-- Bytes in which a needle is found when their trimmed segments are searched. -/
def Found (needle bytes : Bytes) : Prop :=
  lineEnd ∉ needle ∧
    if needle.getLast? = some carriageReturn then ∃ b ≠ lineEnd, needle ++ [b] <:+: bytes
    else needle <:+: bytes

/-- Only what has a line end is never found. -/
theorem exists_found_iff : (∃ bytes, Found needle bytes) ↔ lineEnd ∉ needle := by
  constructor
  · rintro ⟨bytes, noEnd, -⟩
    exact noEnd
  · intro noEnd
    refine ⟨needle ++ [carriageReturn], noEnd, ?_⟩
    split
    · exact ⟨carriageReturn, by decide, List.infix_refl _⟩
    · exact (List.prefix_append _ _).isInfix

theorem exists_trimmed_iff_found (nonempty : needle ≠ []) (bytes : Bytes) :
    (∃ segment ∈ segments [bytes], needle <:+: trim segment) ↔ Found needle bytes := by
  rw [Found]
  by_cases noEnd : lineEnd ∈ needle
  · refine iff_of_false ?_ (fun found => found.1 noEnd)
    rintro ⟨segment, member, inside⟩
    exact lineEnd_not_mem_of_mem_segments member
      ((inside.trans (infix_of_trim segment)).subset noEnd)
  rw [and_iff_right noEnd]
  by_cases ends : needle.getLast? = some carriageReturn
  · rw [if_pos ends]
    constructor
    · rintro ⟨segment, member, inside⟩
      obtain ⟨b, goesOn⟩ := (infix_trim_iff_goes_on ends segment).mp inside
      have hb : b ≠ lineEnd := by
        rintro rfl
        exact lineEnd_not_mem_of_mem_segments member (goesOn.subset (by simp))
      have longNoEnd : lineEnd ∉ needle ++ [b] := by simp [noEnd, hb.symm]
      exact ⟨b, hb, (exists_segment_iff (by simp) longNoEnd bytes).mp ⟨segment, member, goesOn⟩⟩
    · rintro ⟨b, hb, inside⟩
      have longNoEnd : lineEnd ∉ needle ++ [b] := by simp [noEnd, hb.symm]
      obtain ⟨segment, member, goesOn⟩ := (exists_segment_iff (by simp) longNoEnd bytes).mpr inside
      exact ⟨segment, member, (infix_trim_iff_goes_on ends segment).mpr ⟨b, goesOn⟩⟩
  · rw [if_neg ends, ← exists_segment_iff nonempty noEnd]
    simp only [infix_trim_iff nonempty ends]

end Lines

theorem Capture.countIn_pos_iff {marker : Bytes} (nonempty : marker ≠ []) (segments : List Bytes) :
    0 < countIn marker segments ↔ ∃ segment ∈ segments, marker <:+: Lines.trim segment := by
  rw [countIn, Nat.pos_iff_ne_zero, Ne, List.sum_eq_zero_iff]
  simp [← Search.occurrences_pos_iff nonempty, Nat.pos_iff_ne_zero]

/-- A test whose process was read to the end and waited for has passed if the marker was found on its
standard output. -/
theorem Outcome.passed_ofRun_iff_found {marker : Bytes} (nonempty : marker ≠ []) (entry : Entry)
    {run : ChildRun} (read : run.ReadToEnd) (waited : run.faults.wait = none) :
    (Outcome.ofRun marker entry run).passed = true ↔ Lines.Found marker run.stdout.flatten := by
  rw [Outcome.passed_ofRun_of_read marker entry read waited, Capture.countIn_pos_iff nonempty,
    Lines.segments_eq_flatten, Lines.exists_trimmed_iff_found nonempty]

namespace Config

/-! ## What is checked -/

/-- What every accepted configuration has. -/
structure Checked (c : Config) : Prop where
  entryPoint : c.rule.entryPoint ≠ ""
  marker : c.marker ≠ ""

theorem checked_of_check {rule : SubstringRule} {launcher marker : String} {c : Config}
    (accepted : check rule launcher marker = .ok c) : c.Checked := by
  unfold check at accepted
  split at accepted
  · cases accepted
  · rename_i entryPoint
    split at accepted
    · cases accepted
    · rename_i nonempty
      cases hline : Launcher.ofLine "execution.launcher" launcher with
      | error e => simp [hline, Except.map] at accepted
      | ok l =>
        simp only [hline, Except.map, Except.ok.injEq] at accepted
        rw [← accepted]
        exact ⟨entryPoint, nonempty⟩

theorem exists_check_of_ofSettings {s : Setting} {c : Config} (accepted : ofSettings s = .ok c) :
    ∃ rule launcher marker, check rule launcher marker = .ok c := by
  simp only [ofSettings, bind, Except.bind] at accepted
  split at accepted
  · cases accepted
  · split at accepted
    · cases accepted
    · exact ⟨_, _, _, accepted⟩

theorem exists_check_of_ofText {source text : String} {c : Config}
    (accepted : ofText source text = .ok c) :
    ∃ rule launcher marker, check rule launcher marker = .ok c := by
  unfold ofText at accepted
  split at accepted
  · cases accepted
  · exact exists_check_of_ofSettings accepted

variable {files : Files} {base : DirId} {root : String} {named : Option String} {c : Config}

/-- Whatever its sources, a configuration has come through the check. -/
theorem exists_check_of_fromSources (accepted : fromSources files base root named = .ok c) :
    ∃ rule launcher marker, check rule launcher marker = .ok c := by
  unfold fromSources at accepted
  simp only [] at accepted
  generalize readSource files base (named.getD (Path.join root usualFile)) = source at accepted
  cases source with
  | ok read =>
    cases htext : ofText read.1 read.2 with
    | ok c' =>
      simp only [htext, Except.mapError, Except.ok.injEq] at accepted
      exact accepted ▸ exists_check_of_ofText htext
    | error e => simp [htext, Except.mapError] at accepted
  | error e =>
    cases named with
    | none =>
      cases hdefault : ofSettings defaultSettings with
      | ok c' =>
        simp only [hdefault, Except.mapError, Except.ok.injEq] at accepted
        exact accepted ▸ exists_check_of_ofSettings hdefault
      | error e => simp [hdefault, Except.mapError] at accepted
    | some file => simp [Except.mapError] at accepted

theorem checked_of_fromSources (accepted : fromSources files base root named = .ok c) :
    c.Checked := by
  obtain ⟨rule, launcher, marker, hcheck⟩ := exists_check_of_fromSources accepted
  exact checked_of_check hcheck

/-! ## Tests under an accepted configuration -/

/-- A test under an accepted configuration whose process is read to the end and waited for passes
exactly if its marker has no line end and is found on standard output, where a marker that ends with a
carriage return must be followed by something else than a line end. A process can print what makes a
test pass exactly if the marker has no line end. -/
theorem passed_iff_found (accepted : fromSources files base root named = .ok c) :
    (∀ {launch : Launch} {top : String} {entry : Entry} (w : World) {run : ChildRun},
      c.runner.Started launch top entry w.machine run → run.ReadToEnd → run.faults.wait = none →
        ((c.runner.runTest launch top entry w).1.passed = true ↔
          Lines.Found (Utf8.encode c.marker) run.stdout.flatten)) ∧
      ((∃ bytes, Lines.Found (Utf8.encode c.marker) bytes) ↔ '\n' ∉ c.marker.toList) := by
  refine ⟨?_, ?_⟩
  · intro launch top entry w run started read waited
    have hne : Utf8.encode c.marker ≠ [] := fun h =>
      (checked_of_fromSources accepted).marker ((Utf8.encode_eq_nil_iff c.marker).mp h)
    rw [(c.runner.runTest_eq_attempt launch top entry w).1, Runner.attempt_of_started started]
    exact Outcome.passed_ofRun_iff_found hne entry read waited
  · rw [Lines.exists_found_iff]
    exact not_congr (Utf8.mem_encode_iff (c := '\n') (by decide) c.marker)

/-- The files of a directory with a configuration file for a marker, given as it is written there,
and an empty directory for a test. -/
def markerFiles (marker : String) : Files :=
  let text := "[execution]\nsuccess-marker = \x22" ++ marker ++ "\x22\n"
  ⟨.directory 0 [([0x63], .file 0o644 (Utf8.encode text)), ([0x74], .directory 1 [])], [], 2, []⟩

/-- A marker with a carriage return at its end: the line that it ends does not count, a line that
goes on does. -/
theorem passed_iff_found_of_return :
    let files := markerFiles "ok\\r"
    let w : World := ⟨⟨files, 0, [], 0⟩, .buffers⟩
    let launch (printed : String) : Launch := fun _ files =>
      .ok (⟨[Utf8.encode printed], [], [], some 0, 1, .none⟩, files)
    ∃ c : Config, fromSources files 0 "/" (some "/c") = .ok c ∧ c.marker = "ok\r" ∧
      (c.runner.runTest (launch "ok\r\n") "/" ⟨"t/go.sh"⟩ w).1.passed = false ∧
      (c.runner.runTest (launch "ok\r.\n") "/" ⟨"t/go.sh"⟩ w).1.passed = true := by
  intro files w launch
  have accepted : fromSources files 0 "/" (some "/c") = .ok { default with marker := "ok\r" } :=
    by decide +kernel
  have started (printed : String) : ({ default with marker := "ok\r" } : Config).runner.Started
      (launch printed) "/" ⟨"t/go.sh"⟩ w.machine ⟨[Utf8.encode printed], [], [], some 0, 1, .none⟩ :=
    ⟨_, _, _, rfl, rfl, rfl⟩
  have passed (printed : String) :=
    (passed_iff_found accepted).1 w (started printed) ⟨rfl, rfl⟩ rfl
  refine ⟨_, accepted, rfl, ?_, ?_⟩
  · rw [← Bool.not_eq_true, passed, Lines.Found, if_pos (by decide)]
    rintro ⟨-, b, hb, inside⟩
    -- nothing but the line end is printed after the carriage return
    have hlast := congrArg List.getLast? (inside.eq_of_length rfl)
    rw [List.getLast?_concat] at hlast
    exact hb (Option.some.inj (hlast.trans (by decide)))
  · rw [passed, Lines.Found, if_pos (by decide)]
    exact ⟨by decide, 0x2e, by decide, ⟨[], [Lines.lineEnd], by decide⟩⟩

/-- A marker of two lines is accepted, but what prints it does not pass. -/
theorem not_passed_of_two_lines :
    let files := markerFiles "a\\nb"
    let w : World := ⟨⟨files, 0, [], 0⟩, .buffers⟩
    let run : ChildRun := ⟨[Utf8.encode "a\nb\n"], [], [], some 0, 1, .none⟩
    let launch : Launch := fun _ files => .ok (run, files)
    ∃ c : Config, fromSources files 0 "/" (some "/c") = .ok c ∧ c.marker = "a\nb" ∧
      c.runner.Started launch "/" ⟨"t/go.sh"⟩ w.machine run ∧
      Utf8.encode c.marker <:+: run.stdout.flatten ∧
      (c.runner.runTest launch "/" ⟨"t/go.sh"⟩ w).1.passed = false := by
  intro files w run launch
  have accepted : fromSources files 0 "/" (some "/c") = .ok { default with marker := "a\nb" } :=
    by decide +kernel
  have started : ({ default with marker := "a\nb" } : Config).runner.Started launch "/" ⟨"t/go.sh"⟩
      w.machine run := ⟨_, _, _, rfl, rfl, rfl⟩
  refine ⟨_, accepted, rfl, started, ⟨[], [Lines.lineEnd], by decide⟩, ?_⟩
  rw [(Runner.runTest_eq_attempt _ launch "/" ⟨"t/go.sh"⟩ w).1, Runner.attempt_of_started started]
  decide

end Config

end BenchHarness
