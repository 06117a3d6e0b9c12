import BenchHarness.Proofs.Arrival

/-!
# Writing until there is no room

A writer may take some bytes and then fail, in the middle of a piece and in the middle of a character.
What it has taken then is the front of what was to be written (`Sink.Filled`), whatever the pieces in
which it was written: a piece is written only if all those before it have been taken
(`Sink.Limits.all`). A list in JSON fails in another way while its text is written than at the line end
after it (`TestList.writeJson_filled`).
-/

namespace BenchHarness

/-- Hands data on in smaller pieces, which may be other ones every time. -/
def Put.inPieces {σ : Type} (cut : σ → Bytes → List Bytes) (put : Put σ) : Put σ := fun data s =>
  Put.all put (cut s data) s

namespace Sink

/-- A sink that takes `capacity` bytes in total and then fails. -/
structure Limits (capacity : Nat) (error : IoError) (s : Sink) : Prop where
  rule : ∀ writes size data, s.rule writes size data =
    if size + data.length ≤ capacity then none else some (capacity - size, error)
  size : s.size = s.contents.length
  within : s.contents.length ≤ capacity

/-- What has come of writing some bytes to such a sink: it has taken as many as there was room for, and
there is an error exactly if these were not all. -/
structure Filled (capacity : Nat) (error : IoError) (s : Sink) (bytes : Bytes)
    (result : Option IoError × Sink) : Prop where
  limits : result.2.Limits capacity error
  contents : result.2.contents = (s.contents ++ bytes).take capacity
  answer : result.1 = if (s.contents ++ bytes).length ≤ capacity then none else some error

variable {capacity : Nat} {error : IoError} {s : Sink}

theorem limits_limited (capacity : Nat) (error : IoError) :
    (limited capacity error).Limits capacity error :=
  ⟨fun _ _ _ => rfl, rfl, Nat.zero_le _⟩

theorem contents_cons (s : Sink) (taken : Bytes) (writes size : Nat) :
    contents { s with writes := writes, size := size, pieces := taken :: s.pieces } =
      s.contents ++ taken := by
  simp [contents]

theorem Limits.put (limits : s.Limits capacity error) (data : Bytes) :
    Filled capacity error s data (Sink.put data s) := by
  have hsize := limits.size
  have hroom := limits.within
  by_cases fits : s.contents.length + data.length ≤ capacity
  · have hwrite : Sink.put data s = (none, { s with
        writes := s.writes + 1, size := s.size + data.length, pieces := data :: s.pieces }) := by
      simp only [Sink.put, write, limits.rule, hsize, if_pos fits]
    have hlength : (s.contents ++ data).length ≤ capacity := by
      rw [List.length_append]
      exact fits
    rw [hwrite]
    refine ⟨⟨limits.rule, ?_, ?_⟩, ?_, ?_⟩
    · rw [contents_cons, List.length_append, hsize]
    · rw [contents_cons]
      exact hlength
    · rw [contents_cons, List.take_of_length_le hlength]
    · rw [if_pos hlength]
  · have hwrite : Sink.put data s = (some error, { s with
        writes := s.writes + 1
        size := s.size + (data.take (capacity - s.contents.length)).length
        pieces := data.take (capacity - s.contents.length) :: s.pieces }) := by
      simp only [Sink.put, write, limits.rule, hsize, if_neg fits]
    have hlength : ¬ (s.contents ++ data).length ≤ capacity := by
      rw [List.length_append]
      exact fits
    -- what was there is kept, and the data fills the rest of the room
    have htaken : s.contents ++ data.take (capacity - s.contents.length) =
        (s.contents ++ data).take capacity := by
      rw [List.take_append, List.take_of_length_le hroom]
    rw [hwrite]
    refine ⟨⟨limits.rule, ?_, ?_⟩, ?_, ?_⟩
    · rw [contents_cons, List.length_append, hsize]
    · rw [contents_cons, htaken]
      exact List.length_take_le _ _
    · rw [contents_cons, htaken]
    · rw [if_neg hlength]

/-- Without an error there was room for everything. -/
theorem Filled.fits {data : Bytes} {s' : Sink}
    (filled : Filled capacity error s data (none, s')) :
    (s.contents ++ data).length ≤ capacity := by
  by_contra full
  exact Option.some_ne_none error (filled.answer.trans (if_neg full)).symm

/-- With an error there was not. -/
theorem Filled.full {data : Bytes} {e : IoError} {s' : Sink}
    (filled : Filled capacity error s data (some e, s')) :
    ¬ (s.contents ++ data).length ≤ capacity := by
  intro fits
  exact Option.some_ne_none e (filled.answer.trans (if_pos fits))

/-- Bytes that are taken leave the room that is left to those after them. -/
theorem Filled.append {data rest : Bytes} {s' : Sink} {result : Option IoError × Sink}
    (first : Filled capacity error s data (none, s'))
    (others : Filled capacity error s' rest result) :
    Filled capacity error s (data ++ rest) result := by
  have hcontents : s'.contents = s.contents ++ data :=
    first.contents.trans (List.take_of_length_le first.fits)
  constructor
  · exact others.limits
  · rw [others.contents, hcontents, List.append_assoc]
  · rw [others.answer, hcontents, List.append_assoc]

/-- After bytes that are not all taken there is no room for others. -/
theorem Filled.append_of_full {data : Bytes} {e : IoError} {s' : Sink}
    (first : Filled capacity error s data (some e, s')) (rest : Bytes) :
    Filled capacity error s (data ++ rest) (some e, s') := by
  have full := first.full
  have hfront : (s.contents ++ data ++ rest).take capacity = (s.contents ++ data).take capacity :=
    List.take_append_of_le_length (by omega)
  have hlength : ¬ (s.contents ++ data ++ rest).length ≤ capacity := by
    rw [List.length_append]
    omega
  constructor
  · exact first.limits
  · rw [first.contents, ← List.append_assoc, hfront]
  · rw [first.answer, if_neg full, ← List.append_assoc, if_neg hlength]

/-- What is written in pieces is taken as if it were written at once. -/
theorem Limits.all {put : Put Sink}
    (fills : ∀ data {s : Sink}, s.Limits capacity error →
      Filled capacity error s data (put data s)) (pieces : List Bytes) :
    ∀ {s : Sink}, s.Limits capacity error →
      Filled capacity error s pieces.flatten (Put.all put pieces s) := by
  induction pieces with
  | nil =>
    intro s limits
    have fits : (s.contents ++ []).length ≤ capacity := by simpa using limits.within
    refine ⟨limits, ?_, ?_⟩
    · rw [List.flatten_nil, List.take_of_length_le fits, List.append_nil]
      rfl
    · rw [List.flatten_nil, if_pos fits]
      rfl
  | cons data rest ih =>
    intro s limits
    have first := fills data limits
    rw [Put.all, List.flatten_cons]
    generalize put data s = result at first ⊢
    obtain ⟨_ | e, s'⟩ := result
    · exact first.append (ih first.limits)
    · exact first.append_of_full _

theorem Limits.inPieces {cut : Sink → Bytes → List Bytes}
    (whole : ∀ s data, (cut s data).flatten = data) (data : Bytes)
    (limits : s.Limits capacity error) :
    Filled capacity error s data (Sink.put.inPieces cut data s) := by
  have filled := limits.all (fun data _ limits => limits.put data) (cut s data)
  rwa [whole] at filled

/-- A writer that was empty has the front of what was written. -/
theorem Filled.of_limited {bytes : Bytes} {result : Option IoError × Sink}
    (filled : Filled capacity error (.limited capacity error) bytes result) :
    result.2.contents = bytes.take (min capacity bytes.length) ∧
      result.1 = if bytes.length ≤ capacity then none else some error := by
  constructor
  · rw [List.take_eq_take_min.symm]
    exact filled.contents
  · exact filled.answer

end Sink

/-! ## Events and lists -/

section

variable {n : Nat} {full : IoError} {put : Put Sink}

open Sink

/-- A text of spans is taken up to the room there is. -/
theorem Report.write_filled
    (fills : ∀ data {s : Sink}, s.Limits n full → Filled n full s data (put data s))
    (text : Styled) :
    ∃ answer, Filled n full (.limited n full) (Utf8.encode text.render)
        (answer, (write put text (.limited n full)).2) ∧
      (write put text (.limited n full)).1 = answer.map .io := by
  rw [← Channel.flatten_encode_spans]
  exact ⟨_, (limits_limited n full).all fills _, rfl⟩

/-- Whether a JSON text is taken before its line end. -/
theorem TestList.fits_iff (text : String) :
    ((limited n full).contents ++ Utf8.encode text).length ≤ n ↔
      ¬ n + 1 < (Utf8.encode (text ++ "\n")).length := by
  have hline : (Utf8.encode "\n").length = 1 := by decide
  rw [Utf8.encode_append, List.length_append, List.length_append, hline]
  show 0 + _ ≤ n ↔ _
  omega

/-- A JSON text and its line end are taken up to the room there is, and the error says which of the two
was not. -/
theorem TestList.writeJson_filled
    (fills : ∀ data {s : Sink}, s.Limits n full → Filled n full s data (put data s))
    (text : String) :
    ∃ answer, Filled n full (.limited n full) (Utf8.encode (text ++ "\n"))
        (answer, (writeJson put text (.limited n full)).2) ∧
      (writeJson put text (.limited n full)).1 = answer.map
        (if n + 1 < (Utf8.encode (text ++ "\n")).length then .json else .io) := by
  have first := fills (Utf8.encode text) (limits_limited n full)
  unfold writeJson
  generalize put (Utf8.encode text) (.limited n full) = result at first ⊢
  obtain ⟨_ | e, s'⟩ := result
  · rw [if_neg ((fits_iff text).mp first.fits), Utf8.encode_append]
    exact ⟨_, first.append (fills (Utf8.encode "\n") first.limits), rfl⟩
  · rw [if_pos (not_not.mp (mt (fits_iff text).mpr first.full)), Utf8.encode_append]
    exact ⟨_, first.append_of_full _, rfl⟩

/-- How an error is called that leaves a list of so many bytes with its first `n` bytes. -/
def ListFormat.errorAt (format : ListFormat) (length n : Nat) : IoError → WriteError :=
  if format ≠ .plain ∧ n + 1 < length then .json else .io

theorem ListFormat.errorAt_plain (length n : Nat) : plain.errorAt length n = .io :=
  if_neg fun h => h.1 rfl

theorem ListFormat.errorAt_of_ne {format : ListFormat} (json : format ≠ .plain) (length n : Nat) :
    format.errorAt length n = if n + 1 < length then .json else .io := by
  simp only [errorAt, ne_eq, json, not_false_eq_true, true_and]

theorem TestList.write_filled
    (fills : ∀ data {s : Sink}, s.Limits n full → Filled n full s data (put data s))
    (list : TestList) (theme : Theme) (format : ListFormat) :
    ∃ answer, Filled n full (.limited n full) (Utf8.encode (list.text theme format))
        (answer, (list.write put theme format (.limited n full)).2) ∧
      (list.write put theme format (.limited n full)).1 =
        answer.map (format.errorAt (Utf8.encode (list.text theme format)).length n) := by
  cases format with
  | plain =>
    rw [ListFormat.errorAt_plain]
    exact Report.write_filled fills _
  | json =>
    rw [ListFormat.errorAt_of_ne ListFormat.noConfusion]
    exact writeJson_filled fills _
  | jsonPretty =>
    rw [ListFormat.errorAt_of_ne ListFormat.noConfusion]
    exact writeJson_filled fills _

end

/-- Whatever the pieces in which a text of spans is written, a writer that has room for `n` bytes takes
the first `n` of those that a buffer takes. -/
theorem Report.write_partial {cut : Sink → Bytes → List Bytes}
    (whole : ∀ s data, (cut s data).flatten = data) (n : Nat) (full : IoError) (text : Styled) :
    let bytes := (write Sink.put text .buffer).2.contents
    let result := write (Sink.put.inPieces cut) text (.limited n full)
    (write Sink.put text .buffer).1 = none ∧
      result.2.contents = bytes.take (min n bytes.length) ∧
      (result.1 = none ↔ bytes.length ≤ n) ∧
      (n < bytes.length → result.1 = some (.io full)) := by
  intro bytes result
  obtain ⟨hnone, hbytes⟩ := (Channel.Emits.write Sink.carries_put text).buffer
  replace hbytes : bytes = Utf8.encode text.render := hbytes
  obtain ⟨answer, filled, hanswer⟩ :=
    write_filled (fun data _ limits => limits.inPieces whole data) text
  rw [← hbytes] at filled
  obtain ⟨hcontents, rfl⟩ := filled.of_limited
  replace hanswer : result.1 = _ := hanswer
  refine ⟨hnone, hcontents, ?_, ?_⟩
  · rw [hanswer, Option.map_eq_none_iff]
    simp
  · intro h
    rw [hanswer, if_neg (by omega)]
    rfl

/-- Whatever the pieces in which a list or an event is written: a writer that takes `n` bytes in total and
then fails takes the first `n` bytes of the text, and the error says how far it came. For a finished test
that goes for any failure and any chain of causes. -/
theorem partial_writes {cut : Sink → Bytes → List Bytes}
    (whole : ∀ s data, (cut s data).flatten = data) (n : Nat) (full : IoError) (theme : Theme) :
    (∀ (list : TestList) (format : ListFormat),
      let bytes := (list.write Sink.put theme format .buffer).2.contents
      let result := list.write (Sink.put.inPieces cut) theme format (.limited n full)
      (list.write Sink.put theme format .buffer).1 = none ∧
      result.2.contents = bytes.take (min n bytes.length) ∧
      (result.1 = none ↔ bytes.length ≤ n) ∧
      (format = .plain → n < bytes.length → result.1 = some (.io full)) ∧
      (format ≠ .plain → n + 1 < bytes.length → result.1 = some (.json full)) ∧
      (format ≠ .plain → n + 1 = bytes.length → result.1 = some (.io full))) ∧
    (∀ e : Event,
      let bytes := (Report.writeEvent Sink.put theme e .buffer).2.contents
      let result := Report.writeEvent (Sink.put.inPieces cut) theme e (.limited n full)
      (Report.writeEvent Sink.put theme e .buffer).1 = none ∧
      result.2.contents = bytes.take (min n bytes.length) ∧
      (result.1 = none ↔ bytes.length ≤ n) ∧
      (n < bytes.length → result.1 = some (.io full))) ∧
    (∀ (o : Outcome) (message : String) (causes : List String),
      let lines := Report.finishedHead theme o ++ Report.failureLines theme message causes
      let bytes := (Report.write Sink.put lines .buffer).2.contents
      let result := Report.write (Sink.put.inPieces cut) lines (.limited n full)
      (Report.write Sink.put lines .buffer).1 = none ∧
      result.2.contents = bytes.take (min n bytes.length) ∧
      (result.1 = none ↔ bytes.length ≤ n) ∧
      (n < bytes.length → result.1 = some (.io full))) := by
  have fills : ∀ data {s : Sink}, s.Limits n full →
      Sink.Filled n full s data (Sink.put.inPieces cut data s) :=
    fun data _ limits => limits.inPieces whole data
  refine ⟨?_, ?_, ?_⟩
  · intro list format bytes result
    obtain ⟨hnone, hbytes⟩ := (Channel.Emits.list Sink.carries_put list theme format).buffer
    replace hbytes : bytes = Utf8.encode (list.text theme format) := hbytes
    obtain ⟨answer, filled, hanswer⟩ := list.write_filled fills theme format
    rw [← hbytes] at filled hanswer
    obtain ⟨hcontents, rfl⟩ := filled.of_limited
    replace hanswer : result.1 = _ := hanswer
    refine ⟨hnone, hcontents, ?_, ?_, ?_, ?_⟩
    · rw [hanswer, Option.map_eq_none_iff]
      simp
    · rintro rfl h
      rw [hanswer, if_neg (by omega), ListFormat.errorAt_plain]
      rfl
    · intro json h
      rw [hanswer, if_neg (by omega), ListFormat.errorAt_of_ne json, if_pos h]
      rfl
    · intro json h
      rw [hanswer, if_neg (by omega), ListFormat.errorAt_of_ne json, if_neg (by omega)]
      rfl
  · intro e
    exact Report.write_partial whole n full (Report.event theme e)
  · intro o message causes lines
    exact Report.write_partial whole n full lines

/-- A list that is written byte by byte, to a writer that fails inside a letter of two bytes, at the line
end or not at all; and an event, to a writer that fails inside a sequence that switches a style on. -/
theorem partial_writes_by_byte :
    let list : TestList := ⟨"/é", []⟩
    let put := Sink.put.inPieces fun _ data => data.map ([·])
    let write := fun n => list.write put .coloured .json (.limited n (.system .noSpace))
    let started := Report.writeEvent put .coloured (.testStarted ⟨"é/go"⟩ "/é")
      (.limited 3 (.system .noSpace))
    (write 11).2.contents = [0x7b, 0x22, 0x72, 0x6f, 0x6f, 0x74, 0x22, 0x3a, 0x22, 0x2f, 0xc3] ∧
      (write 11).1 = some (.json (.system .noSpace)) ∧
      (write 40).1 = some (.io (.system .noSpace)) ∧ (write 41).1 = none ∧
      started.2.contents = [0x1b, 0x5b, 0x33] ∧ started.1 = some (.io (.system .noSpace)) := by
  intro list put write started
  let bytes := (list.write Sink.put .coloured .json .buffer).2.contents
  have hlength : bytes.length = 41 := by decide +kernel
  have hfront : bytes.take (min 11 bytes.length) =
      [0x7b, 0x22, 0x72, 0x6f, 0x6f, 0x74, 0x22, 0x3a, 0x22, 0x2f, 0xc3] := by decide +kernel
  have json : ListFormat.json ≠ .plain := ListFormat.noConfusion
  have whole : ∀ (s : Sink) (data : Bytes), (data.map ([·])).flatten = data :=
    fun _ data => List.flatMap_def.symm.trans (List.flatMap_singleton' data)
  have written := fun n => (partial_writes whole n (.system .noSpace) .coloured).1 list .json
  obtain ⟨-, hcontents, -, hstarted⟩ :=
    (partial_writes whole 3 (.system .noSpace) .coloured).2.1 (.testStarted ⟨"é/go"⟩ "/é")
  refine ⟨(written 11).2.1.trans hfront, (written 11).2.2.2.2.1 json ?_,
    (written 40).2.2.2.2.2 json hlength.symm, (written 41).2.2.1.mpr hlength.le,
    hcontents.trans (by decide +kernel), hstarted (by decide +kernel)⟩
  rw [show _ = _ from hlength]
  decide

end BenchHarness
