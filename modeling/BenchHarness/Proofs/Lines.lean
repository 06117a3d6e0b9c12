import BenchHarness.Output.Lines
import BenchHarness.Proofs.Occurrences

/-!
# Segments of a stream

Where a stream is cut does not depend on the chunks it arrives in (`segments_eq`), so a stream can
be taken apart line by line (`stream_induction`, `segments_line`, `segments_last`). A needle that
has no line end and does not end with a carriage return is counted in the trimmed segments as often
as in the stream itself (`sum_occurrences_trim`).
-/

namespace BenchHarness.Lines

/-! ## Cutting -/

/-- The segments of a stream that has been cut. -/
def close (cut : List Bytes × Bytes) : List Bytes :=
  if cut.2 = [] then cut.1 else cut.1 ++ [cut.2]

theorem cut_of_not_mem {bytes : Bytes} (absent : lineEnd ∉ bytes) : cut bytes = ([], bytes) := by
  induction bytes with
  | nil => rfl
  | cons b rest ih =>
    rw [List.mem_cons, not_or] at absent
    rw [cut, ih absent.2]
    exact if_neg (fun h => absent.1 h.symm)

theorem not_mem_cut_snd (bytes : Bytes) : lineEnd ∉ (cut bytes).2 := by
  induction bytes with
  | nil => exact List.not_mem_nil
  | cons b rest ih =>
    simp only [cut]
    split
    · exact ih
    · rename_i hb
      split
      · rw [List.mem_cons, not_or]
        exact ⟨fun h => hb h.symm, ih⟩
      · exact ih

/-- What is left after the last line is cut together with what follows. -/
theorem cut_append (bytes more : Bytes) :
    cut (bytes ++ more) =
      ((cut bytes).1 ++ (cut ((cut bytes).2 ++ more)).1, (cut ((cut bytes).2 ++ more)).2) := by
  induction bytes with
  | nil => rfl
  | cons b rest ih =>
    rw [List.cons_append, cut, ih]
    by_cases hb : b = lineEnd
    · simp [cut, hb]
    · -- `b` joins the first line of `rest`, or what is left of it if it has none
      cases h : cut rest with
      | mk lines left =>
        cases lines with
        | nil => simp [cut, hb, h]
        | cons line lines => simp [cut, hb, h]

theorem cut_line {line : Bytes} (absent : lineEnd ∉ line) (rest : Bytes) :
    cut (line ++ lineEnd :: rest) = (line :: (cut rest).1, (cut rest).2) := by
  induction line with
  | nil => simp [cut]
  | cons b line ih =>
    rw [List.mem_cons, not_or] at absent
    rw [List.cons_append, cut, ih absent.2]
    exact if_neg (fun h => absent.1 h.symm)

/-- Bytes without a line end in front belong to the first line. -/
theorem cut_append_of_not_mem {held : Bytes} (absent : lineEnd ∉ held) (bytes : Bytes) :
    cut (held ++ bytes) =
      match cut bytes with
      | ([], left) => ([], held ++ left)
      | (line :: more, left) => ((held ++ line) :: more, left) := by
  induction held with
  | nil =>
    cases h : cut bytes with
    | mk lines left => cases lines <;> simp [h]
  | cons b held ih =>
    rw [List.mem_cons, not_or] at absent
    have hb : b ≠ lineEnd := fun h => absent.1 h.symm
    rw [List.cons_append, cut, ih absent.2]
    cases h : cut bytes with
    | mk lines left => cases lines <;> simp [hb]

/-! ## Segments -/

/-- Reading in chunks closes the cut of the whole; `held` has no line end. -/
theorem read_eq (chunks : List Bytes) :
    ∀ held, lineEnd ∉ held → read held chunks = close (cut (held ++ chunks.flatten)) := by
  induction chunks with
  | nil =>
    intro held absent
    rw [List.flatten_nil, List.append_nil, cut_of_not_mem absent]
    rfl
  | cons chunk rest ih =>
    intro held absent
    have hleft := not_mem_cut_snd chunk
    rw [List.flatten_cons, ← List.append_assoc, cut_append, cut_append_of_not_mem absent, read]
    cases h : cut chunk with
    | mk lines left =>
      rw [h] at hleft
      cases lines with
      | nil =>
        -- a chunk without a line end is held together with what was held
        have hboth : lineEnd ∉ held ++ left := by simp [absent, hleft]
        simp only [ih _ hboth, List.nil_append]
      | cons line more =>
        -- its first line ends what was held, and what is left of it is held next
        simp only [ih left hleft]
        simp only [close, List.cons_append]
        split <;> simp

/-- Where a stream is cut does not depend on its chunks. -/
theorem segments_eq (chunks : List Bytes) : segments chunks = close (cut chunks.flatten) := by
  rw [segments, read_eq chunks [] List.not_mem_nil, List.nil_append]

/-- The segments that line ends close come first. -/
theorem complete_prefix (chunks : List Bytes) : complete chunks <+: segments chunks := by
  rw [segments_eq, close, complete]
  split
  · exact List.prefix_rfl
  · exact List.prefix_append _ _

theorem segments_last {bytes : Bytes} (absent : lineEnd ∉ bytes) :
    segments [bytes] = if bytes = [] then [] else [bytes] := by
  rw [segments_eq, List.flatten_singleton, cut_of_not_mem absent]
  rfl

theorem segments_line {line : Bytes} (absent : lineEnd ∉ line) (rest : Bytes) :
    segments [line ++ lineEnd :: rest] = line :: segments [rest] := by
  rw [segments_eq, segments_eq, List.flatten_singleton, List.flatten_singleton,
    cut_line absent, close, close]
  split <;> simp

/-- A stream is a line and its end before a stream, or has no line end. -/
theorem stream_induction {P : Bytes → Prop} (last : ∀ bytes, lineEnd ∉ bytes → P bytes)
    (line : ∀ line rest, lineEnd ∉ line → P rest → P (line ++ lineEnd :: rest))
    (bytes : Bytes) : P bytes := by
  by_cases h : lineEnd ∈ bytes
  · obtain ⟨before, rest, hsplit, absent⟩ := List.eq_append_cons_of_mem h
    have hlt : rest.length < bytes.length := by
      rw [hsplit, List.length_append, List.length_cons]
      omega
    rw [hsplit]
    exact line before rest absent (stream_induction last line rest)
  · exact last bytes h
termination_by bytes.length

/-! ## Counting -/

section

open Search

variable {needle : Bytes}

theorem occurrences_trim (nonempty : needle ≠ [])
    (noReturn : needle.getLast? ≠ some carriageReturn) (segment : Bytes) :
    occurrences needle (trim segment) = occurrences needle segment := by
  rw [trim]
  split
  · rename_i h
    obtain ⟨init, rfl⟩ := List.getLast?_eq_some_iff.mp h
    rw [List.dropLast_concat, occurrences_concat nonempty noReturn]
  · rfl

/-- A needle is found in the trimmed segments of a stream as often as in the stream. -/
theorem sum_occurrences_trim (nonempty : needle ≠ []) (noEnd : lineEnd ∉ needle)
    (noReturn : needle.getLast? ≠ some carriageReturn) (chunks : List Bytes) :
    ((segments chunks).map fun s => occurrences needle (trim s)).sum =
      occurrences needle chunks.flatten := by
  have hwhole : segments chunks = segments [chunks.flatten] := by
    rw [segments_eq, segments_eq, List.flatten_singleton]
  rw [hwhole]
  -- trimming takes no occurrence away, so only the cuts matter
  simp only [occurrences_trim nonempty noReturn]
  induction chunks.flatten using stream_induction with
  | last bytes absent =>
    rw [segments_last absent]
    split
    · rename_i h
      subst h
      rfl
    · simp
  | line line rest absent ih =>
    rw [segments_line absent, List.map_cons, List.sum_cons, ih,
      occurrences_append_cons nonempty noEnd]

end

end BenchHarness.Lines
