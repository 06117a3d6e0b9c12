import BenchHarness.Proofs.Marker

/-!
# Markers in decoded lines

The success marker is counted in the bytes of a line, while the line is kept decoded. Decoding takes
bytes away from the front one part at a time, a character or something malformed, and no character
begins inside a part (`Utf8.decode_front`). So a text stands at the front of the decoded bytes exactly
where its encoding stands at the front of the bytes (`Utf8.prefix_decode_iff`), unless it has
replacement characters, and it is counted in a decoded line as often as in the bytes
(`Utf8.occurrences_decodeLossy`).
-/

namespace BenchHarness

namespace Search

variable {α : Type} [DecidableEq α]

/-- What is left of a match is passed over. -/
theorem countAfter_eq_drop (needle hay : List α) :
    ∀ skip, countAfter needle skip hay = occurrences needle (hay.drop skip) := by
  induction hay with
  | nil =>
    intro skip
    rw [List.drop_nil, occurrences, countAfter, countAfter]
  | cons a rest ih =>
    intro skip
    cases skip with
    | zero => rfl
    | succ skip => rw [countAfter, List.drop_succ_cons, ih]

/-- A match at the front is counted, and the count goes on after it. -/
theorem occurrences_append_self {needle : List α} (nonempty : needle ≠ []) (rest : List α) :
    occurrences needle (needle ++ rest) = occurrences needle rest + 1 := by
  obtain ⟨a, more, rfl⟩ := List.exists_cons_of_ne_nil nonempty
  have atFront : a :: more <+: a :: (more ++ rest) := List.prefix_append (a :: more) rest
  rw [List.cons_append, occurrences, countAfter, if_pos (List.isPrefixOf_iff_prefix.mpr atFront),
    countAfter_eq_drop, List.length_cons, Nat.add_sub_cancel, List.drop_left]

/-- Elements that no match begins with may be dropped at the front. -/
theorem occurrences_append_of_no_match {needle : List α} {before : List α}
    (noMatch : ∀ a ∈ before, ∀ more, ¬ needle <+: a :: more) (after : List α) :
    occurrences needle (before ++ after) = occurrences needle after := by
  induction before with
  | nil => rfl
  | cons a before ih =>
    rw [List.cons_append, occurrences_cons_of_not_prefix (noMatch a List.mem_cons_self _),
      ih fun b hb => noMatch b (List.mem_cons_of_mem a hb)]

end Search

namespace Utf8

/-! ## Parts of malformed text -/

/-- A byte in the bounds of a character does not begin one. -/
theorem lead_of_bounds {b : UInt8} (low : 0x80 ≤ b.toNat) (high : b.toNat ≤ 0xbf) :
    lead b = .invalid := by
  unfold lead
  simp only [UInt8.lt_iff_toNat_lt, UInt8.reduceToNat]
  rw [if_neg (by omega), if_pos (by omega)]

theorem bounds_of_lead {b : UInt8} {p : Pending} (h : lead b = .opens p) :
    0x80 ≤ p.low.toNat ∧ p.high.toNat ≤ 0xbf := by
  cases opens_of_lead h <;> exact ⟨by assumption, by assumption⟩

/-- A byte out of bounds ends the character being read, and is read afresh. -/
theorem decodeFrom_out {p : Pending} {b : UInt8} (out : ¬ (p.low ≤ b ∧ b ≤ p.high)) (rest : Bytes) :
    decodeFrom (some p) (b :: rest) = none :: decodeFrom none (b :: rest) := by
  simp only [decodeFrom, if_neg out]
  cases lead b <;> rfl

/-- A character being read takes bytes that begin no character. It is read to its end, or else what
was read of it is malformed. -/
theorem decodeFrom_pending (bytes : Bytes) :
    ∀ {p : Pending} {known : Bytes}, Opened known p.more p.value p.low p.high →
      0x80 ≤ p.low.toNat ∧ p.high.toNat ≤ 0xbf →
      ∃ part more rest, bytes = more ++ rest ∧ (∀ b ∈ more, lead b = .invalid) ∧
        decodeFrom (some p) bytes = part :: decodeFrom none rest ∧
        ∀ c, part = some c → String.utf8EncodeChar c = known ++ more := by
  induction bytes with
  | nil =>
    intro p known _ _
    exact ⟨none, [], [], rfl, by simp, rfl, by simp⟩
  | cons b bytes ih =>
    intro p known opened bounds
    by_cases hrange : p.low ≤ b ∧ b ≤ p.high
    · have hlead : lead b = .invalid := by
        obtain ⟨hlow, hhigh⟩ := hrange
        rw [UInt8.le_iff_toNat_le] at hlow hhigh
        exact lead_of_bounds (by omega) (by omega)
      rw [decodeFrom, if_pos hrange]
      cases hmore : p.more with
      | zero =>
        -- the last byte of the character
        rw [hmore] at opened
        refine ⟨some (Char.ofNat (p.push b)), [b], bytes, rfl, by simpa using hlead, rfl, ?_⟩
        intro c hc
        rw [← Option.some.inj hc]
        exact opened b hrange.1 hrange.2
      | succ left =>
        rw [hmore] at opened
        obtain ⟨part, more, rest, hbytes, hmid, hdecode, hchar⟩ :=
          ih (p := ⟨p.push b, 0x80, 0xbf, left⟩) (opened b hrange.1 hrange.2) ⟨by simp, by simp⟩
        refine ⟨part, b :: more, rest, by rw [hbytes, List.cons_append], ?_, hdecode, ?_⟩
        · intro x hx
          rcases List.mem_cons.mp hx with rfl | hx
          · exact hlead
          · exact hmid x hx
        · intro c hc
          rw [hchar c hc, List.append_assoc]
          rfl
    · exact ⟨none, [], b :: bytes, rfl, by simp, decodeFrom_out hrange bytes, by simp⟩

/-- Decoding takes one part from the front: a byte, and bytes after it that begin no character. If
the part is a character, these are its bytes. -/
theorem decode_front (b : UInt8) (bytes : Bytes) :
    ∃ part more rest, bytes = more ++ rest ∧ (∀ x ∈ more, lead x = .invalid) ∧
      decode (b :: bytes) = part :: decode rest ∧
      ∀ c, part = some c → String.utf8EncodeChar c = b :: more := by
  unfold decode
  rw [decodeFrom]
  cases hlead : lead b with
  | char c =>
    refine ⟨some c, [], bytes, rfl, by simp, rfl, ?_⟩
    intro d hd
    rw [← Option.some.inj hd]
    exact utf8EncodeChar_of_lead hlead
  | opens p => exact decodeFrom_pending bytes (opened_of_lead hlead) (bounds_of_lead hlead)
  | invalid => exact ⟨none, [], bytes, rfl, by simp, rfl, by simp⟩

/-- Encoded characters decode to themselves, whatever comes next. -/
theorem decode_flatMap_append (cs : List Char) (rest : Bytes) :
    decode (cs.flatMap String.utf8EncodeChar ++ rest) = cs.map some ++ decode rest := by
  induction cs with
  | nil => rfl
  | cons c cs ih =>
    rw [List.flatMap_cons, List.append_assoc, decode, decodeFrom_utf8EncodeChar]
    exact congrArg (some c :: ·) ih

/-- No text begins at a byte that begins no character. -/
theorem not_prefix_of_lead {cs : List Char} (nonempty : cs ≠ []) {b : UInt8}
    (hlead : lead b = .invalid) (more : Bytes) :
    ¬ cs.flatMap String.utf8EncodeChar <+: b :: more := by
  rintro ⟨rest, h⟩
  have hdecode := decode_flatMap_append cs rest
  rw [h, decode, decodeFrom, hlead] at hdecode
  cases cs with
  | nil => exact nonempty rfl
  | cons c cs => simp at hdecode

/-! ## Texts in decoded bytes -/

/-- The characters of a byte run, a replacement character standing for each malformed part. -/
theorem toList_decodeLossy (bytes : Bytes) :
    (decodeLossy bytes).toList = (decode bytes).map (·.getD replacement) :=
  String.toList_ofList

/-- A text without replacement characters stands at the front of decoded bytes exactly if its encoding
stands at the front of the bytes. -/
theorem prefix_decode_iff {cs : List Char} (noReplacement : replacement ∉ cs) :
    ∀ bytes : Bytes, cs <+: (decode bytes).map (·.getD replacement) ↔
      cs.flatMap String.utf8EncodeChar <+: bytes := by
  intro bytes
  constructor
  · intro h
    induction cs generalizing bytes with
    | nil => exact List.nil_prefix
    | cons c cs ih =>
      rw [List.mem_cons, not_or] at noReplacement
      cases bytes with
      | nil => exact absurd (List.prefix_nil.mp h) (List.cons_ne_nil c cs)
      | cons b bytes =>
        obtain ⟨part, more, rest, rfl, -, hdecode, hchar⟩ := decode_front b bytes
        rw [hdecode, List.map_cons, List.cons_prefix_cons] at h
        -- the first part is no replacement, so it is a character
        have hpart : part = some c := by
          cases part with
          | none => exact absurd h.1.symm noReplacement.1
          | some d => rw [h.1]; rfl
        have hbytes : b :: (more ++ rest) = String.utf8EncodeChar c ++ rest := by
          rw [hchar c hpart]
          rfl
        rw [hbytes, List.flatMap_cons, List.prefix_append_right_inj]
        exact ih noReplacement.2 rest h.2
  · rintro ⟨rest, rfl⟩
    rw [decode_flatMap_append, List.map_append, List.map_map]
    have hself : cs.map ((·.getD replacement) ∘ some) = cs := List.map_id cs
    rw [hself]
    exact List.prefix_append cs _

/-- A text without replacement characters is counted in decoded bytes as often as its encoding is in
the bytes. -/
theorem occurrences_decode {cs : List Char} (nonempty : cs ≠ []) (noReplacement : replacement ∉ cs)
    (bytes : Bytes) :
    Search.occurrences (cs.flatMap String.utf8EncodeChar) bytes =
      Search.occurrences cs ((decode bytes).map (·.getD replacement)) := by
  have hencoded : cs.flatMap String.utf8EncodeChar ≠ [] := by
    intro h
    exact nonempty (String.ofList_eq_empty_iff.mp ((encode_eq_nil_iff (String.ofList cs)).mp
      (by rw [encode, String.toList_ofList, h])))
  by_cases atFront : cs.flatMap String.utf8EncodeChar <+: bytes
  · -- both scans take the match, and what is left of the bytes is shorter
    obtain ⟨rest, rfl⟩ := atFront
    have hshorter : rest.length < (cs.flatMap String.utf8EncodeChar ++ rest).length := by
      rw [List.length_append]
      have := List.length_pos_iff.mpr hencoded
      omega
    have hself : cs.map ((·.getD replacement) ∘ some) = cs := List.map_id cs
    rw [Search.occurrences_append_self hencoded, decode_flatMap_append, List.map_append,
      List.map_map, hself, Search.occurrences_append_self nonempty,
      occurrences_decode nonempty noReplacement rest]
  · cases bytes with
    | nil => rfl
    | cons b bytes =>
      -- both scans leave the first part of the bytes behind
      have atFront' := (not_congr (prefix_decode_iff noReplacement (b :: bytes))).mpr atFront
      obtain ⟨part, more, rest, hbytes, hmid, hdecode, -⟩ := decode_front b bytes
      have hshorter : rest.length < (b :: bytes).length := by
        rw [hbytes, List.length_cons, List.length_append]
        omega
      rw [hdecode, List.map_cons] at atFront' ⊢
      rw [Search.occurrences_cons_of_not_prefix atFront, hbytes,
        Search.occurrences_append_of_no_match
          fun x hx => not_prefix_of_lead nonempty (hmid x hx),
        Search.occurrences_cons_of_not_prefix atFront',
        occurrences_decode nonempty noReplacement rest]
termination_by bytes.length

theorem occurrences_decodeLossy {s : String} (nonempty : s ≠ "")
    (noReplacement : replacement ∉ s.toList) (bytes : Bytes) :
    Search.occurrences (encode s) bytes =
      Search.occurrences s.toList (decodeLossy bytes).toList := by
  have hne : s.toList ≠ [] := fun h => nonempty (String.toList_eq_nil_iff.mp h)
  rw [toList_decodeLossy]
  exact occurrences_decode hne noReplacement bytes

end Utf8

namespace Runner

variable {r : Runner} {launch : Launch} {root : String} {entry : Entry}

/-- Whatever a process writes on standard output, the markers counted in its bytes are those that
stand in the captured lines, also if it could be read only in part; and the test passes if a line has
one, unless something went wrong with the process. -/
theorem markers_eq_decoded (w : World) {run : ChildRun}
    (started : r.Started launch root entry w.machine run) (nonempty : r.marker ≠ "")
    (noReplacement : Utf8.replacement ∉ r.marker.toList) :
    let outcome := (r.runTest launch root entry w).1
    (run.ReadToEnd → outcome.stdout = (Lines.segments run.stdout).map Capture.lineOf) ∧
      outcome.stdout <+: (Lines.segments run.stdout).map Capture.lineOf ∧
      outcome.markers =
        (outcome.stdout.map fun line => Search.occurrences r.marker.toList line.toList).sum ∧
      outcome.failure = run.failure ∧
      (run.failure = none →
        (outcome.passed = true ↔ ∃ line ∈ outcome.stdout, Text.contains r.marker line = true)) := by
  intro outcome
  have houtcome : outcome = .ofRun (Utf8.encode r.marker) entry run := by
    show (r.runTest launch root entry w).1 = _
    rw [(r.runTest_eq_attempt launch root entry w).1, attempt_of_started started]
  have hmarkers : outcome.markers =
      (outcome.stdout.map fun line => Search.occurrences r.marker.toList line.toList).sum := by
    rw [houtcome]
    show ((run.segments .stdout).map _).sum = (((run.segments .stdout).map _).map _).sum
    rw [List.map_map]
    refine congrArg List.sum (List.map_congr_left fun segment _ => ?_)
    exact Utf8.occurrences_decodeLossy nonempty noReplacement (Lines.trim segment)
  have hfailure : outcome.failure = run.failure := by rw [houtcome]; rfl
  have hne : r.marker.toList ≠ [] := fun h => nonempty (String.toList_eq_nil_iff.mp h)
  refine ⟨?_, ?_, hmarkers, hfailure, ?_⟩
  · intro read
    rw [houtcome, Outcome.ofRun, read.segments_eq, ChildRun.chunks]
  · rw [houtcome]
    exact (run.segments_prefix .stdout).map Capture.lineOf
  · intro sound
    rw [Outcome.passed_iff, hmarkers, List.sum_pos_iff_exists_pos_nat]
    simp only [hfailure, sound, true_and, List.mem_map, exists_exists_and_eq_and,
      Search.occurrences_pos_iff hne, Text.contains, Search.contains_iff]

/-- A marker of characters that take two bytes each, between bytes that are no text: the front of a
character that does not go on, a surrogate, and a byte that only goes on. -/
theorem markers_eq_decoded_of_malformed :
    let r : Runner := ⟨⟨"sh", []⟩, "éé"⟩
    let run : ChildRun :=
      ⟨[[0xc3, 0xc3, 0xa9, 0xc3], [0xa9, 0xc3, 0xa9, 0x80, 0x0a, 0xed, 0xa0, 0xc3, 0xa9],
        [0xc3, 0xa9]], [], [.stderr], none, 7, .none⟩
    let launch : Launch := fun _ files => .ok (run, files)
    let w : World := ⟨⟨⟨.directory 0 [([0x74], .directory 1 [])], [], 2, []⟩, 0, [], 0⟩, .buffers⟩
    let outcome := (r.runTest launch "/" ⟨"t/go.sh"⟩ w).1
    outcome.stdout = ["\ufffdééé\ufffd", "\ufffd\ufffdéé"] ∧ outcome.markers = 2 ∧
      outcome.passed = true := by
  intro r run launch w outcome
  have started : r.Started launch "/" ⟨"t/go.sh"⟩ w.machine run := ⟨_, _, _, rfl, rfl, rfl⟩
  obtain ⟨hread, -, hmarkers, -, hpassed⟩ :=
    markers_eq_decoded w started (by decide) (by decide)
  have hstdout := hread ⟨rfl, rfl⟩
  have sound : run.failure = none := run.failure_eq_none_iff.mpr ⟨⟨rfl, rfl⟩, rfl⟩
  have hlines : (Lines.segments run.stdout).map Capture.lineOf =
      ["\ufffdééé\ufffd", "\ufffd\ufffdéé"] := by decide
  rw [hlines] at hstdout
  refine ⟨hstdout, ?_, (hpassed sound).mpr ⟨"\ufffdééé\ufffd", ?_, by decide⟩⟩
  · rw [hmarkers, hstdout]
    decide
  · rw [hstdout]
    exact List.mem_cons_self

end Runner

end BenchHarness
