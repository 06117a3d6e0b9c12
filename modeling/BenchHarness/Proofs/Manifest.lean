import BenchHarness.ManifestReader
import BenchHarness.Proofs.JsonRecord
import BenchHarness.Proofs.Output

/-!
# Manifests are read back

A manifest that was written in either layout is read back as it was, whatever characters its texts have
and whatever its count says (`Manifest.reads_text`). So what a test list is written out as in JSON gives
its root, the number of its tests and its tests in order (`Manifest.parse_written`).
-/

namespace BenchHarness.Manifest

open Json

section

variable {l : Layout} (neutral : l.Neutral)

include neutral

/-- A written test is read back. -/
theorem reads_entryText (depth : Nat) (e : ManifestEntry) :
    Reads readEntry (entryText l depth e) e := by
  have hdir : Fills entryShape ⟨some e.path, none⟩ [("dir", quote e.dir)]
      ⟨some e.path, some e.dir⟩ :=
    .member (by rfl) rfl ((reads_quote pathWanted e.dir).map fun x => EntryDraft.mk (some e.path) (some x))
      (.done _)
  have hboth : Fills entryShape entryShape.empty [("path", quote e.path), ("dir", quote e.dir)]
      ⟨some e.path, some e.dir⟩ :=
    .member (by rfl) rfl ((reads_quote pathWanted e.path).map fun x => EntryDraft.mk (some x) none) hdir
  exact (Reads.object neutral depth hboth rfl).map fun d =>
    ManifestEntry.mk (d.path.getD "") (d.dir.getD "")

/-- A written manifest is read back. -/
theorem reads_text (m : Manifest) : Reads read (m.text l) m := by
  obtain ⟨root, testCount, tests⟩ := m
  have hentries : Reads (readArray readEntry) (l.array 1 (tests.map (entryText l 2))) tests := by
    refine Reads.array neutral 1 fun e _ => ⟨?_, reads_entryText neutral 2 e⟩
    exact opens_object l 2 _
  have htests : Fills shape ⟨some root, some testCount, none⟩
      [("tests", l.array 1 (tests.map (entryText l 2)))] ⟨some root, some testCount, some tests⟩ :=
    .member (by rfl) rfl (hentries.map fun x => Draft.mk (some root) (some testCount) (some x)) (.done _)
  have hcount : Fills shape ⟨some root, none, none⟩
      [("test-count", toString testCount.toNat),
        ("tests", l.array 1 (tests.map (entryText l 2)))] ⟨some root, some testCount, some tests⟩ :=
    .member (by rfl) rfl ((reads_toString "usize" testCount).map fun x => Draft.mk (some root) (some x) none)
      htests
  have hroot : Fills shape shape.empty
      [("root", quote root), ("test-count", toString testCount.toNat),
        ("tests", l.array 1 (tests.map (entryText l 2)))] ⟨some root, some testCount, some tests⟩ :=
    .member (by rfl) rfl ((reads_quote pathWanted root).map fun x => Draft.mk (some x) none none) hcount
  exact (Reads.object neutral 0 hroot rfl).map fun d =>
    Manifest.mk (d.root.getD "") (d.testCount.getD 0) (d.tests.getD [])

/-- A written manifest with a line end after it is parsed to itself. -/
theorem parse_text (m : Manifest) : parse (m.text l ++ "\n") = .ok m := by
  have hend : Utf8.encode "\n" = [0x0a] := by decide
  rw [parse, Utf8.encode_append, hend]
  refine (reads_text neutral m).all ?_
  intro b hb
  obtain rfl : b = 0x0a := List.mem_singleton.mp hb
  decide

end

/-- All of a JSON text and the line end after it are written. -/
theorem writeJson_takes {sink : Sink} (takes : sink.Takes) (text : String) :
    (TestList.writeJson Sink.put text sink).1 = none ∧
      (TestList.writeJson Sink.put text sink).2.contents =
        sink.contents ++ Utf8.encode (text ++ "\n") := by
  obtain ⟨herror, htakes, hcontents⟩ := takes.write (Utf8.encode text)
  unfold TestList.writeJson Sink.put
  generalize sink.write (Utf8.encode text) = after at herror htakes hcontents ⊢
  obtain ⟨error, after⟩ := after
  obtain rfl : error = none := herror
  obtain ⟨herror', -, hcontents'⟩ := htakes.write (Utf8.encode "\n")
  refine ⟨?_, ?_⟩
  · simp only [herror', Option.map_none]
  · rw [Utf8.encode_append, ← List.append_assoc, ← hcontents]
    exact hcontents'

/-- JSON is read back as it was written. Every manifest is parsed from both of its forms. Whatever test
list is written out as in JSON, all of it decodes to a text, and that is parsed to the root of the list,
the number of its entries, and for each entry in order its path and its directory. -/
theorem parse_written :
    (∀ m : Manifest, parse (m.text .compact ++ "\n") = .ok m ∧
      parse (m.text .indented ++ "\n") = .ok m) ∧
    ∀ (list : TestList) (theme : Theme) (format : ListFormat) (sink : Sink), format ≠ .plain →
      sink.Takes → ∃ written text count,
        (list.write Sink.put theme format sink).1 = none ∧
        (list.write Sink.put theme format sink).2.contents = sink.contents ++ written ∧
        Utf8.decode? written = some text ∧
        parse text = .ok ⟨list.root, count, list.entries.map fun e => ⟨e.path, e.dir⟩⟩ ∧
        (list.entries.length < 2 ^ 64 → count.toNat = list.entries.length) := by
  refine ⟨fun m => ⟨parse_text Layout.neutral_compact m, parse_text Layout.neutral_indented m⟩, ?_⟩
  intro list theme format sink json takes
  have hmanifest : list.manifest = ⟨list.root, UInt64.ofNat list.entries.length,
      list.entries.map fun e => ⟨e.path, e.dir⟩⟩ := by
    rw [TestList.manifest, ofTests, List.length_map]
    rfl
  obtain ⟨l, neutral, hwrite⟩ : ∃ l : Layout, l.Neutral ∧ list.write Sink.put theme format sink =
      TestList.writeJson Sink.put (list.manifest.text l) sink := by
    cases format with
    | plain => exact absurd rfl json
    | json => exact ⟨.compact, Layout.neutral_compact, rfl⟩
    | jsonPretty => exact ⟨.indented, Layout.neutral_indented, rfl⟩
  obtain ⟨herror, hcontents⟩ := writeJson_takes takes (list.manifest.text l)
  rw [hwrite]
  refine ⟨_, list.manifest.text l ++ "\n", UInt64.ofNat list.entries.length, herror, hcontents,
    Utf8.decode?_encode _, ?_, ?_⟩
  · rw [parse_text neutral, hmanifest]
  · intro small
    rw [UInt64.toNat_ofNat', Nat.mod_eq_of_lt small]

/-- Quotes, backslashes and control characters come back, and so does the largest count. -/
theorem parse_written_of_special_characters :
    parse (text .indented ⟨"\x22\\\x1f", 0xffffffffffffffff, []⟩ ++ "\n") =
        .ok ⟨"\x22\\\x1f", 0xffffffffffffffff, []⟩ ∧
      ∃ written text,
        (TestList.write Sink.put ⟨"\x22\\\x1f", [⟨"a\n/go"⟩]⟩ .plain .json .buffer).2.contents =
          written ∧
        Utf8.decode? written = some text ∧
        parse text = .ok ⟨"\x22\\\x1f", 1, [⟨"a\n/go", "a\n"⟩]⟩ := by
  refine ⟨(parse_written.1 _).2, ?_⟩
  obtain ⟨written, text, count, -, hcontents, hdecode, hparse, hcount⟩ :=
    parse_written.2 ⟨"\x22\\\x1f", [⟨"a\n/go"⟩]⟩ .plain .json .buffer (by decide) fun _ _ _ => rfl
  obtain rfl : count = 1 := UInt64.toNat_inj.mp (hcount (by decide))
  have hdir : Entry.dir ⟨"a\n/go"⟩ = "a\n" := by decide
  refine ⟨written, text, hcontents, hdecode, ?_⟩
  rw [hparse, List.map_singleton, hdir]

end BenchHarness.Manifest
