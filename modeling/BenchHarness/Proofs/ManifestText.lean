import BenchHarness.ManifestReader
import BenchHarness.Proofs.JsonExact

/-!
# Every way to write a manifest

A manifest may be written with its members in any order, with other members between them, with any gaps and
with its strings escaped in any way (`Manifest.ManifestText`). It is parsed to the same value all the same,
and an object that misses or repeats a known member of the manifest or of a test is not parsed at all
(`Manifest.parse_among_others`).
-/

namespace BenchHarness.Manifest

open Json

/-- A text that is a test, among whatever other members. -/
def EntryText (e : ManifestEntry) (s : Bytes) : Prop :=
  ∃ path dir, StringOf e.path path ∧ StringOf e.dir dir ∧ Record [("path", path), ("dir", dir)] s

/-- A text that is a manifest, among whatever other members. -/
def ManifestText (m : Manifest) (s : Bytes) : Prop :=
  ∃ root tests, StringOf m.root root ∧ ArrayOf EntryText m.tests tests ∧
    Record [("root", root), ("test-count", Utf8.encode (toString m.testCount.toNat)), ("tests", tests)] s

/-- A known member is missing or repeated. -/
def Lacking (names : List String) (members : List (String × Bytes)) : Prop :=
  ∃ name ∈ names, (members.map Prod.fst).count name ≠ 1

/-- A test among those of a manifest misses or repeats a known member. -/
def LackingTest (members : List (String × Bytes)) : Prop :=
  ∃ tests values test inside, ("tests", tests) ∈ members ∧ ArrayOf Eq values tests ∧
    (∀ v ∈ values, Value v) ∧ test ∈ values ∧ ObjectOf inside test ∧ (∀ m ∈ inside, Value m.2) ∧
    Lacking ["path", "dir"] inside

/-! ## Texts that are read -/

/-- The test that is made of a draft of it. -/
def EntryDraft.entry (d : EntryDraft) : ManifestEntry := ⟨d.path.getD "", d.dir.getD ""⟩

/-- A test of which some members have been passed. -/
def passedEntry (e : ManifestEntry) (passed : List String) : EntryDraft where
  path := if "path" ∈ passed then some e.path else none
  dir := if "dir" ∈ passed then some e.dir else none

theorem filling_entryShape {e : ManifestEntry} {path dir : Bytes} (hpath : StringOf e.path path)
    (hdir : StringOf e.dir dir) :
    Filling entryShape [("path", path), ("dir", dir)] (passedEntry e) := by
  constructor
  case empty => rfl
  case names => rfl
  case distinct => simp
  case isSet =>
    intro field hfield passed
    simp only [entryShape, List.mem_cons, List.not_mem_nil, or_false] at hfield
    rcases hfield with rfl | rfl
    · by_cases h : "path" ∈ passed <;> simp [passedEntry, h]
    · by_cases h : "dir" ∈ passed <;> simp [passedEntry, h]
  case takes =>
    intro field hfield passed value hvalue
    simp only [entryShape, List.mem_cons, List.not_mem_nil, or_false] at hfield
    rcases hfield with rfl | rfl
    · obtain rfl : value = path := by simpa using hvalue
      have hpassed : passedEntry e ("path" :: passed) =
          { passedEntry e passed with path := some e.path } := by simp [passedEntry]
      rw [hpassed]
      exact (takes_readText pathWanted hpath).map fun x => { passedEntry e passed with path := some x }
    · obtain rfl : value = dir := by simpa using hvalue
      have hpassed : passedEntry e ("dir" :: passed) =
          { passedEntry e passed with dir := some e.dir } := by simp [passedEntry]
      rw [hpassed]
      exact (takes_readText pathWanted hdir).map fun x => { passedEntry e passed with dir := some x }

/-- A test is read however it is written. -/
theorem takes_readEntry {e : ManifestEntry} {s : Bytes} (h : EntryText e s) : Takes readEntry s e := by
  obtain ⟨path, dir, hpath, hdir, record⟩ := h
  obtain ⟨all, every, takes⟩ := (filling_entryShape hpath hdir).takes_record record
  have hall : "path" ∈ all ∧ "dir" ∈ all := by simpa [entryShape] using every
  have hfull : passedEntry e all = ⟨some e.path, some e.dir⟩ := by simp [passedEntry, hall]
  rw [hfull] at takes
  exact takes.map EntryDraft.entry

/-- The manifest that is made of a draft of it. -/
def Draft.manifest (d : Draft) : Manifest := ⟨d.root.getD "", d.testCount.getD 0, d.tests.getD []⟩

/-- A manifest of which some members have been passed. -/
def passedManifest (m : Manifest) (passed : List String) : Draft where
  root := if "root" ∈ passed then some m.root else none
  testCount := if "test-count" ∈ passed then some m.testCount else none
  tests := if "tests" ∈ passed then some m.tests else none

theorem filling_shape {m : Manifest} {root tests : Bytes} (hroot : StringOf m.root root)
    (htests : ArrayOf EntryText m.tests tests) :
    Filling shape [("root", root), ("test-count", Utf8.encode (toString m.testCount.toNat)), ("tests", tests)]
      (passedManifest m) := by
  constructor
  case empty => rfl
  case names => rfl
  case distinct => simp
  case isSet =>
    intro field hfield passed
    simp only [shape, List.mem_cons, List.not_mem_nil, or_false] at hfield
    rcases hfield with rfl | rfl | rfl
    · by_cases h : "root" ∈ passed <;> simp [passedManifest, h]
    · by_cases h : "test-count" ∈ passed <;> simp [passedManifest, h]
    · by_cases h : "tests" ∈ passed <;> simp [passedManifest, h]
  case takes =>
    intro field hfield passed value hvalue
    simp only [shape, List.mem_cons, List.not_mem_nil, or_false] at hfield
    rcases hfield with rfl | rfl | rfl
    · obtain rfl : value = root := by simpa using hvalue
      have hpassed : passedManifest m ("root" :: passed) =
          { passedManifest m passed with root := some m.root } := by simp [passedManifest]
      rw [hpassed]
      exact (takes_readText pathWanted hroot).map fun x => { passedManifest m passed with root := some x }
    · obtain rfl : value = Utf8.encode (toString m.testCount.toNat) := by simpa using hvalue
      have hpassed : passedManifest m ("test-count" :: passed) =
          { passedManifest m passed with testCount := some m.testCount } := by simp [passedManifest]
      have hcount : Takes (readCount "usize") (Utf8.encode (toString m.testCount.toNat)) m.testCount :=
        reads_toString "usize" m.testCount
      rw [hpassed]
      exact hcount.map fun x => { passedManifest m passed with testCount := some x }
    · obtain rfl : value = tests := by simpa using hvalue
      have hpassed : passedManifest m ("tests" :: passed) =
          { passedManifest m passed with tests := some m.tests } := by simp [passedManifest]
      have hentries : Takes (readArray readEntry) value m.tests := by
        refine takes_readArray htests fun e s h => ⟨?_, takes_readEntry h⟩
        obtain ⟨_, _, -, -, record⟩ := h
        exact record.begins
      rw [hpassed]
      exact hentries.map fun x => { passedManifest m passed with tests := some x }

/-- A manifest is read however it is written. -/
theorem takes_read {m : Manifest} {s : Bytes} (h : ManifestText m s) : Takes read s m := by
  obtain ⟨root, tests, hroot, htests, record⟩ := h
  obtain ⟨all, every, takes⟩ := (filling_shape hroot htests).takes_record record
  have hall : "root" ∈ all ∧ "test-count" ∈ all ∧ "tests" ∈ all := by simpa [shape] using every
  have hfull : passedManifest m all = ⟨some m.root, some m.testCount, some m.tests⟩ := by
    simp [passedManifest, hall]
  rw [hfull] at takes
  exact takes.map Draft.manifest

/-! ## Texts that are not read -/

theorem lawful_entryShape : Lawful entryShape := by
  constructor
  case distinct => decide
  case empty => simp [entryShape]
  case sets =>
    intro field hfield record s record' r h other hother
    simp only [entryShape, List.mem_cons, List.not_mem_nil, or_false] at hfield hother
    rcases hfield with rfl | rfl
    · obtain ⟨⟨x, t⟩, -, h⟩ := bind_eq_ok.mp h
      obtain ⟨rfl, -⟩ := Prod.mk.inj (Except.ok.inj h)
      rcases hother with rfl | rfl <;> simp
    · obtain ⟨⟨x, t⟩, -, h⟩ := bind_eq_ok.mp h
      obtain ⟨rfl, -⟩ := Prod.mk.inj (Except.ok.inj h)
      rcases hother with rfl | rfl <;> simp
  case stops =>
    intro field hfield record
    simp only [entryShape, List.mem_cons, List.not_mem_nil, or_false] at hfield
    rcases hfield with rfl | rfl
    · exact (exact_readText pathWanted).map fun x => { record with path := some x }
    · exact (exact_readText pathWanted).map fun x => { record with dir := some x }

theorem exact_readEntry : Exact readEntry := lawful_entryShape.exact_read.map EntryDraft.entry

theorem lawful_shape : Lawful shape := by
  constructor
  case distinct => decide
  case empty => simp [shape]
  case sets =>
    intro field hfield record s record' r h other hother
    simp only [shape, List.mem_cons, List.not_mem_nil, or_false] at hfield hother
    rcases hfield with rfl | rfl | rfl
    · obtain ⟨⟨x, t⟩, -, h⟩ := bind_eq_ok.mp h
      obtain ⟨rfl, -⟩ := Prod.mk.inj (Except.ok.inj h)
      rcases hother with rfl | rfl | rfl <;> simp
    · obtain ⟨⟨x, t⟩, -, h⟩ := bind_eq_ok.mp h
      obtain ⟨rfl, -⟩ := Prod.mk.inj (Except.ok.inj h)
      rcases hother with rfl | rfl | rfl <;> simp
    · obtain ⟨⟨x, t⟩, -, h⟩ := bind_eq_ok.mp h
      obtain ⟨rfl, -⟩ := Prod.mk.inj (Except.ok.inj h)
      rcases hother with rfl | rfl | rfl <;> simp
  case stops =>
    intro field hfield record
    simp only [shape, List.mem_cons, List.not_mem_nil, or_false] at hfield
    rcases hfield with rfl | rfl | rfl
    · exact (exact_readText pathWanted).map fun x => { record with root := some x }
    · exact (exact_readCount "usize").map fun x => { record with testCount := some x }
    · exact (exact_readArray exact_readEntry).map fun x => { record with tests := some x }

/-- A test with a known member missing or repeated is not read. -/
theorem not_lacking_of_accepts {members : List (String × Bytes)} {s : Bytes} (object : ObjectOf members s)
    (each : ∀ m ∈ members, Value m.2) (accepts : Accepts readEntry s) : ¬ Lacking ["path", "dir"] members := by
  have once := lawful_entryShape.once_of_accepts object each (.of_map EntryDraft.entry accepts)
  rintro ⟨name, hname, lacking⟩
  have hfield : ∃ field ∈ entryShape.fields, field.name = name := by
    simpa [entryShape, eq_comm] using hname
  obtain ⟨field, hfield, rfl⟩ := hfield
  exact lacking (once field hfield).1

/-- Manifests are read among whatever else is written. Every text that is a manifest, with its members and
those of its tests in any order and any other members between them, with any gaps and any escapes, is
parsed to that manifest. No object in which a known member is missing or repeated, or which has such an
object among its tests, is parsed. -/
theorem parse_among_others :
    (∀ (m : Manifest) (text : String) (s : Bytes), Holds text s → ManifestText m s →
      parse text = .ok m) ∧
    ∀ (text : String) (s : Bytes) (members : List (String × Bytes)), Holds text s → ObjectOf members s →
      (∀ m ∈ members, Value m.2) →
      Lacking ["root", "test-count", "tests"] members ∨ LackingTest members →
      ∃ fault, parse text = .error fault := by
  constructor
  · intro m text s holds h
    exact (takes_read h).all holds
  · intro text s members holds object each lacking
    cases h : parse text with
    | error fault => exact ⟨fault, rfl⟩
    | ok m =>
      have once := lawful_shape.once_of_accepts object each
        (.of_map Draft.manifest (accepts_of_readAll holds h))
      exfalso
      rcases lacking with ⟨name, hname, lacking⟩ | ⟨tests, values, test, inside, listed, array, hvalues,
        htest, hinside, heach, lacking⟩
      · have hfield : ∃ field ∈ shape.fields, field.name = name := by
          simpa [shape, eq_comm] using hname
        obtain ⟨field, hfield, rfl⟩ := hfield
        exact lacking (once field hfield).1
      · obtain ⟨record, accepts⟩ := (once (shape.fields[2]) (List.getElem_mem _)).2 _ listed rfl
        have htests : Accepts (readArray readEntry) tests :=
          .of_map (fun x => ({ record with tests := some x } : Draft)) accepts
        have hentry := accepts_of_readArray exact_readEntry array hvalues htests test htest
        exact not_lacking_of_accepts hinside heach hentry lacking

/-- A manifest written backwards, with an escape and a member that is not known, and one that names its root
twice. -/
theorem parse_among_others_of_reordered :
    parse ("\x7b\"x\":[null],\"tests\":[\x7b\"dir\":\"\",\"path\":\"\\u0061\"\x7d]," ++
        "\"test-count\":1,\"root\":\"r\"\x7d") = .ok ⟨"r", 1, [⟨"a", ""⟩]⟩ ∧
      ∃ fault, parse "\x7b\"root\":\"\",\"root\":\"\"\x7d" = .error fault := by
  obtain ⟨reads, fails⟩ := parse_among_others
  have none : Gap [] := fun _ h => absurd h List.not_mem_nil
  have empty : StringOf "" [0x22, 0x22] := @StringOf.quotes "" [] .nil
  have hex : Hex [0x30, 0x30, 0x36, 0x31] 'a'.toNat :=
    @Hex.digits 0x30 0x30 0x36 0x31 0 0 6 1 (.inl (by decide)) (.inl (by decide)) (.inl (by decide))
      (.inl (by decide))
  have path : StringOf "a" (0x22 :: ([0x5c, 0x75, 0x30, 0x30, 0x36, 0x31] ++ [0x22])) := by
    have chars : "a".toList = ['a'] := by decide
    exact .quotes (chars ▸ .hex hex .nil)
  constructor
  · have entry : EntryText ⟨"a", ""⟩ _ :=
      ⟨_, _, path, empty, _, [], .braces (.item none none (@named_plain "dir" _ (by decide))
        (.item none none (@named_plain "path" _ (by decide)) (.done none))), .swap _ _ _, by simp⟩
    have other : Value _ := .array (.item none none rfl (.done none)) (by
      intro v hv
      rw [List.mem_singleton.mp hv]
      exact .word (by decide : "null" ∈ _))
    have object : ManifestText ⟨"r", 1, [⟨"a", ""⟩]⟩ _ :=
      ⟨_, _, stringOf_plain (by decide), .brackets (.item none none entry (.done none)), _, [("x", _)],
        .braces (.item none none (@named_plain "x" _ (by decide))
          (.item none none (@named_plain "tests" _ (by decide))
            (.item none none (@named_plain "test-count" _ (by decide))
              (.item none none (@named_plain "root" _ (by decide)) (.done none))))),
        List.reverse_perm [("root", _), ("test-count", _), ("tests", _), ("x", _)], by
          intro m hm
          rw [List.mem_singleton.mp hm]
          exact ⟨by decide, other⟩⟩
    exact reads _ _ _ ⟨[], [], none, none, by decide⟩ object
  · have object : ObjectOf [("root", [0x22, 0x22]), ("root", [0x22, 0x22])] _ :=
      .braces (.item none none (named_plain _ (by decide)) (.item none none (named_plain _ (by decide))
        (.done none)))
    refine fails _ _ _ ⟨[], [], none, none, by decide⟩ object ?_ (.inl ⟨"root", by decide, by decide⟩)
    intro m hm
    have hvalue : m.2 = [0x22, 0x22] := by
      rcases List.mem_cons.mp hm with rfl | hm
      · rfl
      · rw [List.mem_singleton.mp hm]
    rw [hvalue]
    exact .string (.quotes .nil)

end BenchHarness.Manifest
