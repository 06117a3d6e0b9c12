import BenchHarness.Proofs.Discovery
import BenchHarness.Text.Search

/-!
# Roots that are links

A root that is a link is walked like the directory it leads to, but met as a link, so it is never
remembered as excluded. The tests found through it are those found in the directory, and those directly
in the root even if the classifier excludes the root (`TestList.discover_link`). Rules by plain text
comparison do not notice, because one that excludes the root accepts nothing
(`TestList.discover_link_of_rule`).
-/

namespace BenchHarness

namespace Discovery

variable (c : Classifier)

/-- Whether a test lies directly in a root that the classifier excludes. -/
def inExcludedRoot (e : Entry) : Bool := c.excludesDir "" && (splitName e.path).1 = ""

theorem excludes_true_eq_false_iff (dir : String) :
    excludes c true dir = false ↔ c.excludesDir dir = false ∨ dir = "" := by
  rw [excludes, Bool.and_eq_false_iff]
  simp

/-- A file gives a test in the directory if it gives one through the link and does not lie directly in
an excluded root. -/
theorem examineFile_entries_filter (path : String) :
    (examineFile c c.excludesDir path).entries =
      (examineFile c (excludes c true) path).entries.filter (! inExcludedRoot c ·) := by
  simp only [examineFile_entries, excludes_true_eq_false_iff]
  by_cases htest : c.accepts path = true ∧ (splitName path).2 = c.entryPoint
  · -- the two sides ask the classifier about the same directory, unless that is the root
    by_cases hroot : (splitName path).1 = ""
    · cases hex : c.excludesDir "" with
      | true => simp [htest, hroot, hex, inExcludedRoot]
      | false => simp [htest, hroot, hex, inExcludedRoot]
    · cases hex : c.excludesDir (splitName path).1 with
      | true => simp [hroot]
      | false => simp [htest, hroot, inExcludedRoot]
  · rw [if_neg (fun h => htest h.2), if_neg (fun h => htest h.2)]
    rfl

theorem entriesAt_filter (v : Visit) :
    entriesAt c c.excludesDir v =
      (entriesAt c (excludes c true) v).filter (! inExcludedRoot c ·) := by
  obtain ⟨names, kind⟩ := v
  cases hpath : relativePath? names with
  | none =>
    cases kind with
    | link toFile => cases toFile <;> simp [entriesAt, hpath]
    | _ => simp [entriesAt, hpath]
  | some path =>
    cases kind with
    | file => simpa [entriesAt, hpath] using examineFile_entries_filter c path
    | link toFile =>
      cases toFile with
      | true => simpa [entriesAt, hpath] using examineFile_entries_filter c path
      | false => simp [entriesAt]
    | _ => simp [entriesAt]

/-- The tests found in a directory are those found through a link to it that do not lie directly in an
excluded root. -/
theorem search_entries_filter (root other : String) {children : List (Bytes × Tree)}
    (legal : (Tree.directory children).Legal) :
    (search c root (RootView.directory false children).visits).entries =
      (search c other (RootView.directory true children).visits).entries.filter
        (! inExcludedRoot c ·) := by
  rw [search_entries c root false legal, search_entries c other true legal, excludes_false,
    List.filter_flatMap, List.flatMap_def, List.flatMap_def]
  exact congrArg List.flatten (List.map_congr_left fun v _ => entriesAt_filter c v)

end Discovery

/-- Discovery through a link finds the tests of the directory that the link leads to, in their order,
and on top of them at most those directly in a root that the classifier excludes. So a test found
through it lies in no directory that is excluded, but for the root itself. -/
theorem TestList.discover_link (c : Classifier) (root link : String)
    {children : List (Bytes × Tree)} (legal : (Tree.directory children).Legal) :
    ∃ direct linked : List Entry,
      (∃ notes, TestList.discover c root (.directory false children) =
        .ok (⟨root, direct⟩, notes)) ∧
      (∃ notes, TestList.discover c link (.directory true children) =
        .ok (⟨link, linked⟩, notes)) ∧
      direct = linked.filter (! Discovery.inExcludedRoot c ·) ∧
      (∀ e ∈ linked, c.excludesDir (Discovery.splitName e.path).1 = true →
        Discovery.inExcludedRoot c e = true) ∧
      (c.excludesDir "" = false → linked = direct) := by
  have hfilter := Discovery.search_entries_filter c root link legal
  have hlinked := Discovery.search_entries c link true legal
  refine ⟨_, _, ⟨_, rfl⟩, ⟨_, rfl⟩, hfilter, ?_, ?_⟩
  · intro e he hex
    rw [hlinked, List.mem_flatMap] at he
    obtain ⟨v, -, hv⟩ := he
    obtain ⟨-, -, hdir, -⟩ := (Discovery.mem_entriesAt_iff c _ v e).mp hv
    rcases (Discovery.excludes_true_eq_false_iff c _).mp hdir with hnot | hroot
    · rw [hex] at hnot
      cases hnot
    · rw [hroot] at hex
      simp [Discovery.inExcludedRoot, hex, hroot]
  · intro hroot
    rw [hfilter, List.filter_eq_self.mpr]
    intro e _
    simp [Discovery.inExcludedRoot, hroot]

/-- Other excluded directories are excluded on both sides, and tests directly in the root are found on
both. -/
theorem TestList.discover_link_of_two_tests :
    let c : Classifier := ⟨fun dir => dir = "a", fun _ => true, "go"⟩
    let inner : Tree := .directory [([0x67, 0x6f], .file)]
    let children : List (Bytes × Tree) := [([0x61], inner), ([0x62], inner), ([0x67, 0x6f], .file)]
    ∃ direct linked : List Entry,
      (∃ notes, TestList.discover c "d" (.directory false children) =
        .ok (⟨"d", direct⟩, notes)) ∧
      (∃ notes, TestList.discover c "l" (.directory true children) =
        .ok (⟨"l", linked⟩, notes)) ∧
      linked = direct ∧ linked = [⟨"b/go"⟩, ⟨"go"⟩] := by
  intro c inner children
  have legalInner : inner.Legal := .directory (by decide) (by decide) (by simpa using .file)
  have legal : (Tree.directory children).Legal := by
    refine .directory (by decide) (by decide) ?_
    simpa [children] using ⟨legalInner, .file⟩
  obtain ⟨direct, linked, hdirect, ⟨notes, hlinked⟩, -, -, same⟩ :=
    TestList.discover_link c "d" "l" legal
  refine ⟨direct, linked, hdirect, ⟨notes, hlinked⟩, same rfl, ?_⟩
  have hentries : (Discovery.search c "l" (RootView.directory true children).visits).entries =
      [⟨"b/go"⟩, ⟨"go"⟩] := by rfl
  rw [TestList.discover, hentries] at hlinked
  simp only [Except.ok.injEq, Prod.mk.injEq, TestList.mk.injEq, true_and] at hlinked
  exact hlinked.1.symm

/-- A test directly in an excluded directory `d` is not found in `d`, but through the link `l` to it. -/
theorem TestList.discover_link_of_excluded_root :
    let c : Classifier := ⟨fun dir => dir = "", fun _ => true, "go"⟩
    let d : Node := .directory 1 [([0x67, 0x6f], .file 0o755 [])]
    let files : Files := ⟨.directory 0 [([0x64], d), ([0x6c], .link [0x64])], [], 2, []⟩
    (∃ notes, TestList.discover c "d" (files.rootView 0 "d") = .ok (⟨"d", []⟩, notes)) ∧
    (∃ notes, TestList.discover c "l" (files.rootView 0 "l") = .ok (⟨"l", [⟨"go"⟩]⟩, notes)) :=
  ⟨⟨_, rfl⟩, ⟨_, rfl⟩⟩

/-- A rule that excludes the root accepts no path at all. -/
theorem SubstringRule.accepts_eq_false_of_root {rule : SubstringRule}
    (hroot : rule.isBlacklisted "" = true) (path : String) : rule.accepts path = false := by
  obtain ⟨start, hstart, hempty⟩ := List.any_eq_true.mp hroot
  have hnil : start.toList = [] := by
    rw [Text.startsWith, List.isPrefixOf_iff_prefix] at hempty
    exact List.prefix_nil.mp hempty
  have hlisted : rule.isBlacklisted path = true := by
    refine List.any_eq_true.mpr ⟨start, hstart, ?_⟩
    rw [Text.startsWith, hnil, List.isPrefixOf_nil_left]
  rw [SubstringRule.accepts, hlisted]
  rfl

/-- By a rule, the tests found through a link are those of the directory it leads to. -/
theorem TestList.discover_link_of_rule (rule : SubstringRule) (root link : String)
    {children : List (Bytes × Tree)} (legal : (Tree.directory children).Legal) :
    ∃ entries notes notes',
      TestList.discover rule.classifier root (.directory false children) =
        .ok (⟨root, entries⟩, notes) ∧
      TestList.discover rule.classifier link (.directory true children) =
        .ok (⟨link, entries⟩, notes') := by
  refine ⟨_, _, (Discovery.search rule.classifier link (RootView.directory true children).visits).notes,
    rfl, ?_⟩
  rw [TestList.discover, Discovery.search_entries_filter rule.classifier root link legal,
    List.filter_eq_self.mpr]
  intro e he
  rw [Discovery.search_entries rule.classifier link true legal, List.mem_flatMap] at he
  obtain ⟨v, -, hv⟩ := he
  obtain ⟨-, -, -, haccepts, -⟩ := (Discovery.mem_entriesAt_iff rule.classifier _ v e).mp hv
  cases hroot : rule.isBlacklisted "" with
  | false => simp [Discovery.inExcludedRoot, SubstringRule.classifier, hroot]
  | true =>
    -- nothing could have been found at all
    have hnot : rule.classifier.accepts e.path = false :=
      SubstringRule.accepts_eq_false_of_root hroot e.path
    rw [hnot] at haccepts
    cases haccepts

end BenchHarness
