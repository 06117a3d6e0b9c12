import BenchHarness.Proofs.Occurrences
import BenchHarness.Proofs.Skips

/-!
# Rules and what they blacklist

In general an excluded directory only loses the files directly in it. A rule by plain text comparison
takes more away: what it blacklists in a path it blacklists in every path that goes on from there. So the
check for excluded directories never matters to it, and nothing is found at any depth below a directory
that it excludes, though the walk goes there (`TestList.discover_rule`).
-/

namespace BenchHarness

/-! ## Paths that go on from others -/

theorem Pieces.prefix_glue {α : Type} {separator : α} {pieces more : List (List α)}
    (h : pieces <+: more) : glue separator pieces <+: glue separator more := by
  induction pieces generalizing more with
  | nil => exact List.nil_prefix
  | cons piece rest ih =>
    obtain ⟨others, rfl, hrest⟩ := List.cons_prefix_iff.mp h
    by_cases last : rest = []
    · subst last
      by_cases alone : others = []
      · rw [alone]
      · rw [glue_cons alone]
        exact List.prefix_append piece _
    · have goesOn : others ≠ [] := by
        rintro rfl
        exact last (List.prefix_nil.mp hrest)
      rw [glue_cons last, glue_cons goesOn]
      exact (List.prefix_append_right_inj piece).mpr
        ((List.prefix_cons_inj separator).mpr (ih hrest))

namespace Discovery

/-- A path starts with that of each directory above it. -/
theorem prefix_intercalate {texts more : List String} (h : texts <+: more) :
    ("/".intercalate texts).toList <+: ("/".intercalate more).toList := by
  rw [toList_intercalate, toList_intercalate]
  exact Pieces.prefix_glue (h.map String.toList)

theorem prefix_of_mapM {names more : List Bytes} {texts others : List String}
    (h : names.mapM Utf8.decode? = some texts) (h' : more.mapM Utf8.decode? = some others)
    (below : names <+: more) : texts <+: others := by
  rw [Utf8.mapM_eq_some_iff] at h h'
  have hmap : texts.map some <+: others.map some := by
    rw [← h, ← h']
    exact below.map Utf8.decode?
  obtain ⟨rest, hrest⟩ := hmap
  obtain ⟨front, back, rfl, hfront, -⟩ := List.map_eq_append_iff.mp hrest.symm
  rw [List.map_injective_iff.mpr (Option.some_injective String) hfront]
  exact List.prefix_append texts back

end Discovery

/-! ## The files of a tree -/

namespace Tree

/-- The texts of the names of a file that is visited, if all of them are text. -/
def fileAt (v : Visit) : Option (List String) :=
  if v.kind = .file ∨ v.kind = .link true then v.names.mapM Utf8.decode? else none

/-- The files that a walk over a directory meets, in its order, each as the texts of the names that lead
to it; those with a name that is not text are left out. -/
def files (children : List (Bytes × Tree)) : List (List String) :=
  (visitsFrom [] (.directory children)).filterMap fileAt

theorem fileAt_eq_some_iff {v : Visit} {texts : List String} :
    fileAt v = some texts ↔
      (v.kind = .file ∨ v.kind = .link true) ∧ v.names.mapM Utf8.decode? = some texts := by
  unfold fileAt
  split
  · rename_i file
    exact (and_iff_right file).symm
  · rename_i noFile
    exact iff_of_false (by simp) (fun h => noFile h.1)

theorem mem_files_iff {children : List (Bytes × Tree)} {texts : List String} :
    texts ∈ files children ↔ ∃ names node, (Tree.directory children).Leads names node ∧
      node.IsFile ∧ names.mapM Utf8.decode? = some texts := by
  simp only [files, List.mem_filterMap, fileAt_eq_some_iff, mem_visitsFrom_iff]
  constructor
  · rintro ⟨v, ⟨names, node, leads, hnames, hkind⟩, file, htexts⟩
    rw [List.nil_append] at hnames
    exact ⟨names, node, leads, exists_file_mem_kinds.mp ⟨v.kind, hkind, file⟩, hnames ▸ htexts⟩
  · rintro ⟨names, node, leads, file, htexts⟩
    obtain ⟨kind, hkind, hfile⟩ := exists_file_mem_kinds.mpr file
    exact ⟨⟨names, kind⟩, ⟨names, node, leads, rfl, hkind⟩, hfile, htexts⟩

/-- Files are met in the strict order of their names. -/
theorem pairwise_files {children : List (Bytes × Tree)} (legal : (Tree.directory children).Legal) :
    ((files children).map (·.map Utf8.encode)).Pairwise (· < ·) := by
  rw [List.pairwise_map]
  refine (pairwise_visitsFrom legal []).filterMap _ ?_
  intro v v' later texts htexts texts' htexts'
  obtain ⟨-, hnames⟩ := fileAt_eq_some_iff.mp htexts
  obtain ⟨file, hnames'⟩ := fileAt_eq_some_iff.mp htexts'
  rw [Discovery.map_encode_of_mapM hnames, Discovery.map_encode_of_mapM hnames']
  rcases later with hlt | ⟨-, error, hfailure⟩
  · exact hlt
  · rw [hfailure] at file
    simp at file

end Tree

/-! ## What a rule picks -/

namespace SubstringRule

open Discovery

variable (rule : SubstringRule)

/-- A file that a rule is after, by the texts of its names: it is called like the entry point, and its
path contains the ancestor segment and starts with nothing that is blacklisted. -/
def Picks (texts : List String) : Prop :=
  texts.getLast? = some rule.entryPoint ∧
    rule.ancestorSegment.toList <:+: ("/".intercalate texts).toList ∧
    ∀ start ∈ rule.blacklist, ¬ start.toList <+: ("/".intercalate texts).toList

instance : DecidablePred rule.Picks := fun _ =>
  inferInstanceAs (Decidable (_ ∧ _ ∧ _))

/-- The tests among some files. -/
def pick (files : List (List String)) : List Entry :=
  (files.filter rule.Picks).map fun texts => ⟨"/".intercalate texts⟩

variable {rule}

theorem isBlacklisted_iff {path : String} :
    rule.isBlacklisted path = true ↔ ∃ start ∈ rule.blacklist, start.toList <+: path.toList := by
  simp only [isBlacklisted, List.any_eq_true, Text.startsWith, List.isPrefixOf_iff_prefix]

/-- Whatever goes on from a blacklisted path is blacklisted. -/
theorem isBlacklisted_below {above path : String} (listed : rule.isBlacklisted above = true)
    (goesOn : above.toList <+: path.toList) : rule.isBlacklisted path = true := by
  obtain ⟨start, hstart, hprefix⟩ := isBlacklisted_iff.mp listed
  exact isBlacklisted_iff.mpr ⟨start, hstart, hprefix.trans goesOn⟩

/-- Of the files that are called like the entry point, a rule accepts those that it is after. -/
theorem accepts_iff_picks {texts : List String} (named : texts.getLast? = some rule.entryPoint) :
    rule.accepts ("/".intercalate texts) = true ↔ rule.Picks texts := by
  -- a path that ends with the entry point's name ends with its text
  have hend : Text.endsWith ("/".intercalate texts) rule.entryPoint = true := by
    obtain ⟨dir, rfl⟩ := List.getLast?_eq_some_iff.mp named
    rw [Text.endsWith, List.isSuffixOf_iff_suffix, toList_intercalate, List.map_append]
    by_cases hdir : dir = []
    · subst hdir
      exact List.suffix_refl _
    · refine ⟨Pieces.glue '/' (dir.map String.toList) ++ ['/'], ?_⟩
      rw [List.map_singleton, Pieces.glue_concat (by simpa using hdir), List.append_assoc]
      rfl
  rw [accepts, hend, Bool.and_true, Bool.and_eq_true, Bool.not_eq_true', Text.contains,
    Search.contains_iff, ← Bool.not_eq_true, isBlacklisted_iff, Picks, and_iff_right named, and_comm]
  simp only [not_exists, not_and]

/-- A rule does not pick what goes on from a path that it blacklists. -/
theorem not_picks_below {above texts : List String}
    (listed : rule.isBlacklisted ("/".intercalate above) = true) (below : above <+: texts) :
    ¬ rule.Picks texts := by
  rintro ⟨-, -, unlisted⟩
  obtain ⟨start, hstart, hprefix⟩ :=
    isBlacklisted_iff.mp (isBlacklisted_below listed (prefix_intercalate below))
  exact unlisted start hstart hprefix

theorem steps_of_mem_files {children : List (Bytes × Tree)}
    (legal : (Tree.directory children).Legal) {texts : List String} (h : texts ∈ Tree.files children) :
    Entry.steps ⟨"/".intercalate texts⟩ = texts.map Utf8.encode := by
  obtain ⟨names, node, leads, -, htexts⟩ := Tree.mem_files_iff.mp h
  rw [map_encode_of_mapM htexts]
  exact steps_eq (leads.fileNames legal) (relativePath?_of_mapM htexts)

/-- What a rule picks among the files of a tree is what is collected there, whichever of the directories
that it blacklists are excluded: a file in one of them has a blacklisted path. -/
theorem collectable_iff {c : Classifier} (accepts : c.accepts = rule.accepts)
    (entryPoint : c.entryPoint = rule.entryPoint) {isExcluded : String → Bool}
    (listed : ∀ dir, isExcluded dir = true → rule.isBlacklisted dir = true)
    {children : List (Bytes × Tree)} (path : String) :
    Collectable c isExcluded (.directory children) path ↔
      path ∈ (rule.pick (Tree.files children)).map (·.path) := by
  simp only [pick, List.map_map, List.mem_map, List.mem_filter, decide_eq_true_eq, Tree.mem_files_iff,
    Function.comp_apply]
  constructor
  · rintro ⟨names, node, texts, leads, file, htexts, rfl, -, accepted, named⟩
    rw [entryPoint] at named
    rw [accepts] at accepted
    exact ⟨texts, ⟨⟨names, node, leads, file, htexts⟩, (accepts_iff_picks named).mp accepted⟩, rfl⟩
  · rintro ⟨texts, ⟨⟨names, node, leads, file, htexts⟩, picked⟩, rfl⟩
    refine ⟨names, node, texts, leads, file, htexts, rfl, ?_, ?_, ?_⟩
    · rw [← Bool.not_eq_true]
      intro excluded
      exact not_picks_below (listed _ excluded) (List.dropLast_prefix texts) picked
    · rw [accepts]
      exact (accepts_iff_picks picked.1).mpr picked
    · rw [entryPoint]
      exact picked.1

/-- The tests found by a rule are the files that it picks, whichever of the directories that it
blacklists are excluded. -/
theorem search_entries_eq {c : Classifier} (accepts : c.accepts = rule.accepts)
    (entryPoint : c.entryPoint = rule.entryPoint)
    (listed : ∀ dir, c.excludesDir dir = true → rule.isBlacklisted dir = true) (root : String)
    (viaLink : Bool) {children : List (Bytes × Tree)} (legal : (Tree.directory children).Legal) :
    (search c root (RootView.directory viaLink children).visits).entries =
      rule.pick (Tree.files children) := by
  have hexcluded : ∀ dir, excludes c viaLink dir = true → rule.isBlacklisted dir = true := by
    intro dir hdir
    rw [excludes, Bool.and_eq_true] at hdir
    exact listed dir hdir.1
  rw [search_entries c root viaLink legal]
  refine eq_of_mem_paths_iff (pairwise_steps c _ legal) ?_ fun path => ?_
  · rw [pick, List.map_map]
    have hsteps : ((Tree.files children).filter rule.Picks).map
          (Entry.steps ∘ fun texts => ⟨"/".intercalate texts⟩) =
        ((Tree.files children).filter rule.Picks).map (·.map Utf8.encode) :=
      List.map_congr_left fun texts h => steps_of_mem_files legal (List.mem_of_mem_filter h)
    rw [hsteps]
    exact (Tree.pairwise_files legal).sublist (List.filter_sublist.map _)
  · rw [mem_entries_iff c _ legal]
    exact collectable_iff accepts entryPoint hexcluded path

/-- More blacklisted texts take away what starts with one of them, and nothing else. -/
theorem pick_append (more : List String) (files : List (List String)) :
    pick { rule with blacklist := rule.blacklist ++ more } files =
      (rule.pick files).filter fun e => ∀ start ∈ more, ¬ start.toList <+: e.path.toList := by
  have hpicks : ∀ texts, Picks { rule with blacklist := rule.blacklist ++ more } texts ↔
      (∀ start ∈ more, ¬ start.toList <+: ("/".intercalate texts).toList) ∧ rule.Picks texts := by
    intro texts
    simp only [Picks, List.forall_mem_append]
    tauto
  rw [pick, pick, List.filter_map, List.filter_filter]
  congr 2
  funext texts
  simp only [hpicks, Function.comp_apply, Bool.decide_and]

/-- In which order and how often texts are blacklisted does not matter. -/
theorem pick_congr {list : List String} (same : ∀ start, start ∈ list ↔ start ∈ rule.blacklist)
    (files : List (List String)) : pick { rule with blacklist := list } files = rule.pick files := by
  have hpicks : ∀ texts, Picks { rule with blacklist := list } texts ↔ rule.Picks texts := by
    intro texts
    simp only [Picks, same]
  rw [pick, pick]
  congr 2
  funext texts
  simp only [hpicks]

/-- Nothing is picked at or below a path that is blacklisted. -/
theorem not_below_of_mem_pick {children : List (Bytes × Tree)}
    (legal : (Tree.directory children).Legal) {dir : List Bytes} {path : String}
    (hdir : relativePath? dir = some path) (listed : rule.isBlacklisted path = true) {e : Entry}
    (he : e ∈ rule.pick (Tree.files children)) : ¬ dir <+: e.steps := by
  obtain ⟨texts, htexts, rfl⟩ := List.mem_map.mp he
  obtain ⟨hfile, picked⟩ := List.mem_filter.mp htexts
  obtain ⟨names, node, leads, -, hnames⟩ := Tree.mem_files_iff.mp hfile
  obtain ⟨above, habove, rfl⟩ := Option.map_eq_some_iff.mp hdir
  rw [steps_of_mem_files legal hfile, map_encode_of_mapM hnames]
  intro below
  exact not_picks_below listed (prefix_of_mapM habove hnames below) (of_decide_eq_true picked)

end SubstringRule

/-- Below the root, a walk comes to every directory, and what is excluded there is noted. -/
theorem Discovery.exclusion_noted (c : Classifier) (root : String) (viaLink : Bool)
    {children : List (Bytes × Tree)} (legal : (Tree.directory children).Legal) {names : List Bytes}
    {node : Tree} (leads : (Tree.directory children).Leads names node) (nonempty : names ≠ [])
    (directory : NodeKind.directory ∈ node.kinds) {path : String}
    (hpath : relativePath? names = some path) (excluded : c.excludesDir path = true) :
    (Findings.exclusion path).notes ⊆
      (search c root (RootView.directory viaLink children).visits).notes := by
  have hvisit : (⟨names, .directory⟩ : Visit) ∈ (RootView.directory viaLink children).visits := by
    have hmem : (⟨names, .directory⟩ : Visit) ∈ Tree.visitsFrom [] (.directory children) :=
      (Tree.mem_visitsFrom_iff _).mpr ⟨names, node, leads, rfl, directory⟩
    rw [Tree.visitsFrom_directory] at hmem
    rcases List.mem_cons.mp hmem with h | h
    · exact absurd (congrArg Visit.names h) nonempty
    · exact List.mem_cons_of_mem _ h
  have hexamined : examine c root (excludes c viaLink) ⟨names, .directory⟩ = .exclusion path := by
    simp only [examine, normalize?_eq (leads.fileNames legal), hpath, excluded, if_true]
  rw [(search_eq c root viaLink legal).2, ← hexamined]
  intro note hnote
  exact List.mem_flatMap.mpr ⟨_, hvisit, hnote⟩

/-- What discovery by rules comes to in a directory, where `entries rule` are the tests that are found. -/
structure TestList.ByRules (children : List (Bytes × Tree)) (entries : SubstringRule → List Entry) :
    Prop where
  found : ∀ rule root viaLink, ∃ notes,
    TestList.discover rule.classifier root (.directory viaLink children) =
      .ok (⟨root, entries rule⟩, notes)
  /-- The same is found if no directory is excluded. -/
  unchecked : ∀ (rule : SubstringRule) root viaLink, ∃ notes,
    TestList.discover { rule.classifier with excludesDir := fun _ => false } root
      (.directory viaLink children) = .ok (⟨root, entries rule⟩, notes)
  /-- These are the files that the rule picks by their paths alone. -/
  picked : ∀ rule, entries rule = rule.pick (Tree.files children)
  files : ∀ texts, texts ∈ Tree.files children ↔ ∃ names node,
    (Tree.directory children).Leads names node ∧ node.IsFile ∧ names.mapM Utf8.decode? = some texts
  sorted : ((Tree.files children).map (·.map Utf8.encode)).Pairwise (· < ·)
  /-- Nothing is found below a directory that is excluded. -/
  barren : ∀ (rule : SubstringRule) dir path, Discovery.relativePath? dir = some path →
    rule.classifier.excludesDir path = true → ∀ e ∈ entries rule, ¬ dir <+: e.steps
  /-- But the walk goes there, and notes each directory that it meets as excluded. -/
  noted : ∀ (rule : SubstringRule) dir path, Discovery.relativePath? dir = some path →
    rule.classifier.excludesDir path = true → ∀ below node sub, below ≠ [] →
      (Tree.directory children).Leads (dir ++ below) node → NodeKind.directory ∈ node.kinds →
      Discovery.relativePath? (dir ++ below) = some sub → ∀ root viaLink tests notes,
        TestList.discover rule.classifier root (.directory viaLink children) = .ok (tests, notes) →
          (Discovery.Findings.exclusion sub).notes ⊆ notes
  /-- More blacklisted texts take away the tests whose paths start with one of them. -/
  refined : ∀ (rule : SubstringRule) more,
    entries { rule with blacklist := rule.blacklist ++ more } =
      (entries rule).filter fun e => ∀ start ∈ more, ¬ start.toList <+: e.path.toList
  /-- In which order and how often texts are blacklisted does not matter. -/
  unordered : ∀ (rule : SubstringRule) list, (∀ start, start ∈ list ↔ start ∈ rule.blacklist) →
    entries { rule with blacklist := list } = entries rule

/-- Discovery by a rule finds, in the order of the walk, the files that the rule picks by their paths
alone. It makes no difference to it that files in excluded directories are left out, or whether the root
is a link; it finds nothing at any depth below an excluded directory, and blacklists add up. -/
theorem TestList.discover_rule {children : List (Bytes × Tree)}
    (legal : (Tree.directory children).Legal) :
    ∃ entries : SubstringRule → List Entry, TestList.ByRules children entries := by
  refine ⟨fun rule => rule.pick (Tree.files children), ?_⟩
  constructor
  case found =>
    intro rule root viaLink
    refine ⟨(Discovery.search rule.classifier root (RootView.directory viaLink children).visits).notes, ?_⟩
    rw [TestList.discover,
      SubstringRule.search_entries_eq rfl rfl (fun _ listed => listed) root viaLink legal]
  case unchecked =>
    intro rule root viaLink
    have hentries : (Discovery.search { rule.classifier with excludesDir := fun _ => false } root
        (RootView.directory viaLink children).visits).entries = rule.pick (Tree.files children) :=
      SubstringRule.search_entries_eq rfl rfl (fun _ never => absurd never Bool.false_ne_true) root
        viaLink legal
    exact ⟨_, by rw [TestList.discover, hentries]⟩
  case picked => exact fun _ => rfl
  case files => exact fun _ => Tree.mem_files_iff
  case sorted => exact Tree.pairwise_files legal
  case barren =>
    intro rule dir path hdir excluded e he
    exact SubstringRule.not_below_of_mem_pick legal hdir excluded he
  case noted =>
    intro rule dir path hdir excluded below node sub nonempty leads directory hsub root viaLink tests
      notes found
    obtain ⟨-, rfl⟩ := Prod.mk.inj (Except.ok.inj found)
    -- a path that goes on from a blacklisted one starts as that does
    have hsubExcluded : rule.isBlacklisted sub = true := by
      obtain ⟨above, habove, rfl⟩ := Option.map_eq_some_iff.mp hdir
      obtain ⟨texts, htexts, rfl⟩ := Option.map_eq_some_iff.mp hsub
      exact SubstringRule.isBlacklisted_below excluded (Discovery.prefix_intercalate
        (Discovery.prefix_of_mapM habove htexts (List.prefix_append dir below)))
    exact Discovery.exclusion_noted rule.classifier root viaLink legal leads (by simp [nonempty])
      directory hsub hsubExcluded
  case refined => exact fun _ more => SubstringRule.pick_append more _
  case unordered => exact fun _ _ same => SubstringRule.pick_congr same _

/-- A blacklisted text that is no whole name takes away what lies two directories further down, and a
test elsewhere is still found. -/
theorem TestList.discover_rule_of_blacklisted :
    let inner : Tree := .directory [([0x67, 0x6f], .file)]
    let children : List (Bytes × Tree) :=
      [([0x61, 0x62], .directory [([0x73], inner)]), ([0x62], inner)]
    let rule : SubstringRule := ⟨[], "", "go"⟩
    let strict : SubstringRule := ⟨["a"], "", "go"⟩
    (∃ notes, TestList.discover rule.classifier "r" (.directory false children) =
      .ok (⟨"r", [⟨"ab/s/go"⟩, ⟨"b/go"⟩]⟩, notes)) ∧
    ∃ notes, TestList.discover strict.classifier "r" (.directory true children) =
        .ok (⟨"r", [⟨"b/go"⟩]⟩, notes) ∧
      (Discovery.Findings.exclusion "ab/s").notes ⊆ notes := by
  intro inner children rule strict
  have legalInner : inner.Legal := .directory (by decide) (by decide) (by simpa using .file)
  have legalOuter : (Tree.directory [([0x73], inner)]).Legal :=
    .directory (by decide) (by decide) (by simpa using legalInner)
  have legal : (Tree.directory children).Legal := by
    refine .directory (by decide) (by decide) ?_
    simpa [children] using ⟨legalOuter, legalInner⟩
  obtain ⟨entries, byRules⟩ := TestList.discover_rule legal
  have hrule : entries rule = [⟨"ab/s/go"⟩, ⟨"b/go"⟩] := by
    rw [byRules.picked]
    decide +kernel
  have hstrict : entries strict = [⟨"b/go"⟩] := by
    rw [show strict = { rule with blacklist := rule.blacklist ++ ["a"] } from rfl, byRules.refined,
      hrule]
    decide
  obtain ⟨notes, found⟩ := byRules.found rule "r" false
  obtain ⟨notes', found'⟩ := byRules.found strict "r" true
  rw [hrule] at found
  have leads : (Tree.directory children).Leads ([[0x61, 0x62]] ++ [[0x73]]) inner :=
    .child List.mem_cons_self (.child List.mem_cons_self (.here inner))
  have noted := byRules.noted strict [[0x61, 0x62]] "ab" (by decide) (by decide) [[0x73]] inner "ab/s"
    (by decide) leads List.mem_cons_self (by decide) "r" true _ notes' found'
  rw [hstrict] at found'
  exact ⟨⟨notes, found⟩, notes', found', noted⟩

end BenchHarness
