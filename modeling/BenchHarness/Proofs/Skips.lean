import BenchHarness.Proofs.Order
import Mathlib

/-!
# What discovery passes over

A directory that cannot be read and a name that is not text cost discovery what lies there and nothing
else: the tests found are those of the tree without them (`Discovery.entries_tidy`). Whatever is passed
over that might have mattered is warned about, once and in the order of the walk; an accepted file is
found or warned about (`TestList.discover_skips`).
-/

namespace BenchHarness

namespace Tree

/-! ## Tidy trees -/

mutual

/-- The tree in which directories that cannot be read are empty, and nodes whose names are not text
are left out with what they hold. What a link leads to is a fact about the tree as it was, and stays:
it leads to a file also where the file is left out or was reached through what is left out. -/
def tidy : Tree → Tree
  | .file => .file
  | .link toFile => .link toFile
  | .special => .special
  | .unreadable _ => .directory []
  | .directory children => .directory (tidyEach children)

/-- The nodes of a directory whose names are text, each of them tidy. -/
def tidyEach : List (Bytes × Tree) → List (Bytes × Tree)
  | [] => []
  | (name, node) :: rest =>
    if (Utf8.decode? name).isSome then (name, tidy node) :: tidyEach rest else tidyEach rest

end

theorem tidyEach_eq (children : List (Bytes × Tree)) :
    tidyEach children = (children.filter fun child => (Utf8.decode? child.1).isSome).map
      fun child => (child.1, child.2.tidy) := by
  induction children with
  | nil => rfl
  | cons child rest ih =>
    obtain ⟨name, node⟩ := child
    rw [tidyEach, ih]
    by_cases h : (Utf8.decode? name).isSome = true
    · simp [h]
    · simp [h]

theorem mem_tidyEach {children : List (Bytes × Tree)} {name : Bytes} {node : Tree} :
    (name, node) ∈ tidyEach children ↔
      ∃ inner, (name, inner) ∈ children ∧ (Utf8.decode? name).isSome ∧ node = inner.tidy := by
  simp only [tidyEach_eq, List.mem_map, List.mem_filter, Prod.mk.injEq, Prod.exists]
  constructor
  · rintro ⟨_, inner, ⟨hmem, htext⟩, rfl, rfl⟩
    exact ⟨inner, hmem, htext, rfl⟩
  · rintro ⟨inner, hmem, htext, rfl⟩
    exact ⟨name, inner, ⟨hmem, htext⟩, rfl, rfl⟩

theorem Legal.tidy {tree : Tree} (legal : tree.Legal) : tree.tidy.Legal := by
  induction legal with
  | file => exact .file
  | link toFile => exact .link toFile
  | special => exact .special
  | unreadable error => exact .directory (by simp) (by simp) (by simp)
  | @directory children names distinct nodes ih =>
    rw [Tree.tidy]
    refine .directory ?_ ?_ ?_
    · rintro ⟨name, node⟩ hchild
      obtain ⟨inner, hmem, -, -⟩ := mem_tidyEach.mp hchild
      exact names (name, inner) hmem
    · rw [tidyEach_eq, List.map_map]
      exact distinct.sublist (List.filter_sublist.map _)
    · rintro ⟨name, node⟩ hchild
      obtain ⟨inner, hmem, -, rfl⟩ := mem_tidyEach.mp hchild
      exact ih _ hmem

/-- What counts as a file: a regular one, or a link to one. -/
def IsFile (node : Tree) : Prop := node = .file ∨ node = .link true

theorem IsFile.of_tidy {tree : Tree} (file : tree.tidy.IsFile) : tree.tidy = tree := by
  cases tree with
  | unreadable error => simp [IsFile, tidy] at file
  | directory children => simp [IsFile, tidy] at file
  | _ => rfl

theorem IsFile.tidy {tree : Tree} (file : tree.IsFile) : tree.tidy = tree := by
  rcases file with rfl | rfl
  · rfl
  · rfl

/-- The files of a tidy tree are those that names of text lead to. -/
theorem leads_tidy_iff {node : Tree} (file : node.IsFile) (names : List Bytes) :
    ∀ tree : Tree, tree.tidy.Leads names node ↔
      tree.Leads names node ∧ ∀ name ∈ names, (Utf8.decode? name).isSome := by
  induction names with
  | nil =>
    intro tree
    have hself : ∀ other : Tree, other.Leads [] node ↔ other = node := by
      intro other
      constructor
      · rintro ⟨⟩
        rfl
      · rintro rfl
        exact .here _
    rw [hself, hself]
    constructor
    · rintro rfl
      exact ⟨file.of_tidy.symm, by simp⟩
    · rintro ⟨rfl, -⟩
      exact file.tidy
  | cons name names ih =>
    intro tree
    constructor
    · intro leads
      cases tree with
      | directory children =>
        cases leads with
        | child mem leads =>
          obtain ⟨inner, hmem, htext, rfl⟩ := mem_tidyEach.mp mem
          obtain ⟨leads, htexts⟩ := (ih inner).mp leads
          exact ⟨.child hmem leads, List.forall_mem_cons.mpr ⟨htext, htexts⟩⟩
      | unreadable error =>
        -- nothing is left in a directory that cannot be read
        cases leads with
        | child mem leads => exact absurd mem List.not_mem_nil
      | _ => cases leads
    · rintro ⟨leads, htexts⟩
      obtain ⟨htext, htexts⟩ := List.forall_mem_cons.mp htexts
      cases leads with
      | child mem leads =>
        exact .child (mem_tidyEach.mpr ⟨_, mem, htext, rfl⟩) ((ih _).mpr ⟨leads, htexts⟩)

end Tree

namespace Discovery

theorem isSome_of_mapM {names : List Bytes} {texts : List String}
    (h : names.mapM Utf8.decode? = some texts) : ∀ name ∈ names, (Utf8.decode? name).isSome := by
  rw [Utf8.mapM_eq_some_iff] at h
  intro name hname
  obtain ⟨text, -, htext⟩ := List.mem_map.mp (h ▸ List.mem_map_of_mem hname)
  rw [← htext]
  rfl

/-- What is collected in a tree is what is collected in the tidy one. -/
theorem collectable_tidy_iff (c : Classifier) (isExcluded : String → Bool) (tree : Tree)
    (path : String) :
    Collectable c isExcluded tree.tidy path ↔ Collectable c isExcluded tree path := by
  constructor
  · rintro ⟨names, node, texts, leads, file, htexts, rest⟩
    exact ⟨names, node, texts, ((Tree.leads_tidy_iff file names tree).mp leads).1, file, htexts, rest⟩
  · rintro ⟨names, node, texts, leads, file, htexts, rest⟩
    exact ⟨names, node, texts,
      (Tree.leads_tidy_iff file names tree).mpr ⟨leads, isSome_of_mapM htexts⟩, file, htexts, rest⟩

/-- The tests found in a tree are those found in the tidy one. -/
theorem entries_tidy (c : Classifier) (isExcluded : String → Bool) {children : List (Bytes × Tree)}
    (legal : (Tree.directory children).Legal) :
    (Tree.visitsFrom [] (.directory (Tree.tidyEach children))).flatMap (entriesAt c isExcluded) =
      (Tree.visitsFrom [] (.directory children)).flatMap (entriesAt c isExcluded) := by
  have legalTidy : (Tree.directory (Tree.tidyEach children)).Legal := legal.tidy
  refine eq_of_mem_paths_iff (pairwise_steps c isExcluded legalTidy)
    (pairwise_steps c isExcluded legal) fun path => ?_
  rw [mem_entries_iff c isExcluded legalTidy, mem_entries_iff c isExcluded legal]
  exact collectable_tidy_iff c isExcluded (.directory children) path

/-! ## What is warned about -/

/-- Something that is passed over with a warning. -/
inductive Skip where
  /-- A node whose path is not text. -/
  | notText (names : List Bytes)
  /-- A directory that cannot be read. -/
  | unreadable (names : List Bytes) (error : IoError)
  /-- A file that is accepted and not called like an entry point. -/
  | misnamed (names : List Bytes) (path : String)

namespace Skip

/-- The names that lead to what is passed over. -/
def names : Skip → List Bytes
  | .notText names | .unreadable names _ | .misnamed names _ => names

/-- The warning about it. -/
def warning (c : Classifier) (root : String) (skip : Skip) : LogRecord where
  level := .warn
  topic := .discovery
  message := match skip with
    | .notText names => "skipping non-UTF-8 path during discovery: " ++ shownPath root names
    | .unreadable names error =>
      "skipping unreadable path during discovery: " ++ (walkError root names error).message
    | .misnamed _ path =>
      "skipping \x60" ++ path ++ "\x60: file name is not \x60" ++ c.entryPoint ++ "\x60"

/-- The order of the walk: by the names, and a directory whose path is not text before the failure to
read it. -/
def Before (skip other : Skip) : Prop :=
  skip.names < other.names ∨
    ∃ names error, skip = .notText names ∧ other = .unreadable names error

theorem Before.ne {skip other : Skip} (before : skip.Before other) : skip ≠ other := by
  rintro rfl
  rcases before with hlt | ⟨names, error, rfl, h⟩
  · exact List.lt_irrefl _ hlt
  · cases h

end Skip

variable (c : Classifier) (root : String) (isExcluded : String → Bool)

/-- What is to be warned about in a tree. -/
inductive Skipped (tree : Tree) : Skip → Prop where
  | notText {names : List Bytes} {node : Tree} (leads : tree.Leads names node)
      (notText : names.mapM Utf8.decode? = none) : Skipped tree (.notText names)
  | unreadable {names : List Bytes} {error : IoError} (leads : tree.Leads names (.unreadable error)) :
      Skipped tree (.unreadable names error)
  | misnamed {names : List Bytes} {node : Tree} {texts : List String}
      (leads : tree.Leads names node) (file : node.IsFile)
      (texts_eq : names.mapM Utf8.decode? = some texts)
      (notExcluded : isExcluded ("/".intercalate texts.dropLast) = false)
      (accepted : c.accepts ("/".intercalate texts) = true)
      (otherName : texts.getLast? ≠ some c.entryPoint) :
      Skipped tree (.misnamed names ("/".intercalate texts))

/-- What a visit is warned about, if anything. -/
def skipAt (v : Visit) : Option Skip :=
  match v.kind, relativePath? v.names with
  | .failure error, _ => some (.unreadable v.names error)
  | _, none => some (.notText v.names)
  | .file, some path | .link true, some path =>
    if isExcluded (splitName path).1 = false ∧ c.accepts path = true ∧
      (splitName path).2 ≠ c.entryPoint then some (.misnamed v.names path) else none
  | _, some _ => none

/-- The warnings among some notes. -/
def warnings (notes : List LogRecord) : List LogRecord := notes.filter (·.level = .warn)

theorem warnings_examineFile (names : List Bytes) (path : String) :
    warnings (examineFile c isExcluded path).notes =
      ((if isExcluded (splitName path).1 = false ∧ c.accepts path = true ∧
        (splitName path).2 ≠ c.entryPoint then some (Skip.misnamed names path) else none).toList.map
          (Skip.warning c root)) := by
  simp only [examineFile]
  cases hex : isExcluded (splitName path).1 with
  | true => simp [Findings.none, warnings]
  | false =>
    cases hacc : c.accepts path with
    | false => simp [Findings.none, warnings]
    | true =>
      by_cases hname : (splitName path).2 = c.entryPoint
      · simp [hname, Findings.test, Findings.note, warnings]
      · simp [hname, Findings.note, warnings, Skip.warning]

/-- A visit is warned about once at most, and for its own reason. -/
theorem warnings_examine {v : Visit} (legal : ∀ name ∈ v.names, FileName name) :
    warnings (examine c root isExcluded v).notes =
      (skipAt c isExcluded v).toList.map (Skip.warning c root) := by
  obtain ⟨names, kind⟩ := v
  unfold examine skipAt
  rw [normalize?_eq legal]
  cases hpath : relativePath? names with
  | none =>
    cases kind with
    | link toFile => cases toFile <;> rfl
    | _ => rfl
  | some path =>
    cases kind with
    | file => exact warnings_examineFile c root isExcluded names path
    | link toFile =>
      cases toFile with
      | true => exact warnings_examineFile c root isExcluded names path
      | false => rfl
    | special => rfl
    | failure error => rfl
    | directory =>
      by_cases hex : c.excludesDir path = true
      · simp [hex, Findings.exclusion, Findings.note, warnings]
      · simp [hex, Findings.none, warnings]

/-- When a visit is warned about, and about what. -/
theorem skipAt_eq_some_iff {v : Visit} {skip : Skip} :
    skipAt c isExcluded v = some skip ↔
      (∃ error, v.kind = .failure error ∧ .unreadable v.names error = skip) ∨
      ((∀ error, v.kind ≠ .failure error) ∧ relativePath? v.names = none ∧
        .notText v.names = skip) ∨
      ∃ path, (v.kind = .file ∨ v.kind = .link true) ∧ relativePath? v.names = some path ∧
        isExcluded (splitName path).1 = false ∧ c.accepts path = true ∧
        (splitName path).2 ≠ c.entryPoint ∧ .misnamed v.names path = skip := by
  obtain ⟨names, kind⟩ := v
  cases hpath : relativePath? names with
  | none =>
    cases kind with
    | link toFile => cases toFile <;> simp [skipAt, hpath]
    | _ => simp [skipAt, hpath]
  | some path =>
    cases kind with
    | file => simp [skipAt, hpath, and_assoc]
    | link toFile => cases toFile <;> simp [skipAt, hpath, and_assoc]
    | _ => simp [skipAt, hpath]

/-- What a walk is warned about, visit by visit. -/
def skips (children : List (Bytes × Tree)) : List Skip :=
  (Tree.visitsFrom [] (.directory children)).filterMap (skipAt c isExcluded)

/-- The warnings of a search are those about what its walk passes over. -/
theorem warnings_search (viaLink : Bool) {children : List (Bytes × Tree)}
    (legal : (Tree.directory children).Legal) :
    warnings (search c root (RootView.directory viaLink children).visits).notes =
      (skips c (excludes c viaLink) children).map (Skip.warning c root) := by
  have hlegal := Tree.fileNames_of_mem_visits legal
  have hroot : skipAt c (excludes c viaLink) (RootView.top viaLink) = none := by
    cases viaLink <;> rfl
  have hnotes := warnings_examine c root (excludes c viaLink)
    (v := RootView.top viaLink) (by simp [RootView.top])
  rw [hroot] at hnotes
  have hbelow : (Tree.visitsIn [] children).flatMap
        (fun v => warnings (examine c root (excludes c viaLink) v).notes) =
      (Tree.visitsIn [] children).flatMap
        (fun v => (skipAt c (excludes c viaLink) v).toList.map (Skip.warning c root)) := by
    rw [List.flatMap_def, List.flatMap_def]
    refine congrArg List.flatten (List.map_congr_left fun v hv => ?_)
    exact warnings_examine c root (excludes c viaLink) (hlegal v (List.mem_cons_of_mem _ hv))
  have hskips : skips c (excludes c viaLink) children =
      (Tree.visitsIn [] children).filterMap (skipAt c (excludes c viaLink)) :=
    List.filterMap_cons_none rfl
  rw [(search_eq c root viaLink legal).2, warnings, List.filter_flatMap, hskips,
    List.filterMap_eq_flatMap_toList, List.map_flatMap, ← hbelow]
  exact (congrArg (· ++ _) hnotes)

/-- What a walk is warned about is in the order of the walk. -/
theorem pairwise_skips {children : List (Bytes × Tree)}
    (legal : (Tree.directory children).Legal) :
    (skips c isExcluded children).Pairwise Skip.Before := by
  have names_eq : ∀ {v : Visit} {skip : Skip}, skipAt c isExcluded v = some skip →
      skip.names = v.names := by
    intro v skip h
    rcases (skipAt_eq_some_iff c isExcluded).mp h with
      ⟨error, -, rfl⟩ | ⟨-, -, rfl⟩ | ⟨path, -, -, -, -, -, rfl⟩ <;> rfl
  refine (Tree.pairwise_visitsFrom_of (R := fun v v' => v.names < v'.names ∨
    v.kind = .directory ∧ ∃ error, v' = ⟨v.names, .failure error⟩) (fun _ _ => Or.inl) legal
    (fun _ error => Or.inr ⟨rfl, error, rfl⟩) []).filterMap _ ?_
  rintro v v' (hlt | ⟨hdir, error, rfl⟩) skip hskip other hother
  · left
    rw [names_eq hskip, names_eq hother]
    exact hlt
  · -- a directory that cannot be read is itself warned about only if its path is not text
    right
    refine ⟨v.names, error, ?_, (Option.some.inj hother).symm⟩
    rcases (skipAt_eq_some_iff c isExcluded).mp hskip with
      ⟨error, hkind, -⟩ | ⟨-, -, rfl⟩ | ⟨path, hkind, -⟩
    · rw [hdir] at hkind
      cases hkind
    · rfl
    · rw [hdir] at hkind
      rcases hkind with h | h <;> cases h

/-- What a walk is warned about is what is to be warned about in the tree. -/
theorem mem_skips_iff {children : List (Bytes × Tree)} (legal : (Tree.directory children).Legal)
    (skip : Skip) :
    skip ∈ skips c isExcluded children ↔ Skipped c isExcluded (.directory children) skip := by
  simp only [skips, List.mem_filterMap, skipAt_eq_some_iff, Tree.mem_visitsFrom_iff]
  constructor
  · rintro ⟨v, ⟨names, node, leads, hnames, hkind⟩, h⟩
    rw [List.nil_append] at hnames
    subst hnames
    rcases h with ⟨error, hfailed, rfl⟩ | ⟨-, hpath, rfl⟩ |
      ⟨path, hfile, hpath, hdir, hacc, hname, rfl⟩
    · obtain rfl := Tree.failure_mem_kinds.mp (hfailed ▸ hkind)
      exact .unreadable leads
    · exact .notText leads (Option.map_eq_none_iff.mp hpath)
    · have hnode := Tree.exists_file_mem_kinds.mp ⟨v.kind, hkind, hfile⟩
      obtain ⟨texts, last, htexts, rfl, hlast, hsplit⟩ := splitName_of_file legal leads hnode hpath
      rw [hsplit] at hdir hname
      refine .misnamed leads hnode htexts hdir hacc ?_
      rw [hlast]
      exact fun h => hname (Option.some.inj h)
  · intro h
    cases h with
    | @notText names node leads notText =>
      obtain ⟨kind, hkind, hnot⟩ := Tree.exists_mem_kinds node
      exact ⟨⟨names, kind⟩, ⟨names, node, leads, rfl, hkind⟩,
        Or.inr (Or.inl ⟨hnot, Option.map_eq_none_iff.mpr notText, rfl⟩)⟩
    | @unreadable names error leads =>
      exact ⟨⟨names, .failure error⟩, ⟨names, _, leads, rfl, Tree.failure_mem_kinds.mpr rfl⟩,
        Or.inl ⟨error, rfl, rfl⟩⟩
    | @misnamed names node texts leads file texts_eq notExcluded accepted otherName =>
      have hpath := relativePath?_of_mapM texts_eq
      obtain ⟨_, last, htexts, -, hlast, hsplit⟩ := splitName_of_file legal leads file hpath
      obtain rfl := Option.some.inj (texts_eq.symm.trans htexts)
      obtain ⟨kind, hkind, hfile⟩ := Tree.exists_file_mem_kinds.mpr file
      refine ⟨⟨names, kind⟩, ⟨names, node, leads, rfl, hkind⟩,
        Or.inr (Or.inr ⟨_, hfile, hpath, ?_, accepted, ?_, rfl⟩)⟩
      · rw [hsplit]
        exact notExcluded
      · rw [hsplit]
        exact fun h => otherName (hlast.trans (congrArg some h))

theorem Skip.eq_of_warning_eq {skip : Skip} {names : List Bytes} {path : String}
    (h : skip.warning c root = (Skip.misnamed names path).warning c root) :
    ∃ names', skip = .misnamed names' path := by
  -- after the common word comes a quote, or the first letter of what is wrong
  have hmark := congrArg (fun note : LogRecord => note.message.toList[9]?) h
  have hmessage := congrArg LogRecord.message h
  cases skip with
  | notText other => simp [warning, String.toList_append] at hmark
  | unreadable other error => simp [warning, String.toList_append] at hmark
  | misnamed other path' =>
    simp only [warning, String.append_left_inj, String.append_right_inj] at hmessage
    exact ⟨other, hmessage ▸ rfl⟩

/-- An accepted file that is not excluded is either collected or passed over. -/
theorem collectable_iff_not_skipped {children : List (Bytes × Tree)}
    (legal : (Tree.directory children).Legal) {names : List Bytes} {node : Tree} {path : String}
    (leads : (Tree.directory children).Leads names node) (file : node.IsFile)
    (hpath : relativePath? names = some path) (hdir : isExcluded (splitName path).1 = false)
    (hacc : c.accepts path = true) :
    Collectable c isExcluded (.directory children) path ↔
      ¬ ∃ names', Skipped c isExcluded (.directory children) (.misnamed names' path) := by
  obtain ⟨texts, last, htexts, rfl, hlast, hsplit⟩ := splitName_of_file legal leads file hpath
  rw [hsplit] at hdir
  have legalNames := leads.fileNames legal
  constructor
  · -- the path is that of no other node, so its last name is the one that counts
    rintro ⟨names', node', texts', leads', -, htexts', hjoined, -, -, hentry⟩ ⟨other, hskipped⟩
    rw [← texts_eq_of_intercalate_eq legalNames (leads'.fileNames legal) htexts htexts' hjoined]
      at hentry
    generalize hshown : "/".intercalate texts = shown at hskipped
    cases hskipped with
    | misnamed leads'' _ htexts'' _ _ otherName =>
      rw [← texts_eq_of_intercalate_eq legalNames (leads''.fileNames legal) htexts htexts'' hshown]
        at otherName
      exact otherName hentry
  · intro hnot
    refine ⟨names, node, texts, leads, file, htexts, rfl, hdir, hacc, ?_⟩
    by_contra hname
    exact hnot ⟨names, .misnamed leads file htexts hdir hacc hname⟩

end Discovery

/-- Whatever cannot be read or named below a root, discovery finds the tests of the tidy tree. Its
warnings are one for each directory that cannot be read, each path that is not text and each accepted
file that only has the wrong name, in the order of the walk; so no accepted file is dropped silently.
Of a root that is not a link, the directories excluded are those that the classifier excludes
(`Discovery.excludes_false`). -/
theorem TestList.discover_skips (c : Classifier) (root : String) (viaLink : Bool)
    {children : List (Bytes × Tree)} (legal : (Tree.directory children).Legal) :
    let isExcluded := Discovery.excludes c viaLink
    ∃ (entries : List Entry) (notes : List LogRecord) (skips : List Discovery.Skip),
      TestList.discover c root (.directory viaLink children) = .ok (⟨root, entries⟩, notes) ∧
      (∃ others, TestList.discover c root (.directory viaLink (Tree.tidyEach children)) =
        .ok (⟨root, entries⟩, others)) ∧
      Discovery.warnings notes = skips.map (Discovery.Skip.warning c root) ∧
      skips.Pairwise Discovery.Skip.Before ∧ skips.Nodup ∧
      (∀ skip, skip ∈ skips ↔ Discovery.Skipped c isExcluded (.directory children) skip) ∧
      ∀ names node path, (Tree.directory children).Leads names node → node.IsFile →
        Discovery.relativePath? names = some path →
        isExcluded (Discovery.splitName path).1 = false → c.accepts path = true →
        Xor (path ∈ entries.map (·.path))
          ((Discovery.Skip.misnamed names path).warning c root ∈ notes) := by
  intro isExcluded
  have legalTidy : (Tree.directory (Tree.tidyEach children)).Legal := legal.tidy
  have hentries := Discovery.search_entries c root viaLink legal
  have hwarnings := Discovery.warnings_search c root viaLink legal
  have hskips := Discovery.mem_skips_iff c isExcluded legal
  have hpairwise := Discovery.pairwise_skips c isExcluded legal
  have htidy : (Discovery.search c root
        (RootView.directory viaLink (Tree.tidyEach children)).visits).entries =
      (Discovery.search c root (RootView.directory viaLink children).visits).entries := by
    rw [Discovery.search_entries c root viaLink legalTidy, hentries,
      Discovery.entries_tidy c _ legal]
  refine ⟨_, _, Discovery.skips c isExcluded children, rfl,
    ⟨(Discovery.search c root (RootView.directory viaLink (Tree.tidyEach children)).visits).notes, ?_⟩,
    hwarnings, hpairwise, hpairwise.imp Discovery.Skip.Before.ne, hskips, ?_⟩
  · rw [TestList.discover, htidy]
  · intro names node path leads file hpath hdir hacc
    rw [xor_iff_iff_not, hentries, Discovery.mem_entries_iff c isExcluded legal,
      Discovery.collectable_iff_not_skipped c isExcluded legal leads file hpath hdir hacc]
    refine not_congr ?_
    constructor
    · rintro ⟨names', hskipped⟩
      have hmem := List.mem_map_of_mem (f := Discovery.Skip.warning c root) ((hskips _).mpr hskipped)
      rw [← hwarnings] at hmem
      exact (List.mem_filter.mp hmem).1
    · intro hmem
      have hwarned : (Discovery.Skip.misnamed names path).warning c root ∈
          Discovery.warnings (Discovery.search c root
            (RootView.directory viaLink children).visits).notes :=
        List.mem_filter.mpr ⟨hmem, rfl⟩
      rw [hwarnings] at hwarned
      obtain ⟨skip, hskip, hsame⟩ := List.mem_map.mp hwarned
      obtain ⟨names', rfl⟩ := Discovery.Skip.eq_of_warning_eq c root hsame
      exact ⟨names', (hskips _).mp hskip⟩

/-- A directory that cannot be read, a test in a directory whose name is not text and a file of another
name are passed over with a warning each, and the test beside them is found. -/
theorem TestList.discover_skips_of_unreadable :
    let c : Classifier := ⟨fun _ => false, fun _ => true, "go"⟩
    let children : List (Bytes × Tree) := [([0x61], .unreadable (.system .accessDenied)),
      ([0xff], .directory [([0x67, 0x6f], .file)]), ([0x67, 0x6f], .file), ([0x74], .file)]
    ∃ entries notes,
      TestList.discover c "r" (.directory false children) = .ok (⟨"r", entries⟩, notes) ∧
      entries.map (·.path) = ["go"] ∧
      (Discovery.Skip.unreadable [[0x61]] (.system .accessDenied)).warning c "r" ∈ notes ∧
      (Discovery.Skip.notText [[0xff], [0x67, 0x6f]]).warning c "r" ∈ notes ∧
      (Discovery.Skip.misnamed [[0x74]] "t").warning c "r" ∈ notes := by
  intro c children
  have legalInner : (Tree.directory [([0x67, 0x6f], .file)]).Legal :=
    .directory (by decide) (by decide) (by simpa using .file)
  have legal : (Tree.directory children).Legal := by
    refine .directory (by decide) (by decide) ?_
    simpa [children] using ⟨.unreadable _, legalInner, .file⟩
  obtain ⟨entries, notes, skips, found, -, hwarnings, -, -, hskips, files⟩ :=
    TestList.discover_skips c "r" false legal
  have hentries : (Discovery.search c "r" (RootView.directory false children).visits).entries =
      [⟨"go"⟩] := by rfl
  have hfound := found
  rw [TestList.discover, hentries] at hfound
  simp only [Except.ok.injEq, Prod.mk.injEq, TestList.mk.injEq, true_and] at hfound
  obtain ⟨rfl, -⟩ := hfound
  have hwarned : ∀ skip, Discovery.Skipped c (Discovery.excludes c false) (.directory children) skip →
      skip.warning c "r" ∈ notes := by
    intro skip hskip
    have hmem := List.mem_map_of_mem (f := Discovery.Skip.warning c "r") ((hskips skip).mpr hskip)
    rw [← hwarnings] at hmem
    exact (List.mem_filter.mp hmem).1
  have hfile : ([0x74], Tree.file) ∈ children := by simp [children]
  have hinner : ([0xff], Tree.directory [([0x67, 0x6f], .file)]) ∈ children := by simp [children]
  have leads : (Tree.directory children).Leads [[0x74]] .file := .child hfile (.here _)
  have leadsInner : (Tree.directory children).Leads [[0xff], [0x67, 0x6f]] .file :=
    .child hinner (.child List.mem_cons_self (.here _))
  refine ⟨[⟨"go"⟩], notes, found, rfl, hwarned _ (.unreadable (.child List.mem_cons_self (.here _))),
    hwarned _ (.notText leadsInner (by decide)), ?_⟩
  have hone := files [[0x74]] .file "t" leads (Or.inl rfl) (by decide) (by rfl) rfl
  rcases hone with ⟨hfound, -⟩ | ⟨hwarning, -⟩
  · exact absurd hfound (by decide)
  · exact hwarning

end BenchHarness
