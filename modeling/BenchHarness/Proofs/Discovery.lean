import BenchHarness.Proofs.Walk

/-!
# Discovery

Discovery remembers the directories it has met whose files are not collected, and asks for a file's
directory when it meets the file. As a directory is met before what it holds, this comes to asking the
classifier (`Discovery.search_eq`). So what is found does not depend on the walk at all: it is the
files that the classifier collects, each once (`TestList.discover_exact`).
-/

namespace BenchHarness

namespace Discovery

/-- The path of a node below the root, if all names on the way are text. -/
def relativePath? (names : List Bytes) : Option String :=
  (names.mapM Utf8.decode?).map fun texts => "/".intercalate texts

theorem relativePath?_of_mapM {names : List Bytes} {texts : List String}
    (h : names.mapM Utf8.decode? = some texts) :
    relativePath? names = some ("/".intercalate texts) := by
  rw [relativePath?, h, Option.map_some]

theorem normalize?_eq {names : List Bytes} (legal : ∀ name ∈ names, FileName name)
    (root : String) : normalize? root (walkedPath root names) = relativePath? names := by
  rw [normalize?_walkedPath legal, decode?_glue]
  rfl

/-- A path below the root has a last name, and a directory it lies in. -/
theorem relativePath?_concat_eq_some {dir : List Bytes} {name : Bytes} {path : String}
    (h : relativePath? (dir ++ [name]) = some path) :
    ∃ texts last, dir.mapM Utf8.decode? = some texts ∧ Utf8.decode? name = some last ∧
      path = "/".intercalate (texts ++ [last]) := by
  obtain ⟨all, hall, rfl⟩ := Option.map_eq_some_iff.mp h
  rw [Utf8.mapM_eq_some_iff, List.map_append] at hall
  obtain ⟨texts, rest, rfl, htexts, hrest⟩ := List.map_eq_append_iff.mp hall.symm
  obtain ⟨last, others, rfl, hlast, hothers⟩ := List.map_eq_cons_iff.mp hrest
  obtain rfl : others = [] := List.map_eq_nil_iff.mp hothers
  exact ⟨texts, last, (Utf8.mapM_eq_some_iff _ _ _).mpr htexts.symm, hlast.symm, rfl⟩

/-- The texts of names have no separators. -/
theorem plain_of_mapM {names : List Bytes} (legal : ∀ name ∈ names, FileName name)
    {texts : List String} (h : names.mapM Utf8.decode? = some texts) :
    ∀ text ∈ texts, '/' ∉ text.toList := by
  rw [Utf8.mapM_eq_some_iff] at h
  intro text htext
  have hmem : some text ∈ names.map Utf8.decode? := by
    rw [h]
    exact List.mem_map_of_mem htext
  obtain ⟨name, hname, hdecode⟩ := List.mem_map.mp hmem
  exact slash_not_mem_of_decode? (legal name hname) hdecode

/-- The directory and the name of a path below the root are those of its node. -/
theorem splitName_of_relativePath? {dir : List Bytes} {name : Bytes} {path : String}
    (legal : ∀ n ∈ dir ++ [name], FileName n) (h : relativePath? (dir ++ [name]) = some path) :
    relativePath? dir = some (splitName path).1 ∧ Utf8.decode? name = some (splitName path).2 := by
  obtain ⟨texts, last, htexts, hlast, rfl⟩ := relativePath?_concat_eq_some h
  have hall : (dir ++ [name]).mapM Utf8.decode? = some (texts ++ [last]) := by
    rw [Utf8.mapM_eq_some_iff] at htexts ⊢
    simp [htexts, hlast]
  rw [splitName_intercalate (plain_of_mapM legal hall)]
  exact ⟨Option.map_eq_some_iff.mpr ⟨texts, htexts, rfl⟩, hlast⟩

theorem encode_of_relativePath? {names : List Bytes} {path : String}
    (h : relativePath? names = some path) :
    Utf8.encode path = Pieces.glue Route.slash names := by
  rw [relativePath?, ← decode?_glue] at h
  exact Utf8.encode_of_decode?_eq_some h

/-- Nothing below the root has the path of the root. -/
theorem relativePath?_concat_ne_empty {dir : List Bytes} {name : Bytes} (legal : FileName name) :
    relativePath? (dir ++ [name]) ≠ some "" := by
  intro h
  have hglue := encode_of_relativePath? h
  rw [Utf8.encode_empty] at hglue
  by_cases hdir : dir = []
  · subst hdir
    exact legal.nonempty hglue.symm
  · rw [Pieces.glue_concat hdir] at hglue
    simp at hglue

theorem eq_nil_of_relativePath?_empty {names : List Bytes}
    (legal : ∀ name ∈ names, FileName name) (h : relativePath? names = some "") : names = [] := by
  rcases List.eq_nil_or_concat names with rfl | ⟨dir, name, rfl⟩
  · rfl
  · rw [List.concat_eq_append] at legal h
    exact absurd h (relativePath?_concat_ne_empty (legal name (by simp)))

/-- A path belongs to one node only. -/
theorem relativePath?_injective {names others : List Bytes}
    (legal : ∀ name ∈ names, FileName name) (legal' : ∀ name ∈ others, FileName name)
    {path : String} (h : relativePath? names = some path)
    (h' : relativePath? others = some path) : names = others := by
  by_cases hpath : path = ""
  · subst hpath
    rw [eq_nil_of_relativePath?_empty legal h, eq_nil_of_relativePath?_empty legal' h']
  · have hnames : names ≠ [] := by
      rintro rfl
      exact hpath (Option.some.inj h).symm
    have hothers : others ≠ [] := by
      rintro rfl
      exact hpath (Option.some.inj h').symm
    refine Pieces.glue_injective hnames hothers (fun n hn => (legal n hn).plain)
      (fun n hn => (legal' n hn).plain) ?_
    rw [← encode_of_relativePath? h, encode_of_relativePath? h']

/-- The texts of names are told apart by the path that they make. -/
theorem texts_eq_of_intercalate_eq {names others : List Bytes}
    (legal : ∀ name ∈ names, FileName name) (legal' : ∀ name ∈ others, FileName name)
    {texts texts' : List String} (h : names.mapM Utf8.decode? = some texts)
    (h' : others.mapM Utf8.decode? = some texts')
    (same : "/".intercalate texts = "/".intercalate texts') : texts = texts' := by
  have hpath := relativePath?_of_mapM h
  rw [same] at hpath
  rw [relativePath?_injective legal legal' hpath (relativePath?_of_mapM h'), h'] at h
  exact (Option.some.inj h).symm

/-! ## What is remembered -/

variable (c : Classifier) (root : String) (excluding : String → Bool)

/-- Findings that are right about excluded directories when the files of a directory are looked at:
only excluded ones are remembered, and the directory itself is among them if it is excluded. -/
structure Knows (dir : List Bytes) (f : Findings) : Prop where
  sound : ∀ d ∈ f.excluded, excluding d = true
  entered : ∀ d, relativePath? dir = some d → excluding d = true → d ∈ f.excluded

/-- What some visits add to findings, if the excluded directories are known. -/
structure Grows (visits : List Visit) (f g : Findings) : Prop where
  sound : ∀ d ∈ g.excluded, excluding d = true
  keeps : ∀ d ∈ f.excluded, d ∈ g.excluded
  entries : g.entries = f.entries ++ visits.flatMap fun v => (examine c root excluding v).entries
  notes : g.notes = f.notes ++ visits.flatMap fun v => (examine c root excluding v).notes

/-- Searching some visits in a directory adds what they add if the excluded directories are
known. -/
def Adds (dir : List Bytes) (visits : List Visit) : Prop :=
  ∀ f, Knows excluding dir f → Grows c root excluding visits f (visits.foldl (step c root) f)

variable {c root excluding}

theorem Knows.of_grows {dir : List Bytes} {visits : List Visit} {f g : Findings}
    (knows : Knows excluding dir f) (grows : Grows c root excluding visits f g) :
    Knows excluding dir g :=
  ⟨grows.sound, fun d hd hex => grows.keeps d (knows.entered d hd hex)⟩

theorem Grows.trans {visits more : List Visit} {f g h : Findings}
    (first : Grows c root excluding visits f g) (second : Grows c root excluding more g h) :
    Grows c root excluding (visits ++ more) f h := by
  refine ⟨second.sound, fun d hd => second.keeps d (first.keeps d hd), ?_, ?_⟩
  · rw [second.entries, first.entries, List.flatMap_append, List.append_assoc]
  · rw [second.notes, first.notes, List.flatMap_append, List.append_assoc]

theorem Adds.nil (dir : List Bytes) : Adds c root excluding dir [] := by
  intro f knows
  exact ⟨knows.sound, fun d hd => hd, by simp, by simp⟩

theorem Adds.append {dir : List Bytes} {visits more : List Visit}
    (first : Adds c root excluding dir visits) (second : Adds c root excluding dir more) :
    Adds c root excluding dir (visits ++ more) := by
  intro f knows
  have grows := first f knows
  rw [List.foldl_append]
  exact grows.trans (second _ (knows.of_grows grows))

theorem Adds.flatMap {α : Type} {dir : List Bytes} {blocks : List α} {visits : α → List Visit}
    (each : ∀ block ∈ blocks, Adds c root excluding dir (visits block)) :
    Adds c root excluding dir (blocks.flatMap visits) := by
  induction blocks with
  | nil => exact .nil dir
  | cons block rest ih =>
    rw [List.flatMap_cons]
    exact (each block List.mem_cons_self).append
      (ih fun other hother => each other (List.mem_cons_of_mem block hother))

/-! ## One visit -/

theorem examineFile_congr (isExcluded : String → Bool) {path : String}
    (same : isExcluded (splitName path).1 = excluding (splitName path).1) :
    examineFile c isExcluded path = examineFile c excluding path := by
  unfold examineFile
  simp only [same]

/-- A visit in a directory is judged as if the excluded directories were known. -/
theorem examine_of_knows {dir : List Bytes} {name : Bytes} {f : Findings}
    (legal : ∀ n ∈ dir ++ [name], FileName n) (knows : Knows excluding dir f) (kind : NodeKind) :
    examine c root (f.excluded.contains ·) ⟨dir ++ [name], kind⟩ =
      examine c root excluding ⟨dir ++ [name], kind⟩ := by
  unfold examine
  rw [normalize?_eq legal]
  cases hpath : relativePath? (dir ++ [name]) with
  | none => cases kind <;> rfl
  | some path =>
    have hdir := (splitName_of_relativePath? legal hpath).1
    have same : f.excluded.contains (splitName path).1 = excluding (splitName path).1 := by
      rw [Bool.eq_iff_iff, List.contains_iff_mem]
      exact ⟨knows.sound _, knows.entered _ hdir⟩
    cases kind with
    | file => exact examineFile_congr _ same
    | link toFile =>
      cases toFile with
      | true => exact examineFile_congr _ same
      | false => rfl
    | special => rfl
    | directory => rfl
    | failure error => rfl

theorem examineFile_excluded (isExcluded : String → Bool) (path : String) :
    (examineFile c isExcluded path).excluded = [] := by
  simp only [examineFile]
  split
  · rfl
  · split <;> rfl

/-- A directory is remembered when it is met, if the classifier excludes it. -/
theorem mem_excluded_examine {isExcluded : String → Bool} {v : Visit} {d : String} :
    d ∈ (examine c root isExcluded v).excluded ↔
      v.kind = .directory ∧ normalize? root (walkedPath root v.names) = some d ∧
        c.excludesDir d = true := by
  obtain ⟨names, kind⟩ := v
  cases kind with
  | failure error => simp [examine, Findings.note]
  | file =>
    cases h : normalize? root (walkedPath root names) with
    | none => simp [examine, h, Findings.note]
    | some path => simp [examine, h, examineFile_excluded]
  | link toFile =>
    cases h : normalize? root (walkedPath root names) with
    | none => simp [examine, h, Findings.note]
    | some path => cases toFile <;> simp [examine, h, examineFile_excluded, Findings.note]
  | special =>
    cases h : normalize? root (walkedPath root names) with
    | none => simp [examine, h, Findings.note]
    | some path => simp [examine, h, Findings.none]
  | directory =>
    cases h : normalize? root (walkedPath root names) with
    | none => simp [examine, h, Findings.note]
    | some path =>
      by_cases hex : c.excludesDir path = true
      · simp only [examine, h, hex, if_true, Findings.exclusion, List.mem_singleton,
          Option.some.injEq, true_and]
        constructor
        · rintro rfl
          exact ⟨rfl, hex⟩
        · rintro ⟨rfl, -⟩
          rfl
      · have hnothing : examine c root isExcluded ⟨names, .directory⟩ = .none := by
          simp [examine, h, hex]
        rw [hnothing]
        refine ⟨fun hd => absurd hd List.not_mem_nil, ?_⟩
        rintro ⟨-, hpath, hd⟩
        obtain rfl : path = d := Option.some.inj hpath
        exact absurd hd hex

/-- A visit adds what it adds if the excluded directories are known. -/
theorem grows_step {f : Findings} {v : Visit} (sound : ∀ d ∈ f.excluded, excluding d = true)
    (same : examine c root (f.excluded.contains ·) v = examine c root excluding v)
    (soundHere : ∀ d ∈ (examine c root excluding v).excluded, excluding d = true) :
    Grows c root excluding [v] f (step c root f v) := by
  unfold step
  rw [same]
  refine ⟨?_, ?_, ?_, ?_⟩
  · intro d hd
    rcases List.mem_append.mp hd with hd | hd
    · exact sound d hd
    · exact soundHere d hd
  · intro d hd
    exact List.mem_append_left _ hd
  · simp [Findings.append]
  · simp [Findings.append]

/-! ## Whole walks -/

/-- What lies in a directory is judged as if the excluded directories were known. -/
theorem adds_visitsIn {dir : List Bytes} {children : List (Bytes × Tree)}
    (inner : ∀ child ∈ children,
      Adds c root excluding dir (Tree.visitsFrom (dir ++ [child.1]) child.2)) :
    Adds c root excluding dir (Tree.visitsIn dir children) := by
  refine Adds.flatMap ?_
  intro block hblock
  rw [(sortByName_perm _).mem_iff, Tree.visitsOfEach_eq, List.mem_map] at hblock
  obtain ⟨child, hchild, rfl⟩ := hblock
  exact inner child hchild

section

variable (agrees : ∀ d, d ≠ "" → excluding d = c.excludesDir d)

include agrees

theorem sound_examine {dir : List Bytes} {name : Bytes} (legal : ∀ n ∈ dir ++ [name], FileName n)
    (kind : NodeKind) :
    ∀ d ∈ (examine c root excluding ⟨dir ++ [name], kind⟩).excluded, excluding d = true := by
  intro d hd
  obtain ⟨-, hpath, hex⟩ := mem_excluded_examine.mp hd
  rw [normalize?_eq legal] at hpath
  have hd : d ≠ "" := by
    rintro rfl
    exact relativePath?_concat_ne_empty (legal name (by simp)) hpath
  rw [agrees d hd]
  exact hex

theorem adds_visit {dir : List Bytes} {name : Bytes} (legal : ∀ n ∈ dir ++ [name], FileName n)
    (kind : NodeKind) : Adds c root excluding dir [⟨dir ++ [name], kind⟩] := by
  intro f knows
  exact grows_step knows.sound (examine_of_knows legal knows kind)
    (sound_examine agrees legal kind)

/-- A directory is known when what it holds is looked at, because it was met before. -/
theorem adds_directory {dir : List Bytes} {name : Bytes}
    (legal : ∀ n ∈ dir ++ [name], FileName n) {visits : List Visit}
    (inner : Adds c root excluding (dir ++ [name]) visits) :
    Adds c root excluding dir (⟨dir ++ [name], .directory⟩ :: visits) := by
  intro f knows
  have grows : Grows c root excluding _ f _ := adds_visit agrees legal .directory f knows
  -- the directory itself is the only one that could be missing, and it has just been met
  have entered : Knows excluding (dir ++ [name]) (step c root f ⟨dir ++ [name], .directory⟩) := by
    refine ⟨grows.sound, ?_⟩
    intro d hpath hex
    have hd : d ≠ "" := by
      rintro rfl
      exact relativePath?_concat_ne_empty (legal name (by simp)) hpath
    rw [agrees d hd] at hex
    refine List.mem_append_right _ (mem_excluded_examine.mpr ⟨rfl, ?_, hex⟩)
    rw [normalize?_eq legal]
    exact hpath
  exact grows.trans (inner _ entered)

theorem adds_visitsFrom {tree : Tree} (legal : tree.Legal) :
    ∀ {dir : List Bytes} {name : Bytes}, (∀ n ∈ dir ++ [name], FileName n) →
      Adds c root excluding dir (Tree.visitsFrom (dir ++ [name]) tree) := by
  induction legal with
  | file =>
    intro dir name legal
    exact adds_visit agrees legal .file
  | link toFile =>
    intro dir name legal
    exact adds_visit agrees legal (.link toFile)
  | special =>
    intro dir name legal
    exact adds_visit agrees legal .special
  | unreadable error =>
    intro dir name legal
    exact (adds_visit agrees legal .directory).append (adds_visit agrees legal (.failure error))
  | directory names distinct nodes ih =>
    intro dir name legal
    rw [Tree.visitsFrom_directory]
    refine adds_directory agrees legal (adds_visitsIn ?_)
    intro child hchild
    refine ih child hchild ?_
    intro n hn
    rcases List.mem_append.mp hn with hn | hn
    · exact legal n hn
    · exact List.mem_singleton.mp hn ▸ names child hchild

end

variable (c root)

/-- The directories whose files are not collected: those that the classifier excludes, but for a
root that is a link, as it is never met as a directory. -/
def excludes (viaLink : Bool) (dir : String) : Bool :=
  c.excludesDir dir && ! (viaLink && dir = "")

theorem excludes_of_ne_empty (viaLink : Bool) {dir : String} (h : dir ≠ "") :
    excludes c viaLink dir = c.excludesDir dir := by
  simp [excludes, h]

theorem excludes_false : excludes c false = c.excludesDir := by
  funext dir
  simp [excludes]

/-- The visit to the root, after which the root is known. -/
theorem knows_root (viaLink : Bool) :
    Knows (excludes c viaLink) [] (step c root .none (RootView.top viaLink)) ∧
    Grows c root (excludes c viaLink) [RootView.top viaLink] .none
      (step c root .none (RootView.top viaLink)) := by
  have hroot : normalize? root (walkedPath root []) = some "" :=
    normalize?_eq (by simp) root
  have same : examine c root (Findings.none.excluded.contains ·) (RootView.top viaLink) =
      examine c root (excludes c viaLink) (RootView.top viaLink) := by
    cases viaLink with
    | true => rfl
    | false => rfl
  have sound : ∀ d ∈ (examine c root (excludes c viaLink) (RootView.top viaLink)).excluded,
      excludes c viaLink d = true := by
    intro d hd
    obtain ⟨hkind, hpath, hex⟩ := mem_excluded_examine.mp hd
    cases viaLink with
    | true => simp [RootView.top] at hkind
    | false => rw [excludes_false]; exact hex
  have grows := grows_step (f := .none) (by simp [Findings.none]) same sound
  refine ⟨⟨grows.sound, ?_⟩, grows⟩
  intro d hpath hex
  obtain rfl : "" = d := Option.some.inj hpath
  cases viaLink with
  | true => simp [excludes] at hex
  | false =>
    rw [excludes_false] at hex
    exact List.mem_append_right _ (mem_excluded_examine.mpr ⟨rfl, hroot, hex⟩)

/-- What is found on the walk over a root is what each visit gives by itself, if the excluded
directories are known. -/
theorem search_eq (viaLink : Bool) {children : List (Bytes × Tree)}
    (legal : (Tree.directory children).Legal) :
    let visits := (RootView.directory viaLink children).visits
    let found := search c root visits
    found.entries = visits.flatMap (fun v => (examine c root (excludes c viaLink) v).entries) ∧
      found.notes = visits.flatMap fun v => (examine c root (excludes c viaLink) v).notes := by
  intro visits found
  obtain ⟨knows, grows⟩ := knows_root c root viaLink
  have inner : Adds c root (excludes c viaLink) [] (Tree.visitsIn [] children) := by
    cases legal with
    | directory names distinct nodes =>
      refine adds_visitsIn ?_
      intro child hchild
      refine adds_visitsFrom (fun d => excludes_of_ne_empty c viaLink) (nodes child hchild) ?_
      intro n hn
      rw [List.mem_singleton.mp hn]
      exact names child hchild
  have whole := grows.trans (inner _ knows)
  exact ⟨whole.entries, whole.notes⟩

/-! ## What is collected -/

/-- The test that a visit gives, if any. -/
def entriesAt (isExcluded : String → Bool) (v : Visit) : List Entry :=
  match v.kind, relativePath? v.names with
  | .file, some path | .link true, some path => (examineFile c isExcluded path).entries
  | _, _ => []

theorem examine_entries (isExcluded : String → Bool) {v : Visit}
    (legal : ∀ n ∈ v.names, FileName n) :
    (examine c root isExcluded v).entries = entriesAt c isExcluded v := by
  obtain ⟨names, kind⟩ := v
  unfold examine entriesAt
  rw [normalize?_eq legal]
  cases hpath : relativePath? names with
  | none =>
    cases kind with
    | link toFile => cases toFile <;> rfl
    | _ => rfl
  | some path =>
    cases kind with
    | file => rfl
    | link toFile => cases toFile <;> rfl
    | special => rfl
    | failure error => rfl
    | directory =>
      by_cases hex : c.excludesDir path = true
      · simp [hex, Findings.exclusion, Findings.note]
      · simp [hex, Findings.none]

theorem examineFile_entries (isExcluded : String → Bool) (path : String) :
    (examineFile c isExcluded path).entries =
      if isExcluded (splitName path).1 = false ∧ c.accepts path = true ∧
        (splitName path).2 = c.entryPoint then [⟨path⟩] else [] := by
  simp only [examineFile]
  cases hex : isExcluded (splitName path).1 with
  | true => simp [Findings.none]
  | false =>
    cases hacc : c.accepts path with
    | false => simp [Findings.none]
    | true =>
      by_cases hname : (splitName path).2 = c.entryPoint
      · simp [hname, Findings.test]
      · simp [hname, Findings.note]

/-- A path that a classifier collects: its names lead from the root to a file, or to a link to one,
and are text; the directory it lies in is not excluded, the path is accepted, and the last name is
that of an entry point. -/
def Collectable (isExcluded : String → Bool) (tree : Tree) (path : String) : Prop :=
  ∃ names node texts, tree.Leads names node ∧ (node = .file ∨ node = .link true) ∧
    names.mapM Utf8.decode? = some texts ∧ path = "/".intercalate texts ∧
    isExcluded ("/".intercalate texts.dropLast) = false ∧ c.accepts path = true ∧
    texts.getLast? = some c.entryPoint

theorem entriesAt_root (isExcluded : String → Bool) (viaLink : Bool) :
    entriesAt c isExcluded (RootView.top viaLink) = [] := by
  cases viaLink <;> rfl

/-- The tests found on a walk do not depend on how the root is spelled. -/
theorem search_entries (viaLink : Bool) {children : List (Bytes × Tree)}
    (legal : (Tree.directory children).Legal) :
    (search c root (RootView.directory viaLink children).visits).entries =
      (Tree.visitsFrom [] (.directory children)).flatMap (entriesAt c (excludes c viaLink)) := by
  have hlegal := Tree.fileNames_of_mem_visits legal
  have hroot : (examine c root (excludes c viaLink) (RootView.top viaLink)).entries = [] := by
    rw [examine_entries c root _ (by simp [RootView.top]), entriesAt_root]
  have hbelow : (Tree.visitsIn [] children).flatMap
        (fun v => (examine c root (excludes c viaLink) v).entries) =
      (Tree.visitsIn [] children).flatMap (entriesAt c (excludes c viaLink)) := by
    have hmap : (Tree.visitsIn [] children).map
          (fun v => (examine c root (excludes c viaLink) v).entries) =
        (Tree.visitsIn [] children).map (entriesAt c (excludes c viaLink)) :=
      List.map_congr_left fun v hv =>
        examine_entries c root (excludes c viaLink) (hlegal v (List.mem_cons_of_mem _ hv))
    rw [List.flatMap_def, List.flatMap_def, hmap]
  rw [(search_eq c root viaLink legal).1, Tree.visitsFrom_directory, List.flatMap_cons,
    ← hbelow]
  show List.flatMap _ (_ :: Tree.visitsIn [] children) = _
  rw [List.flatMap_cons, hroot]
  rfl

/-- What a visit gives lies at the path of the visit, and the visit is one to a file. -/
theorem mem_entriesAt_iff (isExcluded : String → Bool) (v : Visit) (e : Entry) :
    e ∈ entriesAt c isExcluded v ↔ (v.kind = .file ∨ v.kind = .link true) ∧
      relativePath? v.names = some e.path ∧ isExcluded (splitName e.path).1 = false ∧
        c.accepts e.path = true ∧ (splitName e.path).2 = c.entryPoint := by
  have hfile : ∀ path, e ∈ (examineFile c isExcluded path).entries ↔
      path = e.path ∧ isExcluded (splitName e.path).1 = false ∧ c.accepts e.path = true ∧
        (splitName e.path).2 = c.entryPoint := by
    intro path
    rw [examineFile_entries]
    constructor
    · intro he
      split at he
      · rename_i h
        rw [List.mem_singleton.mp he]
        exact ⟨rfl, h⟩
      · simp at he
    · rintro ⟨rfl, h⟩
      rw [if_pos h]
      exact List.mem_singleton.mpr rfl
  obtain ⟨names, kind⟩ := v
  cases hpath : relativePath? names with
  | none =>
    cases kind with
    | link toFile => cases toFile <;> simp [entriesAt, hpath]
    | _ => simp [entriesAt, hpath]
  | some path =>
    cases kind with
    | file => simp [entriesAt, hpath, hfile]
    | link toFile => cases toFile <;> simp [entriesAt, hpath, hfile]
    | _ => simp [entriesAt]

/-- The directory and the last name of a path given by its texts. -/
theorem splitName_of_getLast? {names : List Bytes} (legal : ∀ name ∈ names, FileName name)
    {texts : List String} (htexts : names.mapM Utf8.decode? = some texts) {last : String}
    (hlast : texts.getLast? = some last) :
    splitName ("/".intercalate texts) = ("/".intercalate texts.dropLast, last) := by
  obtain ⟨dir, rfl⟩ := List.getLast?_eq_some_iff.mp hlast
  rw [splitName_intercalate (plain_of_mapM legal htexts), List.dropLast_concat]

/-- The path of a file below a directory has a last name. -/
theorem splitName_of_file {children : List (Bytes × Tree)}
    (legal : (Tree.directory children).Legal) {names : List Bytes} {node : Tree} {path : String}
    (leads : (Tree.directory children).Leads names node) (file : node = .file ∨ node = .link true)
    (h : relativePath? names = some path) :
    ∃ texts last, names.mapM Utf8.decode? = some texts ∧ "/".intercalate texts = path ∧
      texts.getLast? = some last ∧ splitName path = ("/".intercalate texts.dropLast, last) := by
  obtain ⟨texts, htexts, rfl⟩ := Option.map_eq_some_iff.mp h
  -- the root is a directory, so a file has at least one name
  have hne : texts ≠ [] := by
    rintro rfl
    have hempty : names = [] := List.map_eq_nil_iff.mp ((Utf8.mapM_eq_some_iff _ _ _).mp htexts)
    subst hempty
    cases leads
    simp at file
  have hlast := List.getLast?_eq_some_getLast hne
  exact ⟨texts, _, htexts, rfl, hlast, splitName_of_getLast? (leads.fileNames legal) htexts hlast⟩

/-- The tests found are those that the classifier collects. -/
theorem mem_entries_iff (isExcluded : String → Bool) {children : List (Bytes × Tree)}
    (legal : (Tree.directory children).Legal) (path : String) :
    path ∈ ((Tree.visitsFrom [] (.directory children)).flatMap
        (entriesAt c isExcluded)).map (·.path) ↔
      Collectable c isExcluded (.directory children) path := by
  simp only [List.mem_map, List.mem_flatMap, mem_entriesAt_iff, Tree.mem_visitsFrom_iff]
  constructor
  · rintro ⟨e, ⟨v, ⟨names, node, leads, hnames, hkind⟩, hfile, hpath, hdir, haccepts, hname⟩, rfl⟩
    rw [hnames, List.nil_append] at hpath
    have hnode := Tree.exists_file_mem_kinds.mp ⟨v.kind, hkind, hfile⟩
    obtain ⟨texts, last, htexts, hjoined, hlast, hsplit⟩ := splitName_of_file legal leads hnode hpath
    rw [hsplit] at hdir hname
    exact ⟨names, node, texts, leads, hnode, htexts, hjoined.symm, hdir, haccepts,
      hlast.trans (congrArg some hname)⟩
  · rintro ⟨names, node, texts, leads, hnode, htexts, rfl, hdir, haccepts, hlast⟩
    have hsplit := splitName_of_getLast? (leads.fileNames legal) htexts hlast
    obtain ⟨kind, hkind, hfile⟩ := Tree.exists_file_mem_kinds.mpr hnode
    refine ⟨Entry.mk ("/".intercalate texts), ⟨⟨names, kind⟩, ⟨names, node, leads, rfl, hkind⟩,
      hfile, relativePath?_of_mapM htexts, ?_⟩, rfl⟩
    rw [hsplit]
    exact ⟨hdir, haccepts, rfl⟩

/-- A visit gives one test at most. -/
theorem entriesAt_eq (isExcluded : String → Bool) (v : Visit) :
    entriesAt c isExcluded v = [] ∨ ∃ e, entriesAt c isExcluded v = [e] := by
  unfold entriesAt
  split
  · rw [examineFile_entries]
    split
    · exact Or.inr ⟨_, rfl⟩
    · exact Or.inl rfl
  · rw [examineFile_entries]
    split
    · exact Or.inr ⟨_, rfl⟩
    · exact Or.inl rfl
  · exact Or.inl rfl

/-- Tests are found in the order of their names. -/
theorem pairwise_entries (isExcluded : String → Bool) {children : List (Bytes × Tree)}
    (legal : (Tree.directory children).Legal) :
    ((Tree.visitsFrom [] (.directory children)).flatMap (entriesAt c isExcluded)).Pairwise
      fun e e' => ∃ names names' : List Bytes, names < names' ∧
        ((∀ name ∈ names, FileName name) ∧ relativePath? names = some e.path) ∧
        (∀ name ∈ names', FileName name) ∧ relativePath? names' = some e'.path := by
  have hlegal := Tree.fileNames_of_mem_visits legal
  refine List.pairwise_flatMap.mpr ⟨?_, ?_⟩
  · intro v _
    rcases entriesAt_eq c isExcluded v with h | ⟨e, h⟩
    · rw [h]
      exact List.Pairwise.nil
    · rw [h]
      exact List.pairwise_singleton _ e
  · refine (Tree.pairwise_visitsFrom legal []).imp_of_mem ?_
    intro v v' hv hv' later e he e' he'
    obtain ⟨-, hfound, -⟩ := (mem_entriesAt_iff c isExcluded v e).mp he
    obtain ⟨hkind, hfound', -⟩ := (mem_entriesAt_iff c isExcluded v' e').mp he'
    rcases later with hlt | ⟨-, error, hfailure⟩
    · exact ⟨v.names, v'.names, hlt, ⟨hlegal v hv, hfound⟩, hlegal v' hv', hfound'⟩
    · rw [hfailure] at hkind
      simp at hkind

/-- No test is found twice. -/
theorem nodup_entries (isExcluded : String → Bool) {children : List (Bytes × Tree)}
    (legal : (Tree.directory children).Legal) :
    (((Tree.visitsFrom [] (.directory children)).flatMap
      (entriesAt c isExcluded)).map (·.path)).Nodup := by
  rw [List.nodup_iff_pairwise_ne, List.pairwise_map]
  refine (pairwise_entries c isExcluded legal).imp ?_
  rintro e e' ⟨names, names', hlt, ⟨hlegal, hfound⟩, hlegal', hfound'⟩ same
  rw [relativePath?_injective hlegal hlegal' hfound (same ▸ hfound')] at hlt
  exact List.lt_irrefl _ hlt

end Discovery

/-- A list of discovered tests names each of them once. -/
theorem TestList.nodup_of_discover {c : Classifier} {root : String} {view : RootView}
    (legal : ∀ viaLink children, view = .directory viaLink children →
      (Tree.directory children).Legal)
    {tests : TestList} {notes : List LogRecord}
    (found : TestList.discover c root view = .ok (tests, notes)) :
    (tests.entries.map (·.path)).Nodup := by
  cases view with
  | directory viaLink children =>
    obtain ⟨rfl, -⟩ := Prod.mk.inj (Except.ok.inj found)
    rw [Discovery.search_entries c root viaLink (legal viaLink children rfl)]
    exact Discovery.nodup_entries c _ (legal viaLink children rfl)
  | _ => cases found

/-- Whatever a readable directory is called, discovery finds in it exactly the tests that the
classifier collects, each of them once. Only the directory that a file lies in keeps it from being
collected; what else is excluded above it does not matter. -/
theorem TestList.discover_exact (c : Classifier) {children : List (Bytes × Tree)}
    (legal : (Tree.directory children).Legal) :
    ∃ entries : List Entry,
      (∀ root, ∃ notes, TestList.discover c root (.directory false children) =
        .ok (⟨root, entries⟩, notes)) ∧
      (∀ path, path ∈ entries.map (·.path) ↔
        Discovery.Collectable c c.excludesDir (.directory children) path) ∧
      (entries.map (·.path)).Nodup := by
  refine ⟨(Tree.visitsFrom [] (.directory children)).flatMap
    (Discovery.entriesAt c c.excludesDir), ?_, ?_, ?_⟩
  · intro root
    refine ⟨(Discovery.search c root (RootView.directory false children).visits).notes, ?_⟩
    have hentries := Discovery.search_entries c root false legal
    rw [Discovery.excludes_false] at hentries
    rw [TestList.discover, hentries]
  · exact Discovery.mem_entries_iff c c.excludesDir legal
  · exact Discovery.nodup_entries c c.excludesDir legal

/-- An excluded directory keeps its own files from being collected, but not those deeper down. -/
theorem TestList.discover_exact_below_excluded :
    let c : Classifier := ⟨fun dir => dir = "a", fun _ => true, "go"⟩
    let inner : Tree := .directory [([0x67, 0x6f], .link true)]
    let outer : Tree := .directory [([0x62], inner), ([0x67, 0x6f], .file)]
    ∃ entries : List Entry,
      (∀ root, ∃ notes, TestList.discover c root (.directory false [([0x61], outer)]) =
        .ok (⟨root, entries⟩, notes)) ∧
      "a/b/go" ∈ entries.map (·.path) ∧ (entries.map (·.path)).Nodup := by
  intro c inner outer
  have legalInner : inner.Legal :=
    .directory (by decide) (by decide) (by simpa using .link true)
  have legalOuter : outer.Legal :=
    .directory (by decide) (by decide) (by simpa using ⟨legalInner, .file⟩)
  have legal : (Tree.directory [([0x61], outer)]).Legal :=
    .directory (by decide) (by decide) (by simpa using legalOuter)
  obtain ⟨entries, found, exact, nodup⟩ := TestList.discover_exact c legal
  refine ⟨entries, found, (exact "a/b/go").mpr ?_, nodup⟩
  refine ⟨[[0x61], [0x62], [0x67, 0x6f]], .link true, ["a", "b", "go"], ?_, Or.inr rfl, by decide,
    by decide, by decide, rfl, rfl⟩
  have leadsInner : inner.Leads [[0x67, 0x6f]] (.link true) :=
    .child List.mem_cons_self (.here _)
  have leadsOuter : outer.Leads [[0x62], [0x67, 0x6f]] (.link true) :=
    .child List.mem_cons_self leadsInner
  exact .child List.mem_cons_self leadsOuter

end BenchHarness
