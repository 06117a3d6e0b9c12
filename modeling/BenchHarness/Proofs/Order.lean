import BenchHarness.Proofs.Discovery
import Mathlib.Data.List.Sort

/-!
# The order of discovered tests

A walk visits the nodes of a directory sorted by name, so the order in which the directory lists them
does not matter (`Tree.Reordered.visitsFrom_eq`). The paths of the tests that are found come in strict
order when they are compared component by component; as a test has the components of its visit
(`Entry.steps_eq`), this is the order of the walk (`TestList.discover_canonical`).
-/

namespace BenchHarness

/-- Items with names of their own are sorted in one way only. -/
theorem sortByName_eq_of_perm {α : Type} {items others : List (Bytes × α)}
    (order : items.Perm others) (distinct : (items.map (·.1)).Nodup) :
    sortByName items = sortByName others := by
  have distinct' : (others.map (·.1)).Nodup := (order.map (·.1)).nodup_iff.mp distinct
  have hperm : (sortByName items).Perm (sortByName others) :=
    (sortByName_perm items).trans (order.trans (sortByName_perm others).symm)
  refine List.Perm.eq_of_pairwise ?_ (sortByName_sorted distinct) (sortByName_sorted distinct') hperm
  intro a b _ _ hab hba
  exact absurd (List.lt_trans hab hba) (List.lt_irrefl _)

namespace Tree

/-- Trees that differ in the order in which directories list their nodes, and in nothing else. -/
inductive Reordered : Tree → Tree → Prop where
  | refl (tree : Tree) : Reordered tree tree
  | listed {children others : List (Bytes × Tree)} (order : children.Perm others) :
      Reordered (.directory children) (.directory others)
  | inside {before after : List (Bytes × Tree)} {name : Bytes} {node other : Tree}
      (inner : Reordered node other) :
      Reordered (.directory (before ++ (name, node) :: after))
        (.directory (before ++ (name, other) :: after))
  | trans {tree tree' tree'' : Tree} (first : Reordered tree tree')
      (second : Reordered tree' tree'') : Reordered tree tree''

namespace Reordered

variable {tree other : Tree}

theorem legal (reordered : Reordered tree other) (legal : tree.Legal) : other.Legal := by
  induction reordered with
  | refl tree => exact legal
  | listed order =>
    cases legal with
    | directory names distinct nodes =>
      exact .directory (fun child h => names child (order.mem_iff.mpr h))
        ((order.map (·.1)).nodup_iff.mp distinct) fun child h => nodes child (order.mem_iff.mpr h)
  | @inside before after name node other inner ih =>
    cases legal with
    | directory names distinct nodes =>
      have hnode := ih (nodes (name, node) (by simp))
      refine .directory ?_ ?_ ?_
      · intro child h
        rcases List.mem_append.mp h with h | h
        · exact names child (List.mem_append_left _ h)
        · rcases List.mem_cons.mp h with rfl | h
          · exact names (name, node) (by simp)
          · exact names child (by simp [h])
      · simpa using distinct
      · intro child h
        rcases List.mem_append.mp h with h | h
        · exact nodes child (List.mem_append_left _ h)
        · rcases List.mem_cons.mp h with rfl | h
          · exact hnode
          · exact nodes child (by simp [h])
  | trans first second ihFirst ihSecond => exact ihSecond (ihFirst legal)

/-- A walk does not show in which order directories list their nodes. -/
theorem visitsFrom_eq (reordered : Reordered tree other) :
    tree.Legal → ∀ names, visitsFrom names tree = visitsFrom names other := by
  induction reordered with
  | refl tree =>
    intro _ names
    rfl
  | @listed children others order =>
    rintro (_ | _ | _ | _ | ⟨-, distinct, -⟩) names
    -- what is sorted are the walks over the nodes, each under the node's own name
    have hkeys : ((visitsOfEach names children).map (·.1)).Nodup := by
      rw [visitsOfEach_eq, List.map_map]
      exact distinct
    have hsame : (visitsOfEach names children).Perm (visitsOfEach names others) := by
      rw [visitsOfEach_eq, visitsOfEach_eq]
      exact order.map _
    rw [visitsFrom_directory, visitsFrom_directory, visitsIn, visitsIn,
      sortByName_eq_of_perm hsame hkeys]
  | @inside before after name node other inner ih =>
    rintro (_ | _ | _ | _ | ⟨-, -, nodes⟩) names
    have hnode := ih (nodes (name, node) (by simp)) (names ++ [name])
    have hsame : visitsOfEach names (before ++ (name, node) :: after) =
        visitsOfEach names (before ++ (name, other) :: after) := by
      simp only [visitsOfEach_eq, List.map_append, List.map_cons, hnode]
    rw [visitsFrom_directory, visitsFrom_directory, visitsIn, visitsIn, hsame]
  | trans first second ihFirst ihSecond =>
    intro legal names
    exact (ihFirst legal names).trans (ihSecond (first.legal legal) names)

end Reordered

end Tree

/-! ## Components of paths -/

/-- The components of the path of a test, as bytes. -/
def Entry.steps (e : Entry) : List Bytes :=
  (Path.components e.path).map fun c => Utf8.encode (String.ofList c.text)

namespace Path

/-- A part of a path that is a name is a component by itself. -/
theorem ofPiece_text {text : String} {name : Bytes} (legal : FileName name)
    (h : Utf8.encode text = name) :
    isBlank text.toList = false ∧ Component.ofPiece text.toList = .normal text.toList := by
  have hne : ∀ other : String, Utf8.encode other ≠ name → text.toList ≠ other.toList := by
    intro other hother hsame
    rw [String.toList_inj] at hsame
    exact hother (hsame ▸ h)
  have hempty : text.toList ≠ [] := hne "" fun h => legal.nonempty (h.symm.trans (by decide))
  have hhere : text.toList ≠ ['.'] := hne "." fun h => legal.notHere (h.symm.trans (by decide))
  have hup : text.toList ≠ ['.', '.'] := hne ".." fun h => legal.notUp (h.symm.trans (by decide))
  refine ⟨?_, ?_⟩
  · simp [isBlank, hempty, hhere]
  · rw [Component.ofPiece, if_neg hup, if_neg hhere]

/-- Names that follow each other are the components of the path that they make. -/
theorem componentsOf_names {texts : List String}
    (legal : ∀ text ∈ texts, FileName (Utf8.encode text)) :
    componentsOf (texts.map String.toList) = texts.map fun text => .normal text.toList := by
  have hsolid : ∀ piece ∈ texts.map String.toList, isBlank piece = false := by
    intro piece hpiece
    obtain ⟨text, htext, rfl⟩ := List.mem_map.mp hpiece
    exact (ofPiece_text (legal text htext) rfl).1
  rw [componentsOf_solid hsolid, List.map_map]
  exact List.map_congr_left fun text htext => (ofPiece_text (legal text htext) rfl).2

end Path

namespace Discovery

/-- The texts of names encode to the names. -/
theorem map_encode_of_mapM {names : List Bytes} :
    ∀ {texts : List String}, names.mapM Utf8.decode? = some texts → texts.map Utf8.encode = names := by
  induction names with
  | nil =>
    intro texts h
    rw [Utf8.mapM_eq_some_iff, List.map_nil] at h
    rw [List.map_eq_nil_iff.mp h.symm]
    rfl
  | cons name rest ih =>
    intro texts h
    rw [Utf8.mapM_eq_some_iff, List.map_cons] at h
    obtain ⟨text, others, rfl, htext, hothers⟩ := List.map_eq_cons_iff.mp h.symm
    rw [List.map_cons, Utf8.encode_of_decode?_eq_some htext.symm,
      ih ((Utf8.mapM_eq_some_iff _ _ _).mpr hothers.symm)]

theorem fileNames_of_mapM {names : List Bytes} (legal : ∀ name ∈ names, FileName name)
    {texts : List String} (h : names.mapM Utf8.decode? = some texts) :
    ∀ text ∈ texts, FileName (Utf8.encode text) := by
  intro text htext
  exact legal _ (map_encode_of_mapM h ▸ List.mem_map_of_mem htext)

/-- The components of a path that is put together from names are the names. -/
theorem components_intercalate {names : List Bytes} (legal : ∀ name ∈ names, FileName name)
    {texts : List String} (h : names.mapM Utf8.decode? = some texts) :
    Path.components ("/".intercalate texts) = texts.map fun text => .normal text.toList := by
  rw [Path.components, ← Path.componentsOf_names (fileNames_of_mapM legal h)]
  cases texts with
  | nil => rfl
  | cons first rest => rw [pieces_intercalate (by simp) (plain_of_mapM legal h)]

/-- A test has the components of the node it was found at. -/
theorem steps_eq {names : List Bytes} (legal : ∀ name ∈ names, FileName name) {e : Entry}
    (h : relativePath? names = some e.path) : e.steps = names := by
  obtain ⟨texts, htexts, hpath⟩ := Option.map_eq_some_iff.mp h
  rw [Entry.steps, ← hpath, components_intercalate legal htexts, List.map_map]
  refine Eq.trans (List.map_congr_left fun text _ => ?_) (map_encode_of_mapM htexts)
  show Utf8.encode (String.ofList text.toList) = _
  rw [String.ofList_toList]

/-- Tests are found in the strict order of their components. -/
theorem pairwise_steps (c : Classifier) (isExcluded : String → Bool)
    {children : List (Bytes × Tree)} (legal : (Tree.directory children).Legal) :
    (((Tree.visitsFrom [] (.directory children)).flatMap
      (entriesAt c isExcluded)).map (·.steps)).Pairwise (· < ·) := by
  rw [List.pairwise_map]
  refine (pairwise_entries c isExcluded legal).imp ?_
  rintro e e' ⟨names, names', hlt, ⟨hlegal, hfound⟩, hlegal', hfound'⟩
  rw [steps_eq hlegal hfound, steps_eq hlegal' hfound']
  exact hlt

/-- Tests in the strict order of their components are told by their paths. -/
theorem eq_of_mem_paths_iff {entries others : List Entry}
    (sorted : (entries.map (·.steps)).Pairwise (· < ·))
    (sorted' : (others.map (·.steps)).Pairwise (· < ·))
    (same : ∀ path, path ∈ entries.map (·.path) ↔ path ∈ others.map (·.path)) : entries = others := by
  have hpath : ∀ (e : Entry) (l : List Entry), e ∈ l ↔ e.path ∈ l.map (·.path) := by
    intro e l
    refine ⟨fun h => List.mem_map_of_mem h, fun h => ?_⟩
    obtain ⟨e', he', hsame⟩ := List.mem_map.mp h
    obtain rfl : e' = e := congrArg Entry.mk hsame
    exact he'
  have hmem : ∀ e, e ∈ entries ↔ e ∈ others := by
    intro e
    rw [hpath, hpath]
    exact same e.path
  have hirrefl : Std.Irrefl fun e e' : Entry => e.steps < e'.steps :=
    ⟨fun e => List.lt_irrefl e.steps⟩
  have hantisymm : Std.Antisymm fun e e' : Entry => e.steps < e'.steps :=
    ⟨fun e e' h h' => absurd (List.lt_trans h h') (List.lt_irrefl _)⟩
  exact (List.pairwise_map.mp sorted).eq_of_mem_iff (List.pairwise_map.mp sorted') hmem

end Discovery

/-- Discovery gives its tests in one order, which does not depend on the order in which directories
list what they hold: strictly by the components of the paths, byte by byte. So no test is given twice,
and the notes are the same as well. -/
theorem TestList.discover_canonical (c : Classifier) (root : String) (viaLink : Bool)
    {children : List (Bytes × Tree)} (legal : (Tree.directory children).Legal) :
    ∃ entries notes,
      TestList.discover c root (.directory viaLink children) = .ok (⟨root, entries⟩, notes) ∧
      (entries.map (·.steps)).Pairwise (· < ·) ∧
      (entries.map (·.path)).Nodup ∧
      ∀ others, Tree.Reordered (.directory children) (.directory others) →
        TestList.discover c root (.directory viaLink others) = .ok (⟨root, entries⟩, notes) := by
  have hentries := Discovery.search_entries c root viaLink legal
  have hsteps := Discovery.pairwise_steps c (Discovery.excludes c viaLink) legal
  rw [← hentries] at hsteps
  have hnodup := Discovery.nodup_entries c (Discovery.excludes c viaLink) legal
  rw [← hentries] at hnodup
  refine ⟨_, _, rfl, hsteps, hnodup, ?_⟩
  intro others reordered
  have hvisits := reordered.visitsFrom_eq legal []
  rw [Tree.visitsFrom_directory, Tree.visitsFrom_directory, List.cons.injEq] at hvisits
  have hsame : (RootView.directory viaLink others).visits =
      (RootView.directory viaLink children).visits := by
    show _ :: Tree.visitsIn [] others = _ :: Tree.visitsIn [] children
    rw [hvisits.2]
  rw [TestList.discover, hsame]

/-- A directory comes before those whose names go on after its own, though the joined paths do not. -/
theorem TestList.discover_canonical_of_longer_name :
    let c : Classifier := ⟨fun _ => false, fun _ => true, "go"⟩
    let inner : Tree := .directory [([0x67, 0x6f], .file)]
    ∃ notes,
      TestList.discover c "/" (.directory false [([0x61, 0x2e, 0x62], inner), ([0x61], inner)]) =
        .ok (⟨"/", [⟨"a/go"⟩, ⟨"a.b/go"⟩]⟩, notes) ∧
      TestList.discover c "/" (.directory false [([0x61], inner), ([0x61, 0x2e, 0x62], inner)]) =
        .ok (⟨"/", [⟨"a/go"⟩, ⟨"a.b/go"⟩]⟩, notes) ∧
      "a.b/go" < "a/go" := by
  intro c inner
  have legalInner : inner.Legal := .directory (by decide) (by decide) (by simpa using .file)
  have legal : (Tree.directory [([0x61, 0x2e, 0x62], inner), ([0x61], inner)]).Legal :=
    .directory (by decide) (by decide) (by simpa using legalInner)
  obtain ⟨entries, notes, found, -, -, same⟩ := TestList.discover_canonical c "/" false legal
  have hentries : (Discovery.search c "/" (RootView.directory false
      [([0x61, 0x2e, 0x62], inner), ([0x61], inner)]).visits).entries =
      [⟨"a/go"⟩, ⟨"a.b/go"⟩] := by rfl
  have hfound := found
  rw [TestList.discover, hentries] at hfound
  simp only [Except.ok.injEq, Prod.mk.injEq, TestList.mk.injEq, true_and] at hfound
  obtain ⟨rfl, -⟩ := hfound
  exact ⟨notes, found, same _ (.listed (List.Perm.swap _ _ _)), by decide⟩

end BenchHarness
