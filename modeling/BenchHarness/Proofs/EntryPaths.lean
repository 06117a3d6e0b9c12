import BenchHarness.Proofs.Order

/-!
# The paths of a test

The path of a test is put together from names, so what is read off it as text is what the names say: the
last one is its file name, the others are its directory (`Entry.dir_eq`, `Entry.fileName_eq`). Joined to
a root, the directory is the path by which a walk gets there (`Entry.encode_workingDir`), and its
components come after those of the root (`Path.components_join`).
-/

namespace BenchHarness

open Discovery

namespace Path

/-! ## Paths of names -/

section

variable {texts : List String} (legal : ∀ text ∈ texts, FileName (Utf8.encode text))

include legal

theorem pieces_of_names (nonempty : texts ≠ []) :
    pieces ("/".intercalate texts).toList = texts.map String.toList := by
  refine pieces_intercalate nonempty fun text htext => ?_
  rw [← Utf8.mem_encode_iff (by decide), asciiByte_slash]
  exact (legal text htext).plain

theorem isBlank_of_names : ∀ piece ∈ texts.map String.toList, isBlank piece = false := by
  intro piece hpiece
  obtain ⟨text, htext, rfl⟩ := List.mem_map.mp hpiece
  exact (ofPiece_text (legal text htext) rfl).1

theorem intercalate_ne_empty (nonempty : texts ≠ []) : "/".intercalate texts ≠ "" := by
  intro h
  have hpieces := pieces_of_names legal nonempty
  rw [h] at hpieces
  exact absurd (isBlank_of_names legal [] (hpieces ▸ List.mem_cons_self)) (by decide)

/-- A path of names starts with a name. -/
theorem isAbsolute_of_names : isAbsolute ("/".intercalate texts) = false := by
  cases texts with
  | nil => rfl
  | cons first rest =>
    have hpieces := pieces_of_names legal (by simp)
    rw [isAbsolute, decide_eq_false_iff_not]
    intro absolute
    obtain ⟨others, hothers⟩ := List.head?_eq_some_iff.mp absolute
    rw [hothers, pieces, Pieces.split, if_pos rfl] at hpieces
    exact absurd (isBlank_of_names legal [] (hpieces ▸ List.mem_cons_self)) (by decide)

end

theorem intercalate_concat {dir : List String} (nonempty : dir ≠ []) (last : String) :
    "/".intercalate (dir ++ [last]) = "/".intercalate dir ++ "/" ++ last := by
  rw [← String.toList_inj, toList_intercalate, List.map_append, List.map_singleton,
    Pieces.glue_concat (by simpa using nonempty), String.toList_append, String.toList_append,
    toList_intercalate, List.append_assoc]
  rfl

theorem dropWhile_isBlank_concat {last : List Char} (name : isBlank last = false)
    (rest : List (List Char)) :
    (rest ++ [last]).reverse.dropWhile isBlank = last :: rest.reverse := by
  rw [List.reverse_concat, List.dropWhile_cons_of_neg (by simp [name])]

theorem dropBlankEnd_eq {rest : List (List Char)} (names : ∀ piece ∈ rest, isBlank piece = false) :
    dropBlankEnd rest = rest := by
  rcases List.eq_nil_or_concat rest with rfl | ⟨before, last, rfl⟩
  · rfl
  · rw [List.concat_eq_append] at names ⊢
    rw [dropBlankEnd, dropWhile_isBlank_concat (names last (by simp)), List.reverse_cons,
      List.reverse_reverse]

section

variable {dir : List String} {last : String}
  (legal : ∀ text ∈ dir ++ [last], FileName (Utf8.encode text))

include legal

/-- The last name is the file name. -/
theorem fileName?_of_names : fileName? ("/".intercalate (dir ++ [last])) = some last := by
  rw [fileName?, components, pieces_of_names legal (by simp), componentsOf_names legal,
    List.map_append, List.map_singleton, List.getLast?_concat]
  simp

/-- The other names make the directory. -/
theorem parent?_of_names : parent? ("/".intercalate (dir ++ [last])) = some ("/".intercalate dir) := by
  have hblank := isBlank_of_names legal
  rw [parent?, pieces_of_names legal (by simp)]
  cases dir with
  | nil =>
    have hlast : last.toList ≠ [] := fun h => by simp [h, isBlank] at hblank
    simp [hlast]
  | cons first rest =>
    rw [List.cons_append, List.map_cons, List.map_append, List.map_singleton] at hblank ⊢
    obtain ⟨hfirst, hrest⟩ := List.forall_mem_cons.mp hblank
    have hne : first.toList ≠ [] := fun h => by simp [h, isBlank] at hfirst
    have hlast : isBlank last.toList = false := hrest _ (by simp)
    simp only [dropWhile_isBlank_concat hlast, List.reverse_reverse, hne, false_and, if_false]
    rw [dropBlankEnd_eq fun piece hpiece => hrest piece (List.mem_append_left _ hpiece),
      ← List.map_cons, ← toList_intercalate, String.ofList_toList]

end

/-! ## Joined paths -/

/-- The components of a path of names come after those of the path that it is joined to. -/
theorem components_join (root : String) {dir : String} (relative : isAbsolute dir = false)
    (names : ∀ piece ∈ pieces dir.toList, isBlank piece = false) :
    components (join root dir) = components root ++ components dir := by
  have hdir : components dir = (pieces dir.toList).map Component.ofPiece := componentsOf_solid names
  rw [join, relative, if_neg Bool.false_ne_true, hdir]
  by_cases hempty : root.toList = []
  · rw [if_pos (Or.inl hempty), components, String.toList_append, hempty, List.nil_append,
      componentsOf_solid names, components, hempty]
    rfl
  · by_cases hslash : root.toList.getLast? = some '/'
    · -- after a separator at the end comes an empty part, which gives way to the names
      obtain ⟨init, hinit⟩ := List.getLast?_eq_some_iff.mp hslash
      rw [if_pos (Or.inr hslash), components, components, String.toList_append, hinit,
        List.append_assoc, List.singleton_append, pieces_append_slash, pieces_append_slash]
      exact componentsOf_replace_nil names (Pieces.split_ne_nil _) (Pieces.split_ne_nil _)
    · rw [if_neg (by simp [hempty, hslash]), components, components, String.toList_append,
        String.toList_append, List.append_assoc]
      show componentsOf (pieces (root.toList ++ '/' :: dir.toList)) = _
      rw [pieces_append_slash]
      exact componentsOf_append_solid names (Pieces.split_ne_nil _)
        fun h => hempty (pieces_eq_blank_iff.mp h)

/-- Joining appends the bytes as a walk does. -/
theorem encode_join (root : String) {dir : String} (relative : isAbsolute dir = false) :
    Utf8.encode (join root dir) = childPath (Utf8.encode root) (Utf8.encode dir) := by
  have hempty : root.toList = [] ↔ Utf8.encode root = [] := by
    rw [Utf8.encode_eq_nil_iff, ← String.toList_inj, String.toList_empty]
  have hslash : root.toList.getLast? = some '/' ↔
      (Utf8.encode root).getLast? = some Route.slash := by
    rw [← asciiByte_slash, Utf8.getLast?_encode_eq_iff (by decide)]
  rw [join, relative, if_neg Bool.false_ne_true, childPath]
  by_cases here : Utf8.encode root = [] ∨ (Utf8.encode root).getLast? = some Route.slash
  · rw [if_pos here, if_pos (by rwa [hempty, hslash]), Utf8.encode_append]
  · rw [if_neg here, if_neg (by rwa [hempty, hslash]), Utf8.encode_append, Utf8.encode_append]
    rfl

end Path

/-! ## Paths on a walk -/

namespace Discovery

theorem childPath_append (path front back : Bytes) :
    childPath path (front ++ back) = childPath path front ++ back := by
  unfold childPath
  split
  · exact (List.append_assoc path front back).symm
  · exact (List.append_assoc (path ++ [Route.slash]) front back).symm

/-- Below a path that ends with a name there is a separator first. -/
theorem childPath_childPath {name : Bytes} (legal : FileName name) (path next : Bytes) :
    childPath (childPath path name) next = childPath path (name ++ Route.slash :: next) := by
  have hlast : ∀ before : Bytes,
      ¬ (before ++ name = [] ∨ (before ++ name).getLast? = some Route.slash) := by
    rintro before (h | h)
    · exact legal.nonempty (List.append_eq_nil_iff.mp h).2
    · rw [List.getLast?_append_of_ne_nil _ legal.nonempty] at h
      exact legal.plain (List.mem_of_getLast? h)
  have hends : ∃ before, childPath path name = before ++ name := by
    unfold childPath
    split
    · exact ⟨path, rfl⟩
    · exact ⟨path ++ [Route.slash], rfl⟩
  obtain ⟨before, hbefore⟩ := hends
  rw [childPath_append, hbefore, childPath, if_neg (hlast before), List.append_assoc]
  rfl

/-- The path of a node on a walk is that of the glued names. -/
theorem foldl_childPath {names : List Bytes} (legal : ∀ name ∈ names, FileName name)
    (nonempty : names ≠ []) :
    ∀ path, names.foldl childPath path = childPath path (Pieces.glue Route.slash names) := by
  induction names with
  | nil => exact absurd rfl nonempty
  | cons name rest ih =>
    intro path
    obtain ⟨hname, hrest⟩ := List.forall_mem_cons.mp legal
    rw [List.foldl_cons]
    by_cases last : rest = []
    · rw [last]
      rfl
    · rw [ih hrest last, childPath_childPath hname, Pieces.glue_cons last]

theorem mapM_decode?_encode (texts : List String) :
    (texts.map Utf8.encode).mapM Utf8.decode? = some texts := by
  rw [Utf8.mapM_eq_some_iff, List.map_map]
  exact List.map_congr_left fun text _ => Utf8.decode?_encode text

theorem encode_intercalate (texts : List String) :
    Utf8.encode ("/".intercalate texts) = Pieces.glue Route.slash (texts.map Utf8.encode) :=
  encode_of_relativePath? (relativePath?_of_mapM (mapM_decode?_encode texts))

end Discovery

/-! ## Tests -/

namespace Entry

/-- A test lies where its path says: in its directory under its name, by names only, and its working
directory for a root is its directory below the root. -/
structure Placed (e : Entry) (root name : String) : Prop where
  fileName : e.fileName = name
  path : e.path = if e.dir = "" then name else e.dir ++ "/" ++ name
  names : ∀ piece ∈ Path.pieces e.path.toList, piece ≠ [] ∧ piece ≠ ['.'] ∧ piece ≠ ['.', '.']
  relative : Path.isAbsolute e.path = false
  workingDir : Path.remainder? (Path.components root) (Path.components (e.workingDir root)) =
    some (Path.components e.dir)

variable {dir : List String} {last : String}
  (legal : ∀ text ∈ dir ++ [last], FileName (Utf8.encode text))

include legal

theorem dir_eq : Entry.dir ⟨"/".intercalate (dir ++ [last])⟩ = "/".intercalate dir := by
  rw [Entry.dir, Path.parent?_of_names legal]
  rfl

theorem fileName_eq : Entry.fileName ⟨"/".intercalate (dir ++ [last])⟩ = last := by
  rw [fileName, Path.fileName?_of_names legal]
  rfl

/-- The working directory of a test is the root, or its directory joined to the root. -/
theorem workingDir_eq (root : String) :
    workingDir ⟨"/".intercalate (dir ++ [last])⟩ root =
      if dir = [] then root else Path.join root ("/".intercalate dir) := by
  have hlegal : ∀ text ∈ dir, FileName (Utf8.encode text) := fun text h => legal text (by simp [h])
  rw [workingDir, dir_eq legal]
  by_cases top : dir = []
  · rw [if_pos top, top]
    rfl
  · rw [if_neg top, if_neg (Path.intercalate_ne_empty hlegal top)]

/-- The working directory of a test is where a walk over the root meets the directory. -/
theorem encode_workingDir (root : String) :
    Utf8.encode (workingDir ⟨"/".intercalate (dir ++ [last])⟩ root) =
      walkedPath root (dir.map Utf8.encode) := by
  have hlegal : ∀ text ∈ dir, FileName (Utf8.encode text) := fun text h => legal text (by simp [h])
  rw [workingDir_eq legal]
  by_cases top : dir = []
  · rw [if_pos top, top]
    rfl
  · rw [if_neg top, Path.encode_join root (Path.isAbsolute_of_names hlegal), encode_intercalate,
      walkedPath, foldl_childPath (by simpa using hlegal) (by simpa using top)]

theorem placed (root : String) : Placed ⟨"/".intercalate (dir ++ [last])⟩ root last := by
  have hlegal : ∀ text ∈ dir, FileName (Utf8.encode text) := fun text h => legal text (by simp [h])
  constructor
  case fileName => exact fileName_eq legal
  case path =>
    rw [dir_eq legal]
    by_cases top : dir = []
    · rw [top]
      rfl
    · rw [if_neg (Path.intercalate_ne_empty hlegal top)]
      exact Path.intercalate_concat top last
  case names =>
    intro piece hpiece
    rw [Path.pieces_of_names legal (by simp)] at hpiece
    obtain ⟨text, htext, rfl⟩ := List.mem_map.mp hpiece
    obtain ⟨hblank, hpiece⟩ := Path.ofPiece_text (legal text htext) rfl
    refine ⟨?_, ?_, ?_⟩ <;> intro h
    · simp [h, Path.isBlank] at hblank
    · simp [h, Path.isBlank] at hblank
    · rw [h] at hpiece
      cases hpiece
  case relative => exact Path.isAbsolute_of_names legal
  case workingDir =>
    rw [workingDir_eq legal, dir_eq legal]
    by_cases top : dir = []
    · have hself := Path.remainder?_append (Path.components root) []
      rw [List.append_nil] at hself
      rw [if_pos top, top, hself]
      rfl
    · have hblank := Path.isBlank_of_names hlegal
      rw [← Path.pieces_of_names hlegal top] at hblank
      rw [if_neg top, Path.components_join root (Path.isAbsolute_of_names hlegal) hblank]
      exact Path.remainder?_append _ _

end Entry

end BenchHarness
