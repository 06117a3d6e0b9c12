import BenchHarness.Proofs.EntryPaths
import Mathlib.Data.List.Induction
import Mathlib.Logic.Relation

/-!
# Spellings of a path

A path can be spelled in more than one way: separators may be repeated or stand at its end, and a `.` may
stand further in. Two paths have the same components exactly if leaving these out can bring both to one
spelling (`Path.components_eq_iff_shortened`); every `..` and a leading `.` show (`Path.kept`). What is read
off a path as text, its directory and its file name, has the components that are left over
(`Path.components_parent`, `Path.components_of_name`), and joining does not tell spellings apart
(`Path.components_join_congr`). So tests whose paths have the same components are equal, and are treated
alike (`Entry.same_spellings`).
-/

namespace BenchHarness

namespace Path

/-! ## Components by parts -/

/-- Whether a component may stand further in. -/
def Component.isInner : Component → Bool
  | .parent | .normal _ => true
  | .root | .current => false

theorem Component.isInner_ofFirst (first : List Char) :
    (ofFirst first).isInner = ! isBlank first := by
  by_cases empty : first = []
  · rw [empty]
    rfl
  by_cases here : first = ['.']
  · rw [here]
    rfl
  rw [ofFirst, if_neg empty, ofPiece]
  by_cases up : first = ['.', '.']
  · rw [up]
    rfl
  · rw [if_neg up, if_neg here]
    simp [isInner, isBlank, empty, here]

theorem Component.ofPiece_ne_root (piece : List Char) : ofPiece piece ≠ .root := by
  unfold ofPiece
  split
  · nofun
  split
  · nofun
  · nofun

/-- A path is empty, or its first part stands for a component. -/
theorem pieces_cases (path : List Char) :
    path = [] ∨ ∃ first rest, pieces path = first :: rest ∧ (first = [] → rest ≠ []) := by
  obtain ⟨first, rest, hpieces⟩ := List.exists_cons_of_ne_nil (@Pieces.split_ne_nil _ '/' _ path)
  by_cases alone : first = [] ∧ rest = []
  · rw [alone.1, alone.2] at hpieces
    exact .inl (pieces_eq_blank_iff.mp hpieces)
  · exact .inr ⟨first, rest, hpieces, fun h h' => alone ⟨h, h'⟩⟩

theorem inner_cons (piece : List Char) (rest : List (List Char)) :
    inner (piece :: rest) =
      if isBlank piece then inner rest else .ofFirst piece :: inner rest := by
  cases blank : isBlank piece with
  | true => simp [inner, blank]
  | false =>
    have nonempty : piece ≠ [] := fun h => by simp [h, isBlank] at blank
    simp [inner, blank, Component.ofFirst, nonempty]

/-- The components of the parts further in do not start over. -/
theorem filter_inner (parts : List (List Char)) :
    (inner parts).filter Component.isInner = inner parts := by
  induction parts with
  | nil => rfl
  | cons piece rest ih =>
    rw [inner_cons]
    split
    · exact ih
    · rename_i name
      rw [List.filter_cons_of_pos (by simp [Component.isInner_ofFirst, name]), ih]

/-- Of the components of a path those of the parts further in are told by what they are. -/
theorem filter_componentsOf (path : List Char) :
    (componentsOf (pieces path)).filter Component.isInner = inner (pieces path) := by
  rcases pieces_cases path with rfl | ⟨first, rest, hpieces, more⟩
  · rfl
  · rw [hpieces, componentsOf_cons more, List.filter_cons, filter_inner, inner_cons,
      Component.isInner_ofFirst]
    cases isBlank first <;> rfl

/-- What comes after a separator adds its components to those before it. -/
theorem componentsOf_append_slash {before : List Char} (nonempty : before ≠ []) (after : List Char) :
    componentsOf (pieces (before ++ '/' :: after)) =
      componentsOf (pieces before) ++ inner (pieces after) := by
  rw [pieces_append_slash]
  exact componentsOf_append (Pieces.split_ne_nil before)
    (fun h => nonempty (pieces_eq_blank_iff.mp h)) _

theorem componentsOf_slash (after : List Char) :
    componentsOf (pieces ('/' :: after)) = .root :: inner (pieces after) := by
  have hpieces := pieces_append_slash [] after
  rw [List.nil_append] at hpieces
  rw [hpieces]
  exact componentsOf_cons fun _ => Pieces.split_ne_nil after

/-- Further in nothing shows but the components that stand there. -/
theorem componentsOf_slash_congr {after after' : List Char}
    (same : inner (pieces after) = inner (pieces after')) (before : List Char) :
    componentsOf (pieces (before ++ '/' :: after)) =
      componentsOf (pieces (before ++ '/' :: after')) := by
  by_cases atRoot : before = []
  · rw [atRoot, List.nil_append, List.nil_append, componentsOf_slash, componentsOf_slash, same]
  · rw [componentsOf_append_slash atRoot, componentsOf_append_slash atRoot, same]

theorem components_eq_nil_iff (path : String) : components path = [] ↔ path = "" := by
  rw [← String.toList_eq_nil_iff, components]
  rcases pieces_cases path.toList with empty | ⟨first, rest, hpieces, more⟩
  · rw [empty]
    exact ⟨fun _ => rfl, fun _ => rfl⟩
  · rw [← pieces_eq_blank_iff, hpieces, componentsOf_cons more]
    simpa using more

theorem isAbsolute_iff_components (path : String) :
    isAbsolute path = true ↔ (components path).head? = some .root := by
  rw [isAbsolute, decide_eq_true_iff, components]
  cases path.toList with
  | nil => decide
  | cons c rest =>
    by_cases slash : c = '/'
    · rw [slash, componentsOf_slash]
      simp
    · obtain ⟨first, more, -, hpieces⟩ := Pieces.split_cons_of_ne slash rest
      rw [pieces, hpieces, componentsOf_cons (fun h => absurd h (by simp))]
      simp [slash, Component.ofFirst, Component.ofPiece_ne_root]

/-! ## Joined paths -/

/-- A relative path is appended to a base after a separator. -/
theorem exists_join_eq {base : String} (nonempty : base ≠ "") :
    ∃ before, ∀ other, isAbsolute other = false →
      (join base other).toList = before ++ '/' :: other.toList := by
  have hempty : base.toList ≠ [] := by rwa [ne_eq, String.toList_eq_nil_iff]
  by_cases ends : base.toList.getLast? = some '/'
  · obtain ⟨before, hbefore⟩ := List.getLast?_eq_some_iff.mp ends
    refine ⟨before, fun other relative => ?_⟩
    rw [join, relative, if_neg Bool.false_ne_true, if_pos (.inr ends), String.toList_append, hbefore,
      List.append_assoc]
    rfl
  · refine ⟨base.toList, fun other relative => ?_⟩
    rw [join, relative, if_neg Bool.false_ne_true, if_neg (not_or.mpr ⟨hempty, ends⟩),
      String.toList_append, String.toList_append, List.append_assoc]
    rfl

/-- Joining does not show how the path that is joined is spelled. -/
theorem components_join_congr (base : String) {other other' : String}
    (same : components other = components other') :
    components (join base other) = components (join base other') := by
  have absolute : isAbsolute other = isAbsolute other' := by
    rw [Bool.eq_iff_iff, isAbsolute_iff_components, isAbsolute_iff_components, same]
  cases relative : isAbsolute other with
  | true =>
    rw [join, join, ← absolute, relative]
    exact same
  | false =>
    have relative' := absolute ▸ relative
    by_cases empty : base = ""
    · rw [join, join, relative, relative', empty]
      simpa using same
    · obtain ⟨before, hjoin⟩ := exists_join_eq empty
      have further : inner (pieces other.toList) = inner (pieces other'.toList) := by
        rw [← filter_componentsOf, ← filter_componentsOf]
        exact congrArg (List.filter Component.isInner) same
      rw [components, components, hjoin other relative, hjoin other' relative']
      exact componentsOf_slash_congr further before

/-! ## Names -/

theorem ofPiece_eq_normal {piece name : List Char} (h : Component.ofPiece piece = .normal name) :
    piece = name ∧ name ≠ ['.'] ∧ name ≠ ['.', '.'] := by
  unfold Component.ofPiece at h
  split at h
  · cases h
  split at h
  · cases h
  · rename_i up here
    obtain rfl : piece = name := Component.normal.inj h
    exact ⟨rfl, here, up⟩

/-- A name among the components of a path is a path by itself, of one component. -/
theorem components_of_name {path : String} {name : List Char}
    (member : .normal name ∈ components path) :
    isAbsolute (String.ofList name) = false ∧
      (∀ piece ∈ pieces name, isBlank piece = false) ∧
      components (String.ofList name) = [.normal name] := by
  have found : ∃ piece ∈ pieces path.toList, piece ≠ [] ∧ Component.ofPiece piece = .normal name := by
    have inside := List.mem_filter.mpr ⟨member, (rfl : Component.isInner (.normal name) = true)⟩
    rw [components, filter_componentsOf] at inside
    obtain ⟨piece, hpiece, hname⟩ := List.mem_map.mp inside
    obtain ⟨hmember, hblank⟩ := List.mem_filter.mp hpiece
    refine ⟨piece, hmember, ?_, hname⟩
    rintro rfl
    simp [isBlank] at hblank
  obtain ⟨piece, hpiece, nonempty, hname⟩ := found
  obtain ⟨rfl, here, up⟩ := ofPiece_eq_normal hname
  have alone : pieces piece = [piece] :=
    Pieces.split_of_not_mem (Pieces.not_mem_of_mem_split hpiece)
  have hblank : isBlank piece = false := by simp [isBlank, nonempty, here]
  have solid : ∀ other ∈ pieces piece, isBlank other = false := by
    rw [alone]
    simpa using hblank
  have hcomponents : components (String.ofList piece) = [.normal piece] := by
    rw [components, String.toList_ofList, componentsOf_solid solid, alone, List.map_singleton, hname]
  refine ⟨?_, solid, hcomponents⟩
  rw [← Bool.not_eq_true, isAbsolute_iff_components, hcomponents]
  simp

/-! ## Directories -/

theorem inner_dropBlankEnd (parts : List (List Char)) : inner (dropBlankEnd parts) = inner parts := by
  induction parts using List.reverseRecOn with
  | nil => rfl
  | append_singleton before last ih =>
    cases blank : isBlank last with
    | true =>
      have dropped : dropBlankEnd (before ++ [last]) = dropBlankEnd before := by
        rw [dropBlankEnd, List.reverse_concat, List.dropWhile_cons_of_pos blank, dropBlankEnd]
      rw [dropped, ih, inner_append, inner_cons, if_pos blank]
      exact (List.append_nil _).symm
    | false =>
      rw [dropBlankEnd, dropWhile_isBlank_concat blank, List.reverse_cons, List.reverse_reverse]

/-- Up to the last part that names something, all parts that do are in front of it. -/
theorem inner_of_ends {parts before : List (List Char)} {last : List Char}
    (ends : parts.reverse.dropWhile isBlank = last :: before) :
    inner parts = inner (dropBlankEnd before.reverse) ++ [.ofFirst last] := by
  have name : isBlank last = false := by
    have first := List.head?_dropWhile_not isBlank parts.reverse
    rw [ends] at first
    exact first
  rw [← inner_dropBlankEnd parts, dropBlankEnd, ends, List.reverse_cons, inner_append, inner_cons,
    name, if_neg Bool.false_ne_true, inner_dropBlankEnd]
  rfl

/-- The directory that is read off a path has all components but the last one. -/
theorem components_parent (path : String) :
    components ((parent? path).getD "") = (components path).dropLast := by
  rw [parent?, components, components]
  rcases pieces_cases path.toList with empty | ⟨first, rest, hpieces, more⟩
  · rw [empty]
    rfl
  rw [hpieces, componentsOf_cons more]
  cases ends : rest.reverse.dropWhile isBlank with
  | nil =>
    -- there is no component after the first one
    have none : inner rest = [] := by
      rw [← inner_dropBlankEnd, dropBlankEnd, ends]
      rfl
    rw [none]
    by_cases atRoot : first = []
    · simp only [ends, if_pos atRoot]
      rfl
    · simp only [ends, if_neg atRoot]
      rfl
  | cons last before =>
    rw [inner_of_ends ends, ← List.cons_append, List.dropLast_concat]
    simp only [ends]
    by_cases atRoot : first = [] ∧ dropBlankEnd before.reverse = []
    · rw [if_pos atRoot, atRoot.1, atRoot.2]
      rfl
    · have plain : ∀ piece ∈ first :: dropBlankEnd before.reverse, '/' ∉ piece := by
        intro piece member
        refine Pieces.not_mem_of_mem_split (l := path.toList) ?_
        rw [← pieces, hpieces]
        rcases List.mem_cons.mp member with rfl | member
        · exact List.mem_cons_self
        · exact List.mem_cons_of_mem first (mem_of_ends ends member)
      rw [if_neg atRoot, Option.getD_some, String.toList_ofList, pieces,
        Pieces.split_glue (List.cons_ne_nil _ _) plain]
      exact componentsOf_cons fun h h' => atRoot ⟨h, h'⟩

/-! ## Spellings -/

/-- A spelling of a path and one with a separator or a `.` less in it, where that does not show. -/
inductive Shortened : List Char → List Char → Prop where
  | repeated (before after : List Char) :
      Shortened (before ++ '/' :: '/' :: after) (before ++ '/' :: after)
  | here (before after : List Char) :
      Shortened (before ++ '/' :: '.' :: '/' :: after) (before ++ '/' :: after)
  | lastHere (before : List Char) : Shortened (before ++ ['/', '.']) (before ++ ['/'])
  /-- The path of the root stays as it is. -/
  | lastSeparator {before : List Char} (nonempty : before ≠ []) :
      Shortened (before ++ ['/']) before

/-- Shortening a path keeps its components. -/
theorem Shortened.componentsOf_eq {path short : List Char} (shortened : Shortened path short) :
    componentsOf (pieces path) = componentsOf (pieces short) := by
  cases shortened with
  | repeated before after =>
    refine componentsOf_slash_congr ?_ before
    have hpieces : pieces ('/' :: after) = [] :: pieces after := pieces_append_slash [] after
    rw [hpieces, inner_cons]
    rfl
  | here before after =>
    refine componentsOf_slash_congr ?_ before
    have hpieces : pieces ('.' :: '/' :: after) = ['.'] :: pieces after := pieces_append_slash ['.'] after
    rw [hpieces, inner_cons]
    rfl
  | lastHere before => exact @componentsOf_slash_congr ['.'] [] rfl before
  | lastSeparator nonempty =>
    rw [componentsOf_append_slash nonempty]
    exact List.append_nil _

theorem isBlank_iff (piece : List Char) : isBlank piece = true ↔ piece = [] ∨ piece = ['.'] := by
  simp [isBlank]

/-- A part further in that names nothing goes away. -/
theorem shortened_blank {piece : List Char} (blank : isBlank piece = true)
    {rest : List (List Char)} (more : rest ≠ []) (before : List Char) :
    Shortened (before ++ '/' :: Pieces.glue '/' (piece :: rest))
      (before ++ '/' :: Pieces.glue '/' rest) := by
  rw [Pieces.glue_cons more]
  rcases (isBlank_iff piece).mp blank with rfl | rfl
  · exact .repeated before _
  · exact .here before _

/-- At the end of a path no more than a separator is left of it. -/
theorem shortened_lastBlank {piece : List Char} (blank : isBlank piece = true) (before : List Char) :
    Relation.ReflTransGen Shortened (before ++ '/' :: piece) (before ++ ['/']) := by
  rcases (isBlank_iff piece).mp blank with rfl | rfl
  · exact .refl
  · exact .single (.lastHere before)

theorem glue_merge (before piece : List Char) (rest : List (List Char)) :
    Pieces.glue '/' ((before ++ '/' :: piece) :: rest) = Pieces.glue '/' (before :: piece :: rest) := by
  cases rest with
  | nil => rfl
  | cons next rest =>
    rw [Pieces.glue_cons (List.cons_ne_nil _ _), Pieces.glue_cons (List.cons_ne_nil _ _),
      Pieces.glue_cons (List.cons_ne_nil _ _), List.append_assoc]
    rfl

/-- A path that starts with something is shortened to the parts that name something. -/
theorem shortened_relative (rest : List (List Char)) :
    ∀ {before : List Char}, before ≠ [] →
      Relation.ReflTransGen Shortened (Pieces.glue '/' (before :: rest))
        (Pieces.glue '/' (before :: rest.filter (! isBlank ·))) := by
  induction rest with
  | nil =>
    intro before _
    exact .refl
  | cons piece rest ih =>
    intro before nonempty
    cases blank : isBlank piece with
    | false =>
      rw [List.filter_cons_of_pos (by simp [blank]), ← glue_merge, ← glue_merge]
      exact ih (by simp)
    | true =>
      rw [List.filter_cons_of_neg (by simp [blank]), Pieces.glue_cons (List.cons_ne_nil _ _)]
      by_cases last : rest = []
      · rw [last]
        exact (shortened_lastBlank blank before).tail (.lastSeparator nonempty)
      · refine .head (shortened_blank blank last before) ?_
        rw [← Pieces.glue_cons last]
        exact ih nonempty

/-- The parts of an absolute path that name nothing go away, and its first separator stays. -/
theorem shortened_absolute (rest : List (List Char)) :
    Relation.ReflTransGen Shortened ('/' :: Pieces.glue '/' rest)
      ('/' :: Pieces.glue '/' (rest.filter (! isBlank ·))) := by
  induction rest with
  | nil => exact .refl
  | cons piece rest ih =>
    cases blank : isBlank piece with
    | false =>
      have first (others : List (List Char)) : '/' :: Pieces.glue '/' (piece :: others) =
          Pieces.glue '/' (('/' :: piece) :: others) := (glue_merge [] piece others).symm
      rw [List.filter_cons_of_pos (by simp [blank]), first, first]
      exact shortened_relative rest (List.cons_ne_nil _ _)
    | true =>
      rw [List.filter_cons_of_neg (by simp [blank])]
      by_cases last : rest = []
      · rw [last]
        exact shortened_lastBlank blank []
      · exact .head (shortened_blank blank last []) ih

/-- The shortest spelling of some components. -/
def spelled : List Component → List Char
  | .root :: rest => '/' :: Pieces.glue '/' (rest.map Component.text)
  | path => Pieces.glue '/' (path.map Component.text)

theorem Component.text_ofPiece (piece : List Char) : (ofPiece piece).text = piece := by
  unfold ofPiece
  split
  · rename_i up
    exact up.symm
  split
  · rename_i here
    exact here.symm
  · rfl

theorem map_text_inner (parts : List (List Char)) :
    (inner parts).map Component.text = parts.filter (! isBlank ·) := by
  rw [inner, List.map_map]
  exact (List.map_congr_left fun piece _ => Component.text_ofPiece piece).trans (List.map_id _)

/-- Every path can be shortened to the shortest spelling of its components. -/
theorem shortened_spelled (path : List Char) :
    Relation.ReflTransGen Shortened path (spelled (componentsOf (pieces path))) := by
  rcases pieces_cases path with rfl | ⟨first, rest, hpieces, more⟩
  · exact .refl
  have hpath : Pieces.glue '/' (first :: rest) = path := by rw [← hpieces, pieces, Pieces.glue_split]
  rw [hpieces, ← hpath, componentsOf_cons more]
  by_cases empty : first = []
  · rw [empty, Pieces.glue_cons (more empty)]
    show Relation.ReflTransGen Shortened _ ('/' :: Pieces.glue '/' ((inner rest).map Component.text))
    rw [map_text_inner]
    exact shortened_absolute rest
  · have htext : spelled (.ofFirst first :: inner rest) =
        Pieces.glue '/' (first :: rest.filter (! isBlank ·)) := by
      rw [Component.ofFirst, if_neg empty, spelled.eq_2 _ (by simp [Component.ofPiece_ne_root]),
        List.map_cons, map_text_inner, Component.text_ofPiece]
    rw [htext]
    exact shortened_relative rest empty

/-- Two paths have the same components exactly if both can be shortened to one spelling. -/
theorem components_eq_iff_shortened (path other : String) :
    components path = components other ↔
      Relation.Join (Relation.ReflTransGen Shortened) path.toList other.toList := by
  have keeps {path short : List Char} (shortened : Relation.ReflTransGen Shortened path short) :
      componentsOf (pieces path) = componentsOf (pieces short) := by
    induction shortened with
    | refl => rfl
    | tail _ step ih => exact ih.trans step.componentsOf_eq
  constructor
  · intro same
    have hother := shortened_spelled other.toList
    rw [← components, ← same] at hother
    exact ⟨_, shortened_spelled path.toList, hother⟩
  · rintro ⟨short, hpath, hother⟩
    exact (keeps hpath).trans (keeps hother).symm

/-! ## What a spelling shows -/

/-- What shows of the parts of a path: every `..`, and a `.` in front of all others only. -/
structure Kept (path : String) : Prop where
  parents : (components path).count .parent = (pieces path.toList).count ['.', '.']
  leading : (components path).head? = some .current ↔ (pieces path.toList).head? = some ['.']
  further : .current ∉ (components path).tail

theorem Component.ofFirst_eq_parent (first : List Char) :
    ofFirst first = .parent ↔ first = ['.', '.'] := by
  unfold ofFirst ofPiece
  split_ifs with empty up here
  · simp [empty]
  · simp [up]
  · simp [here]
  · simp [up]

theorem Component.ofFirst_eq_current (first : List Char) :
    ofFirst first = .current ↔ first = ['.'] := by
  unfold ofFirst ofPiece
  split_ifs with empty up here
  · simp [empty]
  · simp [up]
  · simp [here]
  · simp [here]

theorem count_parent_inner (parts : List (List Char)) :
    (inner parts).count .parent = parts.count ['.', '.'] := by
  induction parts with
  | nil => rfl
  | cons piece rest ih =>
    rw [inner_cons, List.count_cons, ← ih]
    cases blank : isBlank piece with
    | true =>
      have other : piece ≠ ['.', '.'] := by
        rintro rfl
        exact absurd blank (by decide)
      simp [other]
    | false =>
      have same : (Component.ofFirst piece == .parent) = (piece == ['.', '.']) := by
        rw [Bool.eq_iff_iff, beq_iff_eq, beq_iff_eq, Component.ofFirst_eq_parent]
      rw [if_neg Bool.false_ne_true, List.count_cons, same]

theorem current_not_mem_inner (parts : List (List Char)) : .current ∉ inner parts := by
  rw [← filter_inner]
  intro member
  exact absurd (List.mem_filter.mp member).2 (by decide)

theorem kept (path : String) : Kept path := by
  have parents : (components path).count .parent = (pieces path.toList).count ['.', '.'] := by
    rw [← count_parent_inner, ← filter_componentsOf, List.count_filter rfl, components]
  rcases pieces_cases path.toList with empty | ⟨first, rest, hpieces, more⟩
  · refine ⟨parents, ?_, ?_⟩ <;> rw [components, empty] <;> decide
  · constructor
    case parents => exact parents
    case leading =>
      rw [components, hpieces, componentsOf_cons more, List.head?_cons, List.head?_cons,
        Option.some_inj, Option.some_inj]
      exact Component.ofFirst_eq_current first
    case further =>
      rw [components, hpieces, componentsOf_cons more]
      exact current_not_mem_inner rest

end Path

/-! ## Tests -/

namespace Entry

theorem components_dir (e : Entry) :
    Path.components e.dir = (Path.components e.path).dropLast := Path.components_parent e.path

theorem same_iff (e f : Entry) :
    e.same f = true ↔ Path.components e.path = Path.components f.path := by
  rw [same, Path.same, Path.same, Bool.and_eq_true, decide_eq_true_iff, decide_eq_true_iff,
    components_dir, components_dir]
  exact ⟨And.left, fun h => ⟨h, congrArg List.dropLast h⟩⟩

theorem dir_eq_empty_iff (e : Entry) : e.dir = "" ↔ (Path.components e.path).dropLast = [] := by
  rw [← Path.components_eq_nil_iff, components_dir]

/-- Tests whose paths have the same components run in directories with the same components. -/
theorem components_workingDir_congr {e f : Entry}
    (same : Path.components e.path = Path.components f.path) (root : String) :
    Path.components (e.workingDir root) = Path.components (f.workingDir root) := by
  have dirs : Path.components e.dir = Path.components f.dir := by
    rw [components_dir, components_dir, same]
  have top : e.dir = "" ↔ f.dir = "" := by rw [dir_eq_empty_iff, dir_eq_empty_iff, same]
  unfold workingDir
  by_cases here : e.dir = ""
  · rw [if_pos here, if_pos (top.mp here)]
  · rw [if_neg here, if_neg (mt top.mpr here)]
    exact Path.components_join_congr root dirs

/-- A test whose path ends with a name has it for a file name, and lies under it in its directory. -/
theorem components_join_fileName {e : Entry} {name : List Char}
    (last : (Path.components e.path).getLast? = some (.normal name)) :
    e.fileName = String.ofList name ∧
      Path.components (Path.join e.dir e.fileName) = Path.components e.path := by
  have file : e.fileName = String.ofList name := by
    rw [fileName, Path.fileName?, last]
    rfl
  obtain ⟨relative, solid, alone⟩ := Path.components_of_name (List.mem_of_getLast? last)
  refine ⟨file, ?_⟩
  rw [file, Path.components_join e.dir relative (by rwa [String.toList_ofList]), components_dir, alone]
  exact List.dropLast_append_getLast? _ last

/-- Two tests are treated alike: they run in the same directories, and if the path of the one ends with a
name, that is the file name of both, under which each lies in its directory. -/
structure Alike (e f : Entry) : Prop where
  workingDir : ∀ root, Path.components (e.workingDir root) = Path.components (f.workingDir root)
  fileName : ∀ name, (Path.components e.path).getLast? = some (.normal name) →
    e.fileName = String.ofList name ∧ f.fileName = e.fileName
  path : ∀ name, (Path.components e.path).getLast? = some (.normal name) → ∀ g ∈ [e, f],
    Path.components (Path.join g.dir g.fileName) = Path.components g.path

theorem alike_of_same {e f : Entry} (same : Path.components e.path = Path.components f.path) :
    e.Alike f := by
  constructor
  case workingDir => exact components_workingDir_congr same
  case fileName =>
    intro name last
    have here := (components_join_fileName last).1
    rw [same] at last
    exact ⟨here, (components_join_fileName last).1.trans here.symm⟩
  case path =>
    intro name last g member
    rcases List.mem_pair.mp member with rfl | rfl
    · exact (components_join_fileName last).2
    · rw [same] at last
      exact (components_join_fileName last).2

/-- Equality of tests. Two tests are equal exactly if their paths have the same components, which is to say
that the paths differ only in separators and `.` that do not show; every `..` and a leading `.` show. So
equality is an equivalence that the paths decide, and equal tests are treated alike. -/
theorem same_spellings (path other : String) :
    ((⟨path⟩ : Entry).same ⟨other⟩ = true ↔ Path.components path = Path.components other) ∧
      (Path.components path = Path.components other ↔
        Relation.Join (Relation.ReflTransGen Path.Shortened) path.toList other.toList) ∧
      Path.Kept path ∧
      Equivalence (fun e f : Entry => e.same f = true) ∧
      ((⟨path⟩ : Entry).same ⟨other⟩ = true → (⟨path⟩ : Entry).Alike ⟨other⟩) := by
  refine ⟨same_iff ⟨path⟩ ⟨other⟩, Path.components_eq_iff_shortened path other, Path.kept path, ?_, ?_⟩
  · constructor
    case refl => exact fun e => (same_iff e e).mpr rfl
    case symm => exact fun h => (same_iff _ _).mpr ((same_iff _ _).mp h).symm
    case trans =>
      exact fun h h' => (same_iff _ _).mpr (((same_iff _ _).mp h).trans ((same_iff _ _).mp h'))
  · exact fun same => alike_of_same ((same_iff _ _).mp same)

/-- A path with all that does not show, and what does. -/
theorem same_spellings_of_blanks :
    let e : Entry := ⟨"./../a//b/./go.sh/."⟩
    let f : Entry := ⟨"./../a/b/go.sh"⟩
    e.same f = true ∧ e.fileName = "go.sh" ∧ f.fileName = "go.sh" ∧
      Path.components (e.workingDir "/r/") = Path.components (f.workingDir "/r/") ∧
      Path.components (Path.join e.dir e.fileName) = Path.components e.path := by
  intro e f
  have same : e.same f = true := by decide +kernel
  obtain ⟨-, -, -, -, alike⟩ := same_spellings e.path f.path
  obtain ⟨workingDir, fileName, path⟩ := alike same
  have last : (Path.components e.path).getLast? = some (.normal "go.sh".toList) := by decide +kernel
  obtain ⟨here, there⟩ := fileName _ last
  exact ⟨same, here, there.trans here, workingDir "/r/", path _ last e List.mem_cons_self⟩

end Entry

end BenchHarness
