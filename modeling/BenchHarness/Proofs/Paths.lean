import BenchHarness.Discovery.Basic
import BenchHarness.Proofs.Pieces
import BenchHarness.Proofs.Utf8

/-!
# Paths on a walk

The walk appends names to the root's path, and discovery takes them off again by comparing path
components. What is left is the names themselves, glued together, however the root is spelled
(`Discovery.normalize?_walkedPath`); as a text it is the texts of the names with `/` in between
(`Discovery.decode?_glue`), and its last name can be split off (`Discovery.splitName_intercalate`).
-/

namespace BenchHarness

namespace Octets

theorem toNat_octet (b : UInt8) : (Char.ofNat b.toNat).toNat = b.toNat :=
  Utf8.val_ofNat (Or.inl (Nat.lt_trans b.toNat_lt (by decide)))

theorem octet_inj {a b : UInt8} : Char.ofNat a.toNat = Char.ofNat b.toNat ↔ a = b := by
  constructor
  · intro h
    rw [← UInt8.toNat_inj, ← toNat_octet a, h, toNat_octet b]
  · rintro rfl
    rfl

theorem octet_slash : Char.ofNat Route.slash.toNat = '/' := rfl

@[simp] theorem toBytes_ofBytes (bytes : Bytes) : toBytes (ofBytes bytes) = bytes := by
  simp [toBytes, ofBytes, toNat_octet, Function.comp_def]

theorem ofBytes_injective {a b : Bytes} (h : ofBytes a = ofBytes b) : a = b := by
  rw [← toBytes_ofBytes a, h, toBytes_ofBytes]

theorem ofBytes_append (a b : Bytes) : ofBytes (a ++ b) = ofBytes a ++ ofBytes b :=
  List.map_append

theorem slash_mem_ofBytes_iff (bytes : Bytes) : '/' ∈ ofBytes bytes ↔ Route.slash ∈ bytes := by
  rw [← octet_slash, ofBytes, List.mem_map]
  constructor
  · rintro ⟨b, hb, h⟩
    exact octet_inj.mp h ▸ hb
  · intro h
    exact ⟨Route.slash, h, rfl⟩

end Octets

/-- What an entry of a directory can be called. -/
structure FileName (name : Bytes) : Prop where
  nonempty : name ≠ []
  plain : Route.slash ∉ name
  notHere : name ≠ Route.here
  notUp : name ≠ Route.up

instance (name : Bytes) : Decidable (FileName name) :=
  decidable_of_iff (name ≠ [] ∧ Route.slash ∉ name ∧ name ≠ Route.here ∧ name ≠ Route.up)
    ⟨fun ⟨h, h', h'', h'''⟩ => ⟨h, h', h'', h'''⟩,
      fun ⟨h, h', h'', h'''⟩ => ⟨h, h', h'', h'''⟩⟩

namespace Path

/-! ## Components -/

/-- The component of a name. -/
def Component.ofName (name : Bytes) : Component := .normal (Octets.ofBytes name)

theorem isBlank_name {name : Bytes} (legal : FileName name) :
    isBlank (Octets.ofBytes name) = false := by
  have hempty : Octets.ofBytes name ≠ [] := by simp [Octets.ofBytes, legal.nonempty]
  have hhere : Octets.ofBytes name ≠ ['.'] :=
    fun h => legal.notHere (Octets.ofBytes_injective (h.trans (by decide)))
  simp [isBlank, hempty, hhere]

theorem ofPiece_name {name : Bytes} (legal : FileName name) :
    Component.ofPiece (Octets.ofBytes name) = .ofName name := by
  have hup : Octets.ofBytes name ≠ ['.', '.'] :=
    fun h => legal.notUp (Octets.ofBytes_injective (h.trans (by decide)))
  have hhere : Octets.ofBytes name ≠ ['.'] :=
    fun h => legal.notHere (Octets.ofBytes_injective (h.trans (by decide)))
  rw [Component.ofPiece, if_neg hup, if_neg hhere]
  rfl

theorem pieces_append_slash (before after : List Char) :
    pieces (before ++ '/' :: after) = pieces before ++ pieces after :=
  Pieces.split_append_cons before after

/-- Only the empty path has nothing but an empty part. -/
theorem pieces_eq_blank_iff {path : List Char} : pieces path = [[]] ↔ path = [] := by
  refine ⟨fun h => ?_, fun h => by rw [h]; rfl⟩
  cases path with
  | nil => rfl
  | cons a rest =>
    rw [pieces, Pieces.split] at h
    split at h
    · exact absurd (List.cons.inj h).2 (Pieces.split_ne_nil rest)
    · split at h <;> simp at h

theorem inner_append (rest more : List (List Char)) : inner (rest ++ more) = inner rest ++ inner more := by
  simp [inner]

/-- The component that the first part of a path stands for. -/
def Component.ofFirst (first : List Char) : Component :=
  if first = [] then .root else .ofPiece first

theorem componentsOf_cons {first : List Char} {rest : List (List Char)}
    (more : first = [] → rest ≠ []) :
    componentsOf (first :: rest) = .ofFirst first :: inner rest := by
  cases first with
  | cons a first => rfl
  | nil =>
    cases rest with
    | nil => exact absurd rfl (more rfl)
    | cons second rest => rfl

/-- Parts further in add their components to those before them. -/
theorem componentsOf_append {parts : List (List Char)} (nonempty : parts ≠ [])
    (some : parts ≠ [[]]) (rest : List (List Char)) :
    componentsOf (parts ++ rest) = componentsOf parts ++ inner rest := by
  obtain ⟨first, others, rfl⟩ := List.exists_cons_of_ne_nil nonempty
  have more : first = [] → others ≠ [] := by
    rintro rfl rfl
    exact some rfl
  have more' : first = [] → others ++ rest ≠ [] := by
    intro h h'
    exact more h (List.append_eq_nil_iff.mp h').1
  rw [List.cons_append, componentsOf_cons more, componentsOf_cons more', inner_append]
  rfl

section

variable {solid : List (List Char)} (names : ∀ piece ∈ solid, isBlank piece = false)

include names

theorem inner_solid : inner solid = solid.map Component.ofPiece := by
  have hall : solid.filter (! isBlank ·) = solid := by
    rw [List.filter_eq_self]
    intro piece hpiece
    rw [names piece hpiece]
    rfl
  rw [inner, hall]

theorem componentsOf_solid : componentsOf solid = solid.map Component.ofPiece := by
  match solid with
  | [] => rfl
  | [] :: rest => exact absurd (names [] List.mem_cons_self) (by decide)
  | (a :: first) :: rest =>
    show Component.ofPiece (a :: first) :: inner rest = _
    rw [inner_solid fun piece hpiece => names piece (List.mem_cons_of_mem _ hpiece)]
    rfl

/-- Parts that name something are components more when they come after others. -/
theorem componentsOf_append_solid {parts : List (List Char)} (nonempty : parts ≠ [])
    (some : parts ≠ [[]]) :
    componentsOf (parts ++ solid) = componentsOf parts ++ solid.map Component.ofPiece := by
  rw [componentsOf_append nonempty some, inner_solid names]

/-- Parts that name something are components more when they come after a separator at the end. -/
theorem componentsOf_replace_nil {parts : List (List Char)} (nonempty : parts ≠ [])
    (more : solid ≠ []) :
    componentsOf (parts ++ solid) =
      componentsOf (parts ++ [[]]) ++ solid.map Component.ofPiece := by
  obtain ⟨first, rest, rfl⟩ := List.exists_cons_of_ne_nil nonempty
  have blank : inner (rest ++ [[]]) = inner rest := by
    rw [inner_append]
    exact List.append_nil _
  rw [List.cons_append, List.cons_append, componentsOf_cons (by simp [more]),
    componentsOf_cons (by simp), blank, inner_append, inner_solid names]
  rfl

end

theorem mem_of_mem_dropBlankEnd {parts : List (List Char)} {piece : List Char}
    (member : piece ∈ dropBlankEnd parts) : piece ∈ parts :=
  List.mem_reverse.mp ((List.dropWhile_sublist _).subset (List.mem_reverse.mp member))

/-- The parts of a path in front of its last component are parts of the path. -/
theorem mem_of_ends {parts before : List (List Char)} {last piece : List Char}
    (ends : parts.reverse.dropWhile isBlank = last :: before)
    (member : piece ∈ dropBlankEnd before.reverse) : piece ∈ parts := by
  have hends : piece ∈ parts.reverse.dropWhile isBlank := by
    rw [ends]
    exact List.mem_cons_of_mem last (List.mem_reverse.mp (mem_of_mem_dropBlankEnd member))
  exact List.mem_reverse.mp ((List.dropWhile_sublist _).subset hends)

theorem remainder?_append (above below : List Component) :
    remainder? above (above ++ below) = some below := by
  induction above with
  | nil => rfl
  | cons a above ih =>
    rw [List.cons_append, remainder?, if_pos rfl]
    exact ih

end Path

namespace Discovery

open BenchHarness.Path

theorem pieces_append_slash (before after : Bytes) :
    pieces (Octets.ofBytes (before ++ Route.slash :: after)) =
      pieces (Octets.ofBytes before) ++ pieces (Octets.ofBytes after) := by
  rw [Octets.ofBytes_append]
  exact Path.pieces_append_slash (Octets.ofBytes before) (Octets.ofBytes after)

theorem pieces_name {name : Bytes} (legal : FileName name) :
    pieces (Octets.ofBytes name) = [Octets.ofBytes name] :=
  Pieces.split_of_not_mem fun h => legal.plain ((Octets.slash_mem_ofBytes_iff name).mp h)

theorem pieces_ne_blank {path : Bytes} (nonempty : path ≠ []) :
    pieces (Octets.ofBytes path) ≠ [[]] := by
  rw [Ne, pieces_eq_blank_iff, Octets.ofBytes, List.map_eq_nil_iff]
  exact nonempty

/-- An entry of a directory has one component more than the directory, whether or not the
directory's path ends with a separator. -/
theorem componentsOf_childPath {name : Bytes} (legal : FileName name) (path : Bytes) :
    componentsOf (childPath path name) = componentsOf path ++ [.ofName name] := by
  have hsolid : ∀ piece ∈ [Octets.ofBytes name], isBlank piece = false := by
    simpa using isBlank_name legal
  have hname : [Octets.ofBytes name].map Component.ofPiece = [.ofName name] := by
    simpa using ofPiece_name legal
  unfold componentsOf childPath
  rw [← hname]
  by_cases hempty : path = []
  · subst hempty
    rw [if_pos (Or.inl rfl), List.nil_append, pieces_name legal]
    exact componentsOf_solid hsolid
  · by_cases hslash : path.getLast? = some Route.slash
    · -- after a separator at the end comes an empty part, which gives way to the name
      obtain ⟨init, rfl⟩ := List.getLast?_eq_some_iff.mp hslash
      rw [if_pos (Or.inr hslash), List.append_assoc, List.singleton_append,
        pieces_append_slash, pieces_append_slash, pieces_name legal]
      exact componentsOf_replace_nil hsolid (Pieces.split_ne_nil _) (by simp)
    · rw [if_neg (by simp [hempty, hslash]), List.append_assoc, List.singleton_append,
        pieces_append_slash, pieces_name legal]
      exact componentsOf_append_solid hsolid (Pieces.split_ne_nil _) (pieces_ne_blank hempty)

theorem componentsOf_foldl_childPath {names : List Bytes} (legal : ∀ name ∈ names, FileName name) :
    ∀ path, componentsOf (names.foldl childPath path) =
      componentsOf path ++ names.map Component.ofName := by
  induction names with
  | nil =>
    intro path
    simp
  | cons name rest ih =>
    intro path
    rw [List.foldl_cons, ih (fun n hn => legal n (List.mem_cons_of_mem name hn)),
      componentsOf_childPath (legal name List.mem_cons_self), List.map_cons, List.append_assoc]
    rfl

/-- The path of a node below the root, whatever the root is called. -/
theorem normalize?_walkedPath {names : List Bytes} (legal : ∀ name ∈ names, FileName name)
    (root : String) :
    normalize? root (walkedPath root names) =
      Utf8.decode? (Pieces.glue Route.slash names) := by
  have htexts : (names.map Component.ofName).map Component.text = names.map Octets.ofBytes := by
    simp [Function.comp_def, Component.ofName, Component.text]
  have hglue : Pieces.glue '/' (names.map Octets.ofBytes) =
      Octets.ofBytes (Pieces.glue Route.slash names) :=
    Pieces.glue_map Route.slash (fun b : UInt8 => Char.ofNat b.toNat) names
  unfold normalize? walkedPath
  rw [componentsOf_foldl_childPath legal, remainder?_append]
  show Utf8.decode? (Octets.toBytes (Pieces.glue '/' _)) = _
  rw [htexts, hglue, Octets.toBytes_ofBytes]

/-! ## Texts of paths -/

theorem asciiByte_slash : Utf8.asciiByte '/' = Route.slash := by decide

/-- Names glued together are text exactly if each of them is. -/
theorem decode?_glue (names : List Bytes) :
    Utf8.decode? (Pieces.glue Route.slash names) =
      (names.mapM Utf8.decode?).map fun texts => "/".intercalate texts := by
  induction names with
  | nil => rfl
  | cons name rest ih =>
    by_cases more : rest = []
    · subst more
      rw [Pieces.glue, List.mapM_cons, List.mapM_nil]
      cases Utf8.decode? name with
      | none => rfl
      | some text => simp
    · rw [Pieces.glue_cons more, ← asciiByte_slash, Utf8.decode?_append_ascii (by decide),
        asciiByte_slash, ih, List.mapM_cons]
      cases Utf8.decode? name with
      | none => rfl
      | some text =>
        cases h : rest.mapM Utf8.decode? with
        | none => rfl
        | some texts =>
          have hne : texts ≠ [] := by
            rintro rfl
            exact more (List.map_eq_nil_iff.mp ((Utf8.mapM_eq_some_iff _ _ _).mp h))
          show some (text ++ "/" ++ "/".intercalate texts) = some ("/".intercalate (text :: texts))
          rw [String.intercalate_cons_of_ne_nil hne]

/-- The text of a name has no separator. -/
theorem slash_not_mem_of_decode? {name : Bytes} (legal : FileName name) {text : String}
    (htext : Utf8.decode? name = some text) : '/' ∉ text.toList := by
  rw [← Utf8.mem_encode_iff (by decide), asciiByte_slash, Utf8.encode_of_decode?_eq_some htext]
  exact legal.plain

theorem toList_intercalate (texts : List String) :
    ("/".intercalate texts).toList = Pieces.glue '/' (texts.map String.toList) := by
  induction texts with
  | nil => rfl
  | cons text rest ih =>
    cases rest with
    | nil => simp [Pieces.glue]
    | cons next rest =>
      rw [String.intercalate_cons_cons, String.toList_append, String.toList_append, ih,
        List.append_assoc]
      rfl

/-- The parts of a path are the texts it was put together from. -/
theorem pieces_intercalate {texts : List String} (nonempty : texts ≠ [])
    (plain : ∀ text ∈ texts, '/' ∉ text.toList) :
    pieces ("/".intercalate texts).toList = texts.map String.toList := by
  rw [toList_intercalate, pieces, Pieces.split_glue (by simpa using nonempty)]
  intro piece hpiece
  obtain ⟨text, htext, rfl⟩ := List.mem_map.mp hpiece
  exact plain text htext

/-- The last name of a path is split off. -/
theorem splitName_intercalate {texts : List String} {last : String}
    (plain : ∀ text ∈ texts ++ [last], '/' ∉ text.toList) :
    splitName ("/".intercalate (texts ++ [last])) = ("/".intercalate texts, last) := by
  have hpieces : pieces ("/".intercalate (texts ++ [last])).toList =
      texts.map String.toList ++ [last.toList] := by
    rw [pieces_intercalate (by simp) plain, List.map_append]
    rfl
  have hdir : Pieces.glue '/' (texts.map String.toList) = ("/".intercalate texts).toList :=
    (toList_intercalate texts).symm
  simp only [splitName, hpieces, List.dropLast_concat, List.getLastD_concat, hdir,
    String.ofList_toList]

end Discovery

end BenchHarness
