import BenchHarness.Proofs.EntryPaths
import BenchHarness.Proofs.WayBack

/-!
# Paths below a directory

However a directory is spelled, the names of directories below it lead on from there
(`Files.find_below`), and a name that is looked for in a directory is found there and nowhere else
(`Files.find_here`). This is so in regular file systems: their names can stand in a path, and no two
directories have one identity (`Files.Regular`).
-/

namespace BenchHarness

/-- A name that the system takes. -/
structure Route.Takes (name : Bytes) : Prop where
  noNul : (0 : UInt8) ∉ name
  short : name.length ≤ Route.maxName

instance (name : Bytes) : Decidable (Route.Takes name) :=
  decidable_of_iff (0 ∉ name ∧ name.length ≤ Route.maxName) ⟨fun ⟨h, h'⟩ => ⟨h, h'⟩, fun ⟨h, h'⟩ => ⟨h, h'⟩⟩

/-- The system takes all names in a node, all the way down. -/
inductive Node.Named : Node → Prop where
  | leaf {n : Node} (noDirectory : ∀ id children, n ≠ .directory id children) : Named n
  | directory {id : DirId} {children : List (Bytes × Node)}
      (names : ∀ child ∈ children, Route.Takes child.1) (nodes : ∀ child ∈ children, Named child.2) :
      Named (.directory id children)

/-- The identities of the directories in a node. -/
def Node.identities (n : Node) : List DirId := (n.directories 0).map (·.1)

/-- A file system as systems have them: names are as they can be, and each directory has an identity of
its own. -/
structure Files.Regular (files : Files) : Prop where
  legal : files.root.Legal
  named : files.root.Named
  distinct : files.root.identities.Nodup

namespace Node

theorem Named.of_at? {n found : Node} (named : n.Named) {trail : List Bytes}
    (h : n.at? trail = some found) : ∀ name ∈ trail, Route.Takes name := by
  induction trail generalizing n with
  | nil => simp
  | cons name rest ih =>
    obtain ⟨inner, hinner, hrest⟩ := Option.bind_eq_some_iff.mp h
    obtain ⟨id, children, rfl⟩ := exists_directory_of_child? hinner
    cases named with
    | leaf noDirectory => exact absurd rfl (noDirectory id children)
    | directory names nodes =>
      obtain ⟨before, after, hchildren, -⟩ := List.lookup_eq_some_iff.mp hinner
      have hmem : (name, inner) ∈ children := by
        show (name, inner) ∈ Node.children (.directory id children)
        rw [hchildren]
        exact List.mem_append_right before List.mem_cons_self
      exact List.forall_mem_cons.mpr ⟨names _ hmem, ih (nodes _ hmem) hrest⟩

/-! ## Identities -/

theorem directoriesIn_fst (parent : DirId) (children : List (Bytes × Node)) :
    (directoriesIn parent children).map (·.1) = children.flatMap fun child => child.2.identities := by
  induction children with
  | nil => rfl
  | cons child rest ih =>
    obtain ⟨name, n⟩ := child
    rw [directoriesIn, List.map_append, ih, List.flatMap_cons]
    cases n <;> rfl

theorem identities_directory (id : DirId) (children : List (Bytes × Node)) :
    identities (.directory id children) = id :: children.flatMap fun child => child.2.identities := by
  rw [identities, directories, List.map_cons, directoriesIn_fst]

theorem mem_identities_of_at? {id : DirId} {inside : List (Bytes × Node)} {trail : List Bytes} :
    ∀ {n : Node}, n.at? trail = some (.directory id inside) → id ∈ n.identities := by
  induction trail with
  | nil =>
    intro n h
    obtain rfl : n = .directory id inside := Option.some.inj h
    rw [identities_directory]
    exact List.mem_cons_self
  | cons name rest ih =>
    intro n h
    obtain ⟨inner, hinner, hrest⟩ := Option.bind_eq_some_iff.mp h
    obtain ⟨i, children, rfl⟩ := exists_directory_of_child? hinner
    obtain ⟨before, after, hchildren, -⟩ := List.lookup_eq_some_iff.mp hinner
    rw [identities_directory, show children = _ from hchildren]
    exact List.mem_cons_of_mem i (List.mem_flatMap.mpr ⟨(name, inner), by simp, ih hrest⟩)

theorem locateIn_append {id : DirId} {before : List (Bytes × Node)}
    (elsewhere : ∀ child ∈ before, child.2.locate id = none) (after : List (Bytes × Node)) :
    locateIn id (before ++ after) = locateIn id after := by
  induction before with
  | nil => rfl
  | cons child rest ih =>
    obtain ⟨name, n⟩ := child
    obtain ⟨hn, hrest⟩ := List.forall_mem_cons.mp elsewhere
    rw [List.cons_append, locateIn, hn]
    exact ih hrest

/-- A directory with an identity of its own is located where it is. -/
theorem locate_of_at? {id : DirId} {inside : List (Bytes × Node)} {trail : List Bytes} :
    ∀ {n : Node}, n.Legal → n.identities.Nodup → n.at? trail = some (.directory id inside) →
      n.locate id = some trail := by
  induction trail with
  | nil =>
    intro n _ _ h
    obtain rfl : n = .directory id inside := Option.some.inj h
    rw [locate, if_pos rfl]
  | cons name rest ih =>
    intro n legal distinct h
    obtain ⟨inner, hinner, hrest⟩ := Option.bind_eq_some_iff.mp h
    obtain ⟨i, children, rfl⟩ := exists_directory_of_child? hinner
    obtain ⟨before, after, hchildren, -⟩ := List.lookup_eq_some_iff.mp hinner
    obtain rfl : children = before ++ (name, inner) :: after := hchildren
    have hmem : (name, inner) ∈ before ++ (name, inner) :: after := by simp
    have hinside := mem_identities_of_at? hrest
    rw [identities_directory, List.nodup_cons, List.flatMap_append, List.flatMap_cons] at distinct
    obtain ⟨hown, hbelow⟩ := distinct
    obtain ⟨-, hinnerAfter, hbefore⟩ := List.nodup_append.mp hbelow
    have hself : i ≠ id := by
      rintro rfl
      exact hown (List.mem_append_right _ (List.mem_append_left _ hinside))
    -- a node before it that had the identity would have it a second time
    have elsewhere : ∀ child ∈ before, child.2.locate id = none := by
      intro child hchild
      rw [Option.eq_none_iff_forall_ne_some]
      intro other hother
      have hmember : (child.1, child.2) ∈ before ++ (name, inner) :: after :=
        List.mem_append_left _ hchild
      obtain ⟨-, others, hat⟩ := Legal.of_locate (legal.of_mem_children hmember) hother
      exact hbefore id (List.mem_flatMap.mpr ⟨child, hchild, mem_identities_of_at? hat⟩) id
        (List.mem_append_left _ hinside) rfl
    rw [locate, if_neg hself, locateIn_append elsewhere, locateIn,
      ih (legal.of_mem_children hmem) (List.nodup_append.mp hinnerAfter).1 hrest]

end Node

namespace Files

variable {files : Files}

/-! ## Steps after steps -/

theorem walkWith_here (deeper : Place → List Bytes → Except IoError Found) (follow : Bool)
    (place : Place) (rest : List Bytes) :
    files.walkWith deeper follow place (Route.here :: rest) =
      files.walkWith deeper follow place rest := by
  rw [walkWith.eq_def]
  exact if_pos rfl

/-- What a step comes to when links are followed: it goes to another place, it is replaced by the steps
of a link, or the walk ends with no directory. -/
theorem step_cases (files : Files) (place : Place) (step : Bytes) :
    (∃ next, ∀ deeper rest,
      files.walkWith deeper true place (step :: rest) = files.walkWith deeper true next rest) ∨
    (∃ next steps, ∀ deeper rest,
      files.walkWith deeper true place (step :: rest) = deeper next (steps ++ rest)) ∨
    ∃ ends : List Bytes → Except IoError Found,
      (∀ rest found, ends rest ≠ .ok (.directory found)) ∧
      ∀ deeper rest, files.walkWith deeper true place (step :: rest) = ends rest := by
  by_cases stays : step = Route.here
  · exact .inl ⟨place, fun deeper rest => by rw [stays, walkWith_here]⟩
  by_cases up : step = Route.up
  · exact .inl ⟨files.parentOf place, fun deeper rest => by rw [walkWith.eq_def, up]; rfl⟩
  by_cases long : Route.maxName < step.length
  · refine .inr (.inr ⟨fun _ => .error (.system .nameTooLong), by simp, fun deeper rest => ?_⟩)
    rw [walkWith.eq_def]
    simp [stays, up, long]
  cases place with
  | removed id =>
    refine .inr (.inr ⟨fun _ => .error (.system .noEntry), by simp, fun deeper rest => ?_⟩)
    rw [walkWith.eq_def]
    simp [stays, up, long]
  | linked trail =>
    -- a name by what it leads to
    cases hchild : files.childAt? (.linked trail) step with
    | none =>
      refine .inr (.inr ⟨fun rest => if rest = [] then .ok (.vacant trail step) else
        .error (.system .noEntry), fun rest found => ?_, fun deeper rest => ?_⟩)
      · dsimp only
        split <;> simp
      · rw [walkWith.eq_def]
        simp [stays, up, long, hchild]
    | some node =>
      cases hnode : node with
      | directory id children =>
        refine .inl ⟨.linked (trail ++ [step]), fun deeper rest => ?_⟩
        rw [walkWith.eq_def]
        simp [stays, up, long, hchild, hnode]
      | link target =>
        refine .inr (.inl ⟨if (Route.ofBytes target).fromRoot then .linked [] else .linked trail,
          (Route.ofBytes target).steps, fun deeper rest => ?_⟩)
        rw [walkWith.eq_def]
        simp [stays, up, long, hchild, hnode]
      | _ =>
        refine .inr (.inr ⟨fun rest => if rest = [] then .ok (.leaf trail step node) else
          .error (.system .notDirectory), fun rest found => ?_, fun deeper rest => ?_⟩)
        · dsimp only
          split <;> simp
        · rw [walkWith.eq_def]
          simp only [stays, up, long, hchild, hnode, if_false]

/-- A walk takes steps, however many links it may follow. -/
theorem exists_walkWith (files : Files) (follow : Bool) (links : Nat) :
    ∃ deeper, files.walk follow links = files.walkWith deeper follow := by
  cases links with
  | zero => exact ⟨_, rfl⟩
  | succ links => exact ⟨_, rfl⟩

section

variable {deeper : Place → List Bytes → Except IoError Found} {tail : List Bytes} {found : Place}

/-- What holds of going on from the directory that some steps lead to, whether or not they have to stay
there at the end, holds of going on after the steps. -/
theorem walkWith_resume {R : (List Bytes → Except IoError Found) → Prop}
    (stays : tail = [] ∨ tail = [Route.here])
    (hdeeper : ∀ place steps, deeper place (steps ++ tail) = .ok (.directory found) →
      R fun more => deeper place (steps ++ more))
    (there : R (files.walkWith deeper true found)) (steps : List Bytes) :
    ∀ place, files.walkWith deeper true place (steps ++ tail) = .ok (.directory found) →
      R fun more => files.walkWith deeper true place (steps ++ more) := by
  induction steps with
  | nil =>
    intro place h
    -- steps that stay lead nowhere else
    have hplace : place = found := by
      rw [List.nil_append] at h
      rcases stays with rfl | rfl
      · rw [walkWith] at h
        exact Found.directory.inj (Except.ok.inj h)
      · rw [walkWith_here, walkWith] at h
        exact Found.directory.inj (Except.ok.inj h)
    rw [hplace]
    exact there
  | cons step rest ih =>
    intro place h
    rw [List.cons_append] at h
    simp only [List.cons_append]
    rcases step_cases files place step with ⟨next, same⟩ | ⟨next, target, same⟩ | ⟨ends, never, same⟩
    · rw [same] at h
      simp only [same]
      exact ih next h
    · rw [same, ← List.append_assoc] at h
      simp only [same, ← List.append_assoc]
      exact hdeeper next _ h
    · rw [same] at h
      exact absurd h (never _ found)

/-- Steps to a directory come first, and the rest of a path goes on from there with what is left of the
links. -/
theorem walk_resume (stays : tail = [] ∨ tail = [Route.here]) (links : Nat) :
    ∀ steps place, files.walk true links place (steps ++ tail) = .ok (.directory found) →
      ∃ left ≤ links, ∀ more,
        files.walk true links place (steps ++ more) = files.walk true left found more := by
  induction links with
  | zero =>
    intro steps place h
    exact walkWith_resume (R := fun go => ∃ left ≤ 0, ∀ more, go more = files.walk true left found more)
      stays (fun _ _ h => by cases h) ⟨0, le_rfl, fun _ => rfl⟩ steps place h
  | succ links ih =>
    intro steps place h
    refine walkWith_resume
      (R := fun go => ∃ left ≤ links + 1, ∀ more, go more = files.walk true left found more)
      stays (fun place steps h => ?_) ⟨links + 1, le_rfl, fun _ => rfl⟩ steps place h
    -- the link that has been followed is one of those that may be
    obtain ⟨left, hle, same⟩ := ih steps place h
    exact ⟨left, Nat.le_succ_of_le hle, same⟩

end

/-- With more links than enough a walk leads to the same. -/
theorem walkWith_mono {deeper deeper' : Place → List Bytes → Except IoError Found}
    (hdeeper : ∀ place steps found, deeper place steps = .ok found → deeper' place steps = .ok found)
    {found : Found} (steps : List Bytes) :
    ∀ place, files.walkWith deeper true place steps = .ok found →
      files.walkWith deeper' true place steps = .ok found := by
  induction steps with
  | nil =>
    intro place h
    rw [walkWith] at h ⊢
    exact h
  | cons step rest ih =>
    intro place h
    rcases step_cases files place step with ⟨next, same⟩ | ⟨next, target, same⟩ | ⟨ends, -, same⟩
    · rw [same] at h ⊢
      exact ih next h
    · rw [same] at h ⊢
      exact hdeeper next _ found h
    · rw [same] at h ⊢
      exact h

theorem walk_succ {links : Nat} {steps : List Bytes} {place : Place} {found : Found}
    (h : files.walk true links place steps = .ok found) :
    files.walk true (links + 1) place steps = .ok found := by
  induction links generalizing steps place found with
  | zero => exact walkWith_mono (fun _ _ _ h => by cases h) steps place h
  | succ links ih => exact walkWith_mono (fun _ _ _ h => ih h) steps place h

theorem walk_mono {left links : Nat} (hle : left ≤ links) {steps : List Bytes} {place : Place}
    {found : Found} (h : files.walk true left place steps = .ok found) :
    files.walk true links place steps = .ok found := by
  induction hle with
  | refl => exact h
  | step _ ih => exact walk_succ ih

/-- Names of directories lead from a directory to the one at their end, and on from there. -/
theorem walkWith_down {deeper : Place → List Bytes → Except IoError Found} {follow : Bool}
    {names : List Bytes} (legal : ∀ name ∈ names, FileName name)
    (takes : ∀ name ∈ names, Route.Takes name) (more : List Bytes) :
    ∀ before : List Bytes,
      (∃ id children, files.root.at? (before ++ names) = some (.directory id children)) →
      files.walkWith deeper follow (.linked before) (names ++ more) =
        files.walkWith deeper follow (.linked (before ++ names)) more := by
  induction names with
  | nil =>
    intro before _
    rw [List.nil_append, List.append_nil]
  | cons name rest ih =>
    intro before target
    obtain ⟨hname, hrest⟩ := List.forall_mem_cons.mp legal
    obtain ⟨htakes, htakesRest⟩ := List.forall_mem_cons.mp takes
    have hsplit : before ++ name :: rest = (before ++ [name]) ++ rest := by simp
    rw [hsplit] at target ⊢
    obtain ⟨id, children, hchild⟩ := childAt?_of_directory target
    rw [List.cons_append, walkWith.eq_def]
    simp only [hname.notHere, hname.notUp, Nat.not_lt.mpr htakes.short, hchild, if_false]
    exact ih hrest htakesRest (before ++ [name]) target

end Files

/-! ## Paths of directories and names -/

namespace Route

/-- The steps of a path and of the path that goes on from it by names: a separator at the end, which asks
for a directory, gives way to the names. -/
theorem ofBytes_childPath {path : Bytes} (nonempty : path ≠ []) {names : List Bytes}
    (more : names ≠ []) (legal : ∀ name ∈ names, FileName name) :
    ∃ steps tail, (tail = [] ∨ tail = [here]) ∧
      ofBytes path = ⟨(ofBytes path).fromRoot, steps ++ tail⟩ ∧
      ofBytes (childPath path (Pieces.glue slash names)) =
        ⟨(ofBytes path).fromRoot, steps ++ names⟩ := by
  by_cases ends : path.getLast? = some slash
  · obtain ⟨front, rfl⟩ := List.getLast?_eq_some_iff.mp ends
    refine ⟨(Pieces.split slash front).filter (· ≠ []), [here], .inr rfl, ?_, ?_⟩
    · rw [ofBytes, if_pos ends, Pieces.split_append_cons, List.filter_append]
      simp [Pieces.split]
    · rw [childPath, if_pos (.inr ends), List.append_assoc, List.singleton_append,
        ofBytes_glue legal more, ofBytes]
  · refine ⟨(Pieces.split slash path).filter (· ≠ []), [], .inl rfl, ?_, ?_⟩
    · rw [ofBytes, if_neg ends]
    · rw [childPath, if_neg (by simp [nonempty, ends]), List.append_assoc, List.singleton_append,
        ofBytes_glue legal more, ofBytes, List.head?_append_of_ne_nil _ nonempty]

theorem zero_mem_childPath_iff {path name : Bytes} :
    (0 : UInt8) ∈ childPath path name ↔ 0 ∈ path ∨ 0 ∈ name := by
  have hslash : (0 : UInt8) ≠ slash := by decide
  unfold childPath
  split <;> simp [hslash]

theorem zero_not_mem_glue {names : List Bytes} (takes : ∀ name ∈ names, Takes name) :
    (0 : UInt8) ∉ Pieces.glue slash names := by
  intro nul
  rcases Pieces.mem_of_mem_glue nul with h | ⟨name, hname, h⟩
  · exact absurd h (by decide)
  · exact (takes name hname).noNul h

theorem childPath_ne_nil {path name : Bytes} (nonempty : path ≠ []) : childPath path name ≠ [] := by
  unfold childPath
  split <;> simp [nonempty]

end Route

namespace Files

variable {files : Files}

section

variable {base : DirId} {path : Bytes} {trail names : List Bytes}
  (found : files.find true base path = .ok (.directory (.linked trail)))
  (legal : ∀ name ∈ names, FileName name)

include found legal

/-- A path that goes on by names from the path of a directory leads on from the directory, with what is
left of the links. -/
theorem walk_of_find {below : Found} (more : names ≠ [])
    (h : files.find true base (names.foldl childPath path) = .ok below) :
    ∃ left ≤ maxLinks, files.walk true left (.linked trail) names = .ok below := by
  obtain ⟨⟨-, nonempty, -⟩, hwalk⟩ := find_eq_ok_iff.mp found
  obtain ⟨steps, tail, stays, hpath, hbelow⟩ := Route.ofBytes_childPath nonempty more legal
  rw [Discovery.foldl_childPath legal more, find_eq_ok_iff, hbelow] at h
  rw [hpath] at hwalk
  obtain ⟨left, hle, same⟩ := walk_resume stays maxLinks steps _ hwalk
  exact ⟨left, hle, (same names).symm.trans h.2⟩

/-- Below a directory, the names that lead on from it make the path go on to where they lead, as long as
the system takes the path. -/
theorem find_below (takes : ∀ name ∈ names, Route.Takes name)
    (target : ∃ id children, files.root.at? (trail ++ names) = some (.directory id children))
    (short : (names.foldl childPath path).length ≤ Route.maxLength) :
    files.find true base (names.foldl childPath path) =
      .ok (.directory (.linked (trail ++ names))) := by
  by_cases top : names = []
  · rw [top, List.foldl_nil, List.append_nil]
    exact found
  rw [Discovery.foldl_childPath legal top] at short ⊢
  obtain ⟨⟨noNul, nonempty, -⟩, hwalk⟩ := find_eq_ok_iff.mp found
  obtain ⟨steps, tail, stays, hpath, hbelow⟩ := Route.ofBytes_childPath nonempty top legal
  have hnul : (0 : UInt8) ∉ childPath path (Pieces.glue Route.slash names) := by
    rw [Route.zero_mem_childPath_iff, not_or]
    exact ⟨noNul, Route.zero_not_mem_glue takes⟩
  refine find_eq_ok_iff.mpr ⟨⟨hnul, Route.childPath_ne_nil nonempty, short⟩, ?_⟩
  rw [hpath] at hwalk
  obtain ⟨left, -, same⟩ := walk_resume stays maxLinks steps _ hwalk
  obtain ⟨deeper, hleft⟩ := exists_walkWith files true left
  rw [hbelow, same, hleft, ← List.append_nil names, walkWith_down legal takes [] trail target, walkWith,
    List.append_nil]

end

section

variable {id : DirId} {trail : List Bytes} {name : Bytes}
  (inside : files.placeOf id = .linked trail) (legal : FileName name) (takes : Route.Takes name)

include inside legal takes

/-- A name with a step before it that stays is looked for in the directory. -/
theorem find_here_iff {follow : Bool} {found : Found} :
    files.find follow id (Route.here ++ Route.slash :: name) = .ok found ↔
      files.walk follow maxLinks (.linked trail) [name] = .ok found := by
  have hroute : Route.ofBytes (Route.here ++ Route.slash :: name) = ⟨false, [Route.here, name]⟩ :=
    Route.ofBytes_glue (by simpa using legal) (List.cons_ne_nil name []) Route.here
  have hlength : (Route.here ++ Route.slash :: name).length ≤ Route.maxLength := by
    have hname := takes.short
    simp only [Route.here, List.length_append, List.length_cons, List.length_nil, Route.maxName,
      Route.maxLength] at hname ⊢
    omega
  have hnul : (0 : UInt8) ∉ Route.here ++ Route.slash :: name := by
    simp [takes.noNul, Route.here, Route.slash]
  obtain ⟨deeper, hwalk⟩ := exists_walkWith files follow maxLinks
  rw [find_eq_ok_iff, and_iff_right ⟨hnul, by simp, hlength⟩, hroute, if_neg Bool.false_ne_true, inside,
    hwalk, walkWith_here]

/-- It is found there as long as it is not the name of a directory, or of a link that is followed. -/
theorem find_here {follow : Bool} {node : Node}
    (target : files.root.at? (trail ++ [name]) = some node)
    (noDirectory : ∀ id children, node ≠ .directory id children)
    (noLink : follow = true → ∀ target, node ≠ .link target) :
    files.find follow id (Route.here ++ Route.slash :: name) = .ok (.leaf trail name node) := by
  obtain ⟨deeper, hwalk⟩ := exists_walkWith files follow maxLinks
  have hchild : files.childAt? (.linked trail) name = some node := by rw [childAt?_linked, target]
  rw [find_here_iff inside legal takes, hwalk, walkWith.eq_def]
  simp only [legal.notHere, legal.notUp, Nat.not_lt.mpr takes.short, hchild, if_false]
  cases node with
  | directory id children => exact absurd rfl (noDirectory id children)
  | link other =>
    cases follow with
    | true => exact absurd rfl (noLink rfl other)
    | false => simp
  | _ => simp

end

end Files

end BenchHarness
