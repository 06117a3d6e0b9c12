import BenchHarness.Proofs.Pieces
import BenchHarness.Proofs.Snapshot
import BenchHarness.Proofs.WorkingDirectory

/-!
# The way back to a directory

In a legal file system the names that lead to a directory make a path, and whoever can go along that
path gets to the same directory: none of the names on the way is one of a link
(`Files.findDirectory_pathOf`). So a process that has gone elsewhere comes back by the path of the
directory it was in, if that can be entered at all (`Machine.changeDir_currentDir`).
-/

namespace BenchHarness

/-! ## Directories and the names that lead to them -/

/-- What has a key is found by it, as nothing else has that key. -/
theorem lookup_of_mem {κ α : Type} [BEq κ] [LawfulBEq κ] {items : List (κ × α)}
    (distinct : (items.map (·.1)).Nodup) {key : κ} {value : α} (h : (key, value) ∈ items) :
    items.lookup key = some value := by
  obtain ⟨before, after, rfl⟩ := List.append_of_mem h
  refine List.lookup_eq_some_iff.mpr ⟨before, after, rfl, ?_⟩
  rw [List.map_append, List.map_cons] at distinct
  intro item hitem
  have hne := (List.nodup_append.mp distinct).2.2 item.1 (List.mem_map_of_mem hitem) key
    List.mem_cons_self
  simpa using hne.symm

namespace Node

theorem at?_append (n : Node) (names more : List Bytes) :
    n.at? (names ++ more) = (n.at? names).bind (·.at? more) := by
  induction names generalizing n with
  | nil => rfl
  | cons name rest ih =>
    rw [List.cons_append, at?, at?]
    cases n.child? name with
    | none => rfl
    | some inner => exact ih inner

theorem at?_singleton (name : Bytes) : (fun n : Node => n.at? [name]) = (·.child? name) := by
  funext n
  exact Option.bind_fun_some (n.child? name)

/-- Only directories hold anything. -/
theorem exists_directory_of_child? {n inner : Node} {name : Bytes} (h : n.child? name = some inner) :
    ∃ id children, n = .directory id children := by
  cases n with
  | directory id children => exact ⟨id, children, rfl⟩
  | _ => simp [child?, children] at h

theorem locateIn_eq_some {id : DirId} {children : List (Bytes × Node)} {trail : List Bytes}
    (h : locateIn id children = some trail) :
    ∃ name n rest, (name, n) ∈ children ∧ locate id n = some rest ∧ trail = name :: rest := by
  induction children with
  | nil => simp [locateIn] at h
  | cons child others ih =>
    obtain ⟨name, n⟩ := child
    rw [locateIn] at h
    cases hn : locate id n with
    | some rest =>
      rw [hn] at h
      exact ⟨name, n, rest, List.mem_cons_self, hn, (Option.some.inj h).symm⟩
    | none =>
      rw [hn] at h
      obtain ⟨name', n', rest, hmem, hrest⟩ := ih h
      exact ⟨name', n', rest, List.mem_cons_of_mem _ hmem, hrest⟩

/-- The names found for a directory are names, and lead to it. -/
theorem Legal.of_locate {id : DirId} {n : Node} (legal : n.Legal) :
    ∀ {trail : List Bytes}, n.locate id = some trail →
      (∀ name ∈ trail, FileName name) ∧ ∃ children, n.at? trail = some (.directory id children) := by
  induction legal with
  | @directory i children names distinct nodes ih =>
    intro trail h
    rw [locate] at h
    split at h
    · rename_i hid
      obtain rfl : [] = trail := Option.some.inj h
      exact ⟨by simp, children, by rw [Node.at?, hid]⟩
    · obtain ⟨name, n, rest, hmem, hrest, rfl⟩ := locateIn_eq_some h
      obtain ⟨hnames, inner, hinner⟩ := ih (name, n) hmem hrest
      refine ⟨List.forall_mem_cons.mpr ⟨names (name, n) hmem, hnames⟩, inner, ?_⟩
      rw [Node.at?, Node.child?, Node.children, lookup_of_mem distinct hmem]
      exact hinner
  | _ =>
    intro trail h
    simp [locate] at h

end Node

/-! ## Paths of directories -/

namespace Route

/-- The steps of a path come after those of what is before it and a separator. -/
theorem ofBytes_append {path : Bytes} (nonempty : path ≠ []) (front : Bytes) :
    ofBytes (front ++ slash :: path) =
      ⟨(front ++ [slash]).head? = some slash,
        (Pieces.split slash front).filter (· ≠ []) ++ (ofBytes path).steps⟩ := by
  have hlast : (front ++ slash :: path).getLast? = path.getLast? := by
    rw [List.append_cons, List.getLast?_append_of_ne_nil _ nonempty]
  have hhead : (front ++ slash :: path).head? = (front ++ [slash]).head? := by
    cases front <;> rfl
  rw [ofBytes, ofBytes, hlast, hhead, Pieces.split_append_cons, List.filter_append, List.append_assoc]

section

variable {names : List Bytes} (legal : ∀ name ∈ names, FileName name)

include legal

theorem filter_names : names.filter (· ≠ []) = names := by
  rw [List.filter_eq_self]
  intro name hname
  simpa using (legal name hname).nonempty

theorem split_glue_names (nonempty : names ≠ []) :
    Pieces.split slash (Pieces.glue slash names) = names :=
  Pieces.split_glue nonempty fun name hname => (legal name hname).plain

/-- What ends with a name does not end with a separator. -/
theorem getLast?_glue_names (nonempty : names ≠ []) (front : Bytes) :
    (front ++ Pieces.glue slash names).getLast? ≠ some slash := by
  obtain ⟨dir, last, rfl⟩ := List.eq_nil_or_concat names |>.resolve_left nonempty
  rw [List.concat_eq_append] at legal ⊢
  have hlast : FileName last := legal last (by simp)
  obtain ⟨before, hbefore⟩ : ∃ before, front ++ Pieces.glue slash (dir ++ [last]) = before ++ last := by
    by_cases hdir : dir = []
    · exact ⟨front, by simp [hdir, Pieces.glue]⟩
    · exact ⟨front ++ (Pieces.glue slash dir ++ [slash]), by simp [Pieces.glue_concat hdir]⟩
  intro h
  rw [hbefore, List.getLast?_append_of_ne_nil _ hlast.nonempty] at h
  exact hlast.plain (List.mem_of_getLast? h)

theorem steps_glue (nonempty : names ≠ []) : (ofBytes (Pieces.glue slash names)).steps = names := by
  have hend := getLast?_glue_names legal nonempty []
  rw [List.nil_append] at hend
  rw [ofBytes, if_neg hend, List.append_nil, split_glue_names legal nonempty, filter_names legal]

/-- Names after a separator are the last steps of a path. -/
theorem ofBytes_glue (nonempty : names ≠ []) (front : Bytes) :
    ofBytes (front ++ slash :: Pieces.glue slash names) =
      ⟨(front ++ [slash]).head? = some slash,
        (Pieces.split slash front).filter (· ≠ []) ++ names⟩ := by
  have hglue : Pieces.glue slash names ≠ [] := by
    intro h
    have hsteps := steps_glue legal nonempty
    rw [h] at hsteps
    exact nonempty hsteps.symm
  rw [ofBytes_append hglue, steps_glue legal nonempty]

/-- The path of a directory has the names that lead to it as its steps. -/
theorem ofBytes_pathOfTrail :
    ofBytes (pathOfTrail names) = ⟨true, if names = [] then [here] else names⟩ := by
  by_cases top : names = []
  · rw [top]
    rfl
  · rw [pathOfTrail, ← List.nil_append (slash :: _), ofBytes_glue legal top, if_neg top]
    rfl

theorem childPath_pathOfTrail (nonempty : names ≠ []) (path : Bytes) :
    childPath (pathOfTrail names) path = pathOfTrail names ++ slash :: path := by
  have hend : (pathOfTrail names).getLast? ≠ some slash := getLast?_glue_names legal nonempty [slash]
  have hcons : pathOfTrail names ≠ [] := by simp [pathOfTrail]
  rw [childPath, if_neg (by simp [hcons, hend]), List.append_assoc, List.singleton_append]

theorem filter_split_pathOfTrail (nonempty : names ≠ []) :
    (Pieces.split slash (pathOfTrail names)).filter (· ≠ []) = names := by
  rw [pathOfTrail, Pieces.split, if_pos rfl, split_glue_names legal nonempty,
    List.filter_cons_of_neg (by simp), filter_names legal]

/-- The steps of a path below a directory come after the names that lead to the directory. -/
theorem ofBytes_below {path : Bytes} (nonempty : path ≠ []) :
    ofBytes (childPath (pathOfTrail names) path) = ⟨true, names ++ (ofBytes path).steps⟩ := by
  by_cases top : names = []
  · rw [top]
    exact ofBytes_append nonempty []
  · rw [childPath_pathOfTrail legal top, ofBytes_append nonempty, filter_split_pathOfTrail legal top]
    rfl

/-- A separator after the path of a directory asks to stay there. -/
theorem ofBytes_itself : ofBytes (childPath (pathOfTrail names) []) = ⟨true, names ++ [here]⟩ := by
  by_cases top : names = []
  · rw [top]
    rfl
  · rw [childPath_pathOfTrail legal top, ofBytes, if_pos List.getLast?_concat, Pieces.split_append_cons,
      List.filter_append, filter_split_pathOfTrail legal top]
    simp [Pieces.split, pathOfTrail]

end

end Route

namespace Files

variable {files : Files}

theorem childAt?_linked (trail : List Bytes) (name : Bytes) :
    files.childAt? (.linked trail) name = files.root.at? (trail ++ [name]) := by
  rw [childAt?, Node.at?_append, Node.at?_singleton]

/-- A name on the way to a directory is the name of a directory: something lies below it, or it is the
last one. -/
theorem childAt?_of_directory {before rest : List Bytes} {step : Bytes}
    (target : ∃ id children, files.root.at? (before ++ [step] ++ rest) = some (.directory id children)) :
    ∃ id children, files.childAt? (.linked before) step = some (.directory id children) := by
  obtain ⟨id, children, htarget⟩ := target
  rw [Node.at?_append] at htarget
  obtain ⟨inner, hinner, hbelow⟩ := Option.bind_eq_some_iff.mp htarget
  rw [childAt?_linked, hinner]
  cases rest with
  | nil =>
    obtain rfl : inner = .directory id children := Option.some.inj hbelow
    exact ⟨id, children, rfl⟩
  | cons next others =>
    obtain ⟨child, hchild, -⟩ := Option.bind_eq_some_iff.mp hbelow
    obtain ⟨id, children, rfl⟩ := Node.exists_directory_of_child? hchild
    exact ⟨id, children, rfl⟩

/-- Steps along directories lead to the directory at their end, if they lead anywhere. -/
theorem walkWith_directories {deeper : Place → List Bytes → Except IoError Found} {follow : Bool}
    {found : Found} (steps : List Bytes) (legal : ∀ step ∈ steps, FileName step) :
    ∀ before : List Bytes,
      (∃ id children, files.root.at? (before ++ steps) = some (.directory id children)) →
      files.walkWith deeper follow (.linked before) steps = .ok found →
        found = .directory (.linked (before ++ steps)) := by
  induction steps with
  | nil =>
    intro before _ h
    rw [List.append_nil]
    exact (Except.ok.inj h).symm
  | cons step rest ih =>
    intro before target h
    obtain ⟨hstep, hrest⟩ := List.forall_mem_cons.mp legal
    have hsplit : before ++ step :: rest = (before ++ [step]) ++ rest := by simp
    rw [hsplit] at target ⊢
    obtain ⟨id, children, hchild⟩ := childAt?_of_directory target
    rw [walkWith.eq_def] at h
    simp only [hstep.notHere, hstep.notUp, if_false, hchild] at h
    split at h
    · cases h
    · exact ih hrest (before ++ [step]) target h

/-- The path of a directory leads to where the directory is, if it leads anywhere. -/
theorem find_pathOfTrail {trail : List Bytes} (legal : ∀ name ∈ trail, FileName name)
    (target : ∃ id children, files.root.at? trail = some (.directory id children))
    {follow : Bool} {base : DirId} {found : Found}
    (h : files.find follow base (pathOfTrail trail) = .ok found) :
    found = .directory (.linked trail) := by
  obtain ⟨-, hwalk⟩ := find_eq_ok_iff.mp h
  rw [Route.ofBytes_pathOfTrail legal, if_pos rfl] at hwalk
  -- the root directory is found by a step that stays there
  by_cases htrail : trail = []
  · subst htrail
    exact (Except.ok.inj hwalk).symm
  · simp only [htrail, if_false] at hwalk
    exact walkWith_directories trail legal [] target hwalk

/-- Who gets to a directory along its own path gets to that directory. -/
theorem findDirectory_pathOf (legal : files.root.Legal) {id base found : DirId} {path : Bytes}
    (h : files.pathOf id = .ok path) (entered : files.findDirectory base path = .ok found) :
    found = id := by
  unfold pathOf placeOf at h
  cases htrail : files.root.locate id with
  | none =>
    rw [htrail] at h
    cases h
  | some trail =>
    rw [htrail] at h
    obtain rfl : pathOfTrail trail = path := Except.ok.inj h
    obtain ⟨hnames, children, hat⟩ := legal.of_locate htrail
    unfold findDirectory at entered
    cases hfind : files.find true base (pathOfTrail trail) with
    | error e =>
      rw [hfind] at entered
      cases entered
    | ok place =>
      obtain rfl := find_pathOfTrail hnames ⟨id, children, hat⟩ hfind
      have hid : files.idAt? (.linked trail) = some id := by rw [idAt?, hat]
      rw [hfind] at entered
      simp only [bind, Except.bind, hid] at entered
      exact (Except.ok.inj entered).symm

end Files

/-- A process in the same files that goes to the path of an open working directory gets into that
directory, wherever it comes from. -/
theorem Machine.changeDir_currentDir {m back : Machine} {path : Bytes}
    (legal : m.files.root.Legal) (h : m.currentDir = .ok path) (entered : m.changeDir path = .ok back)
    (cwd : DirId) : Machine.changeDir { m with cwd := cwd } path = .ok m := by
  obtain ⟨id, hfound, -⟩ := changeDir_eq_ok entered
  obtain rfl : id = m.cwd := Files.findDirectory_pathOf legal h hfound
  have hsame : m.files.find true cwd path = m.files.find true m.cwd path :=
    Files.find_of_head? (Files.head?_of_pathOf h) true cwd m.cwd
  rw [Files.findDirectory, ← hsame, ← Files.findDirectory] at hfound
  rw [changeDir, hfound]
  rfl

end BenchHarness
