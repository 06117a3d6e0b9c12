import BenchHarness.Proofs.Resolution
import BenchHarness.Proofs.Skips

/-!
# Where tests are run

What discovery sees below a root is a picture of the files there (`Files.leads_snapshot`), and the paths
of the tests it finds say where they lie: whoever goes to the working directory of a test and takes its
file name gets the file that was discovered, however the root is spelled (`TestList.discover_placed`).
-/

namespace BenchHarness

open Discovery

theorem Tree.Leads.of_nil {tree node : Tree} (leads : tree.Leads [] node) : node = tree := by
  cases leads
  rfl

theorem Tree.Leads.of_cons {tree node : Tree} {name : Bytes} {names : List Bytes}
    (leads : tree.Leads (name :: names) node) :
    ∃ children inner, tree = .directory children ∧ (name, inner) ∈ children ∧ inner.Leads names node := by
  cases leads with
  | child mem leads => exact ⟨_, _, rfl, mem, leads⟩

theorem Tree.Leads.children_ne_nil {children : List (Bytes × Tree)} {names : List Bytes} {node : Tree}
    (leads : (Tree.directory children).Leads names node) (more : names ≠ []) : children ≠ [] := by
  cases leads with
  | here => exact absurd rfl more
  | child mem leads => exact List.ne_nil_of_mem mem

namespace Files

variable {files : Files} {base : DirId}

theorem length_le_of_listed {path : Bytes} {id : DirId}
    (listed : files.listingError path id = none) : path.length ≤ Route.maxLength := by
  unfold listingError at listed
  split at listed
  · cases listed
  · rename_i short
    exact Nat.not_lt.mp short

/-- What a snapshot shows at the end of some names is the snapshot of what the names lead to; the paths of
all directories on the way were short enough to read them. -/
theorem leads_snapshot {names : List Bytes} {tree : Tree} :
    ∀ {node : Node} {path : Bytes}, node.Legal → (files.snapshot base path node).Leads names tree →
      ∃ inner, node.at? names = some inner ∧
        tree = files.snapshot base (names.foldl childPath path) inner ∧
        ∀ dir last, names = dir ++ [last] → (dir.foldl childPath path).length ≤ Route.maxLength := by
  induction names with
  | nil =>
    intro node path _ leads
    exact ⟨node, rfl, leads.of_nil, fun dir last h => absurd h (by simp)⟩
  | cons name rest ih =>
    intro node path legal leads
    obtain ⟨children, inner, hview, mem, leads⟩ := leads.of_cons
    cases legal with
    | @directory id inside legalNames distinct nodes =>
      rw [snapshot] at hview
      split at hview
      · cases hview
      · rename_i listed
        obtain rfl := Tree.directory.inj hview
        rw [snapshotEach_eq, List.mem_map] at mem
        obtain ⟨⟨found, node⟩, hnode, ⟨⟩⟩ := mem
        obtain ⟨inner, hinner, htree, hshort⟩ := ih (nodes _ hnode) leads
        refine ⟨inner, ?_, htree, ?_⟩
        · rw [Node.at?, Node.child?, Node.children, lookup_of_mem distinct hnode]
          exact hinner
        · intro dir last h
          cases dir with
          -- the directory itself could be read
          | nil => exact length_le_of_listed listed
          | cons first dir =>
            obtain ⟨rfl, hrest⟩ := List.cons.inj h
            exact hshort dir last hrest
    | _ => cases hview

/-- A root that turns out to be a directory is one in the tree of files, unless nothing is in it. -/
theorem rootView_eq_directory {root : String} {viaLink : Bool} {children : List (Bytes × Tree)}
    (h : files.rootView base root = .directory viaLink children) (nonempty : children ≠ []) :
    ∃ trail node, files.find true base (Utf8.encode root) = .ok (.directory (.linked trail)) ∧
      files.root.at? trail = some node ∧
      files.snapshot base (Utf8.encode root) node = .directory children := by
  unfold rootView at h
  simp only [] at h
  split at h
  · cases h
  · cases h
  · rename_i id inside hnode
    split at h
    · cases h
    rename_i listed
    obtain ⟨-, rfl⟩ := RootView.directory.inj h
    obtain ⟨found, hfind, hnode⟩ := findNode_eq_ok_iff.mp hnode
    have noLeaf : ∀ trail name, found ≠ .leaf trail name (.directory id inside) :=
      find_induct (P := fun found => ∀ trail name, found ≠ .leaf trail name (.directory id inside))
        (by simp) (by simp) (fun _ _ node _ noDirectory trail name h =>
          noDirectory id inside (Found.leaf.inj h).2.2) hfind
    cases found with
    | leaf trail name node =>
      obtain rfl : node = .directory id inside := Except.ok.inj hnode
      exact absurd rfl (noLeaf trail name)
    | vacant trail name => cases hnode
    | directory place =>
      cases place with
      | removed other =>
        -- what has been removed is still a directory, with nothing in it
        obtain ⟨-, rfl⟩ := Node.directory.inj (Except.ok.inj hnode)
        exact absurd rfl nonempty
      | linked trail =>
        refine ⟨trail, _, hfind, nodeAt_linked_eq_ok_iff.mp hnode, ?_⟩
        rw [snapshot, listed]
  · cases h

/-- A directory that has an identity of its own can be entered where it is found. -/
theorem findDirectory_of_find {path : Bytes} {trail : List Bytes} {id : DirId}
    {inside : List (Bytes × Node)} (found : files.find true base path = .ok (.directory (.linked trail)))
    (hat : files.root.at? trail = some (.directory id inside)) :
    files.findDirectory base path = .ok id := by
  simp only [findDirectory, found, idAt?, hat, bind, Except.bind, pure, Except.pure]

theorem Regular.placeOf_eq (regular : files.Regular) {trail : List Bytes} {id : DirId}
    {inside : List (Bytes × Node)} (hat : files.root.at? trail = some (.directory id inside)) :
    files.placeOf id = .linked trail := by
  rw [placeOf, Node.locate_of_at? regular.legal regular.distinct hat]

/-- From inside the directory that a path goes through, the name at its end leads to the same node. -/
theorem findNode_here {path : Bytes} {trail dir : List Bytes} {name : Bytes}
    (found : files.find true base path = .ok (.directory (.linked trail)))
    (legal : ∀ n ∈ dir ++ [name], FileName n) (takes : ∀ n ∈ dir ++ [name], Route.Takes n)
    {id : DirId} {inside : List (Bytes × Node)}
    (target : files.root.at? (trail ++ dir) = some (.directory id inside))
    (located : files.placeOf id = .linked (trail ++ dir)) {node : Node}
    (h : files.findNode true base ((dir ++ [name]).foldl childPath path) = .ok node) :
    files.findNode true id (Route.here ++ Route.slash :: name) = .ok node := by
  obtain ⟨below, hbelow, hnode⟩ := findNode_eq_ok_iff.mp h
  obtain ⟨left, hle, hwalk⟩ := walk_of_find found legal (by simp) hbelow
  obtain ⟨deeper, hleft⟩ := exists_walkWith files true left
  have hlegal : ∀ n ∈ dir, FileName n := fun n hn => legal n (List.mem_append_left _ hn)
  have htakes : ∀ n ∈ dir, Route.Takes n := fun n hn => takes n (List.mem_append_left _ hn)
  rw [hleft, walkWith_down hlegal htakes [name] trail ⟨id, inside, target⟩, ← hleft] at hwalk
  have hhere : files.find true id (Route.here ++ Route.slash :: name) = .ok below :=
    (find_here_iff located (legal name (by simp)) (takes name (by simp))).mpr (walk_mono hle hwalk)
  exact findNode_eq_ok_iff.mpr ⟨below, hhere, hnode⟩

/-- What a snapshot shows as a file is one, or a link to one. -/
theorem isFile_snapshot {path : Bytes} {node : Node} (file : (files.snapshot base path node).IsFile) :
    (∃ mode content, node = .file mode content) ∨ (∃ name, node = .program name) ∨
      ∃ target, node = .link target ∧ files.isFile base path = true := by
  cases node with
  | directory id children =>
    rw [snapshot] at file
    split at file <;> simp [Tree.IsFile] at file
  | link target => simpa [snapshot, Tree.IsFile] using file
  | file mode content => simp
  | program name => simp
  | _ => simp [snapshot, Tree.IsFile] at file

/-- A file that is seen below a directory lies in a directory, whose path the system takes. -/
theorem exists_of_leads (regular : files.Regular) {trail dir : List Bytes} {name path : Bytes}
    {top : Node} (hat : files.root.at? trail = some top) {tree : Tree}
    (leads : (files.snapshot base path top).Leads (dir ++ [name]) tree) :
    ∃ id inside node, files.root.at? (trail ++ dir) = some (.directory id inside) ∧
      files.root.at? (trail ++ dir ++ [name]) = some node ∧
      (∀ n ∈ dir ++ [name], Route.Takes n) ∧
      tree = files.snapshot base ((dir ++ [name]).foldl childPath path) node ∧
      (dir.foldl childPath path).length ≤ Route.maxLength := by
  obtain ⟨node, hnode, htree, short⟩ := leads_snapshot (regular.legal.at? trail hat) leads
  have hlies : files.root.at? (trail ++ (dir ++ [name])) = some node := by
    rw [Node.at?_append, hat]
    exact hnode
  have takes : ∀ n ∈ dir ++ [name], Route.Takes n :=
    fun n hn => regular.named.of_at? hlies n (List.mem_append_right trail hn)
  rw [← List.append_assoc] at hlies
  obtain ⟨outer, houter, hchild⟩ := Option.bind_eq_some_iff.mp (Node.at?_append .. ▸ hlies)
  rw [congrFun (Node.at?_singleton name)] at hchild
  obtain ⟨id, inside, rfl⟩ := Node.exists_directory_of_child? hchild
  exact ⟨id, inside, node, houter, hlies, takes, htree, short dir name rfl⟩

end Files

/-! ## Tests in file systems -/

/-- Where the test is in a file system. What its working directory and its file name come to is what its
names lead to from the root, with `id` for the directory, and `node` for the test itself. -/
structure Entry.Addresses (e : Entry) (files : Files) (base : DirId) (root : String)
    (trail : List Bytes) (id : DirId) (node : Node) : Prop where
  found : files.find true base (Utf8.encode root) = .ok (.directory (.linked trail))
  lies : files.root.at? (trail ++ e.steps) = some node
  entered : files.findDirectory base (Utf8.encode (e.workingDir root)) = .ok id
  inside : files.placeOf id = .linked (trail ++ e.steps.dropLast)
  /-- The name leads to the test itself, which may be a link. -/
  addressed : files.find false id (Utf8.encode ("./" ++ e.fileName)) =
    .ok (.leaf (trail ++ e.steps.dropLast) (Utf8.encode e.fileName) node)
  /-- It leads to a file, the one that the path of the test leads to. -/
  runs : files.isFile id (Utf8.encode ("./" ++ e.fileName)) = true
  same : ∀ file, files.findNode true base (walkedPath root e.steps) = .ok file →
    files.findNode true id (Utf8.encode ("./" ++ e.fileName)) = .ok file

/-- A file that is seen below a root is addressed by its working directory and its name. -/
theorem Entry.addresses {files : Files} (regular : files.Regular) {base : DirId} {root : String}
    {trail : List Bytes} {top : Node}
    (found : files.find true base (Utf8.encode root) = .ok (.directory (.linked trail)))
    (hat : files.root.at? trail = some top) {dir : List String} {last : String} {tree : Tree}
    (legal : ∀ text ∈ dir ++ [last], FileName (Utf8.encode text))
    (leads : (files.snapshot base (Utf8.encode root) top).Leads ((dir ++ [last]).map Utf8.encode) tree)
    (file : tree.IsFile) :
    ∃ id node, tree = files.snapshot base (walkedPath root ((dir ++ [last]).map Utf8.encode)) node ∧
      Entry.Addresses ⟨"/".intercalate (dir ++ [last])⟩ files base root trail id node := by
  have hsteps : Entry.steps ⟨"/".intercalate (dir ++ [last])⟩ =
      dir.map Utf8.encode ++ [Utf8.encode last] :=
    (steps_eq (List.forall_mem_map.mpr legal)
      (relativePath?_of_mapM (mapM_decode?_encode (dir ++ [last])))).trans List.map_append
  have hhere : Utf8.encode ("./" ++ last) = Route.here ++ Route.slash :: Utf8.encode last := by
    rw [Utf8.encode_append]
    rfl
  have hlegal := List.forall_mem_map.mpr legal
  rw [List.map_append, List.map_singleton] at leads hlegal ⊢
  have hlast := hlegal (Utf8.encode last) (by simp)
  obtain ⟨id, inside, node, hdir, hnode, takes, rfl, short⟩ := Files.exists_of_leads regular hat leads
  have located := regular.placeOf_eq hdir
  -- the test may be a link, which is followed from here as it was from the root
  have same : ∀ file, files.findNode true base
      (walkedPath root (dir.map Utf8.encode ++ [Utf8.encode last])) = .ok file →
      files.findNode true id (Route.here ++ Route.slash :: Utf8.encode last) = .ok file :=
    fun file h => Files.findNode_here found hlegal takes hdir located h
  have hfile := Files.isFile_snapshot file
  refine ⟨id, node, rfl, ?_⟩
  constructor
  case found => exact found
  case lies => rwa [hsteps, ← List.append_assoc]
  case entered =>
    rw [Entry.encode_workingDir legal]
    refine Files.findDirectory_of_find (Files.find_below found ?_ ?_ ⟨id, inside, hdir⟩ short) hdir
    · exact fun name hname => hlegal name (List.mem_append_left _ hname)
    · exact fun name hname => takes name (List.mem_append_left _ hname)
  case inside => rwa [hsteps, List.dropLast_concat]
  case addressed =>
    rw [Entry.fileName_eq legal, hhere, hsteps, List.dropLast_concat]
    refine Files.find_here located hlast (takes _ (by simp)) hnode ?_ (fun h => by cases h)
    rcases hfile with ⟨mode, content, rfl⟩ | ⟨name, rfl⟩ | ⟨target, rfl, -⟩ <;> simp
  case runs =>
    rw [Entry.fileName_eq legal, hhere]
    rw [Files.isFile_iff]
    rcases hfile with ⟨mode, content, rfl⟩ | ⟨name, rfl⟩ | ⟨target, rfl, leadsToFile⟩
    · exact ⟨_, Files.findNode_of_leaf (Files.find_here located hlast (takes _ (by simp)) hnode
        (by simp) (by simp)), .inl ⟨mode, content, rfl⟩⟩
    · exact ⟨_, Files.findNode_of_leaf (Files.find_here located hlast (takes _ (by simp)) hnode
        (by simp) (by simp)), .inr ⟨name, rfl⟩⟩
    · obtain ⟨node, hnode, isFile⟩ := Files.isFile_iff.mp leadsToFile
      exact ⟨node, same node hnode, isFile⟩
  case same =>
    rw [Entry.fileName_eq legal, hhere, hsteps]
    exact same

/-- Every test lies where its path says: it has the entry point's name, its path is that of its directory
and the name, by names only, and its working directory is its directory below the root. So in the files
that a root was seen in, its file name in its working directory is that of the very file that was
discovered. -/
theorem TestList.discover_placed (c : Classifier) (root : String) (viaLink : Bool)
    {children : List (Bytes × Tree)} (legal : (Tree.directory children).Legal) :
    ∃ entries notes,
      TestList.discover c root (.directory viaLink children) = .ok (⟨root, entries⟩, notes) ∧
      ∀ e ∈ entries, e.Placed root c.entryPoint ∧
        ∀ files base, Files.Regular files → files.rootView base root = .directory viaLink children →
          ∃ trail id node, e.Addresses files base root trail id node ∧
            (Tree.directory children).Leads e.steps
              (files.snapshot base (walkedPath root e.steps) node) := by
  refine ⟨_, _, rfl, fun e he => ?_⟩
  have hpath := List.mem_map_of_mem (f := Entry.path) he
  rw [search_entries c root viaLink legal, mem_entries_iff c _ legal] at hpath
  obtain ⟨names, tree, texts, leads, file, htexts, heq, -, -, hlast⟩ := hpath
  obtain ⟨dir, rfl⟩ := List.getLast?_eq_some_iff.mp hlast
  obtain rfl : e = ⟨"/".intercalate (dir ++ [c.entryPoint])⟩ := congrArg Entry.mk heq
  obtain rfl : (dir ++ [c.entryPoint]).map Utf8.encode = names := map_encode_of_mapM htexts
  have hlegal := fileNames_of_mapM (leads.fileNames legal) htexts
  refine ⟨Entry.placed hlegal root, fun files base regular view => ?_⟩
  obtain ⟨trail, top, found, hat, hview⟩ :=
    Files.rootView_eq_directory view (leads.children_ne_nil (by simp))
  have hsteps : Entry.steps ⟨"/".intercalate (dir ++ [c.entryPoint])⟩ =
      (dir ++ [c.entryPoint]).map Utf8.encode :=
    steps_eq (leads.fileNames legal) (relativePath?_of_mapM htexts)
  rw [← hview] at leads
  obtain ⟨id, node, rfl, addresses⟩ := Entry.addresses regular found hat hlegal leads file
  rw [hview, ← hsteps] at leads
  exact ⟨trail, id, node, addresses, leads⟩

/-- The root is spelled in a roundabout way, and the test is a link to a file outside it. -/
theorem TestList.discover_placed_of_roundabout_root :
    let test : Node := .link [0x2e, 0x2e, 0x2f, 0x2e, 0x2e, 0x2f, 0x74]
    let inner : Node := .directory 2 [([0x67, 0x6f], test)]
    let files : Files :=
      ⟨.directory 0 [([0x74], .file 0o755 []), ([0x77], .directory 1 [([0x73], inner)])], [], 3, []⟩
    let root := "w//./../w/."
    let e : Entry := ⟨"s/go"⟩
    (∃ notes, TestList.discover ⟨fun _ => false, fun _ => true, "go"⟩ root (files.rootView 0 root) =
      .ok (⟨root, [e]⟩, notes)) ∧
    e.Placed root "go" ∧ e.workingDir root = "w//./../w/./s" ∧
    ∃ trail id, e.Addresses files 0 root trail id test := by
  intro test inner files root e
  let c : Classifier := ⟨fun _ => false, fun _ => true, "go"⟩
  let children : List (Bytes × Tree) := [([0x73], .directory [([0x67, 0x6f], .link true)])]
  have hroot : Utf8.encode root =
      [0x77, 0x2f, 0x2f, 0x2e, 0x2f, 0x2e, 0x2e, 0x2f, 0x77, 0x2f, 0x2e] := by decide +kernel
  have view : files.rootView 0 root = .directory false children := by
    unfold Files.rootView
    rw [hroot]
    rfl
  have find : files.find true 0 (Utf8.encode root) = .ok (.directory (.linked [[0x77]])) := by
    rw [hroot]
    rfl
  have regular : files.Regular := by
    constructor
    case legal =>
      have legalInner : inner.Legal := .directory (by decide) (by decide) (by simpa using .link _)
      have legalOuter : (Node.directory 1 [([0x73], inner)]).Legal :=
        .directory (by decide) (by decide) (by simpa using legalInner)
      exact .directory (by decide) (by decide) (by simpa using ⟨.file _ _, legalOuter⟩)
    case named =>
      have namedInner : inner.Named := .directory (by decide) (by simpa using .leaf (by simp [test]))
      have namedOuter : (Node.directory 1 [([0x73], inner)]).Named :=
        .directory (by decide) (by simpa using namedInner)
      exact .directory (by decide) (by simpa using ⟨.leaf (by simp), namedOuter⟩)
    case distinct => decide
  have legal := Files.rootView_legal regular.legal view
  obtain ⟨entries, notes, found, placed⟩ := TestList.discover_placed c root false legal
  obtain rfl : [e] = entries := by
    have hentries := (TestList.mk.inj (Prod.mk.inj (Except.ok.inj found)).1).2
    rw [← hentries, Discovery.search_entries c root false legal]
    decide +kernel
  obtain ⟨hplaced, addressed⟩ := placed e List.mem_cons_self
  obtain ⟨trail, id, node, addresses, -⟩ := addressed files 0 regular view
  obtain rfl : [[0x77]] = trail := by
    have same := find.symm.trans addresses.found
    cases same
    rfl
  have hsteps : e.steps = [[0x73], [0x67, 0x6f]] := by decide +kernel
  obtain rfl : test = node := by
    have lies := addresses.lies
    rw [hsteps] at lies
    exact Option.some.inj lies
  exact ⟨⟨notes, view ▸ found⟩, hplaced, by decide +kernel, _, id, addresses⟩

end BenchHarness
