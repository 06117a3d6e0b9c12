import BenchHarness.Proofs.PathLookup
import BenchHarness.Proofs.Walk

/-!
# Snapshots of file systems

In a legal file system a directory has names that can stand in a path, each of them once
(`Node.Legal`). Whatever a path leads to in it is legal again (`Files.findNode_legal`), and so is the
tree that discovery sees below a root (`Files.rootView_legal`).
-/

namespace BenchHarness

/-- The names in a directory are names and no two of them are equal, all the way down. -/
inductive Node.Legal : Node → Prop where
  | file (mode : Nat) (content : Bytes) : Legal (.file mode content)
  | program (name : String) : Legal (.program name)
  | link (target : Bytes) : Legal (.link target)
  | pipe : Legal .pipe
  | device (d : Device) : Legal (.device d)
  | directory {id : DirId} {children : List (Bytes × Node)}
      (names : ∀ child ∈ children, FileName child.1) (distinct : (children.map (·.1)).Nodup)
      (nodes : ∀ child ∈ children, Legal child.2) : Legal (.directory id children)

namespace Node.Legal

variable {n found : Node}

theorem of_mem_children (legal : n.Legal) {name : Bytes} (h : (name, found) ∈ n.children) :
    found.Legal := by
  cases legal with
  | directory names distinct nodes => exact nodes _ h
  | _ => simp [Node.children] at h

theorem child? (legal : n.Legal) {name : Bytes} (h : n.child? name = some found) :
    found.Legal := by
  obtain ⟨before, after, hchildren, -⟩ := List.lookup_eq_some_iff.mp h
  exact legal.of_mem_children (hchildren ▸ List.mem_append_right before List.mem_cons_self)

theorem at? (legal : n.Legal) (names : List Bytes) (h : n.at? names = some found) :
    found.Legal := by
  induction names generalizing n with
  | nil =>
    obtain rfl : n = found := Option.some.inj h
    exact legal
  | cons name rest ih =>
    obtain ⟨inner, hinner, hrest⟩ := Option.bind_eq_some_iff.mp h
    exact ih (legal.child? hinner) hrest

end Node.Legal

/-- What a path leads to is legal; a directory is so by its place. -/
def Found.Legal : Found → Prop
  | .leaf _ _ node => node.Legal
  | .directory _ | .vacant _ _ => True

namespace Files

variable {files : Files}

/-! ## What paths lead to -/

section

variable {P : Found → Prop} (directory : ∀ place, P (.directory place))
  (vacant : ∀ trail name, P (.vacant trail name))
  (leaf : ∀ trail name node, files.childAt? (.linked trail) name = some node →
    (∀ id children, node ≠ .directory id children) → P (.leaf trail name node))

include directory vacant leaf

theorem walkWith_induct {deeper : Place → List Bytes → Except IoError Found} (follow : Bool)
    (hdeeper : ∀ place steps found, deeper place steps = .ok found → P found)
    (steps : List Bytes) :
    ∀ {place : Place} {found : Found},
      files.walkWith deeper follow place steps = .ok found → P found := by
  induction steps with
  | nil =>
    intro place found h
    obtain rfl : Found.directory place = found := Except.ok.inj h
    exact directory place
  | cons step rest ih =>
    intro place found h
    rw [walkWith.eq_def] at h
    simp only [] at h
    -- steps that stay or go up first, then names by what they lead to
    split at h
    · exact ih h
    split at h
    · exact ih h
    split at h
    · simp at h
    split at h
    · exact ih h
    · rename_i trail target hchild
      -- a link is found itself, or else followed within fewer links
      split at h
      · obtain rfl : Found.leaf trail step (.link target) = found := Except.ok.inj h
        exact leaf trail step _ hchild (by simp)
      · exact hdeeper _ _ _ h
    · rename_i trail node noDirectory _ hchild
      split at h
      · obtain rfl : Found.leaf trail step node = found := Except.ok.inj h
        exact leaf trail step node hchild noDirectory
      · simp at h
    · rename_i trail hchild
      split at h
      · obtain rfl : Found.vacant trail step = found := Except.ok.inj h
        exact vacant trail step
      · simp at h
    · simp at h

theorem walk_induct (follow : Bool) (links : Nat) :
    ∀ {place : Place} {steps : List Bytes} {found : Found},
      files.walk follow links place steps = .ok found → P found := by
  induction links with
  | zero =>
    intro place steps found h
    exact walkWith_induct directory vacant leaf follow (fun _ _ _ h => by simp at h) steps h
  | succ links ih =>
    intro place steps found h
    exact walkWith_induct directory vacant leaf follow (fun _ _ _ h => ih h) steps h

/-- What a path leads to is a directory, a node in one that is no directory, or a place for one. -/
theorem find_induct {follow : Bool} {base : DirId} {path : Bytes} {found : Found}
    (h : files.find follow base path = .ok found) : P found :=
  walk_induct directory vacant leaf follow maxLinks (find_eq_ok_iff.mp h).2

end

section

variable (legal : files.root.Legal)

include legal

theorem childAt?_legal {place : Place} {name : Bytes} {node : Node}
    (h : files.childAt? place name = some node) : node.Legal := by
  cases place with
  | removed id => simp [childAt?] at h
  | linked trail =>
    obtain ⟨dir, hdir, hchild⟩ := Option.bind_eq_some_iff.mp h
    exact (legal.at? trail hdir).child? hchild

theorem findNode_legal {follow : Bool} {base : DirId} {path : Bytes} {node : Node}
    (h : files.findNode follow base path = .ok node) : node.Legal := by
  obtain ⟨found, hfind, hnode⟩ := findNode_eq_ok_iff.mp h
  have hfound : found.Legal := by
    refine find_induct (P := Found.Legal) (fun _ => trivial) (fun _ _ => trivial) ?_ hfind
    intro trail name node hchild _
    exact childAt?_legal legal hchild
  cases found with
  | leaf trail name leaf =>
    obtain rfl : leaf = node := Except.ok.inj hnode
    exact hfound
  | vacant trail name => cases hnode
  | directory place =>
    cases place with
    | removed id =>
      obtain rfl : Node.directory id [] = node := Except.ok.inj hnode
      exact .directory (by simp) (by simp) (by simp)
    | linked trail => exact legal.at? trail (nodeAt_linked_eq_ok_iff.mp hnode)

end

theorem snapshotEach_eq (files : Files) (base : DirId) (path : Bytes)
    (children : List (Bytes × Node)) :
    files.snapshotEach base path children = children.map fun child =>
      (child.1, files.snapshot base (childPath path child.1) child.2) := by
  induction children with
  | nil => rfl
  | cons child rest ih =>
    rw [snapshotEach, ih]
    rfl

/-- The snapshot of a directory is legal if those of what it holds are. -/
theorem directory_snapshotEach_legal {files : Files} {base : DirId}
    {children : List (Bytes × Node)} (names : ∀ child ∈ children, FileName child.1)
    (distinct : (children.map (·.1)).Nodup)
    (nodes : ∀ child ∈ children, ∀ path, (files.snapshot base path child.2).Legal)
    (path : Bytes) : (Tree.directory (files.snapshotEach base path children)).Legal := by
  rw [snapshotEach_eq]
  refine .directory ?_ ?_ ?_
  · intro child hchild
    obtain ⟨inner, hinner, rfl⟩ := List.mem_map.mp hchild
    exact names inner hinner
  · rw [List.map_map]
    exact distinct
  · intro child hchild
    obtain ⟨inner, hinner, rfl⟩ := List.mem_map.mp hchild
    exact nodes inner hinner _

/-- The snapshot of a legal node is legal. -/
theorem snapshot_legal (files : Files) (base : DirId) {node : Node} (legal : node.Legal) :
    ∀ path, (files.snapshot base path node).Legal := by
  induction legal with
  | file mode content => exact fun path => .file
  | program name => exact fun path => .file
  | link target => exact fun path => .link _
  | pipe => exact fun path => .special
  | device d => exact fun path => .special
  | directory names distinct nodes ih =>
    intro path
    rw [snapshot]
    split
    · exact .unreadable _
    · exact directory_snapshotEach_legal names distinct ih path

/-- What discovery sees below a root of a legal file system is legal. -/
theorem rootView_legal {files : Files} (legal : files.root.Legal) {base : DirId} {root : String}
    {viaLink : Bool} {children : List (Bytes × Tree)}
    (h : files.rootView base root = .directory viaLink children) :
    (Tree.directory children).Legal := by
  unfold rootView at h
  simp only [] at h
  split at h
  · cases h
  · cases h
  · rename_i id inner hnode
    split at h
    · cases h
    · obtain ⟨-, rfl⟩ := RootView.directory.inj h
      cases findNode_legal legal hnode with
      | directory names distinct nodes =>
        exact directory_snapshotEach_legal names distinct
          (fun child hchild => snapshot_legal files base (nodes child hchild)) _
  · cases h

end Files

end BenchHarness
