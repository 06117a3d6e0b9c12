import BenchHarness.Discovery.Tree
import BenchHarness.Proofs.Paths

/-!
# Walks over trees

A walk meets exactly the nodes that directories lead to (`Tree.mem_visitsFrom_iff`), each once and
in the order of their names, name by name (`Tree.pairwise_visitsFrom`); only a directory that cannot
be read is followed by a second visit, the failure to read it.
-/

namespace BenchHarness

/-! ## The order of names -/

theorem nameLe_iff (a b : Bytes) : nameLe a b = true ↔ a = b ∨ a < b := by
  induction a generalizing b with
  | nil =>
    cases b with
    | nil => simp [nameLe]
    | cons y b => simp [nameLe]
  | cons x a ih =>
    cases b with
    | nil => simp [nameLe]
    | cons y b =>
      rw [nameLe, Bool.or_eq_true, Bool.and_eq_true, decide_eq_true_iff, decide_eq_true_iff, ih,
        List.cons_lt_cons_iff, List.cons.injEq]
      constructor
      · rintro (h | ⟨rfl, rfl | h⟩)
        · exact Or.inr (Or.inl h)
        · exact Or.inl ⟨rfl, rfl⟩
        · exact Or.inr (Or.inr ⟨rfl, h⟩)
      · rintro (⟨rfl, rfl⟩ | h | ⟨rfl, h⟩)
        · exact Or.inr ⟨rfl, Or.inl rfl⟩
        · exact Or.inl h
        · exact Or.inr ⟨rfl, Or.inr h⟩

/-- Of two names that are not in order, the other one comes first. -/
theorem lt_of_not_nameLe {a b : Bytes} (h : ¬ nameLe a b = true) : b < a := by
  rw [nameLe_iff, not_or] at h
  rcases Std.lt_trichotomy a b with hlt | heq | hgt
  · exact absurd hlt h.2
  · exact absurd heq h.1
  · exact hgt

section

variable {α : Type}

theorem insertByName_perm (item : Bytes × α) (items : List (Bytes × α)) :
    (insertByName item items).Perm (item :: items) := by
  induction items with
  | nil => exact List.Perm.refl _
  | cons other rest ih =>
    unfold insertByName
    split
    · exact List.Perm.refl _
    · exact (ih.cons other).trans (List.Perm.swap item other rest)

theorem sortByName_perm (items : List (Bytes × α)) : (sortByName items).Perm items := by
  induction items with
  | nil => exact List.Perm.refl _
  | cons item rest ih => exact (insertByName_perm item _).trans (ih.cons item)

/-- Items in strict order stay so when one with a new name is put among them. -/
theorem insertByName_sorted {item : Bytes × α} {items : List (Bytes × α)}
    (sorted : items.Pairwise (·.1 < ·.1)) (fresh : item.1 ∉ items.map (·.1)) :
    (insertByName item items).Pairwise (·.1 < ·.1) := by
  induction items with
  | nil => simp [insertByName]
  | cons other rest ih =>
    rw [List.map_cons, List.mem_cons, not_or] at fresh
    obtain ⟨hother, hrest⟩ := List.pairwise_cons.mp sorted
    unfold insertByName
    by_cases first : nameLe item.1 other.1 = true
    · rw [if_pos first, List.pairwise_cons]
      have hlt : item.1 < other.1 := by
        rcases (nameLe_iff _ _).mp first with heq | hlt
        · exact absurd heq fresh.1
        · exact hlt
      refine ⟨?_, sorted⟩
      intro next hnext
      rcases List.mem_cons.mp hnext with rfl | hnext
      · exact hlt
      · exact List.lt_trans hlt (hother next hnext)
    · rw [if_neg first, List.pairwise_cons]
      refine ⟨?_, ih hrest fresh.2⟩
      intro next hnext
      rcases List.mem_cons.mp ((insertByName_perm item rest).mem_iff.mp hnext) with rfl | hnext
      · exact lt_of_not_nameLe first
      · exact hother next hnext

/-- Items with names of their own are put in strict order. -/
theorem sortByName_sorted {items : List (Bytes × α)} (distinct : (items.map (·.1)).Nodup) :
    (sortByName items).Pairwise (·.1 < ·.1) := by
  induction items with
  | nil => exact List.Pairwise.nil
  | cons item rest ih =>
    obtain ⟨fresh, distinct⟩ := List.nodup_cons.mp distinct
    refine insertByName_sorted (ih distinct) ?_
    show item.1 ∉ (sortByName rest).map (·.1)
    rw [((sortByName_perm rest).map (·.1)).mem_iff]
    exact fresh

end

namespace Tree

/-! ## Trees -/

/-- What holds of a directory if it holds of everything in it, and holds of everything else, holds
of every tree. -/
theorem induct {P : Tree → Prop} (file : P .file) (link : ∀ toFile, P (.link toFile))
    (special : P .special) (unreadable : ∀ error, P (.unreadable error))
    (directory : ∀ children : List (Bytes × Tree), (∀ child ∈ children, P child.2) →
      P (.directory children)) :
    ∀ tree, P tree
  | .file => file
  | .link toFile => link toFile
  | .special => special
  | .unreadable error => unreadable error
  | .directory children => directory children fun child _ =>
    induct file link special unreadable directory child.2
termination_by tree => sizeOf tree
decreasing_by
  rename_i hchild
  have hlt := List.sizeOf_lt_of_mem hchild
  have hpair : sizeOf child.2 < sizeOf child := by
    obtain ⟨name, node⟩ := child
    show sizeOf node < sizeOf (name, node)
    rw [Prod.mk.sizeOf_spec]
    omega
  rw [Tree.directory.sizeOf_spec]
  omega

/-- The names in a directory are names and no two of them are equal, all the way down. -/
inductive Legal : Tree → Prop where
  | file : Legal .file
  | link (toFile : Bool) : Legal (.link toFile)
  | special : Legal .special
  | unreadable (error : IoError) : Legal (.unreadable error)
  | directory {children : List (Bytes × Tree)} (names : ∀ child ∈ children, FileName child.1)
      (distinct : (children.map (·.1)).Nodup) (nodes : ∀ child ∈ children, Legal child.2) :
      Legal (.directory children)

/-- Some names lead from a node to another, through directories that can be read. -/
inductive Leads : Tree → List Bytes → Tree → Prop where
  | here (tree : Tree) : Leads tree [] tree
  | child {children : List (Bytes × Tree)} {name : Bytes} {names : List Bytes} {inner node : Tree}
      (mem : (name, inner) ∈ children) (leads : Leads inner names node) :
      Leads (.directory children) (name :: names) node

theorem Leads.fileNames {tree node : Tree} {names : List Bytes} (leads : tree.Leads names node)
    (legal : tree.Legal) : ∀ name ∈ names, FileName name := by
  induction leads with
  | here tree => simp
  | child mem leads ih =>
    cases legal with
    | directory legalNames distinct nodes =>
      intro name hname
      rcases List.mem_cons.mp hname with rfl | hname
      · exact legalNames _ mem
      · exact ih (nodes _ mem) name hname

/-- What a walk meets at a node itself. -/
def kinds : Tree → List NodeKind
  | .file => [.file]
  | .link toFile => [.link toFile]
  | .special => [.special]
  | .unreadable error => [.directory, .failure error]
  | .directory _ => [.directory]

theorem file_mem_kinds {tree : Tree} : NodeKind.file ∈ tree.kinds ↔ tree = .file := by
  cases tree <;> simp [kinds]

theorem link_mem_kinds {tree : Tree} {toFile : Bool} :
    NodeKind.link toFile ∈ tree.kinds ↔ tree = .link toFile := by
  cases tree <;> simp [kinds, eq_comm]

theorem failure_mem_kinds {tree : Tree} {error : IoError} :
    NodeKind.failure error ∈ tree.kinds ↔ tree = .unreadable error := by
  cases tree <;> simp [kinds, eq_comm]

/-- A file is met where there is one, or a link to one. -/
theorem exists_file_mem_kinds {tree : Tree} :
    (∃ kind ∈ tree.kinds, kind = .file ∨ kind = .link true) ↔
      tree = .file ∨ tree = .link true := by
  constructor
  · rintro ⟨kind, hkind, rfl | rfl⟩
    · exact Or.inl (file_mem_kinds.mp hkind)
    · exact Or.inr (link_mem_kinds.mp hkind)
  · rintro (rfl | rfl)
    · exact ⟨.file, List.mem_singleton.mpr rfl, Or.inl rfl⟩
    · exact ⟨.link true, List.mem_singleton.mpr rfl, Or.inr rfl⟩

/-- A node is met as itself before a failure to read it. -/
theorem exists_mem_kinds (tree : Tree) :
    ∃ kind ∈ tree.kinds, ∀ error, kind ≠ .failure error := by
  cases tree <;> simp [kinds]

/-! ## What a walk meets -/

/-- The walk over what a directory holds, if some names lead to the directory. -/
def visitsIn (names : List Bytes) (children : List (Bytes × Tree)) : List Visit :=
  (sortByName (visitsOfEach names children)).flatMap (·.2)

theorem visitsFrom_directory (names : List Bytes) (children : List (Bytes × Tree)) :
    visitsFrom names (.directory children) = ⟨names, .directory⟩ :: visitsIn names children := rfl

theorem visitsOfEach_eq (names : List Bytes) (children : List (Bytes × Tree)) :
    visitsOfEach names children =
      children.map fun child => (child.1, visitsFrom (names ++ [child.1]) child.2) := by
  induction children with
  | nil => rfl
  | cons child rest ih =>
    rw [visitsOfEach, ih]
    rfl

theorem mem_visitsIn {names : List Bytes} {children : List (Bytes × Tree)} {v : Visit} :
    v ∈ visitsIn names children ↔
      ∃ child ∈ children, v ∈ visitsFrom (names ++ [child.1]) child.2 := by
  rw [visitsIn, List.mem_flatMap]
  simp only [(sortByName_perm _).mem_iff, visitsOfEach_eq, List.mem_map]
  constructor
  · rintro ⟨_, ⟨child, hchild, rfl⟩, hv⟩
    exact ⟨child, hchild, hv⟩
  · rintro ⟨child, hchild, hv⟩
    exact ⟨_, ⟨child, hchild, rfl⟩, hv⟩

/-- The visits to a node and to what it leads to, when some names lead to it. -/
def Meets (tree : Tree) (names : List Bytes) (v : Visit) : Prop :=
  ∃ below node, tree.Leads below node ∧ v.names = names ++ below ∧ v.kind ∈ node.kinds

theorem meets_leaf (tree : Tree) (leaf : ∀ children, tree ≠ .directory children)
    (names : List Bytes) (v : Visit) :
    tree.Meets names v ↔ v ∈ tree.kinds.map (⟨names, ·⟩) := by
  rw [List.mem_map]
  constructor
  · rintro ⟨below, node, leads, hnames, hkind⟩
    cases leads with
    | child mem leads => exact absurd rfl (leaf _)
    | here => exact ⟨v.kind, hkind, by rw [← List.append_nil names, ← hnames]⟩
  · rintro ⟨kind, hkind, rfl⟩
    exact ⟨[], tree, .here tree, (List.append_nil names).symm, hkind⟩

theorem meets_directory (children : List (Bytes × Tree)) (names : List Bytes) (v : Visit) :
    (Tree.directory children).Meets names v ↔ v = ⟨names, .directory⟩ ∨
      ∃ child ∈ children, child.2.Meets (names ++ [child.1]) v := by
  constructor
  · rintro ⟨below, node, leads, hnames, hkind⟩
    cases leads with
    | here =>
      left
      obtain ⟨vnames, vkind⟩ := v
      simp only [kinds, List.mem_singleton] at hkind
      simp_all
    | child mem leads =>
      right
      refine ⟨_, mem, _, node, leads, ?_, hkind⟩
      rw [hnames, List.append_assoc]
      rfl
  · rintro (rfl | ⟨child, hchild, below, node, leads, hnames, hkind⟩)
    · exact ⟨[], _, .here _, (List.append_nil names).symm, List.mem_singleton.mpr rfl⟩
    · refine ⟨child.1 :: below, node, .child hchild leads, ?_, hkind⟩
      rw [hnames, List.append_assoc]
      rfl

/-- A walk meets the node it starts from, and whatever that leads to. -/
theorem mem_visitsFrom_iff (tree : Tree) :
    ∀ {names : List Bytes} {v : Visit}, v ∈ visitsFrom names tree ↔ tree.Meets names v := by
  induction tree using induct with
  | file =>
    intro names v
    exact (meets_leaf .file (by simp) names v).symm
  | link toFile =>
    intro names v
    exact (meets_leaf (.link toFile) (by simp) names v).symm
  | special =>
    intro names v
    exact (meets_leaf .special (by simp) names v).symm
  | unreadable error =>
    intro names v
    exact (meets_leaf (.unreadable error) (by simp) names v).symm
  | directory children ih =>
    intro names v
    rw [visitsFrom_directory, List.mem_cons, mem_visitsIn, meets_directory]
    refine or_congr_right ⟨?_, ?_⟩
    · rintro ⟨child, hchild, hv⟩
      exact ⟨child, hchild, (ih child hchild).mp hv⟩
    · rintro ⟨child, hchild, hv⟩
      exact ⟨child, hchild, (ih child hchild).mpr hv⟩

/-- A walk over a root meets nodes by their names only. -/
theorem fileNames_of_mem_visits {tree : Tree} (legal : tree.Legal) :
    ∀ v ∈ visitsFrom [] tree, ∀ name ∈ v.names, FileName name := by
  intro v hv
  obtain ⟨below, node, leads, hnames, -⟩ := (mem_visitsFrom_iff tree).mp hv
  rw [hnames]
  exact leads.fileNames legal

/-! ## The order of a walk -/

/-- A visit comes later in the order of a walk: its names are later, or it is the failure to read
the directory that was just met. -/
def Later (v v' : Visit) : Prop :=
  v.names < v'.names ∨ (v.names = v'.names ∧ ∃ error, v'.kind = .failure error)

theorem names_of_mem_visitsFrom {tree : Tree} {names : List Bytes} {v : Visit}
    (hv : v ∈ visitsFrom names tree) : ∃ below, v.names = names ++ below := by
  obtain ⟨below, node, -, hnames, -⟩ := (mem_visitsFrom_iff tree).mp hv
  exact ⟨below, hnames⟩

/-- Visits to different entries of a directory are in the order of the entries' names. -/
theorem names_lt_of_lt {names : List Bytes} {child other : Bytes × Tree} (hlt : child.1 < other.1)
    {v v' : Visit} (hv : v ∈ visitsFrom (names ++ [child.1]) child.2)
    (hv' : v' ∈ visitsFrom (names ++ [other.1]) other.2) : v.names < v'.names := by
  obtain ⟨below, hbelow⟩ := names_of_mem_visitsFrom hv
  obtain ⟨below', hbelow'⟩ := names_of_mem_visitsFrom hv'
  rw [hbelow, hbelow', List.append_assoc, List.append_assoc]
  exact List.append_left_lt (List.cons_lt_cons_iff.mpr (Or.inl hlt))

/-- Everything in a directory is visited after the directory. -/
theorem lt_names_of_mem_visitsIn {names : List Bytes} {children : List (Bytes × Tree)} {v : Visit}
    (hv : v ∈ visitsIn names children) : names < v.names := by
  obtain ⟨child, -, hchild⟩ := mem_visitsIn.mp hv
  obtain ⟨below, hbelow⟩ := names_of_mem_visitsFrom hchild
  have hlt : names ++ [] < names ++ child.1 :: below :=
    List.append_left_lt (List.nil_lt_cons child.1 below)
  rw [List.append_nil] at hlt
  rw [hbelow, List.append_assoc]
  exact hlt

section

variable {R : Visit → Visit → Prop} (later : ∀ v v', v.names < v'.names → R v v')

include later

/-- A walk over a directory is in order if those over its entries are. -/
theorem pairwise_visitsIn {children : List (Bytes × Tree)} {names : List Bytes}
    (distinct : (children.map (·.1)).Nodup)
    (inner : ∀ child ∈ children, (visitsFrom (names ++ [child.1]) child.2).Pairwise R) :
    (visitsIn names children).Pairwise R := by
  have hkeys : ((visitsOfEach names children).map (·.1)).Nodup := by
    rw [visitsOfEach_eq, List.map_map]
    exact distinct
  have hblock : ∀ block ∈ sortByName (visitsOfEach names children), ∃ child ∈ children,
      block = (child.1, visitsFrom (names ++ [child.1]) child.2) := by
    intro block hmem
    rw [(sortByName_perm _).mem_iff, visitsOfEach_eq, List.mem_map] at hmem
    obtain ⟨child, hchild, rfl⟩ := hmem
    exact ⟨child, hchild, rfl⟩
  rw [visitsIn, List.pairwise_flatMap]
  -- a flattened list is in order if its blocks are, and if each block comes before the later ones
  constructor
  · intro block hmem
    obtain ⟨child, hchild, rfl⟩ := hblock block hmem
    exact inner child hchild
  · refine (sortByName_sorted hkeys).imp_of_mem ?_
    intro block block' hmem hmem' hlt v hv v' hv'
    obtain ⟨child, -, rfl⟩ := hblock block hmem
    obtain ⟨child', -, rfl⟩ := hblock block' hmem'
    exact later v v' (names_lt_of_lt hlt hv hv')

/-- A walk is in any order that puts later names later, and the failure to read a directory after the
directory. -/
theorem pairwise_visitsFrom_of {tree : Tree} (legal : tree.Legal)
    (failed : ∀ names error, R ⟨names, .directory⟩ ⟨names, .failure error⟩) :
    ∀ names, (visitsFrom names tree).Pairwise R := by
  induction legal with
  | file => simp [visitsFrom]
  | link toFile => simp [visitsFrom]
  | special => simp [visitsFrom]
  | unreadable error =>
    intro names
    simp [visitsFrom, failed]
  | directory legalNames distinct nodes ih =>
    intro names
    rw [visitsFrom_directory, List.pairwise_cons]
    refine ⟨fun v hv => later _ v (lt_names_of_mem_visitsIn hv), pairwise_visitsIn later distinct ?_⟩
    intro child hchild
    exact ih child hchild _

end

/-- A walk goes on to later and later nodes. -/
theorem pairwise_visitsFrom {tree : Tree} (legal : tree.Legal) (names : List Bytes) :
    (visitsFrom names tree).Pairwise Later :=
  pairwise_visitsFrom_of (fun _ _ => Or.inl) legal (fun _ error => Or.inr ⟨rfl, error, rfl⟩) names

end Tree

end BenchHarness
