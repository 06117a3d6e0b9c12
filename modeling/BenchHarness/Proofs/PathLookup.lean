import BenchHarness.Machine.Files

/-!
# Finding files

A path that the system takes is found by its steps (`Files.find_eq_ok_iff`), and what is found is a node
(`Files.findNode_eq_ok_iff`), which may be that of a file (`Files.isFile_iff`).
-/

namespace BenchHarness

/-- The system takes paths that are not empty, not too long and without NUL. -/
theorem Route.parse_eq_ok_iff {path : Bytes} {route : Route} :
    parse path = .ok route ↔
      (0 ∉ path ∧ path ≠ [] ∧ path.length ≤ maxLength) ∧ ofBytes path = route := by
  unfold parse
  split
  · rename_i nul
    simp [List.contains_iff_mem.mp nul]
  split
  · rename_i empty
    simp [empty]
  split
  · rename_i long
    simp [Nat.not_le.mpr long]
  · rename_i noNul nonempty short
    rw [List.contains_iff_mem] at noNul
    simp [noNul, nonempty, Nat.not_lt.mp short]

namespace Files

variable {files : Files}

/-- The system takes a path and finds what its steps lead to. -/
theorem find_eq_ok_iff {follow : Bool} {base : DirId} {path : Bytes} {found : Found} :
    files.find follow base path = .ok found ↔
      (0 ∉ path ∧ path ≠ [] ∧ path.length ≤ Route.maxLength) ∧
        files.walk follow maxLinks
          (if (Route.ofBytes path).fromRoot then .linked [] else files.placeOf base)
          (Route.ofBytes path).steps = .ok found := by
  unfold find
  cases hparse : Route.parse path with
  | error e =>
    refine iff_of_false (fun h => by cases h) fun h => ?_
    rw [Route.parse_eq_ok_iff.mpr ⟨h.1, rfl⟩] at hparse
    cases hparse
  | ok route =>
    obtain ⟨taken, rfl⟩ := Route.parse_eq_ok_iff.mp hparse
    exact (and_iff_right taken).symm

/-- The node that has been found. -/
def nodeAt (files : Files) : Found → Except IoError Node
  | .directory (.linked trail) =>
    match files.root.at? trail with
    | some node => .ok node
    | none => .error (.system .noEntry)
  | .directory (.removed id) => .ok (.directory id [])
  | .leaf _ _ node => .ok node
  | .vacant _ _ => .error (.system .noEntry)

theorem nodeAt_linked_eq_ok_iff {trail : List Bytes} {node : Node} :
    files.nodeAt (.directory (.linked trail)) = .ok node ↔ files.root.at? trail = some node := by
  rw [nodeAt]
  cases files.root.at? trail <;> simp

theorem findNode_eq_ok_iff {follow : Bool} {base : DirId} {path : Bytes} {node : Node} :
    files.findNode follow base path = .ok node ↔
      ∃ found, files.find follow base path = .ok found ∧ files.nodeAt found = .ok node := by
  have hbind : files.findNode follow base path = (files.find follow base path).bind files.nodeAt := by
    unfold findNode
    cases files.find follow base path with
    | error e => rfl
    | ok found =>
      cases found with
      | directory place => cases place <;> rfl
      | _ => rfl
  rw [hbind]
  cases files.find follow base path with
  | error e => simp [Except.bind]
  | ok found => simp [Except.bind]

theorem findNode_of_leaf {follow : Bool} {base : DirId} {path : Bytes} {trail : List Bytes}
    {name : Bytes} {node : Node} (found : files.find follow base path = .ok (.leaf trail name node)) :
    files.findNode follow base path = .ok node :=
  findNode_eq_ok_iff.mpr ⟨_, found, rfl⟩

theorem noDirectory_of_file {node : Node}
    (kind : (∃ mode content, node = .file mode content) ∨ ∃ name, node = .program name) :
    ∀ id children, node ≠ .directory id children := by
  rcases kind with ⟨mode, content, rfl⟩ | ⟨name, rfl⟩ <;> simp

theorem isFile_iff {base : DirId} {path : Bytes} :
    files.isFile base path = true ↔
      ∃ node, files.findNode true base path = .ok node ∧
        ((∃ mode content, node = .file mode content) ∨ ∃ name, node = .program name) := by
  unfold isFile
  cases files.findNode true base path with
  | error e => simp
  | ok node => cases node <;> simp

end Files

end BenchHarness
