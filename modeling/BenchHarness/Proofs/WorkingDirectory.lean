import BenchHarness.Proofs.PathLookup
import BenchHarness.Proofs.Protocol

/-!
# The working directory of a run

A test leaves the process where it was as long as the way back is open: if the working directory had a
path before it, and that is still the path of a directory afterwards, the process is there again
(`Runner.attempt_currentDir`). So it stays there through a whole run, whatever the children do to other
directories, and each child is started in the directory of its test
(`Runner.tryExecute_workingDirectory`). It is not enough that the path still leads to a directory: the
way back follows a link that was put in the place of the directory (`Runner.tryExecute_strays`). Coming
back is tried once: the guard that would try it again has nothing left to do
(`World.inDirectory_eq_guarded`).
-/

namespace BenchHarness

/-! ## Paths of directories -/

namespace Files

variable {files : Files} {path : Bytes}

/-- A path leads to a directory from everywhere, itself or through links. -/
def Enterable (files : Files) (path : Bytes) : Prop :=
  ∀ base, ∃ id, files.findDirectory base path = .ok id

/-- A path is the path of a directory, and that directory can be entered by it. This asks for more than
`Enterable`: a link put in the place of the directory leads to one of another path. -/
def Names (files : Files) (path : Bytes) : Prop :=
  ∃ id, files.pathOf id = .ok path ∧ files.findDirectory id path = .ok id

theorem head?_of_pathOf {id : DirId} (h : files.pathOf id = .ok path) :
    path.head? = some Route.slash := by
  unfold pathOf at h
  cases hplace : files.placeOf id with
  | removed i => simp [hplace] at h
  | linked trail =>
    simp only [hplace, Except.ok.injEq] at h
    rw [← h]
    rfl

/-- A path from the root directory leads to the same from everywhere. -/
theorem find_of_head? (absolute : path.head? = some Route.slash) (follow : Bool)
    (base base' : DirId) : files.find follow base path = files.find follow base' path := by
  unfold find
  cases h : Route.parse path with
  | error e => rfl
  | ok route =>
    obtain ⟨-, rfl⟩ := Route.parse_eq_ok_iff.mp h
    have hroot : (Route.ofBytes path).fromRoot = true := by simpa [Route.ofBytes] using absolute
    simp only [bind, Except.bind, hroot, if_true]

/-- Whoever goes to a path that names a directory gets into that directory. -/
theorem Names.findDirectory (names : files.Names path) (base : DirId) :
    ∃ id, files.findDirectory base path = .ok id ∧ files.pathOf id = .ok path := by
  obtain ⟨id, hpath, hfound⟩ := names
  have hsame : files.find true base path = files.find true id path :=
    find_of_head? (head?_of_pathOf hpath) true base id
  refine ⟨id, ?_, hpath⟩
  rw [← hfound, Files.findDirectory, Files.findDirectory, hsame]

end Files

namespace Machine

variable {m : Machine} {path : Bytes}

theorem changeDir_eq_ok {inside : Machine} (entered : m.changeDir path = .ok inside) :
    ∃ id, m.files.findDirectory m.cwd path = .ok id ∧ inside = { m with cwd := id } := by
  unfold changeDir at entered
  cases h : m.files.findDirectory m.cwd path with
  | error e => simp [h, bind, Except.bind] at entered
  | ok id =>
    refine ⟨id, rfl, ?_⟩
    simpa [h, bind, Except.bind, pure, Except.pure] using entered.symm

theorem returnTo_files (start : Bytes) (m : Machine) : (m.returnTo start).files = m.files := by
  unfold returnTo
  cases h : m.changeDir start with
  | error e => rfl
  | ok back =>
    obtain ⟨id, -, rfl⟩ := changeDir_eq_ok h
    rfl

/-- Who can return is back. -/
theorem returnTo_currentDir (names : m.files.Names path) :
    (m.returnTo path).currentDir = .ok path := by
  obtain ⟨id, hfound, hpath⟩ := names.findDirectory m.cwd
  have hback : m.changeDir path = .ok { m with cwd := id } := by
    simp only [changeDir, hfound]
    rfl
  simp only [returnTo, hback]
  exact hpath

end Machine

/-! ## Guards -/

/-- Keeps the path to come back to until coming back has been tried. -/
structure Guard where
  original : Option Bytes

namespace Guard

/-- Enters a directory. -/
def enter (dir : String) (m : Machine) : Except IoError (Guard × Machine) := do
  let start ← m.currentDir
  let inside ← m.changeDir (Utf8.encode dir)
  pure (⟨some start⟩, inside)

/-- Tries to come back. -/
def restore (g : Guard) (m : Machine) : Except IoError Machine × Guard :=
  match g.original with
  | some start => (m.changeDir start, ⟨none⟩)
  | none => (.ok m, g)

/-- Comes back at last, if that has not been tried before. -/
def drop (g : Guard) (w : World) : World :=
  match (g.restore w.machine).1 with
  | .ok machine => { w with machine := machine }
  | .error e => w.note .error .workingDirectory
      ("failed to restore working directory: " ++ e.message)

end Guard

namespace World

variable {α : Type}

/-- Does something in a directory under a guard. -/
def guarded (dir : String) (act : World → α × World) (w : World) : Except IoError α × World :=
  match Guard.enter dir w.machine with
  | .error e => (.error e, w)
  | .ok (guard, inside) =>
    let (result, w) := act { w with machine := inside }
    match guard.restore w.machine with
    | (.ok machine, guard) => (.ok result, guard.drop { w with machine := machine })
    | (.error e, guard) =>
      (.ok result, guard.drop (w.note .error .workingDirectory
        ("failed to restore working directory after running in \x60" ++ dir ++ "\x60: " ++
          e.message)))

/-- A guard that has tried to come back does nothing when it is dropped. -/
theorem inDirectory_eq_guarded (dir : String) (act : World → α × World) (w : World) :
    w.inDirectory dir act = w.guarded dir act := by
  unfold inDirectory guarded Guard.enter
  cases w.machine.currentDir with
  | error e => rfl
  | ok start =>
    cases w.machine.changeDir (Utf8.encode dir) with
    | error e => rfl
    | ok inside =>
      simp only [bind, Except.bind, pure, Except.pure, Guard.restore]
      cases (act { w with machine := inside }).2.machine.changeDir start with
      | error e => rfl
      | ok back => rfl

/-- What doing something in a directory comes to. -/
structure Within (dir : String) (act : World → α × World) (w : World) : Prop where
  guarded : w.inDirectory dir act = w.guarded dir act
  /-- If there is an error then nothing has changed, and whatever was to be done had no say in it. -/
  refused : ∀ e, (w.inDirectory dir act).1 = .error e →
    (w.inDirectory dir act).2 = w ∧ ∀ act' : World → α × World, w.inDirectory dir act' = (.error e, w)
  /-- Otherwise it has been done in the directory, and its result is given. -/
  done : ∀ result, (w.inDirectory dir act).1 = .ok result → ∃ start inside,
    w.machine.currentDir = .ok start ∧ w.machine.changeDir (Utf8.encode dir) = .ok inside ∧
      let (result', after) := act { w with machine := inside }
      result = result' ∧
        (∀ back, after.machine.changeDir start = .ok back →
          (w.inDirectory dir act).2 = { after with machine := back }) ∧
        ∀ e, after.machine.changeDir start = .error e →
          (w.inDirectory dir act).2.machine = after.machine ∧
          (w.inDirectory dir act).2.console.journal = after.console.journal ++
            [⟨.error, .workingDirectory, "failed to restore working directory after running in \x60"
              ++ dir ++ "\x60: " ++ e.message⟩]

theorem journal_note (w : World) (level : Level) (topic : Topic) (message : String) :
    (w.note level topic message).console.journal =
      w.console.journal ++ [⟨level, topic, message⟩] :=
  w.console.journal_note ⟨level, topic, message⟩

theorem within (dir : String) (act : World → α × World) (w : World) : w.Within dir act := by
  cases path : w.machine.currentDir with
  | error e =>
    have hresult := fun act : World → α × World => inDirectory_of_noPath path dir act
    constructor
    · exact inDirectory_eq_guarded dir act w
    · intro e' h
      rw [hresult act] at h ⊢
      obtain rfl : e = e' := Except.error.inj h
      exact ⟨rfl, hresult⟩
    · intro result h
      simp [hresult act] at h
  | ok start =>
    cases entered : w.machine.changeDir (Utf8.encode dir) with
    | error e =>
      have hresult := fun act : World → α × World => inDirectory_of_refused path entered act
      constructor
      · exact inDirectory_eq_guarded dir act w
      · intro e' h
        rw [hresult act] at h ⊢
        obtain rfl : e = e' := Except.error.inj h
        exact ⟨rfl, hresult⟩
      · intro result h
        simp [hresult act] at h
    | ok inside =>
      have hfst := (inDirectory_of_entered path entered act).1
      constructor
      · exact inDirectory_eq_guarded dir act w
      · intro e h
        simp [hfst] at h
      · intro result h
        refine ⟨start, inside, path, entered, ?_, ?_, ?_⟩
        · rw [hfst] at h
          exact (Except.ok.inj h).symm
        · intro back hback
          simp only [inDirectory, path, entered, hback]
        · intro e hback
          simp only [inDirectory, path, entered, hback]
          exact ⟨rfl, journal_note _ _ _ _⟩

end World

/-! ## One test -/

namespace Runner

variable (r : Runner) (launch : Launch) (root : String) (entry : Entry)

/-- A test leaves the process in the directory it started from, if that still has its path. -/
theorem attempt_currentDir {m : Machine} {path : Bytes} (start : m.currentDir = .ok path)
    (names : (r.attempt launch root entry m).2.files.Names path) :
    (r.attempt launch root entry m).2.currentDir = .ok path := by
  -- the way back is looked for in the files that the child has left
  unfold attempt at names ⊢
  simp only [start] at names ⊢
  cases entered : m.changeDir (Utf8.encode (entry.workingDir root)) with
  | error e => exact start
  | ok inside =>
    simp only [entered] at names ⊢
    cases launched : launch (r.command entry (testDir m (entry.workingDir root)) inside)
        inside.files with
    | error e =>
      simp only [launched, Machine.returnTo_files] at names ⊢
      exact Machine.returnTo_currentDir names
    | ok left =>
      simp only [launched, Machine.returnTo_files] at names ⊢
      exact Machine.returnTo_currentDir names

/-- The command that is to be launched for a test, if its directory can be entered. -/
def request (m : Machine) : Option Command :=
  match m.currentDir, m.changeDir (Utf8.encode (entry.workingDir root)) with
  | .ok _, .ok inside => some (r.command entry (testDir m (entry.workingDir root)) inside)
  | _, _ => none

/-- A test launches one command at most, and in its own directory. -/
structure LaunchesInPlace (w : World) : Prop where
  /-- What other commands would do makes no difference. -/
  only : ∀ launch' : Launch, (∀ c, r.request root entry w.machine = some c →
      launch' c w.machine.files = launch c w.machine.files) →
    r.runTest launch' root entry w = r.runTest launch root entry w
  words : ∀ c, r.request root entry w.machine = some c →
    c.words = r.launcher.words ++ ["./" ++ entry.fileName]
  directory : ∀ c, r.request root entry w.machine = some c →
    w.machine.files.findDirectory w.machine.cwd (Utf8.encode (entry.workingDir root)) =
      .ok c.directory

theorem launchesInPlace (w : World) : r.LaunchesInPlace launch root entry w := by
  constructor
  · intro launch' same
    unfold runTest runInDir
    generalize hnoted : w.note .debug .running _ = noted
    -- the note about the test touches the console only
    have hm : noted.machine = w.machine := by rw [← hnoted]; rfl
    rw [← hm] at same
    simp only []
    suffices hsame : noted.inDirectory (entry.workingDir root)
          (r.runChild launch' entry (testDir noted.machine (entry.workingDir root))) =
        noted.inDirectory (entry.workingDir root)
          (r.runChild launch entry (testDir noted.machine (entry.workingDir root))) by
      rw [hsame]
    cases path : noted.machine.currentDir with
    | error e => rw [World.inDirectory_of_noPath path, World.inDirectory_of_noPath path]
    | ok start =>
      cases entered : noted.machine.changeDir (Utf8.encode (entry.workingDir root)) with
      | error e =>
        rw [World.inDirectory_of_refused path entered, World.inDirectory_of_refused path entered]
      | ok inside =>
        obtain ⟨id, -, hinside⟩ := Machine.changeDir_eq_ok entered
        have hfiles : inside.files = noted.machine.files := by rw [hinside]
        have hchild := same (r.command entry (testDir noted.machine (entry.workingDir root)) inside)
          (by simp only [request, path, entered])
        rw [← hfiles] at hchild
        simp only [World.inDirectory, path, entered, runChild, hchild]
  · intro c hc
    unfold request at hc
    split at hc
    · rw [← Option.some.inj hc]
      rfl
    · simp at hc
  · intro c hc
    unfold request at hc
    split at hc
    · rename_i inside _ entered
      obtain ⟨id, hfound, rfl⟩ := Machine.changeDir_eq_ok entered
      rw [← Option.some.inj hc]
      exact hfound
    · simp at hc

/-! ## Whole runs -/

section

variable {ε κ : Type} (follower : Follower ε κ)

/-- The deeds that are done until the follower objects. -/
def done : List Deed → RunState κ → List Deed
  | [], _ => []
  | .tell e :: rest, s =>
    match tell follower e s with
    | (_, some _) => [.tell e]
    | (s, none) => .tell e :: done rest s
  | .test entry :: rest, s =>
    .test entry :: done rest (r.perform launch root follower s (.test entry))

/-- The deeds that are done in a run. -/
def course (selection : Selection) (s : RunState κ) : List Deed :=
  r.done launch selection.root follower (r.plan launch selection s.world) s

theorem done_prefix (deeds : List Deed) :
    ∀ s : RunState κ, r.done launch root follower deeds s <+: deeds := by
  induction deeds with
  | nil =>
    intro s
    exact List.prefix_refl []
  | cons deed rest ih =>
    intro s
    cases deed with
    | test entry => exact (List.prefix_cons_inj _).mpr (ih _)
    | tell e =>
      rw [done]
      rcases tell follower e s with ⟨s', _ | objection⟩
      · exact (List.prefix_cons_inj _).mpr (ih s')
      · exact ⟨rest, rfl⟩

/-- Following deeds is doing those that are done. -/
theorem follow_snd (deeds : List Deed) :
    ∀ s : RunState κ, (r.follow launch root follower deeds s).2 =
      (r.done launch root follower deeds s).foldl (r.perform launch root follower) s := by
  induction deeds with
  | nil =>
    intro s
    rfl
  | cons deed rest ih =>
    intro s
    cases deed with
    | test entry => exact ih _
    | tell e =>
      have hperform : r.perform launch root follower s (.tell e) = (tell follower e s).1 := rfl
      rw [done, follow]
      generalize tell follower e s = answered at hperform ⊢
      rcases answered with ⟨s', _ | objection⟩
      · rw [List.foldl_cons, hperform]
        exact ih s'
      · rw [List.foldl_cons, hperform]
        rfl

theorem tryExecute_snd (selection : Selection) (s : RunState κ) :
    (r.tryExecute launch follower selection s).2 =
      (r.follow launch selection.root follower (r.plan launch selection s.world) s).2 := by
  rw [tryExecute_eq_follow]
  rcases r.follow launch selection.root follower (r.plan launch selection s.world) s with
    ⟨_ | objection, s'⟩
  · rfl
  · rfl

/-- The deeds that are done tell what a log holds. -/
theorem told_done (deeds : List Deed) :
    ∀ (s : RunState κ) (log : List (Event × Option ε)),
      (r.follow launch root (logged follower) deeds (s.withLog log)).2.follower.2.map (·.1) =
        log.map (·.1) ++ told (r.done launch root follower deeds s) := by
  induction deeds with
  | nil =>
    intro s log
    exact (List.append_nil _).symm
  | cons deed rest ih =>
    intro s log
    cases deed with
    | test entry =>
      rw [follow_test, perform_test_logged]
      exact ih _ log
    | tell e =>
      have hlogged := tell_logged follower e s log
      rw [done, follow, hlogged]
      rcases tell follower e s with ⟨s', _ | objection⟩
      · refine (ih s' _).trans ?_
        rw [List.map_append, List.append_assoc]
        rfl
      · exact List.map_append

/-- As long as a path names a directory, a process that started there is there after every deed. -/
theorem foldl_perform_currentDir {s : RunState κ} {path : Bytes}
    (start : s.world.machine.currentDir = .ok path) (deeds : List Deed) :
    (∀ earlier, earlier <+: deeds →
      (earlier.foldl (r.perform launch root follower) s).world.machine.files.Names path) →
    (deeds.foldl (r.perform launch root follower) s).world.machine.currentDir = .ok path := by
  -- the last deed is the one that may have changed the directory
  induction deeds using List.reverseRecOn with
  | nil =>
    intro names
    exact start
  | append_singleton before deed ih =>
    intro names
    have hbefore := ih fun earlier h => names earlier (h.trans (List.prefix_append before [deed]))
    have hlast := names _ (List.prefix_refl _)
    rw [List.foldl_concat] at hlast ⊢
    cases deed with
    | tell e => exact hbefore
    | test entry =>
      have hmachine := (r.runTest_eq_attempt launch root entry
        (before.foldl (r.perform launch root follower) s).world).2
      rw [perform_test_machine, hmachine] at hlast ⊢
      exact r.attempt_currentDir launch root entry hbefore hlast

/-- What holds of the files after any number of tests holds of them throughout a run. -/
theorem files_of_prefix_course (selection : Selection) (s : RunState κ) {P : Files → Prop}
    (each : ∀ k ≤ selection.entries.length, P (r.runEach launch selection.root
      (selection.entries.take k) s.world).2.machine.files)
    {earlier : List Deed} (h : earlier <+: r.course launch follower selection s) :
    P (earlier.foldl (r.perform launch selection.root follower) s).world.machine.files := by
  have planned := h.trans (r.done_prefix launch selection.root follower _ s)
  have htested : tested earlier <+: selection.entries := by
    rw [← r.tested_plan launch selection s.world]
    exact planned.filterMap _
  rw [foldl_perform_machine, List.prefix_iff_eq_take.mp htested]
  exact each _ htested.length_le

end

/-- The working directory of a run. The run does the deeds of its course and tells its follower the
events in it. Before and after each of them the process is in the directory it started from, as long as
that has kept its path; and a test launches its command in its own directory, as it is found from
there. What is done in a directory is done there or not at all, and if there is no way back one error
says so: this holds wherever the process is. -/
theorem tryExecute_workingDirectory {ε κ : Type} (follower : Follower ε κ) (selection : Selection)
    (s : RunState κ) :
    let course := r.course launch follower selection s
    let after := fun deeds => deeds.foldl (r.perform launch selection.root follower) s
    course <+: r.plan launch selection s.world ∧
      told course = (r.log launch follower selection s).map (·.1) ∧
      (r.tryExecute launch follower selection s).2 = after course ∧
      (∀ path, s.world.machine.currentDir = .ok path → ∀ before, before <+: course →
        (∀ earlier, earlier <+: before → (after earlier).world.machine.files.Names path) →
          (after before).world.machine.currentDir = .ok path ∧
          ∀ entry, before ++ [.test entry] <+: course →
            r.LaunchesInPlace launch selection.root entry (after before).world) ∧
      ∀ (α : Type) (dir : String) (act : World → α × World) (w : World), w.Within dir act := by
  intro course after
  refine ⟨r.done_prefix launch selection.root follower _ s, ?_, ?_, ?_, ?_⟩
  · have htold := r.told_done launch selection.root follower (r.plan launch selection s.world) s []
    have hlog := congrArg (·.follower.2)
      (r.tryExecute_snd launch (logged follower) selection (s.withLog []))
    exact (htold.symm.trans (congrArg (List.map (·.1)) hlog.symm))
  · exact (r.tryExecute_snd launch follower selection s).trans
      (r.follow_snd launch selection.root follower _ s)
  · intro path start before _ names
    refine ⟨r.foldl_perform_currentDir launch selection.root follower start before names, ?_⟩
    intro entry _
    exact r.launchesInPlace launch selection.root entry _
  · intro α dir act w
    exact w.within dir act

/-- The first test puts another directory in the place of the one the run was started in, the second
one cannot be launched, and the follower ends the run: the process is still at its path. -/
theorem tryExecute_workingDirectory_of_replaced :
    let r : Runner := ⟨⟨"sh", []⟩, "ok"⟩
    let files : Files := ⟨.directory 0 [([0x77], .directory 1
      [([0x61], .directory 2 []), ([0x62], .directory 3 [])])], [], 4, []⟩
    let files' : Files := ⟨.directory 0 [([0x77], .directory 4 [([0x62], .directory 3 [])])],
      [(1, 0), (2, 1)], 5, []⟩
    let launch : Launch := fun c _ =>
      if c.directory = 2 then .ok (⟨[], [], [], some 0, 1, .none⟩, files') else .error (.system .noEntry)
    let follower : Follower Unit Nat := fun _ (console, told) =>
      ((console, told + 1), if told = 4 then some () else none)
    let selection : Selection := ⟨".", .runAll, [⟨"a/go"⟩, ⟨"b/go"⟩, ⟨"c/go"⟩]⟩
    let s : RunState Nat := ⟨⟨⟨files, 1, [], 0⟩, .buffers⟩, 0⟩
    s.world.machine.currentDir = .ok [0x2f, 0x77] ∧
      (r.tryExecute launch follower selection s).2.world.machine.currentDir =
        .ok [0x2f, 0x77] := by
  intro r files files' launch follower selection s
  obtain ⟨-, -, final, inside, -⟩ :=
    r.tryExecute_workingDirectory launch follower selection s
  -- only the first test replaces the directory
  have each : ∀ k ≤ 3, (r.runEach launch selection.root (selection.entries.take k)
      s.world).2.machine.files.Names [0x2f, 0x77] := by
    dsimp +zetaDelta only
    intro k hk
    interval_cases k
    · exact ⟨1, by rfl, by rfl⟩
    · exact ⟨4, by rfl, by rfl⟩
    · exact ⟨4, by rfl, by rfl⟩
    · exact ⟨4, by rfl, by rfl⟩
  refine ⟨rfl, ?_⟩
  rw [final]
  exact (inside [0x2f, 0x77] rfl _ (List.prefix_refl _) fun _ h =>
    r.files_of_prefix_course launch follower selection s (P := (·.Names [0x2f, 0x77])) each h).1

/-- The test moves the directory that the run was started in and puts a link to it in its place. Its path
leads to it all the time, and yet the process is at another path in the end. -/
theorem tryExecute_strays :
    let r : Runner := ⟨⟨"sh", []⟩, "ok"⟩
    let started : Node := .directory 1 [([0x61], .directory 2 [])]
    let files : Files := ⟨.directory 0 [([0x77], started)], [], 3, []⟩
    let files' : Files := ⟨.directory 0 [([0x76], started), ([0x77], .link [0x76])], [], 3, []⟩
    let launch : Launch := fun _ _ => .ok (⟨[], [], [], some 0, 1, .none⟩, files')
    let follower : Follower Unit Unit := fun _ state => (state, none)
    let selection : Selection := ⟨".", .runAll, [⟨"a/go"⟩]⟩
    let s : RunState Unit := ⟨⟨⟨files, 1, [], 0⟩, .buffers⟩, ()⟩
    let after (deeds : List Deed) := deeds.foldl (r.perform launch selection.root follower) s
    s.world.machine.currentDir = .ok [0x2f, 0x77] ∧
      (∀ before, before <+: r.course launch follower selection s →
        (after before).world.machine.files.Enterable [0x2f, 0x77]) ∧
      (r.tryExecute launch follower selection s).2.world.machine.currentDir = .ok [0x2f, 0x76] := by
  intro r started files files' launch follower selection s after
  have each : ∀ k ≤ 1, (r.runEach launch selection.root (selection.entries.take k)
      s.world).2.machine.files.Enterable [0x2f, 0x77] := by
    dsimp +zetaDelta only
    intro k hk
    interval_cases k
    · exact fun base => ⟨1, rfl⟩
    · exact fun base => ⟨1, rfl⟩
  refine ⟨rfl, fun _ h => r.files_of_prefix_course launch follower selection s
    (P := (·.Enterable [0x2f, 0x77])) each h, ?_⟩
  cbv

end Runner

end BenchHarness
