import BenchHarness.Proofs.ConfigFile
import BenchHarness.Proofs.Placement

/-!
# What a test is told about its directory

The variable for its directory tells a test an absolute path of the directory it starts in, as long as
that directory can be spelled: its own path is a text that the system takes, or the working directory of
the test is an absolute path already. Otherwise it is told its working directory as the run sees it, and
that path leads elsewhere from inside (`Runner.tryExecute_tellsDirectory`).
-/

namespace BenchHarness

namespace Files

variable {files : Files}

/-! ## Paths of directories that can be entered -/

/-- Who starts in the tree stays in it. -/
theorem walkWith_linked {deeper : Place → List Bytes → Except IoError Found} {follow : Bool}
    {place : Place}
    (hdeeper : ∀ before steps, deeper (.linked before) steps = .ok (.directory place) →
      ∃ trail, place = .linked trail)
    (steps : List Bytes) :
    ∀ before, files.walkWith deeper follow (.linked before) steps = .ok (.directory place) →
      ∃ trail, place = .linked trail := by
  induction steps with
  | nil =>
    intro before h
    rw [walkWith] at h
    exact ⟨before, (Found.directory.inj (Except.ok.inj h)).symm⟩
  | cons step rest ih =>
    intro before h
    rw [walkWith.eq_def] at h
    simp only [] at h
    -- steps that stay or go up first, then names by what they lead to
    split at h
    · exact ih before h
    split at h
    · exact ih before.dropLast h
    split at h
    · cases h
    split at h
    · exact ih _ h
    · rename_i target _
      split at h
      · cases h
      · split at h
        · exact hdeeper _ _ h
        · exact hdeeper _ _ h
    · split at h <;> cases h
    · split at h <;> cases h
    · cases h

theorem walk_linked {follow : Bool} {place : Place} (links : Nat) :
    ∀ steps before, files.walk follow links (.linked before) steps = .ok (.directory place) →
      ∃ trail, place = .linked trail := by
  induction links with
  | zero => exact walkWith_linked fun _ _ h => by cases h
  | succ links ih => exact walkWith_linked fun before steps => ih steps before

/-- A directory that is entered from one that has a path lies in the tree. -/
theorem exists_trail_of_findDirectory {base id : DirId} {start path : Bytes}
    (open' : files.pathOf base = .ok start) (entered : files.findDirectory base path = .ok id) :
    ∃ trail children, files.find true base path = .ok (.directory (.linked trail)) ∧
      files.root.at? trail = some (.directory id children) := by
  unfold findDirectory at entered
  cases found : files.find true base path with
  | error e =>
    rw [found] at entered
    cases entered
  | ok place =>
    rw [found] at entered
    cases place with
    | leaf => cases entered
    | vacant => cases entered
    | directory place =>
      obtain ⟨before, hbase⟩ : ∃ before, (if (Route.ofBytes path).fromRoot then .linked []
          else files.placeOf base) = Place.linked before := by
        unfold pathOf at open'
        cases hplace : files.placeOf base with
        | removed other => simp [hplace] at open'
        | linked before => split <;> exact ⟨_, rfl⟩
      obtain ⟨-, hwalk⟩ := find_eq_ok_iff.mp found
      rw [hbase] at hwalk
      obtain ⟨trail, rfl⟩ := walk_linked maxLinks _ before hwalk
      cases hat : files.root.at? trail with
      | none => simp [idAt?, hat, bind, Except.bind] at entered
      | some node =>
        cases node with
        | directory other children =>
          obtain rfl : other = id := by
            simpa [idAt?, hat, bind, Except.bind, pure, Except.pure] using entered
          exact ⟨trail, children, rfl, hat⟩
        | _ => simp [idAt?, hat, bind, Except.bind] at entered

/-- The path of a directory leads to it from everywhere, if the system takes that path. -/
theorem findDirectory_pathOfTrail (regular : files.Regular) {trail : List Bytes} {id : DirId}
    {children : List (Bytes × Node)} (hat : files.root.at? trail = some (.directory id children))
    (short : (pathOfTrail trail).length ≤ Route.maxLength) (base : DirId) :
    files.findDirectory base (pathOfTrail trail) = .ok id := by
  have located : files.root.locate id = some trail :=
    Node.locate_of_at? regular.legal regular.distinct hat
  obtain ⟨legal, -⟩ := regular.legal.of_locate located
  have takes := regular.named.of_at? hat
  have hnul : (0 : UInt8) ∉ pathOfTrail trail := by
    rw [pathOfTrail, List.mem_cons, not_or]
    exact ⟨by decide, Route.zero_not_mem_glue takes⟩
  suffices found : files.find true base (pathOfTrail trail) = .ok (.directory (.linked trail)) from
    findDirectory_of_find found hat
  refine find_eq_ok_iff.mpr ⟨⟨hnul, by simp [pathOfTrail], short⟩, ?_⟩
  obtain ⟨deeper, hwalk⟩ := exists_walkWith files true maxLinks
  rw [Route.ofBytes_pathOfTrail legal, if_pos rfl, hwalk]
  by_cases top : trail = []
  · subst top
    exact walkWith_here deeper true _ []
  · have hdown : files.walkWith deeper true (.linked []) (trail ++ []) =
        files.walkWith deeper true (.linked ([] ++ trail)) [] :=
      walkWith_down legal takes [] [] ⟨id, children, hat⟩
    rw [List.append_nil, List.nil_append] at hdown
    rw [if_neg top, hdown, walkWith]

theorem canonical_of_find {base : DirId} {path : Bytes} {trail : List Bytes}
    (found : files.find true base path = .ok (.directory (.linked trail))) :
    files.canonical base path = if Route.maxLength < (pathOfTrail trail).length then
      .error (.system .nameTooLong) else .ok (pathOfTrail trail) := by
  simp only [canonical, found, bind, Except.bind, pure, Except.pure]
  split <;> rfl

/-- The path of a directory is that of a text, and the system takes it. -/
structure Spells (files : Files) (id : DirId) (text : String) : Prop where
  path : files.pathOf id = .ok (Utf8.encode text)
  short : (Utf8.encode text).length ≤ Route.maxLength

end Files

/-! ## One test -/

/-- A command is told where it starts: the variable has one value, an absolute path that leads from the
directory it starts in to this very directory. -/
structure Command.Told (c : Command) (files : Files) (dir : String) : Prop where
  value : c.environment.filter (·.1 = Runner.dirVariable) = [(Runner.dirVariable, dir)]
  absolute : Path.isAbsolute dir = true
  names : files.findDirectory c.directory (Utf8.encode dir) = .ok c.directory

namespace Runner

/-- The variable for the directory is set once, whatever has been set before. -/
theorem filter_withVariables (dir : String) (old : List (String × String)) :
    (withVariables [flagVariable, (dirVariable, dir)] old).filter (·.1 = dirVariable) =
      [(dirVariable, dir)] := by
  have hflag : flagVariable.1 ≠ dirVariable := by decide
  have hold : (old.filter fun v => ! [flagVariable, (dirVariable, dir)].any (·.1 = v.1)).filter
      (·.1 = dirVariable) = [] := by
    rw [List.filter_eq_nil_iff]
    intro v hv
    simp only [List.mem_filter, List.any_cons, List.any_nil, Bool.or_false, Bool.not_or,
      Bool.and_eq_true, Bool.not_eq_true', decide_eq_false_iff_not] at hv
    simpa using Ne.symm hv.2.2
  rw [withVariables, List.filter_append, hold, List.nil_append,
    List.filter_cons_of_neg (by simpa using hflag), List.filter_cons_of_pos (by simp), List.filter_nil]

variable {r : Runner} {root : String} {entry : Entry} {m : Machine} {c : Command}

theorem request_eq_some (h : r.request root entry m = some c) :
    ∃ start id, m.currentDir = .ok start ∧
      m.files.findDirectory m.cwd (Utf8.encode (entry.workingDir root)) = .ok id ∧
      c = r.command entry (testDir m (entry.workingDir root)) { m with cwd := id } := by
  unfold request at h
  split at h
  · rename_i start inside path entered
    obtain ⟨id, hfound, rfl⟩ := Machine.changeDir_eq_ok entered
    exact ⟨start, id, path, hfound, (Option.some.inj h).symm⟩
  · cases h

/-- A command is told what it is made for. -/
theorem told_of_names {dir : String} {id : DirId} (absolute : Path.isAbsolute dir = true)
    (names : m.files.findDirectory id (Utf8.encode dir) = .ok id) :
    (r.command entry dir { m with cwd := id }).Told m.files dir :=
  ⟨filter_withVariables dir m.environment, absolute, names⟩

/-- The directory a test is told, by the path of the directory that its working directory leads to. -/
theorem testDir_of_find {dir : String} {trail : List Bytes}
    (found : m.files.find true m.cwd (Utf8.encode dir) = .ok (.directory (.linked trail))) :
    testDir m dir = if Route.maxLength < (pathOfTrail trail).length then dir else
      (Utf8.decode? (pathOfTrail trail)).getD dir := by
  have hcanonical : m.canonical (Utf8.encode dir) = _ := Files.canonical_of_find found
  rw [testDir, hcanonical]
  by_cases long : Route.maxLength < (pathOfTrail trail).length
  · rw [if_pos long, if_pos long]
  · rw [if_neg long, if_neg long]

/-- What a test is told about its directory. -/
structure Tells (root : String) (entry : Entry) (files : Files) (c : Command) : Prop where
  /-- It is told right exactly if its directory can be spelled or its working directory is an absolute
  path as it stands. -/
  right : (∃ dir, c.Told files dir) ↔
    Path.isAbsolute (entry.workingDir root) = true ∨ ∃ text, files.Spells c.directory text
  /-- It is told the path of the directory itself if that can be spelled. -/
  spelled : ∀ text, files.Spells c.directory text → c.Told files text
  /-- Otherwise it is told its working directory as it stands. -/
  unspelled : (¬ ∃ text, files.Spells c.directory text) →
    c.environment.filter (·.1 = dirVariable) = [(dirVariable, entry.workingDir root)]

theorem tells_of_request (regular : m.files.Regular) (h : r.request root entry m = some c) :
    Tells root entry m.files c := by
  obtain ⟨start, id, path, entered, rfl⟩ := request_eq_some h
  obtain ⟨trail, children, found, hat⟩ := Files.exists_trail_of_findDirectory path entered
  have hdir := testDir_of_find found
  have hpath : m.files.pathOf id = .ok (pathOfTrail trail) := by
    rw [Files.pathOf, regular.placeOf_eq hat]
  -- the path that was found is the one of the directory itself
  have spelled : ∀ text, m.files.Spells id text →
      (r.command entry (testDir m (entry.workingDir root)) { m with cwd := id }).Told m.files text := by
    rintro text ⟨htext, short⟩
    have hencode : Utf8.encode text = pathOfTrail trail := Except.ok.inj (htext.symm.trans hpath)
    rw [hencode] at short
    rw [if_neg (Nat.not_lt.mpr short), ← hencode, Utf8.decode?_encode, Option.getD_some] at hdir
    rw [hdir]
    refine told_of_names ((Config.isAbsolute_iff text).mpr (Files.head?_of_pathOf htext)) ?_
    rw [hencode]
    exact Files.findDirectory_pathOfTrail regular hat short id
  have unspelled : (¬ ∃ text, m.files.Spells id text) →
      testDir m (entry.workingDir root) = entry.workingDir root := by
    intro never
    rw [hdir]
    by_cases long : Route.maxLength < (pathOfTrail trail).length
    · rw [if_pos long]
    · rw [if_neg long]
      cases htext : Utf8.decode? (pathOfTrail trail) with
      | none => rfl
      | some text =>
        have hencode := Utf8.encode_of_decode?_eq_some htext
        exact absurd ⟨text, hencode ▸ hpath, hencode ▸ Nat.not_lt.mp long⟩ never
  constructor
  · constructor
    · rintro ⟨dir, value, absolute, -⟩
      by_cases can : ∃ text, m.files.Spells id text
      · exact Or.inr can
      · have hvalue := filter_withVariables (testDir m (entry.workingDir root)) m.environment
        rw [unspelled can] at hvalue value
        obtain ⟨⟩ := value.symm.trans hvalue
        exact Or.inl absolute
    · rintro (absolute | ⟨text, spells⟩)
      · by_cases can : ∃ text, m.files.Spells id text
        · exact can.imp spelled
        · -- an absolute path leads to the same from inside
          rw [unspelled can]
          have hsame : m.files.find true id (Utf8.encode (entry.workingDir root)) =
              m.files.find true m.cwd (Utf8.encode (entry.workingDir root)) :=
            Files.find_of_head? ((Config.isAbsolute_iff _).mp absolute) true id m.cwd
          refine ⟨_, told_of_names absolute ?_⟩
          rw [← entered, Files.findDirectory, Files.findDirectory, hsame]
      · exact ⟨text, spelled text spells⟩
  · exact spelled
  · intro never
    rw [unspelled never]
    exact filter_withVariables _ m.environment

/-! ## Whole runs -/

/-- What tests are told. A test launches one command at most, in its own directory, and what that command
is told about the directory is right exactly if the directory can be spelled or the working directory of
the test is an absolute path. This holds for a test by itself and for each test of a run, as long as what
the children leave behind is a file system. -/
theorem tryExecute_tellsDirectory (r : Runner) (launch : Launch) :
    (∀ (root : String) (entry : Entry) (w : World), w.machine.files.Regular →
      r.LaunchesInPlace launch root entry w ∧
        ∀ c, r.request root entry w.machine = some c → Tells root entry w.machine.files c) ∧
      ∀ {ε κ : Type} (follower : Follower ε κ) (selection : Selection) (s : RunState κ),
        let course := r.course launch follower selection s
        let after := fun deeds => deeds.foldl (r.perform launch selection.root follower) s
        (r.tryExecute launch follower selection s).2 = after course ∧
          ∀ before entry, before ++ [.test entry] <+: course →
            (after before).world.machine.files.Regular →
            r.LaunchesInPlace launch selection.root entry (after before).world ∧
              (after (before ++ [.test entry])).world =
                (r.runTest launch selection.root entry (after before).world).2 ∧
              ∀ c, r.request selection.root entry (after before).world.machine = some c →
                Tells selection.root entry (after before).world.machine.files c := by
  refine ⟨?_, ?_⟩
  · intro root entry w regular
    exact ⟨r.launchesInPlace launch root entry w, fun c => tells_of_request regular⟩
  · intro ε κ follower selection s course after
    refine ⟨?_, ?_⟩
    · exact (r.tryExecute_snd launch follower selection s).trans
        (r.follow_snd launch selection.root follower _ s)
    · intro before entry _ regular
      refine ⟨r.launchesInPlace launch selection.root entry _, ?_, fun c => tells_of_request regular⟩
      have hlast : after (before ++ [.test entry]) =
          r.perform launch selection.root follower (after before) (.test entry) :=
        List.foldl_concat _ s _ before
      rw [hlast]
      rfl

/-- A relative root that is a link: the test is told the path of its directory with the link resolved. -/
theorem tryExecute_tellsDirectory_of_link :
    let r : Runner := ⟨⟨"sh", []⟩, "ok"⟩
    let files : Files := ⟨.directory 0 [([0x77], .directory 1 [([0x6c], .link [0x73]),
      ([0x73], .directory 2 [([0x64], .directory 3 [])])])], [], 4, []⟩
    let launch : Launch := fun _ files => .ok (⟨[], [], [], some 0, 1, .none⟩, files)
    let follower : Follower Unit Nat := fun _ state => (state, none)
    let selection : Selection := ⟨"l", .runAll, [⟨"d/go"⟩]⟩
    let s : RunState Nat := ⟨⟨⟨files, 1, [("SIMTEST_TEST_DIR", "/old")], 0⟩, .buffers⟩, 0⟩
    let test : Entry := ⟨"d/go"⟩
    let before : List Deed :=
      [.tell (.runStarted selection), .tell (.testStarted test (test.workingDir "l"))]
    before ++ [.test test] <+: r.course launch follower selection s ∧
      ∃ c, r.request "l" test (before.foldl (r.perform launch "l" follower) s).world.machine =
          some c ∧ c.directory = 3 ∧ c.Told files "/w/s/d" := by
  intro r files launch follower selection s test before
  have regular : files.Regular := by
    constructor
    case legal =>
      have legalTest : (Node.directory 3 []).Legal := .directory (by simp) (by simp) (by simp)
      have legalSuite : (Node.directory 2 [([0x64], .directory 3 [])]).Legal :=
        .directory (by decide) (by decide) (by simpa using legalTest)
      have legalStart : (Node.directory 1 [([0x6c], .link [0x73]),
          ([0x73], .directory 2 [([0x64], .directory 3 [])])]).Legal :=
        .directory (by decide) (by decide) (by simpa using ⟨.link _, legalSuite⟩)
      exact .directory (by decide) (by decide) (by simpa using legalStart)
    case named =>
      have namedTest : (Node.directory 3 []).Named := .directory (by simp) (by simp)
      have namedSuite : (Node.directory 2 [([0x64], .directory 3 [])]).Named :=
        .directory (by decide) (by simpa using namedTest)
      have namedStart : (Node.directory 1 [([0x6c], .link [0x73]),
          ([0x73], .directory 2 [([0x64], .directory 3 [])])]).Named :=
        .directory (by decide) (by simpa using ⟨.leaf (by simp), namedSuite⟩)
      exact .directory (by decide) (by simpa using namedStart)
    case distinct => decide
  have done : before ++ [.test test] <+: r.course launch follower selection s := ⟨_, rfl⟩
  obtain ⟨-, runs⟩ := r.tryExecute_tellsDirectory launch
  obtain ⟨-, tests⟩ := runs follower selection s
  obtain ⟨-, -, tells⟩ := tests before test done regular
  -- telling events leaves the machine as it is
  have hdir : Utf8.encode (test.workingDir "l") = [0x6c, 0x2f, 0x64] := by decide +kernel
  have hrequest : r.request "l" test s.world.machine = some (r.command test
      (testDir s.world.machine (test.workingDir "l")) { s.world.machine with cwd := 3 }) := by
    unfold request
    rw [hdir]
    rfl
  have htext : Utf8.encode "/w/s/d" = [0x2f, 0x77, 0x2f, 0x73, 0x2f, 0x64] := by decide +kernel
  have spells : files.Spells 3 "/w/s/d" := by
    constructor
    · rw [htext]
      rfl
    · rw [htext]
      decide
  exact ⟨done, _, hrequest, rfl, (tells _ hrequest).spelled "/w/s/d" spells⟩

/-- A relative root that is a link to a directory whose name is no text: the test is told the root as it
stands, which is no absolute path and leads nowhere from inside. -/
theorem not_told_of_unspellable :
    let r : Runner := ⟨⟨"sh", []⟩, "ok"⟩
    let files : Files := ⟨.directory 0 [([0x77], .directory 1 [([0x6c], .link [0xff]),
      ([0xff], .directory 2 [])])], [], 3, []⟩
    let m : Machine := ⟨files, 1, [], 0⟩
    ∃ c, r.request "l" ⟨"go"⟩ m = some c ∧ c.directory = 2 ∧
      c.environment.filter (·.1 = dirVariable) = [(dirVariable, "l")] ∧
      Path.isAbsolute "l" = false ∧
      files.findDirectory c.directory (Utf8.encode "l") = .error (.system .noEntry) ∧
      ¬ ∃ dir, c.Told files dir := by
  intro r files m
  have hdir : Entry.workingDir ⟨"go"⟩ "l" = "l" := by decide +kernel
  have hbytes : Utf8.encode "l" = [0x6c] := by decide +kernel
  have htold : testDir m "l" = "l" := by
    unfold testDir
    rw [hbytes]
    rfl
  have hrequest : r.request "l" ⟨"go"⟩ m = some (r.command ⟨"go"⟩ "l" { m with cwd := 2 }) := by
    unfold request
    rw [hdir, htold, hbytes]
    rfl
  have hvalue := filter_withVariables "l" m.environment
  have relative : Path.isAbsolute "l" = false := by decide +kernel
  refine ⟨_, hrequest, rfl, hvalue, relative, ?_, ?_⟩
  · rw [hbytes]
    rfl
  · rintro ⟨dir, value, absolute, -⟩
    obtain ⟨⟩ := value.symm.trans hvalue
    rw [relative] at absolute
    cases absolute

end Runner

end BenchHarness
