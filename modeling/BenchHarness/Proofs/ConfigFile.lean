import BenchHarness.Proofs.AcceptedMarkers
import BenchHarness.Proofs.Resolution

/-!
# Which file is the configuration

A file is looked for under its absolute path, which leads to what the path itself leads to
(`Files.find_below_cwd`). If it is not there, a file of its name with `.toml` added takes its place; only if
there is none either has the root the default configuration, or the named file an error
(`Config.fromSources_of_missing`).
-/

namespace BenchHarness

namespace Files

variable {files : Files} {base : DirId} {dir path : Bytes}

/-- The path of a working directory consists of the names that lead to it. -/
theorem exists_trail_of_pathOf (regular : files.Regular) (h : files.pathOf base = .ok dir) :
    ∃ trail, dir = pathOfTrail trail ∧ files.placeOf base = .linked trail ∧
      (∀ name ∈ trail, FileName name) ∧ (∀ name ∈ trail, Route.Takes name) ∧
      ∃ children, files.root.at? trail = some (.directory base children) := by
  unfold pathOf at h
  unfold placeOf at h ⊢
  cases htrail : files.root.locate base with
  | none =>
    rw [htrail] at h
    cases h
  | some trail =>
    rw [htrail] at h
    obtain ⟨hnames, children, hat⟩ := regular.legal.of_locate htrail
    exact ⟨trail, (Except.ok.inj h).symm, rfl, hnames, regular.named.of_at? hat, children, hat⟩

/-- What a path leads to from the working directory is what the path below that of the working directory
leads to, as long as the system takes it. -/
theorem find_below_cwd (regular : files.Regular) (h : files.pathOf base = .ok dir)
    (relative : path.head? ≠ some Route.slash) (nonempty : path ≠ []) {found : Found} :
    files.find true base (childPath dir path) = .ok found ↔
      (childPath dir path).length ≤ Route.maxLength ∧ files.find true base path = .ok found := by
  obtain ⟨trail, rfl, inside, hnames, htakes, children, hat⟩ := exists_trail_of_pathOf regular h
  have hfromRoot : (Route.ofBytes path).fromRoot = false := by simpa [Route.ofBytes] using relative
  have hnul : (0 : UInt8) ∈ childPath (pathOfTrail trail) path ↔ 0 ∈ path := by
    have htrail : (0 : UInt8) ∉ pathOfTrail trail := by
      rw [pathOfTrail, List.mem_cons, not_or]
      exact ⟨by decide, Route.zero_not_mem_glue htakes⟩
    rw [Route.zero_mem_childPath_iff, or_iff_right htrail]
  have hlength : path.length ≤ (childPath (pathOfTrail trail) path).length := by
    unfold childPath
    split <;> simp only [List.length_append] <;> omega
  obtain ⟨deeper, hwalk⟩ := exists_walkWith files true maxLinks
  rw [find_eq_ok_iff, find_eq_ok_iff, Route.ofBytes_below hnames nonempty, hfromRoot, inside, hwalk,
    if_pos rfl, if_neg Bool.false_ne_true,
    walkWith_down hnames htakes (Route.ofBytes path).steps [] ⟨base, children, hat⟩, List.nil_append,
    hnul]
  have hchild : childPath (pathOfTrail trail) path ≠ [] := Route.childPath_ne_nil (by simp [pathOfTrail])
  constructor
  · rintro ⟨⟨noNul, -, short⟩, found⟩
    exact ⟨short, ⟨noNul, nonempty, hlength.trans short⟩, found⟩
  · rintro ⟨short, ⟨noNul, -, -⟩, found⟩
    exact ⟨⟨noNul, hchild, short⟩, found⟩

theorem nonempty_of_pathOf (h : files.pathOf base = .ok dir) : dir ≠ [] := by
  rintro rfl
  cases head?_of_pathOf h

/-- The path of the working directory and nothing below it is one of a directory. -/
theorem findNode_cwd (regular : files.Regular) (h : files.pathOf base = .ok dir) {node : Node}
    (found : files.findNode true base (childPath dir []) = .ok node) :
    ∃ children, node = .directory base children := by
  obtain ⟨trail, rfl, inside, hnames, htakes, children, hat⟩ := exists_trail_of_pathOf regular h
  obtain ⟨place, hplace, hnode⟩ := findNode_eq_ok_iff.mp found
  obtain ⟨deeper, hwalk⟩ := exists_walkWith files true maxLinks
  rw [find_eq_ok_iff, Route.ofBytes_itself hnames, hwalk, if_pos rfl,
    walkWith_down hnames htakes [Route.here] [] ⟨base, children, hat⟩, List.nil_append, walkWith_here,
    walkWith] at hplace
  obtain rfl := Except.ok.inj hplace.2
  exact ⟨children, Option.some.inj ((nodeAt_linked_eq_ok_iff.mp hnode).symm.trans hat)⟩

end Files

namespace Config

variable {files : Files} {base : DirId} {dir : Bytes} {file : String}

/-! ## Names of files -/

/-- The file that is looked for beside a file: the one with `.toml` added to its name. -/
def beside (file : String) : String :=
  (if file.toList = [] ∨ file.toList.getLast? = some '/' then file ++ namelessFile else file) ++ ".toml"

theorem isAbsolute_iff (file : String) :
    Path.isAbsolute file = true ↔ (Utf8.encode file).head? = some Route.slash := by
  rw [Path.isAbsolute, decide_eq_true_iff, ← Discovery.asciiByte_slash, Utf8.head?_encode_eq_iff (by decide)]

theorem isAbsolute_beside (file : String) : Path.isAbsolute (beside file) = Path.isAbsolute file := by
  rw [Path.isAbsolute, Path.isAbsolute, decide_eq_decide, beside]
  cases h : file.toList with
  | nil =>
    rw [if_pos (Or.inl rfl), String.toList_append, String.toList_append, h]
    decide
  | cons first rest => split <;> simp [h]

theorem absolutePath_of_absolute (absolute : Path.isAbsolute file = true) (dir : Bytes) :
    absolutePath dir file = Utf8.encode file := by
  rw [absolutePath]
  exact if_pos ((isAbsolute_iff file).mp absolute)

theorem absolutePath_of_relative (relative : Path.isAbsolute file = false) (nonempty : dir ≠ []) :
    absolutePath dir file = childPath dir (Utf8.encode file) := by
  have hhead : (Utf8.encode file).head? ≠ some Route.slash := by
    rw [ne_eq, ← isAbsolute_iff, relative]
    exact Bool.false_ne_true
  rw [absolutePath, childPath]
  simp only [hhead, nonempty, if_false, false_or]

theorem encode_beside (file : String) :
    Utf8.encode (beside file) =
      (if Utf8.encode file = [] ∨ (Utf8.encode file).getLast? = some Route.slash then
        Utf8.encode file ++ Utf8.encode namelessFile else Utf8.encode file) ++ Utf8.encode ".toml" := by
  have hempty : Utf8.encode file = [] ↔ file.toList = [] := by
    rw [Utf8.encode_eq_nil_iff, ← String.toList_inj, String.toList_empty]
  have hslash : (Utf8.encode file).getLast? = some Route.slash ↔ file.toList.getLast? = some '/' := by
    rw [← Discovery.asciiByte_slash, Utf8.getLast?_encode_eq_iff (by decide)]
  rw [beside, Utf8.encode_append]
  simp only [hempty, hslash]
  split
  · rw [Utf8.encode_append]
  · rfl

/-- The file beside a file has its path with `.toml` added. -/
theorem withExtension_absolutePath (h : Path.isAbsolute file = true ∨ dir ≠ []) :
    withExtension (absolutePath dir file) = absolutePath dir (beside file) := by
  cases absolute : Path.isAbsolute file with
  | true =>
    have nonempty : Utf8.encode file ≠ [] := by
      intro hnil
      have hhead := (isAbsolute_iff file).mp absolute
      rw [hnil] at hhead
      cases hhead
    rw [absolutePath_of_absolute absolute,
      absolutePath_of_absolute ((isAbsolute_beside file).trans absolute), encode_beside, withExtension]
    simp only [nonempty, false_or]
  | false =>
    have nonempty : dir ≠ [] := h.resolve_left (by simp [absolute])
    -- below a directory, nothing at all ends with a separator, too
    have hlast : (childPath dir (Utf8.encode file)).getLast? = some Route.slash ↔
        Utf8.encode file = [] ∨ (Utf8.encode file).getLast? = some Route.slash := by
      by_cases hempty : Utf8.encode file = []
      · rw [hempty, childPath]
        split
        · next ends => simpa [nonempty] using ends
        · simp
      · rw [or_iff_right hempty, childPath]
        split <;> rw [List.getLast?_append_of_ne_nil _ hempty]
    rw [absolutePath_of_relative absolute nonempty,
      absolutePath_of_relative ((isAbsolute_beside file).trans absolute) nonempty, encode_beside,
      withExtension, Discovery.childPath_append]
    simp only [hlast]
    split
    · rw [Discovery.childPath_append]
    · rfl

/-! ## Looking for a file -/

/-- The absolute path under which a file is looked for. -/
def lookedFor (files : Files) (base : DirId) (file : String) : Except IoError Bytes := do
  pure (absolutePath (← if Path.isAbsolute file then pure [] else files.pathOf base) file)

/-- A file is found under its own path, or beside it. -/
theorem findFile_eq (files : Files) (base : DirId) (file : String) :
    findFile files base file = (lookedFor files base file).bind fun path =>
      if files.isFile base path then .ok path
      else if files.isFile base (withExtension path) then .ok (withExtension path)
      else .error (.refused ("configuration file \x22" ++ file ++ "\x22 not found")) := by
  unfold findFile lookedFor
  split
  · rfl
  · cases files.pathOf base <;> rfl

/-- The absolute path of a relative one is below that of the working directory. -/
theorem lookedFor_cases {path : Bytes} (h : lookedFor files base file = .ok path) :
    (Path.isAbsolute file = true ∧ path = Utf8.encode file) ∨
      ∃ dir, Path.isAbsolute file = false ∧ files.pathOf base = .ok dir ∧
        path = childPath dir (Utf8.encode file) := by
  unfold lookedFor at h
  cases absolute : Path.isAbsolute file with
  | true =>
    rw [absolute] at h
    exact .inl ⟨rfl, (Except.ok.inj h).symm.trans (absolutePath_of_absolute absolute [])⟩
  | false =>
    rw [absolute] at h
    cases hdir : files.pathOf base with
    | error e =>
      rw [hdir] at h
      cases h
    | ok dir =>
      rw [hdir] at h
      exact .inr ⟨dir, rfl, rfl, (Except.ok.inj h).symm.trans
        (absolutePath_of_relative absolute (Files.nonempty_of_pathOf hdir))⟩

theorem lookedFor_beside (files : Files) (base : DirId) (file : String) :
    lookedFor files base (beside file) = (lookedFor files base file).map withExtension := by
  rw [lookedFor, lookedFor, isAbsolute_beside]
  cases absolute : Path.isAbsolute file with
  | true => exact congrArg Except.ok (withExtension_absolutePath (.inl absolute)).symm
  | false =>
    cases hdir : files.pathOf base with
    | error e => rfl
    | ok dir =>
      exact congrArg Except.ok (withExtension_absolutePath (.inr (Files.nonempty_of_pathOf hdir))).symm

section

variable (regular : files.Regular) {path : Bytes} (h : lookedFor files base file = .ok path)

include regular h

/-- The absolute path of a file leads to what its own path leads to, as long as the system takes it. -/
theorem findNode_lookedFor_iff {node : Node} (noDirectory : ∀ id children, node ≠ .directory id children) :
    files.findNode true base path = .ok node ↔
      path.length ≤ Route.maxLength ∧ files.findNode true base (Utf8.encode file) = .ok node := by
  rcases lookedFor_cases h with ⟨-, rfl⟩ | ⟨dir, relative, hdir, rfl⟩
  · refine (and_iff_right_of_imp fun found => ?_).symm
    obtain ⟨found, hfound, -⟩ := Files.findNode_eq_ok_iff.mp found
    exact (Files.find_eq_ok_iff.mp hfound).1.2.2
  · by_cases hempty : Utf8.encode file = []
    · rw [hempty]
      refine iff_of_false (fun found => ?_) fun found => ?_
      · obtain ⟨children, rfl⟩ := Files.findNode_cwd regular hdir found
        exact noDirectory _ _ rfl
      · obtain ⟨found, hfound, -⟩ := Files.findNode_eq_ok_iff.mp found.2
        exact (Files.find_eq_ok_iff.mp hfound).1.2.1 rfl
    · have hrelative : (Utf8.encode file).head? ≠ some Route.slash := by
        rw [ne_eq, ← isAbsolute_iff, relative]
        exact Bool.false_ne_true
      simp only [Files.findNode_eq_ok_iff, Files.find_below_cwd regular hdir hrelative hempty]
      constructor
      · rintro ⟨found, ⟨short, hfound⟩, hnode⟩
        exact ⟨short, found, hfound, hnode⟩
      · rintro ⟨short, found, hfound, hnode⟩
        exact ⟨found, ⟨short, hfound⟩, hnode⟩

/-- So a file is one under its own path and its absolute one. -/
theorem isFile_lookedFor_iff :
    files.isFile base path = true ↔
      path.length ≤ Route.maxLength ∧ files.isFile base (Utf8.encode file) = true := by
  simp only [Files.isFile_iff]
  constructor
  · rintro ⟨node, found, kind⟩
    obtain ⟨short, found⟩ := (findNode_lookedFor_iff regular h (Files.noDirectory_of_file kind)).mp found
    exact ⟨short, node, found, kind⟩
  · rintro ⟨short, node, found, kind⟩
    have noDirectory := Files.noDirectory_of_file kind
    exact ⟨node, (findNode_lookedFor_iff regular h noDirectory).mpr ⟨short, found⟩, kind⟩

theorem not_isFile_lookedFor (missing : files.isFile base (Utf8.encode file) = false) :
    ¬ files.isFile base path = true := by
  rw [isFile_lookedFor_iff regular h, missing]
  simp

end

/-- A file is there to be found: it has an absolute path, and that leads to a file. -/
def Findable (files : Files) (base : DirId) (file : String) : Prop :=
  ∃ path, lookedFor files base file = .ok path ∧ files.isFile base path = true

/-- What is there is found, whatever is beside it. -/
theorem findFile_of_findable {path : Bytes} (h : lookedFor files base file = .ok path)
    (hfile : files.isFile base path = true) : findFile files base file = .ok path := by
  rw [findFile_eq, h]
  exact if_pos hfile

/-- Then it is also there under its own path. -/
theorem isFile_of_findable (regular : files.Regular) (found : Findable files base file) :
    files.isFile base (Utf8.encode file) = true := by
  obtain ⟨path, hpath, hfile⟩ := found
  exact ((isFile_lookedFor_iff regular hpath).mp hfile).2

section

variable (regular : files.Regular) (missing : files.isFile base (Utf8.encode file) = false)

include regular missing

/-- What is neither there nor to be found beside where it should be is not found. -/
theorem findFile_of_missing (alone : ¬ Findable files base (beside file)) :
    ∃ e, findFile files base file = .error e := by
  rw [findFile_eq]
  cases h : lookedFor files base file with
  | error e => exact ⟨e, rfl⟩
  | ok path =>
    have hbeside : lookedFor files base (beside file) = .ok (withExtension path) := by
      rw [lookedFor_beside, h]
      rfl
    exact ⟨_, (if_neg (not_isFile_lookedFor regular h missing)).trans
      (if_neg fun hfile => alone ⟨_, hbeside, hfile⟩)⟩

/-- What is beside a missing file is found in its place. -/
theorem findFile_beside (found : Findable files base (beside file)) :
    findFile files base file = findFile files base (beside file) := by
  obtain ⟨other, hother, hfile⟩ := found
  rw [findFile_of_findable hother hfile, findFile_eq]
  rw [lookedFor_beside] at hother
  cases h : lookedFor files base file with
  | error e =>
    rw [h] at hother
    cases hother
  | ok path =>
    rw [h] at hother
    obtain rfl : withExtension path = other := Except.ok.inj hother
    exact (if_neg (not_isFile_lookedFor regular h missing)).trans (if_pos hfile)

end

/-- What is found is read. -/
theorem readSource_of_findFile {path content : Bytes} (found : findFile files base file = .ok path)
    (hcontent : files.contentAt base path = .ok content) :
    ∃ source, readSource files base file = .ok (source, contentText content) := by
  unfold readSource
  rw [found]
  simp only [bind, Except.bind, hcontent, pure, Except.pure]
  exact ⟨_, rfl⟩

theorem exists_readSource (found : Findable files base file) :
    ∃ source text, readSource files base file = .ok (source, text) := by
  obtain ⟨path, hpath, hfile⟩ := found
  obtain ⟨node, hnode, kind⟩ := Files.isFile_iff.mp hfile
  obtain ⟨content, hcontent⟩ : ∃ content, files.contentAt base path = .ok content := by
    rw [Files.contentAt, hnode]
    rcases kind with ⟨mode, content, rfl⟩ | ⟨name, rfl⟩
    · exact ⟨content, rfl⟩
    · exact ⟨[], rfl⟩
  obtain ⟨source, hread⟩ := readSource_of_findFile (findFile_of_findable hpath hfile) hcontent
  exact ⟨source, contentText content, hread⟩

/-! ## Configurations -/

/-- The file that a configuration is read from: the one that is named, or the one at the usual place. -/
def sourceFile (root : String) (named : Option String) : String :=
  named.getD (Path.join root usualFile)

theorem ofSettings_defaultSettings : ofSettings defaultSettings = .ok default := rfl

section

variable {root : String} {named : Option String}

theorem fromSources_of_ok {source text : String}
    (h : readSource files base (sourceFile root named) = .ok (source, text)) :
    fromSources files base root named =
      (ofText source text).mapError fun problem => ⟨sourceFile root named, problem⟩ := by
  unfold sourceFile at h ⊢
  unfold fromSources
  simp only [h]

theorem fromSources_of_error {e : IoError}
    (h : readSource files base (sourceFile root named) = .error e) :
    fromSources files base root named =
      match named with
      | none => .ok default
      | some file => .error ⟨file, .unusable e.message⟩ := by
  unfold sourceFile at h
  unfold fromSources
  simp only [h]
  cases named with
  | none => exact congrArg (Except.mapError _) ofSettings_defaultSettings
  | some file => rfl

end

/-- A configuration file that is not there under its name is looked for beside it and nowhere else. If it
is not to be found there either, a root has the default configuration and a named file gives an error,
whatever other files there are; if it is, it is read as if it had been named. -/
theorem fromSources_of_missing {files : Files} (regular : files.Regular) {base : DirId} {root : String}
    {named : Option String}
    (missing : files.isFile base (Utf8.encode (sourceFile root named)) = false) :
    (¬ Findable files base (beside (sourceFile root named)) →
      (named = none → fromSources files base root named = .ok default) ∧
      ∀ file, named = some file →
        ∃ message, fromSources files base root named = .error ⟨file, .unusable message⟩) ∧
    (Findable files base (beside (sourceFile root named)) →
      fromSources files base root named =
        (fromSources files base root (some (beside (sourceFile root named)))).mapError fun e =>
          ⟨sourceFile root named, e.problem⟩) := by
  constructor
  · intro alone
    obtain ⟨e, he⟩ := findFile_of_missing regular missing alone
    have hread : readSource files base (sourceFile root named) = .error e := by
      rw [readSource, he]
      rfl
    rw [fromSources_of_error hread]
    constructor
    · rintro rfl
      rfl
    · rintro file rfl
      exact ⟨e.message, rfl⟩
  · intro found
    obtain ⟨source, text, hother⟩ := exists_readSource found
    have hread : readSource files base (sourceFile root named) = .ok (source, text) := by
      rw [← hother, readSource, readSource, findFile_beside regular missing found]
    rw [fromSources_of_ok hread]
    generalize beside (sourceFile root named) = other at hother ⊢
    have hnamed := @fromSources_of_ok files base root (some other) _ _ hother
    rw [hnamed]
    cases ofText source text <;> rfl

/-- A directory `r` with a configuration file for its root, and another one next to it, both of them with
`.toml` once too often. -/
def strayFiles : Files :=
  let text := Utf8.encode "[execution]\nlauncher = \x22z\x22\n"
  let inner : Node := .directory 2 [(Utf8.encode "simtest.toml.toml", .file 0o644 text)]
  ⟨.directory 0 [(Utf8.encode "r", .directory 1 [(Utf8.encode ".config", inner)]),
    (Utf8.encode "c.toml", .file 0o644 text)], [], 3, []⟩

theorem strayFiles_regular : strayFiles.Regular := by
  constructor
  case legal =>
    refine .directory (by decide +kernel) (by decide +kernel) ?_
    refine List.forall_mem_cons.mpr ⟨.directory (by decide +kernel) (by decide +kernel) ?_,
      List.forall_mem_singleton.mpr (.file _ _)⟩
    exact List.forall_mem_singleton.mpr
      (.directory (by decide +kernel) (by decide +kernel) (List.forall_mem_singleton.mpr (.file _ _)))
  case named =>
    refine .directory (by decide +kernel) ?_
    refine List.forall_mem_cons.mpr ⟨.directory (by decide +kernel) ?_,
      List.forall_mem_singleton.mpr (.leaf (by simp))⟩
    exact List.forall_mem_singleton.mpr
      (.directory (by decide +kernel) (List.forall_mem_singleton.mpr (.leaf (by simp))))
  case distinct => decide

/-- The root `s` has the default configuration, the root `r` the one beside the usual place. -/
theorem fromSources_of_missing_of_stray :
    fromSources strayFiles 0 "s" none = .ok default ∧
    fromSources strayFiles 0 "r" none =
      (fromSources strayFiles 0 "r" (some "r/.config/simtest.toml.toml")).mapError fun e =>
        ⟨"r/.config/simtest.toml", e.problem⟩ := by
  have hsource : sourceFile "r" none = "r/.config/simtest.toml" := by decide +kernel
  have hbeside : beside "r/.config/simtest.toml" = "r/.config/simtest.toml.toml" := by decide +kernel
  constructor
  · have result := @fromSources_of_missing strayFiles strayFiles_regular 0 "s" none (by decide +kernel)
    refine (result.1 fun found => ?_).1 rfl
    have there := isFile_of_findable strayFiles_regular found
    revert there
    decide +kernel
  · have result := @fromSources_of_missing strayFiles strayFiles_regular 0 "r" none (by decide +kernel)
    rw [hsource, hbeside] at result
    exact result.2 ⟨_, rfl, by decide +kernel⟩

/-- A file beside the usual place is taken for the configuration of a root that has none, and a file beside
a named one is taken for it. -/
theorem not_default_of_stray :
    ¬ (∀ files base root, files.isFile base (Utf8.encode (Path.join root usualFile)) = false →
      fromSources files base root none = .ok default) ∧
    ¬ (∀ files base root file, files.isFile base (Utf8.encode file) = false →
      ∃ e, fromSources files base root (some file) = .error e) := by
  constructor
  · intro defaulted
    have wrong := defaulted strayFiles 0 "r" (by decide +kernel)
    revert wrong
    decide +kernel
  · intro refused
    obtain ⟨e, wrong⟩ := refused strayFiles 0 "r" "c" (by decide +kernel)
    have right : fromSources strayFiles 0 "r" (some "c") = .ok { default with launcher := ⟨"z", []⟩ } := by
      decide +kernel
    rw [right] at wrong
    cases wrong

end Config

end BenchHarness
