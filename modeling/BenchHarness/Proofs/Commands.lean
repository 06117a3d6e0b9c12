import BenchHarness.Proofs.AcceptedMarkers
import BenchHarness.Proofs.Isolation
import BenchHarness.Proofs.RunningActions
import BenchHarness.Proofs.WorkingDirectory

/-!
# Commands that are refused

A test whose command cannot be started fails with the command, written as one line. Words that are joined
to a line are split again, whatever characters they have (`Words.split?_join`), so the line tells the
words: they are those of the one command that was tried, and no other words are written the same way
(`Config.refusal_tellsCommand`).
-/

namespace BenchHarness

namespace Words

/-! ## Words that are read back -/

/-- What a character that needs no quotes is not: it neither opens quotes nor escapes, and it neither
ends a word nor starts a comment. -/
structure Plain (c : Char) : Prop where
  quote : c ≠ '\x27'
  doubleQuote : c ≠ '\x22'
  backslash : c ≠ '\\'
  delimiter : isDelimiter c = false
  comment : c ≠ '#'

theorem plain_of_not_special {c : Char} (h : isSpecial c = false) : Plain c := by
  have other : ∀ d, isSpecial d = true → c ≠ d := by
    rintro d hd rfl
    exact absurd (h.symm.trans hd) Bool.false_ne_true
  constructor
  case quote => exact other _ (by decide)
  case doubleQuote => exact other _ (by decide)
  case backslash => exact other _ (by decide)
  case delimiter =>
    have space : c ≠ ' ' := other _ (by decide)
    have tab : c ≠ '\t' := other _ (by decide)
    have lineEnd : c ≠ '\n' := other _ (by decide)
    simp [isDelimiter, space, tab, lineEnd]
  case comment => exact other _ (by decide)

/-- Inside a word, a plain character stands for itself. -/
theorem splitFrom_unquoted_plain {c : Char} (plain : Plain c) (read rest : List Char) :
    splitFrom .unquoted read (c :: rest) = splitFrom .unquoted (c :: read) rest := by
  rw [splitFrom, if_neg plain.quote, if_neg plain.doubleQuote, if_neg plain.backslash,
    if_neg (by simp [plain.delimiter])]

/-- Between words, a plain character starts one. -/
theorem splitFrom_delimiter_plain {c : Char} (plain : Plain c) (rest : List Char) :
    splitFrom .delimiter [] (c :: rest) = splitFrom .unquoted [c] rest := by
  rw [splitFrom, if_neg plain.quote, if_neg plain.doubleQuote, if_neg plain.backslash,
    if_neg (by simp [plain.delimiter]), if_neg plain.comment]

theorem splitFrom_plain {word : List Char} (plain : ∀ c ∈ word, Plain c) (rest : List Char) :
    ∀ read, splitFrom .unquoted read (word ++ rest) =
      splitFrom .unquoted (word.reverse ++ read) rest := by
  induction word with
  | nil =>
    intro read
    rfl
  | cons c word ih =>
    intro read
    obtain ⟨hc, hword⟩ := List.forall_mem_cons.mp plain
    rw [List.cons_append, splitFrom_unquoted_plain hc, ih hword, List.reverse_cons,
      List.append_assoc]
    rfl

/-- Inside single quotes all characters stand for themselves, and a quote is put in from outside. -/
theorem splitFrom_quoteChar (c : Char) (read rest : List Char) :
    splitFrom .singleQuoted read (quoteChar c ++ rest) =
      splitFrom .singleQuoted (c :: read) rest := by
  by_cases quote : c = '\x27'
  · -- the quotes are closed, the quote is escaped, and they are opened again
    subst quote
    rfl
  · rw [quoteChar, if_neg quote, List.singleton_append, splitFrom, if_neg quote]

theorem splitFrom_quoted (word rest : List Char) :
    ∀ read, splitFrom .singleQuoted read (word.flatMap quoteChar ++ '\x27' :: rest) =
      splitFrom .unquoted (word.reverse ++ read) rest := by
  induction word with
  | nil =>
    intro read
    rfl
  | cons c word ih =>
    intro read
    rw [List.flatMap_cons, List.append_assoc, splitFrom_quoteChar, ih, List.reverse_cons,
      List.append_assoc]
    rfl

/-- A word as it is written is read as that word, up to where it may end. -/
theorem splitFrom_quote (word rest : List Char) :
    splitFrom .delimiter [] (quote word ++ rest) = splitFrom .unquoted word.reverse rest := by
  by_cases quoted : word = [] ∨ word.any isSpecial
  · have opened (text : List Char) :
        splitFrom .delimiter [] ('\x27' :: text) = splitFrom .singleQuoted [] text := rfl
    rw [quote, if_pos quoted, List.cons_append, List.append_assoc, List.singleton_append, opened,
      splitFrom_quoted, List.append_nil]
  · obtain ⟨nonempty, bare⟩ := not_or.mp quoted
    have plain : ∀ c ∈ word, Plain c := fun c hc =>
      plain_of_not_special (Bool.eq_false_iff.mpr fun h => bare (List.any_eq_true.mpr ⟨c, hc, h⟩))
    rw [quote, if_neg quoted]
    obtain ⟨c, word, rfl⟩ := List.exists_cons_of_ne_nil nonempty
    obtain ⟨hc, hword⟩ := List.forall_mem_cons.mp plain
    rw [List.cons_append, splitFrom_delimiter_plain hc, splitFrom_plain hword, List.reverse_cons]

/-- A blank ends a word. -/
theorem splitFrom_unquoted_blank (read rest : List Char) :
    splitFrom .unquoted read (' ' :: rest) =
      (splitFrom .delimiter [] rest).map (read.reverse :: ·) := rfl

/-- Words that are written with blanks between them are split again. -/
theorem splitFrom_intercalate (words : List (List Char)) :
    splitFrom .delimiter [] ([' '].intercalate (words.map quote)) = some words := by
  induction words with
  | nil => rfl
  | cons word rest ih =>
    by_cases last : rest = []
    · have hlast := splitFrom_quote word []
      rw [List.append_nil] at hlast
      rw [last, List.map_singleton, List.intercalate_singleton, hlast, splitFrom,
        List.reverse_reverse]
    · rw [List.map_cons, List.intercalate_cons_of_ne_nil (by simpa using last), List.append_assoc,
        splitFrom_quote, List.singleton_append, splitFrom_unquoted_blank, ih, List.reverse_reverse]
      rfl

/-- Words that are joined are split again, whatever they are. -/
theorem split?_join (words : List String) : split? (join words) = some words := by
  have written : (join words).toList = [' '].intercalate ((words.map String.toList).map quote) := by
    rw [join, String.toList_intercalate, List.map_map, List.map_map]
    simp [Function.comp_def]
  rw [split?, written, splitFrom_intercalate, Option.map_some, List.map_map]
  simp [Function.comp_def]

end Words

/-! ## Refused commands -/

namespace Runner

variable (r : Runner) (launch : Launch) (root : String) (entry : Entry)

/-- The line that a test fails with tells its command: that was refused, and no other was tried. -/
structure TellsCommand (w : World) (line : String) (e : IoError) : Prop where
  refused : ∃ command, r.request root entry w.machine = some command ∧
    launch command w.machine.files = .error e ∧ Words.split? line = some command.words
  words : Words.split? line = some (r.launcher.words ++ ["./" ++ entry.fileName])
  /-- Nothing but the command of the test is launched. -/
  only : r.LaunchesInPlace launch root entry w

/-- A test fails with a line exactly if its command is refused, and the line is made of its words. -/
theorem attempt_spawn_iff (m : Machine) (line : String) (e : IoError) :
    (r.attempt launch root entry m).1.failure = some (.spawn line e) ↔
      ∃ command, r.request root entry m = some command ∧
        launch command m.files = .error e ∧ line = Words.join command.words := by
  unfold attempt request
  cases path : m.currentDir with
  | error e' => simp [Outcome.ofFailure]
  | ok start =>
    cases entered : m.changeDir (Utf8.encode (entry.workingDir root)) with
    | error e' => simp [entered, Outcome.ofFailure]
    | ok inside =>
      obtain ⟨id, -, rfl⟩ := Machine.changeDir_eq_ok entered
      cases launched : launch (r.command entry (testDir m (entry.workingDir root))
          { m with cwd := id }) m.files with
      | error e' =>
        simp only [entered, launched, Outcome.ofFailure, Option.some.injEq, Failure.spawn.injEq,
          Except.error.injEq, exists_eq_left']
        constructor
        · rintro ⟨hline, he⟩
          exact ⟨he, hline.symm⟩
        · rintro ⟨he, hline⟩
          exact ⟨hline.symm, he⟩
      | ok left =>
        -- a process that was started fails in other ways
        have started : left.1.failure ≠ some (.spawn line e) := by
          intro failed
          obtain ⟨e', h | h | h⟩ := left.1.failure_cases failed
          all_goals cases h
        simpa [entered, launched, Outcome.ofRun] using started

variable {r launch root entry}

theorem tellsCommand_of_failed {w : World} {line : String} {e : IoError}
    (failed : (r.runTest launch root entry w).1.failure = some (.spawn line e)) :
    r.TellsCommand launch root entry w line e := by
  rw [(r.runTest_eq_attempt launch root entry w).1, attempt_spawn_iff] at failed
  obtain ⟨command, requested, refused, rfl⟩ := failed
  have only := r.launchesInPlace launch root entry w
  have hwords := Words.split?_join command.words
  refine ⟨⟨command, requested, refused, hwords⟩, ?_, only⟩
  rw [hwords, only.words command requested]

/-! ## Whole runs -/

variable (r launch root)

/-- Each outcome of several tests is that of one of them, run when it is its turn. -/
theorem exists_turn_of_mem_runEach {o : Outcome} (entries : List Entry) :
    ∀ w : World, o ∈ (r.runEach launch root entries w).1 →
      ∃ before, before ++ [o.entry] <+: entries ∧
        o = (r.runTest launch root o.entry (r.turnAfter launch root before w)).1 := by
  induction entries with
  | nil =>
    intro w member
    cases member
  | cons entry rest ih =>
    intro w member
    rcases List.mem_cons.mp member with rfl | member
    · exact ⟨[], ⟨rest, rfl⟩, rfl⟩
    · obtain ⟨before, within, ran⟩ := ih _ member
      exact ⟨entry :: before, (List.prefix_cons_inj entry).mpr within, ran⟩

variable {ε κ : Type} (follower : Follower ε κ) (selection : Selection) (s : RunState κ)

/-- The outcomes that are reported in a run, also in one that ends early, are those of its tests. -/
theorem reported_prefix :
    reported ((r.log launch follower selection s).map (·.1)) <+:
      (r.runEach launch selection.root selection.entries s.world).1 := by
  obtain ⟨deeds, within, htold, -⟩ := r.exists_done launch follower selection s
  have hforeseen : told deeds <+: r.foreseen launch selection s.world := by
    rw [← told_plan]
    exact within.filterMap _
  have hall : reported (r.foreseen launch selection s.world) =
      (r.runEach launch selection.root selection.entries s.world).1 :=
    reported_trace (r.length_runEach launch selection.root selection.entries s.world) _
  rw [← htold, ← hall]
  exact hforeseen.filterMap _

end Runner

/-! ## Configured launchers -/

namespace Config

/-- A line reports the words of a command: a test fails with it under an accepted configuration, whose
launcher and whose entry point make the words. -/
inductive Reports (line : String) : List String → Prop where
  | refused {files : Files} {base : DirId} {root : String} {named : Option String} {c : Config}
      {launch : Launch} {top : String} {entry : Entry} {w : World} {e : IoError}
      (accepted : fromSources files base root named = .ok c)
      (failed : (c.runner.runTest launch top entry w).1.failure = some (.spawn line e)) :
      Reports line (c.launcher.words ++ ["./" ++ entry.fileName])

theorem Reports.split {line : String} {words : List String} (reports : Reports line words) :
    Words.split? line = some words := by
  cases reports with
  | refused accepted failed => exact (Runner.tellsCommand_of_failed failed).words

variable {files : Files} {base : DirId} {root : String} {named : Option String} {c : Config}

theorem split?_of_check {rule : SubstringRule} {launcher marker : String}
    (checked : check rule launcher marker = .ok c) :
    Words.split? launcher = some c.launcher.words := by
  unfold check Launcher.ofLine at checked
  split at checked
  · cases checked
  split at checked
  · cases checked
  split at checked
  · cases checked
  · cases checked
  · rename_i program arguments hwords
    rw [← Except.ok.inj checked]
    exact hwords

/-- What a failure says of a refused command. An accepted configuration has passed the check, and its
launcher has the words of the line that was checked. A test that fails with a line tells its command by it:
splitting the line gives the words of the one command that was tried, the launcher's and the entry point's.
So does every test that is reported in a run, with the command of its turn. No line reports two commands
with different words. -/
theorem refusal_tellsCommand (accepted : fromSources files base root named = .ok c) :
    (∃ rule launcher marker, check rule launcher marker = .ok c ∧
        Words.split? launcher = some c.launcher.words) ∧
      (∀ (launch : Launch) (top : String) (entry : Entry) (w : World) (line : String) (e : IoError),
        (c.runner.runTest launch top entry w).1.failure = some (.spawn line e) →
          c.runner.TellsCommand launch top entry w line e) ∧
      (∀ (ε κ : Type) (follower : Follower ε κ) (launch : Launch) (selection : Selection)
        (s : RunState κ), ∀ o ∈ Runner.reported ((c.runner.log launch follower selection s).map (·.1)),
        ∀ line e, o.failure = some (.spawn line e) →
          ∃ before, before ++ [o.entry] <+: selection.entries ∧
            c.runner.TellsCommand launch selection.root o.entry
              (c.runner.turnAfter launch selection.root before s.world) line e) ∧
      ∀ line words others, Reports line words → Reports line others → words = others := by
  refine ⟨?_, fun _ _ _ _ _ _ failed => Runner.tellsCommand_of_failed failed, ?_, ?_⟩
  · obtain ⟨rule, launcher, marker, checked⟩ := exists_check_of_fromSources accepted
    exact ⟨rule, launcher, marker, checked, split?_of_check checked⟩
  · intro ε κ follower launch selection s o member line e failed
    have ran := (c.runner.reported_prefix launch follower selection s).subset member
    obtain ⟨before, within, hturn⟩ := c.runner.exists_turn_of_mem_runEach launch _ _ _ ran
    rw [hturn] at failed
    exact ⟨before, within, Runner.tellsCommand_of_failed failed⟩
  · intro line words others reports reports'
    exact Option.some.inj (reports.split.symm.trans reports'.split)

/-- The files of a directory with a configuration whose launcher has a blank in its name and an empty
argument, and an empty directory for a test. -/
def quotedFiles : Files :=
  let text := "[execution]\nlauncher = \x22\x27my tool\x27 \x27\x27 a#b\x22\n"
  ⟨.directory 0 [([0x63], .file 0o644 (Utf8.encode text)), ([0x74], .directory 1 [])], [], 2, []⟩

/-- The launcher is not there, and the entry point has a quote, a line end and a comment sign in its
name. -/
theorem refusal_tellsCommand_of_quotes :
    let w : World := ⟨⟨quotedFiles, 0, [], 0⟩, .buffers⟩
    let launch : Launch := fun _ _ => .error (.system .noEntry)
    ∃ c line, fromSources quotedFiles 0 "/" (some "/c") = .ok c ∧
      (c.runner.runTest launch "/" ⟨"t/it\x27s\n#1"⟩ w).1.failure =
        some (.spawn line (.system .noEntry)) ∧
      line = "\x27my tool\x27 \x27\x27 \x27a#b\x27 \x27./it\x27\\\x27\x27s\n#1\x27" ∧
      Words.split? line = some ["my tool", "", "a#b", "./it\x27s\n#1"] := by
  intro w launch
  have accepted : fromSources quotedFiles 0 "/" (some "/c") =
      .ok { default with launcher := ⟨"my tool", ["", "a#b"]⟩ } := by decide +kernel
  obtain ⟨-, told, -, -⟩ := refusal_tellsCommand accepted
  have failed : (({ default with launcher := ⟨"my tool", ["", "a#b"]⟩ } : Config).runner.runTest
      launch "/" ⟨"t/it\x27s\n#1"⟩ w).1.failure = some (.spawn _ (.system .noEntry)) := rfl
  refine ⟨_, _, accepted, failed, by decide +kernel, ?_⟩
  rw [(told launch "/" ⟨"t/it\x27s\n#1"⟩ w _ _ failed).words]
  decide +kernel

end Config

end BenchHarness
