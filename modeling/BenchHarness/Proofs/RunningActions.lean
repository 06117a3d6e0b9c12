import BenchHarness.Proofs.Protocol
import BenchHarness.Proofs.Verdict

/-!
# Which actions run tests

An action says whether it runs tests, but a run does not ask: it starts the tests of its selection
in order, each announced before it is run, whatever the action is (`Runner.started_of_action`). The
command line does ask, and starts nothing for an action that runs no tests. A selection for help has
no tests, so it makes no difference there; a selection for listing has all of them, and a run that is
given one starts them all (`Runner.started_listOnly`).
-/

namespace BenchHarness

/-! ## Tests that are started in a run -/

namespace Runner

/-- The tests that some events say are started. -/
def startedIn (events : List Event) : List Entry :=
  events.filterMap fun
    | .testStarted entry _ => some entry
    | _ => none

theorem startedIn_append (before after : List Event) :
    startedIn (before ++ after) = startedIn before ++ startedIn after := List.filterMap_append

theorem startedIn_tests (root : String) (tests : List (Entry × Outcome)) :
    startedIn (tests.flatMap fun (entry, outcome) =>
      [.testStarted entry (entry.workingDir root), .testFinished outcome]) =
        tests.map (·.1) := by
  induction tests with
  | nil => rfl
  | cons test rest ih =>
    rw [List.flatMap_cons, List.map_cons, ← ih]
    rfl

theorem startedIn_trace {selection : Selection} {outcomes : List Outcome}
    (hlen : outcomes.length = selection.entries.length) (elapsed : Nat) :
    startedIn (trace selection outcomes elapsed) = selection.entries := by
  have hfirst : (selection.entries.zip outcomes).map (·.1) = selection.entries :=
    List.map_fst_zip (by omega)
  rw [← startedIn_tests selection.root] at hfirst
  rw [trace, startedIn_append]
  show startedIn _ ++ [] = _
  rw [List.append_nil]
  exact hfirst

theorem startedIn_foreseen (r : Runner) (launch : Launch) (selection : Selection) (w : World) :
    startedIn (r.foreseen launch selection w) = selection.entries :=
  startedIn_trace (r.length_runEach launch selection.root selection.entries w) _

/-- However far the deeds about some tests are done, no test is run that was not announced. -/
theorem tested_prefix_startedIn (root : String) (tests : List (Entry × Outcome)) (last : Event) :
    ∀ {deeds : List Deed}, deeds <+: testDeeds root tests ++ [.tell last] →
      tested deeds <+: startedIn (told deeds) := by
  induction tests with
  | nil =>
    intro deeds within
    match deeds, within with
    | [], _ => exact List.nil_prefix
    | deed :: deeds, within =>
      obtain ⟨rfl, hrest⟩ := List.cons_prefix_cons.mp within
      obtain rfl := List.prefix_nil.mp hrest
      exact List.nil_prefix
  | cons test rest ih =>
    intro deeds within
    obtain ⟨entry, outcome⟩ := test
    -- a test has three deeds: it is announced, run and reported
    match deeds, within with
    | [], _ => exact List.nil_prefix
    | [deed], within =>
      obtain ⟨rfl, -⟩ := List.cons_prefix_cons.mp within
      exact List.nil_prefix
    | [first, second], within =>
      obtain ⟨rfl, hrest⟩ := List.cons_prefix_cons.mp within
      obtain ⟨rfl, -⟩ := List.cons_prefix_cons.mp hrest
      exact List.prefix_rfl
    | first :: second :: third :: deeds, within =>
      obtain ⟨rfl, afterFirst⟩ := List.cons_prefix_cons.mp within
      obtain ⟨rfl, afterSecond⟩ := List.cons_prefix_cons.mp afterFirst
      obtain ⟨rfl, afterThird⟩ := List.cons_prefix_cons.mp afterSecond
      exact List.cons_prefix_cons.mpr ⟨rfl, @ih deeds afterThird⟩

theorem tested_prefix_of_plan (r : Runner) (launch : Launch) (selection : Selection) (w : World)
    {deeds : List Deed} (within : deeds <+: r.plan launch selection w) :
    tested deeds <+: startedIn (told deeds) := by
  cases deeds with
  | nil => exact List.nil_prefix
  | cons deed deeds =>
    obtain ⟨rfl, hrest⟩ := List.cons_prefix_cons.mp within
    show tested deeds <+: startedIn (told deeds)
    exact tested_prefix_startedIn _ _ _ hrest

variable {ε κ : Type} (r : Runner) (launch : Launch) (follower : Follower ε κ)
  (selection : Selection) (s : RunState κ)

/-- The tests that are started in a run: those that the follower is told of. -/
def started : List Entry := startedIn ((r.log launch follower selection s).map (·.1))

/-- What is done in a run: a part of its plan, of which the follower is told. -/
theorem exists_done :
    ∃ deeds, deeds <+: r.plan launch selection s.world ∧
      told deeds = (r.log launch follower selection s).map (·.1) ∧
      (r.tryExecute launch follower selection s).2 =
        deeds.foldl (r.perform launch selection.root follower) s := by
  have hresult := r.tryExecute_eq_follow launch follower selection s
  have ending := (r.tryExecute_logged launch follower selection s).2
  generalize r.follow launch selection.root follower (r.plan launch selection s.world) s = final
    at ending hresult
  generalize r.log launch follower selection s = log at ending ⊢
  cases ending with
  | done =>
    refine ⟨_, List.prefix_rfl, ?_, ?_⟩
    · simp [Function.comp_def]
    · rw [hresult]
  | stopped before e after objection split =>
    refine ⟨before ++ [.tell e], ⟨after, by rw [split]; simp⟩, ?_, ?_⟩
    · rw [told_append]
      simp [Function.comp_def, told, Deed.event?]
    · rw [hresult]

theorem started_prefix : r.started launch follower selection s <+: selection.entries := by
  obtain ⟨deeds, ⟨rest, hplan⟩, htold, -⟩ := r.exists_done launch follower selection s
  rw [started, ← htold, ← r.startedIn_foreseen launch selection s.world, ← told_plan, ← hplan,
    told_append, startedIn_append]
  exact List.prefix_append _ _

theorem started_of_quiet
    (quiet : ∀ heard ∈ r.log launch follower selection s, heard.2 = none) :
    r.started launch follower selection s = selection.entries := by
  rw [started, (r.completed_of_quiet launch follower selection s quiet).heard, startedIn_foreseen]

/-- Without tests there is nothing to launch. -/
theorem tryExecute_nil (root : String) (action : Action) (launch' : Launch) :
    r.tryExecute launch' follower ⟨root, action, []⟩ s =
      r.tryExecute launch follower ⟨root, action, []⟩ s := rfl

end Runner

/-! ## Actions of the command line -/

namespace CommandLine

variable {engine : Engine} {a : Arguments} {colours : Colours} {w : World}

theorem machine_prepare_error {e : CommandFailure} {w' : World}
    (failed : prepare a w = .error (e, w')) : w'.machine = w.machine := by
  cases resolved : resolveRoot w.machine a.root with
  | error unresolved =>
    rw [prepare_of_root_error resolved] at failed
    cases failed
    rfl
  | ok root =>
    cases configured : Config.fromSources w.machine.files w.machine.cwd root a.configFile with
    | error rejected =>
      rw [prepare_of_config_error resolved configured] at failed
      cases failed
      rfl
    | ok config =>
      cases discovered : TestList.discover config.rule.classifier root
        (w.machine.files.rootView w.machine.cwd root) with
      | error undiscovered =>
        rw [prepare_of_discovery_error resolved configured discovered] at failed
        cases failed
        rfl
      | ok found =>
        obtain ⟨tests, notes⟩ := found
        simp only [prepare, resolved, configured, bind, Except.bind, Except.mapError, discovered,
          pure, Except.pure, reduceCtorEq] at failed

theorem machine_prepare {config : Config} {tests : TestList} {w' : World}
    (prepared : prepare a w = .ok (config, tests, w')) : w'.machine = w.machine := by
  obtain ⟨-, -, notes, -, -, -, rfl⟩ := prepare_eq_ok prepared
  rfl

/-- For an action that runs no tests, nothing is launched and the machine is left alone. -/
theorem execute_of_not_runsTests (silent : a.action.runsTests = false) (launch launch' : Launch) :
    execute engine launch' a colours w = execute engine launch a colours w ∧
      (execute engine launch a colours w).2.machine = w.machine := by
  cases a.means with
  | help mode action =>
    have hexecute (launch : Launch) :
        execute engine launch a colours w = showModes colours w := by
      rw [execute, action]
    refine ⟨(hexecute launch').trans (hexecute launch).symm, ?_⟩
    rw [hexecute, showModes, afterWriting_snd]
  | list mode action =>
    rw [execute_of_ordinary (.inl mode), execute_of_ordinary (.inl mode)]
    cases prepared : prepare a w with
    | error failed => exact ⟨rfl, machine_prepare_error prepared⟩
    | ok found =>
      obtain ⟨config, tests, w'⟩ := found
      simp only [action]
      have same := machine_prepare prepared
      refine ⟨trivial, ?_⟩
      rw [listTests, afterWriting_snd]
      exact same
  | run noHelp noList runs picks =>
    rcases runs with action | ⟨text, action⟩
    · simp [action, Action.runsTests] at silent
    · simp [action, Action.runsTests] at silent

end CommandLine

/-! ## Actions and runs -/

namespace Runner

variable {ε κ : Type} (r : Runner) (launch : Launch) (follower : Follower ε κ)

/-- What is started for an action. A run starts the tests that the action is about, up to where its
follower objects, and announces each before it is run; it does not ask whether the action runs tests.
There are no tests for help, and all of them for a list. The command line does ask: whatever launching
would do, it does the same for an action that runs no tests, and leaves the machine alone. -/
theorem started_of_action (tests : TestList) (action : Action) (s : RunState κ) :
    let selection := Selection.ofAction tests action
    let started := r.started launch follower selection s
    (∃ deeds, (r.tryExecute launch follower selection s).2 =
        deeds.foldl (r.perform launch tests.root follower) s ∧ tested deeds <+: started) ∧
      started <+: action.pick tests.entries ∧
      ((∀ heard ∈ r.log launch follower selection s, heard.2 = none) →
        started = action.pick tests.entries) ∧
      (action = .showHelp → started = [] ∧ ∀ launch',
        r.tryExecute launch' follower selection s = r.tryExecute launch follower selection s) ∧
      ∀ (engine : Engine) (a : Arguments) (colours : Colours) (w : World),
        a.action.runsTests = false → ∀ launch',
          CommandLine.execute engine launch' a colours w =
              CommandLine.execute engine launch a colours w ∧
            (CommandLine.execute engine launch a colours w).2.machine = w.machine := by
  intro selection started
  refine ⟨?_, ?_, ?_, ?_, ?_⟩
  · obtain ⟨deeds, within, htold, hdone⟩ := r.exists_done launch follower selection s
    refine ⟨deeds, hdone, ?_⟩
    show tested deeds <+: startedIn _
    rw [← htold]
    exact r.tested_prefix_of_plan launch selection s.world within
  · exact r.started_prefix launch follower selection s
  · exact r.started_of_quiet launch follower selection s
  · rintro rfl
    exact ⟨List.prefix_nil.mp (r.started_prefix launch follower selection s),
      r.tryExecute_nil launch follower s tests.root .showHelp⟩
  · intro engine a colours w silent launch'
    exact CommandLine.execute_of_not_runsTests silent launch launch'

/-- Two tests and a follower that never objects: a run for a list starts both, a run for help
neither. -/
theorem started_of_action_of_two_tests :
    let r : Runner := ⟨⟨"sh", []⟩, "ok"⟩
    let launch : Launch := fun _ files => .ok (⟨[], [], [], some 0, 1, .none⟩, files)
    let patient : Follower Unit Unit := fun _ state => (state, none)
    let tests : TestList := ⟨"/", [⟨"a/go.sh"⟩, ⟨"b/go.sh"⟩]⟩
    let machine : Machine := ⟨⟨.directory 0 [([0x61], .directory 1 [])], [], 2, []⟩, 0, [], 0⟩
    let s : RunState Unit := ⟨⟨machine, .buffers⟩, ()⟩
    r.started launch patient (.ofAction tests .listOnly) s = [⟨"a/go.sh"⟩, ⟨"b/go.sh"⟩] ∧
      r.started launch patient (.ofAction tests .showHelp) s = [] := by
  intro r launch patient tests machine s
  obtain ⟨-, -, all, -, -⟩ := r.started_of_action launch patient tests .listOnly s
  obtain ⟨-, -, -, none, -⟩ := r.started_of_action launch patient tests .showHelp s
  exact ⟨all (r.quiet_of_patient launch patient _ s fun _ _ => rfl), (none rfl).1⟩

/-- A list is not meant to run anything, and yet its test is announced, launched and counted. -/
theorem started_listOnly :
    let r : Runner := ⟨⟨"sh", []⟩, "ok"⟩
    let launch : Launch := fun _ files => .ok (⟨[[0x6f, 0x6b]], [], [], some 0, 7, .none⟩, files)
    let patient : Follower Unit Unit := fun _ state => (state, none)
    let selection := Selection.ofMode ⟨"/", [⟨"t/go.sh"⟩]⟩ (some "list")
    let machine : Machine := ⟨⟨.directory 0 [([0x74], .directory 1 [])], [], 2, []⟩, 0, [], 0⟩
    let s : RunState Unit := ⟨⟨machine, .buffers⟩, ()⟩
    selection.action = .listOnly ∧ selection.action.runsTests = false ∧
      r.started launch patient selection s = [⟨"t/go.sh"⟩] ∧
      (r.tryExecute launch patient selection s).1 = .ok ⟨1, 1, 0, []⟩ ∧
      (r.tryExecute launch patient selection s).2.world.machine.now = 7 := by
  intro r launch patient selection machine s
  exact ⟨rfl, rfl, rfl, by decide, by decide⟩

end Runner

end BenchHarness
