import BenchHarness.Proofs.Attempt

/-!
# Runs of several tests

A run tells its follower about every test, and yet what happens in it is fixed in advance: a follower
can end a run but not change what a test does. So a run is a script of deeds, events to be told and
tests to be run, that is followed up to the first objection (`Runner.tryExecute_eq_follow`). The
outcomes in the script are those of running the tests one after another (`Runner.runEach`).
-/

namespace BenchHarness

namespace Runner

variable {ε κ : Type} (r : Runner) (launch : Launch) (root : String)

/-! ## One test after another -/

/-- Runs tests one after another, telling nobody. -/
def runEach : List Entry → World → List Outcome × World
  | [], w => ([], w)
  | entry :: rest, w =>
    let first := r.runTest launch root entry w
    let others := runEach rest first.2
    (first.1 :: others.1, others.2)

theorem runTest_congr (entry : Entry) {w w' : World} (same : w.machine = w'.machine) :
    (r.runTest launch root entry w).1 = (r.runTest launch root entry w').1 ∧
      (r.runTest launch root entry w).2.machine = (r.runTest launch root entry w').2.machine := by
  obtain ⟨houtcome, hmachine⟩ := r.runTest_eq_attempt launch root entry w
  obtain ⟨houtcome', hmachine'⟩ := r.runTest_eq_attempt launch root entry w'
  rw [houtcome, hmachine, houtcome', hmachine', same]
  exact ⟨rfl, rfl⟩

/-- The outcomes of several tests and the machine they leave do not depend on the console. -/
theorem runEach_congr (entries : List Entry) :
    ∀ {w w' : World}, w.machine = w'.machine →
      (r.runEach launch root entries w).1 = (r.runEach launch root entries w').1 ∧
        (r.runEach launch root entries w).2.machine =
          (r.runEach launch root entries w').2.machine := by
  induction entries with
  | nil =>
    intro w w' same
    exact ⟨rfl, same⟩
  | cons entry rest ih =>
    intro w w' same
    obtain ⟨hfirst, hmachine⟩ := r.runTest_congr launch root entry same
    obtain ⟨hothers, hlast⟩ := ih hmachine
    refine ⟨?_, hlast⟩
    show _ :: _ = _ :: _
    rw [hfirst, hothers]

theorem map_entry_runEach (entries : List Entry) :
    ∀ w : World, (r.runEach launch root entries w).1.map (·.entry) = entries := by
  induction entries with
  | nil =>
    intro w
    rfl
  | cons entry rest ih =>
    intro w
    show entry :: _ = _
    rw [ih]

theorem length_runEach (entries : List Entry) (w : World) :
    (r.runEach launch root entries w).1.length = entries.length := by
  rw [← congrArg List.length (r.map_entry_runEach launch root entries w), List.length_map]

/-! ## Deeds -/

/-- Something that is done in a run. -/
inductive Deed where
  /-- The follower is told an event. -/
  | tell (e : Event)
  /-- A test is run. -/
  | test (entry : Entry)

namespace Deed

/-- The event that is told. -/
def event? : Deed → Option Event
  | .tell e => some e
  | .test _ => none

/-- The test that is run. -/
def entry? : Deed → Option Entry
  | .tell _ => none
  | .test entry => some entry

end Deed

/-- The events told by some deeds. -/
def told (deeds : List Deed) : List Event := deeds.filterMap Deed.event?

/-- The tests run by some deeds. -/
def tested (deeds : List Deed) : List Entry := deeds.filterMap Deed.entry?

/-- The deeds about some tests: each is announced, run and reported. -/
def testDeeds : List (Entry × Outcome) → List Deed
  | [] => []
  | (entry, outcome) :: rest =>
    .tell (.testStarted entry (entry.workingDir root)) :: .test entry ::
      .tell (.testFinished outcome) :: testDeeds rest

/-- The deeds of a whole run in which the tests have some outcomes. -/
def script (selection : Selection) (outcomes : List Outcome) (elapsed : Nat) : List Deed :=
  .tell (.runStarted selection) :: (testDeeds selection.root (selection.entries.zip outcomes) ++
    [.tell (.runFinished (Summary.ofOutcomes outcomes) elapsed)])

variable (follower : Follower ε κ)

/-- The state after a deed, with no regard to objections. -/
def perform (s : RunState κ) : Deed → RunState κ
  | .tell e => (tell follower e s).1
  | .test entry => { s with world := (r.runTest launch root entry s.world).2 }

/-- Does one deed after another until the follower objects. -/
def follow : List Deed → RunState κ → Option ε × RunState κ
  | [], s => (none, s)
  | .tell e :: rest, s =>
    match tell follower e s with
    | (s, some objection) => (some objection, s)
    | (s, none) => follow rest s
  | .test entry :: rest, s => follow rest (r.perform launch root follower s (.test entry))

theorem tell_machine (e : Event) (s : RunState κ) :
    (tell follower e s).1.world.machine = s.world.machine := rfl

section

variable {r launch root follower}

theorem follow_tell_of_quiet {e : Event} {s : RunState κ} (quiet : (tell follower e s).2 = none)
    (rest : List Deed) :
    r.follow launch root follower (.tell e :: rest) s =
      r.follow launch root follower rest (tell follower e s).1 := by
  rw [follow]
  rcases h : tell follower e s with ⟨s', objection⟩
  rw [h] at quiet
  obtain rfl : objection = none := quiet
  rfl

theorem follow_tell_of_objection {e : Event} {s : RunState κ} {objection : ε}
    (loud : (tell follower e s).2 = some objection) (rest : List Deed) :
    r.follow launch root follower (.tell e :: rest) s =
      (some objection, (tell follower e s).1) := by
  rw [follow]
  rcases h : tell follower e s with ⟨s', answer⟩
  rw [h] at loud
  obtain rfl : answer = some objection := loud
  rfl

end

theorem follow_test (entry : Entry) (rest : List Deed) (s : RunState κ) :
    r.follow launch root follower (.test entry :: rest) s =
      r.follow launch root follower rest (r.perform launch root follower s (.test entry)) := rfl

theorem perform_test_machine (entry : Entry) (s : RunState κ) :
    (r.perform launch root follower s (.test entry)).world.machine =
      (r.runTest launch root entry s.world).2.machine := rfl

theorem follow_append (before after : List Deed) :
    ∀ s : RunState κ, r.follow launch root follower (before ++ after) s =
      match r.follow launch root follower before s with
      | (some objection, s') => (some objection, s')
      | (none, s') => r.follow launch root follower after s' := by
  induction before with
  | nil =>
    intro s
    rfl
  | cons deed before ih =>
    intro s
    cases deed with
    | test entry => exact ih _
    | tell e =>
      rw [List.cons_append]
      cases answer : (tell follower e s).2 with
      | none =>
        rw [follow_tell_of_quiet answer, follow_tell_of_quiet answer]
        exact ih _
      | some objection =>
        rw [follow_tell_of_objection answer, follow_tell_of_objection answer]

/-- Without an objection all deeds are done. -/
theorem follow_of_quiet (deeds : List Deed) :
    ∀ s : RunState κ, (r.follow launch root follower deeds s).1 = none →
      (r.follow launch root follower deeds s).2 =
        deeds.foldl (r.perform launch root follower) s := by
  induction deeds with
  | nil =>
    intro s _
    rfl
  | cons deed deeds ih =>
    intro s quiet
    cases deed with
    | test entry => exact ih _ quiet
    | tell e =>
      cases answer : (tell follower e s).2 with
      | none =>
        rw [follow_tell_of_quiet answer] at quiet ⊢
        exact ih _ quiet
      | some objection =>
        rw [follow_tell_of_objection answer] at quiet
        simp at quiet

/-- A follower that does not object to what it sees as long as the console is in order, and keeps it
so, does not object at all. -/
theorem follow_quiet {P : Console → Prop}
    (htell : ∀ e console k, P console →
      (follower e (console, k)).2 = none ∧ P (follower e (console, k)).1.1)
    (htest : ∀ entry (w : World), P w.console → P (r.runTest launch root entry w).2.console)
    (deeds : List Deed) :
    ∀ s : RunState κ, P s.world.console → (r.follow launch root follower deeds s).1 = none ∧
      P (r.follow launch root follower deeds s).2.world.console := by
  induction deeds with
  | nil =>
    intro s h
    exact ⟨rfl, h⟩
  | cons deed deeds ih =>
    intro s h
    cases deed with
    | test entry => exact ih _ (htest entry s.world h)
    | tell e =>
      obtain ⟨hquiet, hkept⟩ := htell e s.world.console s.follower h
      have answer : (tell follower e s).2 = none := hquiet
      rw [follow_tell_of_quiet answer]
      exact ih _ hkept

/-- Deeds leave the machine that their tests leave, one run after another. -/
theorem foldl_perform_machine (deeds : List Deed) :
    ∀ s : RunState κ, (deeds.foldl (r.perform launch root follower) s).world.machine =
      (r.runEach launch root (tested deeds) s.world).2.machine := by
  induction deeds with
  | nil =>
    intro s
    rfl
  | cons deed deeds ih =>
    intro s
    rw [List.foldl_cons, ih]
    cases deed with
    | test entry => rfl
    | tell e => exact (r.runEach_congr launch root (tested deeds) (tell_machine follower e s)).2

theorem tested_testDeeds (entries : List Entry) :
    ∀ outcomes : List Outcome, outcomes.length = entries.length →
      tested (testDeeds root (entries.zip outcomes)) = entries := by
  induction entries with
  | nil =>
    intro outcomes _
    rfl
  | cons entry rest ih =>
    intro outcomes hlen
    cases outcomes with
    | nil => simp at hlen
    | cons outcome outcomes =>
      show entry :: tested (testDeeds root (rest.zip outcomes)) = _
      rw [ih outcomes (by simpa using hlen)]

/-! ## What a script says -/

/-- The events of a run in which nobody objects. -/
def trace (selection : Selection) (outcomes : List Outcome) (elapsed : Nat) : List Event :=
  .runStarted selection ::
    ((selection.entries.zip outcomes).flatMap fun (entry, outcome) =>
      [.testStarted entry (entry.workingDir selection.root), .testFinished outcome]) ++
    [.runFinished (Summary.ofOutcomes outcomes) elapsed]

theorem told_testDeeds (tests : List (Entry × Outcome)) :
    told (testDeeds root tests) = tests.flatMap fun (entry, outcome) =>
      [.testStarted entry (entry.workingDir root), .testFinished outcome] := by
  induction tests with
  | nil => rfl
  | cons test rest ih =>
    rw [List.flatMap_cons, ← ih]
    rfl

theorem told_append (before after : List Deed) :
    told (before ++ after) = told before ++ told after := List.filterMap_append

/-- A script tells the whole trace. -/
theorem told_script (selection : Selection) (outcomes : List Outcome) (elapsed : Nat) :
    told (script selection outcomes elapsed) = trace selection outcomes elapsed := by
  rw [trace, ← told_testDeeds]
  show _ :: told (_ ++ _) = _
  rw [told_append]
  rfl

/-- A script has every test run. -/
theorem tested_script {selection : Selection} {outcomes : List Outcome}
    (hlen : outcomes.length = selection.entries.length) (elapsed : Nat) :
    tested (script selection outcomes elapsed) = selection.entries := by
  show tested (_ ++ _) = _
  rw [tested, List.filterMap_append]
  show tested _ ++ [] = _
  rw [List.append_nil, tested_testDeeds _ _ _ hlen]

/-- A run of `m` tests has `2 * m + 2` events. -/
theorem length_trace {selection : Selection} {outcomes : List Outcome}
    (hlen : outcomes.length = selection.entries.length) (elapsed : Nat) :
    (trace selection outcomes elapsed).length = 2 * selection.entries.length + 2 := by
  simp [trace, List.length_flatMap, hlen]
  omega

/-- The outcomes among some events. -/
def reported (events : List Event) : List Outcome :=
  events.filterMap fun
    | .testFinished outcome => some outcome
    | _ => none

theorem reported_tests (tests : List (Entry × Outcome)) :
    reported (tests.flatMap fun (entry, outcome) =>
      [.testStarted entry (entry.workingDir root), .testFinished outcome]) =
        tests.map (·.2) := by
  induction tests with
  | nil => rfl
  | cons test rest ih =>
    rw [List.flatMap_cons, List.map_cons, ← ih]
    rfl

theorem reported_trace {selection : Selection} {outcomes : List Outcome}
    (hlen : outcomes.length = selection.entries.length) (elapsed : Nat) :
    reported (trace selection outcomes elapsed) = outcomes := by
  have hsecond : (selection.entries.zip outcomes).map (·.2) = outcomes :=
    List.map_snd_zip (by omega)
  rw [← reported_tests selection.root] at hsecond
  rw [trace, reported, List.filterMap_append]
  show reported _ ++ [] = _
  rw [List.append_nil]
  exact hsecond

/-- Before an event, every second one of the events about tests has been about a test that has
already run. -/
theorem tested_of_testDeeds_split (last : Event) (tests : List (Entry × Outcome)) :
    ∀ {before : List Deed} {e : Event} {after : List Deed},
      testDeeds root tests ++ [.tell last] = before ++ .tell e :: after →
        tested before = (tests.map (·.1)).take (((told before).length + 1) / 2) := by
  induction tests with
  | nil =>
    intro before e after split
    cases before with
    | nil => rfl
    | cons deed before => simp [testDeeds] at split
  | cons test rest ih =>
    intro before e after split
    obtain ⟨entry, outcome⟩ := test
    -- a test has three deeds, so the event stands before, between or after those of the first one
    match before, split with
    | [], _ => simp [tested, told]
    | [deed], split => simp [testDeeds] at split
    | [first, second], split =>
      simp only [testDeeds, List.cons_append, List.nil_append, List.cons.injEq] at split
      obtain ⟨rfl, rfl, -⟩ := split
      have hcount : (told [.tell (.testStarted entry (entry.workingDir root)), .test entry]).length
          = 1 := rfl
      rw [hcount]
      rfl
    | first :: second :: third :: before, split =>
      simp only [testDeeds, List.cons_append, List.cons.injEq] at split
      obtain ⟨rfl, rfl, rfl, split⟩ := split
      have hbefore := ih split
      show entry :: tested before = _
      have hcount : (told (.tell (.testStarted entry (entry.workingDir root)) :: .test entry ::
          .tell (.testFinished outcome) :: before)).length = (told before).length + 2 := rfl
      rw [hcount, hbefore, List.map_cons,
        show ((told before).length + 2 + 1) / 2 = ((told before).length + 1) / 2 + 1 by omega,
        List.take_succ_cons]

/-- How many tests have run before an event of a run. -/
theorem tested_of_script_split {selection : Selection} {outcomes : List Outcome} {elapsed : Nat}
    (hlen : outcomes.length = selection.entries.length) {before : List Deed} {e : Event}
    {after : List Deed} (split : script selection outcomes elapsed = before ++ .tell e :: after) :
    tested before = selection.entries.take ((told before).length / 2) := by
  cases before with
  | nil => rfl
  | cons deed before =>
    simp only [script, List.cons_append, List.cons.injEq] at split
    obtain ⟨rfl, split⟩ := split
    have hbefore := tested_of_testDeeds_split _ _ _ split
    rw [List.map_fst_zip (by omega)] at hbefore
    exact hbefore

/-! ## Runs follow their script -/

theorem runEntries_cons (entry : Entry) (rest : List Entry) (done : List Outcome)
    (s : RunState κ) :
    r.runEntries launch follower root (entry :: rest) done s =
      match tell follower (.testStarted entry (entry.workingDir root)) s with
      | (s₁, some objection) => (.error objection, s₁)
      | (s₁, none) =>
        let outcome := (r.runTest launch root entry s₁.world).1
        match tell follower (.testFinished outcome)
          (r.perform launch root follower s₁ (.test entry)) with
        | (s₂, some objection) => (.error objection, s₂)
        | (s₂, none) => r.runEntries launch follower root rest (done ++ [outcome]) s₂ := rfl

/-- Running tests and telling a follower is following the deeds about them. -/
theorem runEntries_eq_follow (entries : List Entry) :
    ∀ (done : List Outcome) (s : RunState κ),
      r.runEntries launch follower root entries done s =
        match r.follow launch root follower
          (testDeeds root (entries.zip (r.runEach launch root entries s.world).1)) s with
        | (some objection, s') => (.error objection, s')
        | (none, s') => (.ok (done ++ (r.runEach launch root entries s.world).1), s') := by
  induction entries with
  | nil =>
    intro done s
    simp [runEntries, runEach, testDeeds, follow]
  | cons entry rest ih =>
    intro done s
    have hstarted := tell_machine follower (.testStarted entry (entry.workingDir root)) s
    rw [runEntries_cons, runEach, List.zip_cons_cons, testDeeds, follow]
    generalize tell follower (.testStarted entry (entry.workingDir root)) s = started at hstarted ⊢
    rcases started with ⟨s₁, _ | objection⟩
    · -- the follower has left the machine alone, so this outcome and the others are as foreseen
      replace hstarted : s₁.world.machine = s.world.machine := hstarted
      obtain ⟨houtcome, hmachine⟩ := r.runTest_congr launch root entry hstarted
      have hfinished := tell_machine follower
        (.testFinished (r.runTest launch root entry s₁.world).1)
        (r.perform launch root follower s₁ (.test entry))
      simp only [follow_test, ← houtcome]
      rw [follow]
      generalize tell follower (.testFinished (r.runTest launch root entry s₁.world).1)
        (r.perform launch root follower s₁ (.test entry)) = finished at hfinished ⊢
      rcases finished with ⟨s₂, _ | objection⟩
      · replace hfinished : s₂.world.machine =
          (r.perform launch root follower s₁ (.test entry)).world.machine := hfinished
        rw [perform_test_machine] at hfinished
        have hothers := (r.runEach_congr launch root rest (hfinished.trans hmachine)).1
        simp only [ih, hothers, List.append_assoc, List.singleton_append]
      · rfl
    · rfl

/-- The events of a run if nobody objects, as they are fixed when it starts. -/
def foreseen (selection : Selection) (w : World) : List Event :=
  let each := r.runEach launch selection.root selection.entries w
  trace selection each.1 (each.2.machine.now - w.machine.now)

/-- The deeds of a run if nobody objects. -/
def plan (selection : Selection) (w : World) : List Deed :=
  let each := r.runEach launch selection.root selection.entries w
  script selection each.1 (each.2.machine.now - w.machine.now)

theorem told_plan (selection : Selection) (w : World) :
    told (r.plan launch selection w) = r.foreseen launch selection w := told_script selection _ _

/-- A plan has every test of the selection run. -/
theorem tested_plan (selection : Selection) (w : World) :
    tested (r.plan launch selection w) = selection.entries :=
  tested_script (r.length_runEach launch selection.root selection.entries w) _

theorem length_foreseen (selection : Selection) (w : World) :
    (r.foreseen launch selection w).length = 2 * selection.entries.length + 2 :=
  length_trace (r.length_runEach launch selection.root selection.entries w) _

/-- A run follows a plan that is fixed before it starts. -/
theorem tryExecute_eq_follow (selection : Selection) (s : RunState κ) :
    r.tryExecute launch follower selection s =
      match r.follow launch selection.root follower (r.plan launch selection s.world) s with
      | (some objection, s') => (.error objection, s')
      | (none, s') => (.ok (Summary.ofOutcomes
          (r.runEach launch selection.root selection.entries s.world).1), s') := by
  have hlen := r.length_runEach launch selection.root selection.entries s.world
  have hstarted := tell_machine follower (.runStarted selection) s
  rw [tryExecute, plan, script, follow]
  generalize heach : r.runEach launch selection.root selection.entries s.world = each at hlen ⊢
  generalize tell follower (.runStarted selection) s = started at hstarted ⊢
  rcases started with ⟨s₁, _ | objection⟩
  · obtain ⟨houtcomes, hlast⟩ :=
      r.runEach_congr launch selection.root selection.entries hstarted
    rw [heach] at houtcomes hlast
    have hdone := r.follow_of_quiet launch selection.root follower
      (testDeeds selection.root (selection.entries.zip each.1)) s₁
    simp only [runEntries_eq_follow, follow_append, List.nil_append]
    rw [houtcomes]
    generalize r.follow launch selection.root follower
      (testDeeds selection.root (selection.entries.zip each.1)) s₁ = followed at hdone ⊢
    rcases followed with ⟨_ | objection, s₂⟩
    · have hmachine : s₂.world.machine = each.2.machine := by
        have hs₂ : s₂ = _ := hdone rfl
        rw [hs₂, foldl_perform_machine, tested_testDeeds _ _ _ hlen, hlast]
      simp only [hmachine]
      rw [follow]
      rcases tell follower (.runFinished (Summary.ofOutcomes each.1)
        (each.2.machine.now - s.world.machine.now)) s₂ with ⟨s₃, _ | objection⟩
      · rfl
      · rfl
    · rfl
  · rfl

/-- A run without objections gives the summary of its outcomes, and leaves the machine that its
tests leave one after another. -/
theorem tryExecute_of_quiet (selection : Selection) (s : RunState κ)
    (quiet : (r.follow launch selection.root follower
      (r.plan launch selection s.world) s).1 = none) :
    let each := r.runEach launch selection.root selection.entries s.world
    r.tryExecute launch follower selection s =
        (.ok (Summary.ofOutcomes each.1),
          (r.follow launch selection.root follower (r.plan launch selection s.world) s).2) ∧
      (r.tryExecute launch follower selection s).2.world.machine = each.2.machine := by
  intro each
  have hdone := r.follow_of_quiet launch selection.root follower _ s quiet
  have hresult := r.tryExecute_eq_follow launch follower selection s
  generalize r.follow launch selection.root follower (r.plan launch selection s.world) s = final
    at quiet hdone hresult ⊢
  obtain ⟨objection, s'⟩ := final
  obtain rfl : objection = none := quiet
  rw [hresult]
  refine ⟨rfl, ?_⟩
  have hs' : s' = _ := hdone
  show s'.world.machine = _
  rw [hs', foldl_perform_machine, tested_plan]

end Runner

end BenchHarness
