import BenchHarness.Proofs.Echo
import BenchHarness.Proofs.Summary

/-!
# What a follower is told

A follower is told the events of a trace that is fixed before the run starts, one after the other and
none twice. Where it first objects the run ends, with that objection and with exactly the tests done
that the events before it have announced; if it never objects it is told the whole trace, and the run
gives the summary that the last event carries (`Runner.tryExecute_protocol`).
-/

namespace BenchHarness

variable {ε κ : Type}

/-- A run whose follower also keeps a log. -/
def RunState.withLog (s : RunState κ) (log : List (Event × Option ε)) :
    RunState (κ × List (Event × Option ε)) :=
  ⟨s.world, s.follower, log⟩

namespace Runner

/-- A follower that does what another does and keeps what it was told and what it answered. -/
def logged (follower : Follower ε κ) : Follower ε (κ × List (Event × Option ε)) :=
  fun e (console, k, log) =>
    let ((console, k), answer) := follower e (console, k)
    ((console, k, log ++ [(e, answer)]), answer)

variable (r : Runner) (launch : Launch) (root : String) (follower : Follower ε κ)

theorem tell_logged (e : Event) (s : RunState κ) (log : List (Event × Option ε)) :
    tell (logged follower) e (s.withLog log) =
      ((tell follower e s).1.withLog (log ++ [(e, (tell follower e s).2)]),
        (tell follower e s).2) := rfl

theorem perform_test_logged (entry : Entry) (s : RunState κ) (log : List (Event × Option ε)) :
    r.perform launch root (logged follower) (s.withLog log) (.test entry) =
      (r.perform launch root follower s (.test entry)).withLog log := by
  simp only [perform, RunState.withLog]

/-- How following some deeds ends: they are all done and nobody objected, or there was an objection
to an event and what comes after it is left undone. -/
inductive Ending (deeds : List Deed) (s : RunState κ) :
    Option ε × RunState κ → List (Event × Option ε) → Prop where
  | done : Ending deeds s (none, deeds.foldl (r.perform launch root follower) s)
      ((told deeds).map (·, none))
  | stopped (before : List Deed) (e : Event) (after : List Deed) (objection : ε)
      (split : deeds = before ++ .tell e :: after) :
      Ending deeds s
        (some objection, (before ++ [Deed.tell e]).foldl (r.perform launch root follower) s)
        ((told before).map (·, none) ++ [(e, some objection)])

variable {r launch root follower}

/-- A deed that nobody objects to comes before those of an ending. -/
theorem Ending.cons_tell {e : Event} {deeds : List Deed} {s : RunState κ}
    {final : Option ε × RunState κ} {log : List (Event × Option ε)}
    (ending : Ending r launch root follower deeds (tell follower e s).1 final log) :
    Ending r launch root follower (.tell e :: deeds) s final ((e, none) :: log) := by
  cases ending with
  | done => exact .done
  | stopped before e' after objection split =>
    exact .stopped (.tell e :: before) e' after objection (by rw [split, List.cons_append])

theorem Ending.cons_test {entry : Entry} {deeds : List Deed} {s : RunState κ}
    {final : Option ε × RunState κ} {log : List (Event × Option ε)}
    (ending : Ending r launch root follower deeds
      (r.perform launch root follower s (.test entry)) final log) :
    Ending r launch root follower (.test entry :: deeds) s final log := by
  cases ending with
  | done => exact .done
  | stopped before e after objection split =>
    exact .stopped (.test entry :: before) e after objection (by rw [split, List.cons_append])

variable (r launch root follower)

/-- Keeping a log changes nothing, and what stands in it tells how the deeds ended. -/
theorem follow_logged (deeds : List Deed) :
    ∀ (s : RunState κ) (log : List (Event × Option ε)), ∃ heard,
      r.follow launch root (logged follower) deeds (s.withLog log) =
          ((r.follow launch root follower deeds s).1,
            (r.follow launch root follower deeds s).2.withLog (log ++ heard)) ∧
        Ending r launch root follower deeds s (r.follow launch root follower deeds s) heard := by
  induction deeds with
  | nil =>
    intro s log
    refine ⟨[], ?_, .done⟩
    rw [List.append_nil]
    rfl
  | cons deed deeds ih =>
    intro s log
    cases deed with
    | test entry =>
      obtain ⟨heard, hsame, ending⟩ := ih (r.perform launch root follower s (.test entry)) log
      rw [follow_test, follow_test, perform_test_logged]
      exact ⟨heard, hsame, ending.cons_test⟩
    | tell e =>
      have htold := tell_logged follower e s log
      cases answer : (tell follower e s).2 with
      | none =>
        obtain ⟨heard, hsame, ending⟩ := ih (tell follower e s).1 (log ++ [(e, none)])
        have hquiet : (tell (logged follower) e (s.withLog log)).2 = none := answer
        refine ⟨(e, none) :: heard, ?_, ?_⟩
        · rw [follow_tell_of_quiet hquiet, htold, answer, hsame,
            follow_tell_of_quiet answer, List.append_assoc]
          rfl
        · rw [follow_tell_of_quiet answer]
          exact ending.cons_tell
      | some objection =>
        have hloud : (tell (logged follower) e (s.withLog log)).2 = some objection := answer
        refine ⟨[(e, some objection)], ?_, ?_⟩
        · rw [follow_tell_of_objection hloud, htold, answer,
            follow_tell_of_objection answer]
        · rw [follow_tell_of_objection answer]
          exact .stopped [] e deeds objection rfl

/-! ## Logs -/

variable {ε κ : Type} (r : Runner) (launch : Launch) (follower : Follower ε κ)
  (selection : Selection) (s : RunState κ)

/-- What a follower is told in a run, and what it answers. -/
def log : List (Event × Option ε) :=
  (r.tryExecute launch (logged follower) selection (s.withLog [])).2.follower.2

/-- The first objection in a log is the answer to the `n`-th event. -/
def FirstObjection (log : List (Event × Option ε)) (n : Nat) (objection : ε) : Prop :=
  ∃ before e after, log = before ++ (e, some objection) :: after ∧ before.length + 1 = n ∧
    ∀ told ∈ before, told.2 = none

/-- The run ended with an objection to the `n`-th event: the first `n` events were told, the tests
reported by then were run, and nothing else was done. -/
structure Stopped (n : Nat) (objection : ε) : Prop where
  within : n ≤ (r.foreseen launch selection s.world).length
  heard : (r.log launch follower selection s).map (·.1) =
    (r.foreseen launch selection s.world).take n
  result : (r.tryExecute launch follower selection s).1 = .error objection
  deeds : ∃ deeds, deeds <+: r.plan launch selection s.world ∧
    told deeds = (r.foreseen launch selection s.world).take n ∧
    tested deeds = selection.entries.take ((n - 1) / 2) ∧
    (tested deeds).length = (n - 1) / 2 ∧
    (r.tryExecute launch follower selection s).2 =
      deeds.foldl (r.perform launch selection.root follower) s

/-- The run told all its events: it gives the summary of the outcomes it reported, and these are the
outcomes of the tests run one after another. -/
structure Completed : Prop where
  heard : (r.log launch follower selection s).map (·.1) = r.foreseen launch selection s.world
  result : ∃ summary elapsed, (r.tryExecute launch follower selection s).1 = .ok summary ∧
    (r.foreseen launch selection s.world).getLast? = some (.runFinished summary elapsed) ∧
    summary = Summary.ofOutcomes (reported ((r.log launch follower selection s).map (·.1))) ∧
    summary.total = selection.entries.length
  outcomes : reported ((r.log launch follower selection s).map (·.1)) =
    (r.runEach launch selection.root selection.entries s.world).1
  machine : (r.tryExecute launch follower selection s).2.world.machine =
    (r.runEach launch selection.root selection.entries s.world).2.machine
  shown : WritesElsewhere follower → World.Agree
    (r.tryExecute launch follower selection s).2.world
    (r.runEach launch selection.root selection.entries s.world).2

/-- A run gives the same with a log, and its log tells how its plan was followed. -/
theorem tryExecute_logged :
    r.tryExecute launch (logged follower) selection (s.withLog []) =
        ((r.tryExecute launch follower selection s).1,
          (r.tryExecute launch follower selection s).2.withLog
            (r.log launch follower selection s)) ∧
      Ending r launch selection.root follower (r.plan launch selection s.world) s
        (r.follow launch selection.root follower (r.plan launch selection s.world) s)
        (r.log launch follower selection s) := by
  obtain ⟨heard, hsame, ending⟩ :=
    r.follow_logged launch selection.root follower (r.plan launch selection s.world) s []
  have hplain := r.tryExecute_eq_follow launch follower selection s
  have hlogged := r.tryExecute_eq_follow launch (logged follower) selection (s.withLog [])
  rw [show (s.withLog []).world = s.world from rfl, hsame] at hlogged
  generalize r.follow launch selection.root follower (r.plan launch selection s.world) s = final
    at ending hplain hlogged ⊢
  have hlog : r.log launch follower selection s = heard := by
    rw [log, hlogged]
    cases final.1 with
    | none => rfl
    | some objection => rfl
  rw [hlog, hplain, hlogged]
  refine ⟨?_, ending⟩
  obtain ⟨_ | objection, final⟩ := final
  · rfl
  · rfl

/-! ## The protocol -/

/-- The first objection is found by looking at the answers only. -/
theorem FirstObjection.of_answers {log : List (Event × Option ε)} {n : Nat} {x : ε}
    {rest : List (Option ε)}
    (answers : log.map (·.2) = List.replicate n none ++ some x :: rest) :
    FirstObjection log (n + 1) x := by
  obtain ⟨before, others, rfl, hbefore, hothers⟩ := List.map_eq_append_iff.mp answers
  obtain ⟨⟨e, answer⟩, after, rfl, hanswer, -⟩ := List.map_eq_cons_iff.mp hothers
  obtain rfl : answer = some x := hanswer
  refine ⟨before, e, after, rfl, ?_, ?_⟩
  · rw [← List.length_map (·.2), hbefore, List.length_replicate]
  · intro heard hmem
    have hnone : heard.2 ∈ List.replicate n none := hbefore ▸ List.mem_map_of_mem hmem
    exact List.eq_of_mem_replicate hnone

/-- Nobody objected in a log without objections. -/
theorem some_not_mem_quiet {told : List Event} {e : Event} {x : ε} :
    (e, some x) ∉ told.map ((·, none) : Event → Event × Option ε) := by
  intro hmem
  obtain ⟨e', -, heq⟩ := List.mem_map.mp hmem
  simp at heq

theorem not_firstObjection_of_quiet {told : List Event} {n : Nat} {x : ε} :
    ¬ FirstObjection (told.map (·, none)) n x := by
  rintro ⟨before, e, after, split, -, -⟩
  have hmem : (e, some x) ∈ told.map ((·, none) : Event → Event × Option ε) := by
    rw [split]
    simp
  exact some_not_mem_quiet hmem

/-- An objection stands at the end of the log. -/
theorem FirstObjection.of_ending {told : List Event} {e : Event} {objection : ε} {n : Nat} {x : ε}
    (first : FirstObjection (told.map (·, none) ++ [(e, some objection)]) n x) :
    n = told.length + 1 ∧ x = objection := by
  obtain ⟨before, e', after, split, rfl, -⟩ := first
  rcases List.eq_nil_or_concat after with rfl | ⟨after, last, rfl⟩
  · obtain ⟨hbefore, hlast⟩ := List.append_inj' split rfl
    rw [← hbefore, List.length_map]
    simp only [List.cons.injEq, Prod.mk.injEq, Option.some.injEq] at hlast
    exact ⟨rfl, hlast.1.2.symm⟩
  · -- an objection before the end would stand among the answers of those who kept quiet
    rw [List.concat_eq_append, ← List.cons_append, ← List.append_assoc] at split
    obtain ⟨hbefore, -⟩ := List.append_inj' split rfl
    have hmem : (e', some x) ∈ told.map ((·, none) : Event → Event × Option ε) := by
      rw [hbefore]
      simp
    exact absurd hmem some_not_mem_quiet

theorem stopped_of_firstObjection {n : Nat} {objection : ε}
    (first : FirstObjection (r.log launch follower selection s) n objection) :
    r.Stopped launch follower selection s n objection := by
  have hresult := r.tryExecute_eq_follow launch follower selection s
  have ending := (r.tryExecute_logged launch follower selection s).2
  generalize r.follow launch selection.root follower (r.plan launch selection s.world) s = final
    at ending hresult
  generalize hlog : r.log launch follower selection s = log at first ending
  cases ending with
  | done => exact absurd first not_firstObjection_of_quiet
  | stopped before e after x split =>
    obtain ⟨rfl, rfl⟩ := first.of_ending
    -- what was told is the part of the plan up to the event that was objected to
    have hlen := r.length_runEach launch selection.root selection.entries s.world
    have htold : told (before ++ [.tell e]) = told before ++ [e] := told_append before [.tell e]
    have hforeseen : r.foreseen launch selection s.world = told before ++ [e] ++ told after := by
      rw [← told_plan, split, told_append, List.append_assoc]
      rfl
    have htake : (r.foreseen launch selection s.world).take ((told before).length + 1) =
        told before ++ [e] := by
      rw [hforeseen, List.take_left' (by simp)]
    have htested := tested_of_script_split hlen split
    have hlong := r.length_foreseen launch selection s.world
    have hwithin : (told before).length + 1 ≤ (r.foreseen launch selection s.world).length := by
      rw [hforeseen]
      simp
    have hdone : tested (before ++ [.tell e]) = tested before := by simp [tested, Deed.entry?]
    constructor
    · exact hwithin
    · rw [hlog, htake]
      simp [Function.comp_def]
    · rw [hresult]
    · refine ⟨before ++ [.tell e], ?_, ?_, ?_, ?_, ?_⟩
      · rw [split]
        exact ⟨after, by simp⟩
      · rw [htake, htold]
      · rw [hdone, htested, Nat.add_sub_cancel]
      · rw [hdone, htested, Nat.add_sub_cancel, List.length_take]
        omega
      · rw [hresult]

theorem completed_of_quiet
    (quiet : ∀ heard ∈ r.log launch follower selection s, heard.2 = none) :
    r.Completed launch follower selection s := by
  have hresult := r.tryExecute_eq_follow launch follower selection s
  have ending := (r.tryExecute_logged launch follower selection s).2
  generalize r.follow launch selection.root follower (r.plan launch selection s.world) s = final
    at ending hresult
  generalize hlog : r.log launch follower selection s = log at quiet ending
  cases ending with
  | stopped before e after x split => exact absurd (quiet (e, some x) (by simp)) (by simp)
  | done =>
    have hlen := r.length_runEach launch selection.root selection.entries s.world
    have hheard : (r.log launch follower selection s).map (·.1) =
        r.foreseen launch selection s.world := by
      rw [hlog, ← told_plan]
      simp [Function.comp_def]
    have hreported : reported ((r.log launch follower selection s).map (·.1)) =
        (r.runEach launch selection.root selection.entries s.world).1 := by
      rw [hheard]
      exact reported_trace hlen _
    have htested := r.tested_plan launch selection s.world
    have hlast : (r.foreseen launch selection s.world).getLast? = some (.runFinished _ _) :=
      List.getLast?_concat
    constructor
    · exact hheard
    · refine ⟨_, _, congrArg Prod.fst hresult, hlast, ?_, ?_⟩
      · rw [hreported]
      · rw [Summary.total_ofOutcomes, hlen]
    · exact hreported
    · rw [hresult, foldl_perform_machine, htested]
    · intro elsewhere
      rw [hresult]
      have hagree := r.foldl_perform_agree launch selection.root elsewhere
        (r.plan launch selection s.world) s
      rwa [htested] at hagree

/-- A follower that never objects has no objections in its log. -/
theorem quiet_of_patient (patient : ∀ e state, (follower e state).2 = none) :
    ∀ heard ∈ r.log launch follower selection s, heard.2 = none := by
  have hnone := (r.follow_quiet launch selection.root follower (P := fun _ => True)
    (fun e console k _ => ⟨patient e (console, k), trivial⟩) (fun _ _ _ => trivial)
    (r.plan launch selection s.world) s trivial).1
  have ending := (r.tryExecute_logged launch follower selection s).2
  generalize r.follow launch selection.root follower (r.plan launch selection s.world) s = final
    at ending hnone
  generalize r.log launch follower selection s = log at ending ⊢
  cases ending with
  | stopped before e after objection split => simp at hnone
  | done =>
    intro heard hmem
    obtain ⟨e, -, rfl⟩ := List.mem_map.mp hmem
    rfl

/-- The protocol of a run, for any follower. -/
theorem tryExecute_protocol :
    (r.foreseen launch selection s.world).length = 2 * selection.entries.length + 2 ∧
      r.tryExecute launch (logged follower) selection (s.withLog []) =
        ((r.tryExecute launch follower selection s).1,
          (r.tryExecute launch follower selection s).2.withLog
            (r.log launch follower selection s)) ∧
      (∀ n objection, FirstObjection (r.log launch follower selection s) n objection →
        r.Stopped launch follower selection s n objection) ∧
      ((∀ heard ∈ r.log launch follower selection s, heard.2 = none) →
        r.Completed launch follower selection s) := by
  refine ⟨r.length_foreseen launch selection s.world,
    (r.tryExecute_logged launch follower selection s).1, ?_, ?_⟩
  · intro n objection first
    exact r.stopped_of_firstObjection launch follower selection s first
  · exact r.completed_of_quiet launch follower selection s

/-- Each of five tests fails in a way of its own, which ends no run: a follower that objects to the
fourth event ends it there, and one that never objects is told everything. -/
theorem tryExecute_protocol_of_failures :
    let r : Runner := ⟨⟨"sh", []⟩, "ok"⟩
    let e : IoError := .system .noEntry
    let child (faults : Faults) : ChildRun := ⟨[[0x6f, 0x6b]], [[0x61]], [], some 0, 5, faults⟩
    let launch : Launch := fun command files =>
      match command.directory with
      | 1 => .error e
      | 2 => .ok (child ⟨some e, none, none, none⟩, files)
      | 3 => .ok (child ⟨none, some e, some e, none⟩, files)
      | _ => .ok (child ⟨none, none, none, some e⟩, files)
    let impatient : Follower Unit Nat := fun _ (console, told) =>
      ((console, told + 1), if told = 3 then some () else none)
    let patient : Follower Unit Nat := fun _ state => (state, none)
    let selection : Selection :=
      ⟨"/", .runAll, [⟨"x/go"⟩, ⟨"a/go"⟩, ⟨"b/go"⟩, ⟨"c/go"⟩, ⟨"d/go"⟩]⟩
    let machine : Machine := ⟨⟨.directory 0 [([0x61], .directory 1 []), ([0x62], .directory 2 []),
      ([0x63], .directory 3 []), ([0x64], .directory 4 [])], [], 5, []⟩, 0, [], 0⟩
    let s : RunState Nat := ⟨⟨machine, .buffers⟩, 0⟩
    let outcomes := (r.runEach launch selection.root selection.entries s.world).1
    outcomes.map (·.failure) = [some (.changeDir "/x" e), some (.spawn "sh ./go" e),
        some (.readStdout e), some (.readStderr e), some (.wait e)] ∧
      r.Stopped launch impatient selection s 4 () ∧ r.Completed launch patient selection s := by
  intro r e child launch impatient patient selection machine s outcomes
  have first : FirstObjection (r.log launch impatient selection s) 4 () := by
    have answers : (r.log launch impatient selection s).map (·.2) =
        [none, none, none, some ()] := rfl
    exact .of_answers answers
  have quiet : ∀ heard ∈ r.log launch patient selection s, heard.2 = none := by
    exact r.quiet_of_patient launch patient selection s fun _ _ => rfl
  obtain ⟨-, -, stopped, -⟩ := r.tryExecute_protocol launch impatient selection s
  obtain ⟨-, -, -, completed⟩ := r.tryExecute_protocol launch patient selection s
  exact ⟨by decide +kernel, stopped 4 () first, completed quiet⟩

end Runner

end BenchHarness
