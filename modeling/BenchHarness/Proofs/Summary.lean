import BenchHarness.Outcome

/-!
# Summaries

What the fold over the outcomes of a run comes to: how many there are, how many of them passed, and
the directories of those that did not (`Summary.ofOutcomes_eq`). A run succeeds exactly if every
test in it passed (`Summary.isSuccess_iff`). Runs can be cut in two and their outcomes reordered: the
summaries of the parts add up, and the order shows in the list of directories only
(`Summary.ofOutcomes_laws`).
-/

namespace BenchHarness

theorem Outcome.passed_iff (o : Outcome) :
    o.passed = true ↔ o.failure = none ∧ 0 < o.markers := by
  unfold passed
  rw [Bool.and_eq_true, Option.isNone_iff_eq_none, decide_eq_true_iff]

namespace Summary

theorem foldl_add (outcomes : List Outcome) :
    ∀ s : Summary, outcomes.foldl add s =
      ⟨s.total + outcomes.length, s.passed + outcomes.countP (·.passed),
        s.failed + outcomes.countP (! ·.passed),
        s.failedDirs ++ (outcomes.filter (! ·.passed)).map (·.entry.dir)⟩ := by
  induction outcomes with
  | nil =>
    intro s
    simp
  | cons o rest ih =>
    intro s
    rw [List.foldl_cons, ih]
    by_cases passed : o.passed = true
    · simp [add, passed]
      omega
    · simp [add, passed]
      omega

/-- The summary of some outcomes counts them, and lists the directories of those that failed in
their order. -/
theorem ofOutcomes_eq (outcomes : List Outcome) :
    ofOutcomes outcomes =
      ⟨outcomes.length, outcomes.countP (·.passed), outcomes.countP (! ·.passed),
        (outcomes.filter (! ·.passed)).map (·.entry.dir)⟩ := by
  rw [ofOutcomes, foldl_add]
  simp [empty]

@[simp] theorem total_ofOutcomes (outcomes : List Outcome) :
    (ofOutcomes outcomes).total = outcomes.length := by
  rw [ofOutcomes_eq]

/-- Two summaries taken together, with the directories of the first one in front. -/
def plus (s t : Summary) : Summary :=
  ⟨s.total + t.total, s.passed + t.passed, s.failed + t.failed, s.failedDirs ++ t.failedDirs⟩

/-- The outcomes of two runs are summed up by the sum of their summaries. -/
theorem ofOutcomes_append (outcomes more : List Outcome) :
    ofOutcomes (outcomes ++ more) = (ofOutcomes outcomes).plus (ofOutcomes more) := by
  simp only [ofOutcomes_eq, plus, List.length_append, List.countP_append, List.filter_append,
    List.map_append]

/-- Failed tests are listed in their order. -/
theorem failedDirs_append (outcomes more : List Outcome) :
    (ofOutcomes (outcomes ++ more)).failedDirs =
      (ofOutcomes outcomes).failedDirs ++ (ofOutcomes more).failedDirs := by
  rw [ofOutcomes_append, plus]

/-- A failure among some outcomes is counted, and listed at its place. -/
theorem ofOutcomes_insert {o : Outcome} (failed : o.passed = false) (before after : List Outcome) :
    ofOutcomes (before ++ o :: after) =
      ⟨(ofOutcomes (before ++ after)).total + 1, (ofOutcomes (before ++ after)).passed,
        (ofOutcomes (before ++ after)).failed + 1,
        (ofOutcomes before).failedDirs ++ o.entry.dir :: (ofOutcomes after).failedDirs⟩ := by
  simp [ofOutcomes_eq, failed, Nat.add_assoc]

/-- A run succeeds exactly if every test in it passed. -/
theorem isSuccess_iff (outcomes : List Outcome) :
    (ofOutcomes outcomes).isSuccess = true ↔ ∀ o ∈ outcomes, o.passed = true := by
  rw [ofOutcomes_eq, isSuccess, decide_eq_true_iff]
  show outcomes.countP _ = 0 ↔ _
  rw [List.countP_eq_zero]
  simp

theorem exitCode_eq_zero_iff (s : Summary) : s.exitCode = 0 ↔ s.isSuccess = true := by
  unfold exitCode
  split <;> simp [*]

/-! ## Laws -/

/-- A summary is right about some outcomes. -/
structure Accounts (s : Summary) (outcomes : List Outcome) : Prop where
  total : s.total = outcomes.length
  passed : s.passed = (outcomes.filter (·.passed)).length
  failed : s.failed = s.total - s.passed
  whole : s.passed + s.failed = s.total
  listed : s.failed = s.failedDirs.length
  failedDirs : s.failedDirs = (outcomes.filter (! ·.passed)).map (·.entry.dir)
  exitCode : s.exitCode = 0 ↔ ∀ o ∈ outcomes, o.passed = true

theorem accounts_ofOutcomes (outcomes : List Outcome) :
    (ofOutcomes outcomes).Accounts outcomes := by
  have hwhole : outcomes.countP (·.passed) + outcomes.countP (! ·.passed) = outcomes.length := by
    rw [List.length_eq_countP_add_countP (fun o : Outcome => o.passed)]
    simp
  constructor
  · exact total_ofOutcomes outcomes
  · rw [ofOutcomes_eq, List.countP_eq_length_filter]
  · rw [ofOutcomes_eq]
    exact (Nat.sub_eq_of_eq_add' hwhole.symm).symm
  · rw [ofOutcomes_eq]
    exact hwhole
  · rw [ofOutcomes_eq, List.length_map]
    exact List.countP_eq_length_filter
  · rw [ofOutcomes_eq]
  · rw [exitCode_eq_zero_iff, isSuccess_iff]

/-- Two summaries of the same outcomes in different orders. -/
structure Reordered (s t : Summary) : Prop where
  total : s.total = t.total
  passed : s.passed = t.passed
  failed : s.failed = t.failed
  exitCode : s.exitCode = t.exitCode
  failedDirs : s.failedDirs.Perm t.failedDirs

theorem reordered_ofOutcomes {outcomes others : List Outcome} (perm : outcomes.Perm others) :
    (ofOutcomes outcomes).Reordered (ofOutcomes others) := by
  have hfailed : (ofOutcomes outcomes).failed = (ofOutcomes others).failed := by
    rw [ofOutcomes_eq, ofOutcomes_eq]
    exact perm.countP_eq _
  constructor
  · rw [total_ofOutcomes, total_ofOutcomes, perm.length_eq]
  · rw [ofOutcomes_eq, ofOutcomes_eq]
    exact perm.countP_eq _
  · exact hfailed
  · rw [exitCode, exitCode, isSuccess, isSuccess, hfailed]
  · rw [ofOutcomes_eq, ofOutcomes_eq]
    exact (perm.filter _).map _

/-- The laws of summaries. A summary is right about the outcomes it was made of; those of two runs add
up; reordering outcomes reorders the list of directories and changes nothing else; and an outcome with a
failure is one more failed test, wherever it stands and however often the marker was found. -/
theorem ofOutcomes_laws (outcomes : List Outcome) :
    (ofOutcomes outcomes).Accounts outcomes ∧
      (∀ more, ofOutcomes (outcomes ++ more) = (ofOutcomes outcomes).plus (ofOutcomes more)) ∧
      (∀ others, outcomes.Perm others → (ofOutcomes outcomes).Reordered (ofOutcomes others)) ∧
      ∀ before o after, outcomes = before ++ o :: after → o.failure ≠ none →
        ofOutcomes outcomes =
          ((ofOutcomes before).plus ⟨1, 0, 1, [o.entry.dir]⟩).plus (ofOutcomes after) := by
  refine ⟨accounts_ofOutcomes outcomes, ofOutcomes_append outcomes, ?_, ?_⟩
  · intro others perm
    exact reordered_ofOutcomes perm
  · rintro before o after rfl broken
    have hfailed : o.passed = false := by
      rw [Bool.eq_false_iff]
      intro passed
      exact broken ((Outcome.passed_iff o).mp passed).1
    have hone : ofOutcomes [o] = ⟨1, 0, 1, [o.entry.dir]⟩ := by
      simp [ofOutcomes_eq, hfailed]
    rw [← hone, ← ofOutcomes_append, ← ofOutcomes_append, List.append_assoc]
    rfl

/-- A test that passed, and one with a failure for which the marker was found twice all the same: in
either order one test has failed. -/
theorem ofOutcomes_laws_of_failure :
    let good : Outcome := ⟨⟨"a/go.sh"⟩, 1, ["ok"], [], some 0, 5, none⟩
    let bad : Outcome :=
      ⟨⟨"b/go.sh"⟩, 2, ["ok", "ok"], [], none, 5, some (.spawn "sh" (.system .noEntry))⟩
    ofOutcomes [good, bad] = ⟨2, 1, 1, ["b"]⟩ ∧
      (ofOutcomes [good, bad]).Reordered (ofOutcomes [bad, good]) := by
  intro good bad
  obtain ⟨-, -, reordered, failure⟩ := ofOutcomes_laws [good, bad]
  refine ⟨?_, reordered [bad, good] (.swap bad good [])⟩
  rw [failure [good] bad [] rfl (by simp [bad])]
  decide

end Summary

end BenchHarness
