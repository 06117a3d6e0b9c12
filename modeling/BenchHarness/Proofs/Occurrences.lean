import BenchHarness.Text.Search
import Mathlib

/-!
# Occurrences without overlap

`Search.occurrences` looks for a needle from the left and goes on after the end of each match. It is
compared here with what it is meant to count: sets of positions at which the needle stands and no
two of which overlap (`Packing`).

* the greedy count is the size of the largest such set, also for needles that overlap themselves
  (`isGreatest_occurrences`);
* it is positive exactly if the needle occurs at all (`occurrences_pos_iff`);
* it adds up over pieces that are divided by an element the needle does not have
  (`occurrences_append_cons`).
-/

namespace BenchHarness.Search

variable {α : Type}

/-- The needle stands in the sequence at a position. -/
def OccursAt (needle hay : List α) (p : Nat) : Prop := needle <+: hay.drop p

/-- Positions of occurrences, no two of which overlap. -/
structure Packing (needle hay : List α) (P : Finset Nat) : Prop where
  occurs : ∀ p ∈ P, OccursAt needle hay p
  apart : ∀ p ∈ P, ∀ q ∈ P, p < q → p + needle.length ≤ q

/-- How many occurrences from position `skip` on can be kept apart. -/
def packable (needle hay : List α) (skip : Nat) : Set Nat :=
  {n | ∃ P, Packing needle hay P ∧ (∀ p ∈ P, skip ≤ p) ∧ P.card = n}

/-! ## Moving positions -/

theorem Packing.cons {needle rest : List α} {P : Finset Nat} (a : α)
    (packing : Packing needle rest P) :
    Packing needle (a :: rest) (P.map (addRightEmbedding 1)) := by
  refine ⟨?_, ?_⟩
  · intro p hp
    obtain ⟨q, hq, rfl⟩ := Finset.mem_map.mp hp
    exact packing.occurs q hq
  · intro p hp q hq hlt
    obtain ⟨p', hp', rfl⟩ := Finset.mem_map.mp hp
    obtain ⟨q', hq', rfl⟩ := Finset.mem_map.mp hq
    simp only [addRightEmbedding_apply] at hlt ⊢
    have := packing.apart p' hp' q' hq' (by omega)
    omega

theorem Packing.tail {needle rest : List α} {a : α} {P : Finset Nat}
    (packing : Packing needle (a :: rest) (P.map (addRightEmbedding 1))) :
    Packing needle rest P := by
  refine ⟨?_, ?_⟩
  · intro p hp
    exact packing.occurs (p + 1) (Finset.mem_map_of_mem (addRightEmbedding 1) hp)
  · intro p hp q hq hlt
    have := packing.apart (p + 1) (Finset.mem_map_of_mem (addRightEmbedding 1) hp)
      (q + 1) (Finset.mem_map_of_mem (addRightEmbedding 1) hq) (by omega)
    omega

/-- Positions after the first one are the successors of positions. -/
theorem exists_map_succ {Q : Finset Nat} (late : ∀ q ∈ Q, 1 ≤ q) :
    ∃ P : Finset Nat, Q = P.map (addRightEmbedding 1) := by
  refine ⟨Q.image (· - 1), ?_⟩
  ext q
  simp only [Finset.mem_map, Finset.mem_image, addRightEmbedding_apply]
  constructor
  · intro hq
    have := late q hq
    exact ⟨q - 1, ⟨q, hq, rfl⟩, by omega⟩
  · rintro ⟨_, ⟨r, hr, rfl⟩, rfl⟩
    have := late r hr
    rwa [Nat.sub_add_cancel this]

theorem packable_cons_succ (needle rest : List α) (a : α) (skip : Nat) :
    packable needle (a :: rest) (skip + 1) = packable needle rest skip := by
  ext n
  constructor
  · rintro ⟨Q, packing, late, rfl⟩
    obtain ⟨P, rfl⟩ := exists_map_succ fun q hq => Nat.le_trans (Nat.le_add_left 1 skip) (late q hq)
    refine ⟨P, packing.tail, ?_, (Finset.card_map _).symm⟩
    intro p hp
    have := late (p + 1) (Finset.mem_map_of_mem (addRightEmbedding 1) hp)
    omega
  · rintro ⟨P, packing, late, rfl⟩
    refine ⟨P.map (addRightEmbedding 1), packing.cons a, ?_, Finset.card_map _⟩
    intro q hq
    obtain ⟨p, hp, rfl⟩ := Finset.mem_map.mp hq
    have := late p hp
    simp only [addRightEmbedding_apply]
    omega

/-! ## The greedy count is the largest -/

theorem not_occursAt_nil {needle : List α} (nonempty : needle ≠ []) (p : Nat) :
    ¬ OccursAt needle [] p := by
  intro h
  simp only [OccursAt, List.drop_nil, List.prefix_nil] at h
  exact nonempty h

theorem isGreatest_packable_nil {needle : List α} (nonempty : needle ≠ []) (skip : Nat) :
    IsGreatest (packable needle [] skip) 0 := by
  refine ⟨⟨∅, ⟨by simp, by simp⟩, by simp, rfl⟩, ?_⟩
  rintro n ⟨P, packing, -, rfl⟩
  rw [Nat.le_zero, Finset.card_eq_zero]
  by_contra hP
  obtain ⟨p, hp⟩ := Finset.nonempty_iff_ne_empty.mpr hP
  exact not_occursAt_nil nonempty p (packing.occurs p hp)

/-- Without a match at the front the first position is out of use. -/
theorem packable_zero_of_not_prefix {needle rest : List α} {a : α}
    (noMatch : ¬ needle <+: a :: rest) :
    packable needle (a :: rest) 0 = packable needle (a :: rest) 1 := by
  ext n
  constructor
  · rintro ⟨P, packing, -, rfl⟩
    refine ⟨P, packing, ?_, rfl⟩
    intro p hp
    by_contra hlt
    obtain rfl : p = 0 := by omega
    exact noMatch (packing.occurs 0 hp)
  · rintro ⟨P, packing, -, rfl⟩
    exact ⟨P, packing, fun _ _ => Nat.zero_le _, rfl⟩

/-- A match at the front can stand before any occurrences that come after its end. -/
theorem Packing.insert_zero {needle hay : List α} {P : Finset Nat} (packing : Packing needle hay P)
    (atFront : needle <+: hay) (late : ∀ p ∈ P, needle.length ≤ p) :
    Packing needle hay (insert 0 P) := by
  refine ⟨?_, ?_⟩
  · intro p hp
    rcases Finset.mem_insert.mp hp with rfl | hp
    · exact atFront
    · exact packing.occurs p hp
  · intro p hp q hq hlt
    rcases Finset.mem_insert.mp hq with rfl | hq
    · omega
    · rcases Finset.mem_insert.mp hp with rfl | hp
      · have := late q hq
        omega
      · exact packing.apart p hp q hq hlt

/-- Without its first position, a packing lies after the end of a match at the front. -/
theorem Packing.erase_min {needle hay : List α} {P : Finset Nat} (packing : Packing needle hay P)
    (hP : P.Nonempty) :
    Packing needle hay (P.erase (P.min' hP)) ∧
      ∀ p ∈ P.erase (P.min' hP), needle.length ≤ p := by
  refine ⟨⟨?_, ?_⟩, ?_⟩
  · intro p hp
    exact packing.occurs p (Finset.mem_of_mem_erase hp)
  · intro p hp q hq
    exact packing.apart p (Finset.mem_of_mem_erase hp) q (Finset.mem_of_mem_erase hq)
  · intro p hp
    have hmin := Finset.min'_lt_of_mem_erase_min' P hP hp
    have := packing.apart _ (P.min'_mem hP) p (Finset.mem_of_mem_erase hp) hmin
    omega

/-- Taking a match at the front is never worse than passing it over. -/
theorem isGreatest_packable_of_prefix {needle rest : List α} {a : α} {n : Nat}
    (nonempty : needle ≠ []) (atFront : needle <+: a :: rest)
    (greatest : IsGreatest (packable needle rest (needle.length - 1)) n) :
    IsGreatest (packable needle (a :: rest) 0) (n + 1) := by
  have hlen : 0 < needle.length := List.length_pos_iff.mpr nonempty
  rw [← packable_cons_succ needle rest a, Nat.sub_add_cancel hlen] at greatest
  constructor
  · -- the match at the front is one more than what can stand after it
    obtain ⟨P, packing, late, rfl⟩ := greatest.1
    refine ⟨insert 0 P, packing.insert_zero atFront late, fun _ _ => Nat.zero_le _, ?_⟩
    rw [Finset.card_insert_of_notMem]
    intro hzero
    have := late 0 hzero
    omega
  · rintro k ⟨P, packing, -, rfl⟩
    rcases P.eq_empty_or_nonempty with rfl | hP
    · simp
    · -- any other packing has its first position exchanged for the match at the front
      obtain ⟨packing', late⟩ := packing.erase_min hP
      have hle := greatest.2 ⟨_, packing', late, rfl⟩
      rw [Finset.card_erase_of_mem (P.min'_mem hP)] at hle
      omega

variable [DecidableEq α]

/-- From any position on, the greedy count is the largest. The induction follows the scan: `skip`
elements of a match are left behind first. -/
theorem isGreatest_countAfter {needle : List α} (nonempty : needle ≠ []) (hay : List α) :
    ∀ skip, IsGreatest (packable needle hay skip) (countAfter needle skip hay) := by
  induction hay with
  | nil =>
    intro skip
    rw [countAfter]
    exact isGreatest_packable_nil nonempty skip
  | cons a rest ih =>
    intro skip
    cases skip with
    | succ skip =>
      -- still inside a match that has been taken
      rw [packable_cons_succ, countAfter]
      exact ih skip
    | zero =>
      -- the scan takes a match as soon as there is one
      rw [countAfter]
      by_cases atFront : needle <+: a :: rest
      · rw [if_pos (List.isPrefixOf_iff_prefix.mpr atFront)]
        exact isGreatest_packable_of_prefix nonempty atFront (ih (needle.length - 1))
      · rw [if_neg (fun h => atFront (List.isPrefixOf_iff_prefix.mp h)),
          packable_zero_of_not_prefix atFront, packable_cons_succ]
        exact ih 0

/-- The greedy count is the largest number of occurrences that can be kept apart. -/
theorem isGreatest_occurrences {needle : List α} (nonempty : needle ≠ []) (hay : List α) :
    IsGreatest {n | ∃ P, Packing needle hay P ∧ P.card = n} (occurrences needle hay) := by
  have greatest := isGreatest_countAfter nonempty hay 0
  have hset : packable needle hay 0 = {n | ∃ P, Packing needle hay P ∧ P.card = n} := by
    ext n
    simp [packable]
  rwa [hset] at greatest

/-- A needle is counted exactly if it occurs. -/
theorem occurrences_pos_iff {needle : List α} (nonempty : needle ≠ []) (hay : List α) :
    0 < occurrences needle hay ↔ needle <:+: hay := by
  have greatest := isGreatest_occurrences nonempty hay
  constructor
  · intro hpos
    obtain ⟨P, packing, hcard⟩ := greatest.1
    obtain ⟨p, hp⟩ := Finset.card_pos.mp (hcard ▸ hpos)
    exact (packing.occurs p hp).isInfix.trans (hay.drop_suffix p).isInfix
  · rintro ⟨before, after, rfl⟩
    have single : Packing needle (before ++ needle ++ after) {before.length} := by
      refine ⟨?_, by simp⟩
      intro p hp
      rw [Finset.mem_singleton.mp hp, OccursAt, List.append_assoc, List.drop_left]
      exact List.prefix_append needle after
    exact greatest.2 ⟨_, single, Finset.card_singleton _⟩

/-! ## Counting piece by piece -/

/-- If no match reaches over the end of a sequence, the count adds up over what comes before and after
it; what is left to skip must lie before it. -/
theorem countAfter_append {needle more : List α} (ends : ∀ s, needle <+: s ++ more → needle <+: s)
    (before : List α) :
    ∀ skip ≤ before.length, countAfter needle skip (before ++ more) =
      countAfter needle skip before + occurrences needle more := by
  induction before with
  | nil =>
    intro skip hskip
    obtain rfl : skip = 0 := by simpa using hskip
    rw [List.nil_append, countAfter, Nat.zero_add, occurrences]
  | cons a before ih =>
    intro skip hskip
    rw [List.cons_append]
    cases skip with
    | succ skip =>
      rw [countAfter, countAfter]
      exact ih skip (by simpa using hskip)
    | zero =>
      rw [countAfter, countAfter]
      by_cases atFront : needle <+: a :: before
      · -- the match ends before `more`, so the rest of it can be skipped
        have hle : needle.length ≤ before.length + 1 := by simpa using atFront.length_le
        have hlong : needle <+: a :: (before ++ more) :=
          atFront.trans (List.prefix_append (a :: before) more)
        rw [if_pos (List.isPrefixOf_iff_prefix.mpr hlong),
          if_pos (List.isPrefixOf_iff_prefix.mpr atFront), ih _ (by omega)]
        omega
      · have hshort : ¬ needle <+: a :: (before ++ more) := fun h => atFront (ends (a :: before) h)
        rw [if_neg (fun h => hshort (List.isPrefixOf_iff_prefix.mp h)),
          if_neg (fun h => atFront (List.isPrefixOf_iff_prefix.mp h))]
        exact ih 0 (Nat.zero_le _)

theorem occurrences_cons_of_not_prefix {needle rest : List α} {a : α}
    (noMatch : ¬ needle <+: a :: rest) :
    occurrences needle (a :: rest) = occurrences needle rest := by
  rw [occurrences, countAfter, if_neg (fun h => noMatch (List.isPrefixOf_iff_prefix.mp h)),
    occurrences]

omit [DecidableEq α] in
/-- A match that does not have the divider ends before it. -/
theorem prefix_of_prefix_append_cons {needle : List α} {divider : α} (absent : divider ∉ needle)
    {before after : List α} (h : needle <+: before ++ divider :: after) : needle <+: before := by
  rcases List.prefix_or_prefix_of_prefix h (List.prefix_append before (divider :: after)) with h | h
  · exact h
  · -- a match that goes on after `before` has the divider as its next element
    obtain ⟨more, rfl⟩ := h
    rw [List.prefix_append_right_inj] at h
    cases more with
    | nil => simp
    | cons b more =>
      have hb := (List.cons_prefix_cons.mp h).1
      exact absurd (by simp [hb]) absent

/-- The count adds up over what stands before and after a divider that the needle does not have. -/
theorem occurrences_append_cons {needle : List α} {divider : α} (nonempty : needle ≠ [])
    (absent : divider ∉ needle) (before after : List α) :
    occurrences needle (before ++ divider :: after) =
      occurrences needle before + occurrences needle after := by
  have ends : ∀ s, needle <+: s ++ divider :: after → needle <+: s :=
    fun _ => prefix_of_prefix_append_cons absent
  have noMatch : ¬ needle <+: divider :: after :=
    fun h => nonempty (List.prefix_nil.mp (ends [] h))
  rw [← occurrences_cons_of_not_prefix noMatch]
  exact countAfter_append ends before 0 (Nat.zero_le _)

omit [DecidableEq α] in
/-- A match that does not end with the last element ends before it. -/
theorem prefix_of_prefix_concat {needle : List α} {last : α} (absent : needle.getLast? ≠ some last)
    {hay : List α} (h : needle <+: hay ++ [last]) : needle <+: hay := by
  rcases List.prefix_concat_iff.mp h with rfl | h
  · simp at absent
  · exact h

/-- An element at the end that the needle does not end with may be dropped. -/
theorem occurrences_concat {needle : List α} {last : α} (nonempty : needle ≠ [])
    (absent : needle.getLast? ≠ some last) (hay : List α) :
    occurrences needle (hay ++ [last]) = occurrences needle hay := by
  have ends : ∀ s, needle <+: s ++ [last] → needle <+: s :=
    fun _ => prefix_of_prefix_concat absent
  have noMatch : ¬ needle <+: [last] := fun h => nonempty (List.prefix_nil.mp (ends [] h))
  have hlast : occurrences needle [last] = 0 := occurrences_cons_of_not_prefix noMatch
  rw [occurrences, countAfter_append ends hay 0 (Nat.zero_le _), hlast, Nat.add_zero, occurrences]

/-! ## Containing -/

theorem contains_iff (needle hay : List α) : contains needle hay = true ↔ needle <:+: hay := by
  induction hay with
  | nil => rw [contains, List.isEmpty_iff, List.infix_nil]
  | cons a rest ih =>
    rw [contains, Bool.or_eq_true, ih, List.isPrefixOf_iff_prefix, List.infix_cons_iff]

end BenchHarness.Search

namespace BenchHarness.Text

/-- Filters look for a text anywhere in a path. -/
theorem contains_iff (needle hay : String) :
    contains needle hay = true ↔ needle.toList <:+: hay.toList :=
  Search.contains_iff needle.toList hay.toList

end BenchHarness.Text
