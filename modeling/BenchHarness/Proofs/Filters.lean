import BenchHarness.Proofs.Occurrences
import BenchHarness.Selection

/-!
# Filters

A mode that is no reserved word selects the tests of a list whose path has it as a part, as they stand
in the list. A longer text around it selects among these: what a refined filter runs, the coarser one
runs too (`Selection.ofMode_refines`).
-/

namespace BenchHarness

/-- A mode that is neither that of help nor that of a list. -/
structure IsFilter (mode : String) : Prop where
  noHelp : mode ≠ helpMode
  noList : mode ≠ listMode

theorem Action.ofMode_filter {mode : String} (filter : IsFilter mode) :
    Action.ofMode (some mode) = .runFiltered mode := by
  rw [ofMode, if_neg filter.noHelp, if_neg filter.noList]

namespace TestList

/-- The tests whose path has a text as a part. -/
def having (list : TestList) (text : String) : List Entry :=
  list.entries.filter fun e => decide (text.toList <:+: e.path.toList)

theorem having_empty (list : TestList) : list.having "" = list.entries := by
  rw [having, List.filter_eq_self]
  intro e _
  simp

/-- What has a text as a part has every part of the text. -/
theorem having_refined (list : TestList) {s t : String} (refined : s.toList <:+: t.toList) :
    list.having t = (list.having s).filter fun e => decide (t.toList <:+: e.path.toList) := by
  rw [having, having, List.filter_filter]
  refine List.filter_congr fun e _ => ?_
  rw [Bool.eq_iff_iff, Bool.and_eq_true, decide_eq_true_iff, decide_eq_true_iff]
  constructor
  · intro h
    exact ⟨h, refined.trans h⟩
  · intro h
    exact h.1

end TestList

namespace Selection

theorem entries_of_filter (list : TestList) {mode : String} (filter : IsFilter mode) :
    (ofMode list (some mode)).entries = list.having mode := by
  rw [ofMode, Action.ofMode_filter filter]
  refine List.filter_congr fun e _ => ?_
  rw [Bool.eq_iff_iff, Text.contains_iff, decide_eq_true_iff]

/-- A filter is worth a warning exactly if it selects nothing. -/
theorem notes_of_filter (list : TestList) {mode : String} (filter : IsFilter mode) :
    (ofMode list (some mode)).notes = if list.having mode = [] then
      [⟨.warn, .selection, "no tests matched \x60" ++ mode ++ "\x60"⟩] else [] := by
  have haction : (ofMode list (some mode)).action = .runFiltered mode := Action.ofMode_filter filter
  rw [notes, haction, entries_of_filter list filter]
  cases list.having mode <;> rfl

/-- A filter selects the tests that have it in their path, in the order of the list and as often as they
stand there, and warns if there are none. A filter that contains it selects from these those that have
it in their path. The empty filter selects what no mode at all selects. -/
theorem ofMode_refines (list : TestList) :
    (∀ s, IsFilter s →
      (ofMode list (some s)).entries = list.having s ∧
      (ofMode list (some s)).notes = (if (ofMode list (some s)).entries = [] then
        [⟨.warn, .selection, "no tests matched \x60" ++ s ++ "\x60"⟩] else []) ∧
      ∀ t, IsFilter t → s.toList <:+: t.toList →
        (ofMode list (some t)).entries = (ofMode list (some s)).entries.filter
            (fun e => decide (t.toList <:+: e.path.toList)) ∧
          (ofMode list (some t)).entries.Sublist (ofMode list (some s)).entries) ∧
      (ofMode list (some "")).entries = (ofMode list none).entries := by
  refine ⟨?_, ?_⟩
  · intro s hs
    refine ⟨entries_of_filter list hs, ?_, ?_⟩
    · rw [notes_of_filter list hs, entries_of_filter list hs]
    · intro t ht refined
      have hentries : (ofMode list (some t)).entries = (ofMode list (some s)).entries.filter
          (fun e => decide (t.toList <:+: e.path.toList)) := by
        rw [entries_of_filter list ht, entries_of_filter list hs, list.having_refined refined]
      refine ⟨hentries, ?_⟩
      rw [hentries]
      exact List.filter_sublist
  · have hempty : IsFilter "" := ⟨by decide, by decide⟩
    rw [entries_of_filter list hempty, list.having_empty]
    rfl

/-- A test that stands in a list twice is selected twice, by a filter and by one that contains it; a
reserved word within a filter is a text like any other. -/
theorem ofMode_refines_of_repeated :
    let list : TestList := ⟨"/cores", [⟨"a/help/go.sh"⟩, ⟨"b/go.sh"⟩, ⟨"a/help/go.sh"⟩]⟩
    (ofMode list (some "elp")).entries = [⟨"a/help/go.sh"⟩, ⟨"a/help/go.sh"⟩] ∧
      (ofMode list (some "/help")).entries =
        (ofMode list (some "elp")).entries.filter fun e => decide ("/help".toList <:+: e.path.toList) := by
  intro list
  have coarse : IsFilter "elp" := ⟨by decide, by decide⟩
  have fine : IsFilter "/help" := ⟨by decide, by decide⟩
  obtain ⟨filters, -⟩ := ofMode_refines list
  obtain ⟨hentries, -, refines⟩ := filters "elp" coarse
  refine ⟨?_, (refines "/help" fine (by decide)).1⟩
  rw [hentries]
  decide

end Selection

end BenchHarness
