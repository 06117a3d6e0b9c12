import BenchHarness.Text.Pieces

/-!
# Splitting and gluing

Cutting a sequence at a separator and gluing the pieces undo each other: the pieces are glued to the
sequence again (`Pieces.glue_split`), and pieces that do not have the separator are found again
(`Pieces.split_glue`), so such pieces can be told from what they are glued to (`Pieces.glue_injective`).
-/

namespace BenchHarness.Pieces

variable {α : Type} {separator : α}

section

variable [DecidableEq α]

theorem split_ne_nil (l : List α) : split separator l ≠ [] := by
  cases l with
  | nil => simp [split]
  | cons a rest =>
    unfold split
    split
    · simp
    · split <;> simp

theorem split_of_not_mem {piece : List α} (absent : separator ∉ piece) :
    split separator piece = [piece] := by
  induction piece with
  | nil => rfl
  | cons a rest ih =>
    rw [List.mem_cons, not_or] at absent
    rw [split, if_neg (fun h => absent.1 h.symm), ih absent.2]

/-- A separator cuts a sequence in two, each of which is cut by itself. -/
theorem split_append_cons (before after : List α) :
    split separator (before ++ separator :: after) =
      split separator before ++ split separator after := by
  induction before with
  | nil => simp [split]
  | cons a before ih =>
    rw [List.cons_append, split, split, ih]
    by_cases h : a = separator
    · rw [if_pos h, if_pos h, List.cons_append]
    · rw [if_neg h, if_neg h]
      cases hsplit : split separator before with
      | nil => exact absurd hsplit (split_ne_nil before)
      | cons first more => rfl

theorem mem_of_mem_split {a : α} {l piece : List α} (hpiece : piece ∈ split separator l)
    (ha : a ∈ piece) : a ∈ l := by
  induction l generalizing piece with
  | nil =>
    rw [split, List.mem_singleton] at hpiece
    rw [hpiece] at ha
    exact absurd ha List.not_mem_nil
  | cons b rest ih =>
    rw [split] at hpiece
    split at hpiece
    · rcases List.mem_cons.mp hpiece with rfl | hpiece
      · exact absurd ha List.not_mem_nil
      · exact List.mem_cons_of_mem b (ih hpiece ha)
    · split at hpiece
      · rw [List.mem_singleton.mp hpiece, List.mem_singleton] at ha
        rw [ha]
        exact List.mem_cons_self
      · next first more hsplit =>
        rw [hsplit] at ih
        rcases List.mem_cons.mp hpiece with rfl | hpiece
        · rcases List.mem_cons.mp ha with rfl | ha
          · exact List.mem_cons_self
          · exact List.mem_cons_of_mem b (ih List.mem_cons_self ha)
        · exact List.mem_cons_of_mem b (ih (List.mem_cons_of_mem first hpiece) ha)

end

theorem glue_cons {piece : List α} {rest : List (List α)} (more : rest ≠ []) :
    glue separator (piece :: rest) = piece ++ separator :: glue separator rest := by
  cases rest with
  | nil => exact absurd rfl more
  | cons next rest => rfl

theorem mem_of_mem_glue {a : α} {pieces : List (List α)} (ha : a ∈ glue separator pieces) :
    a = separator ∨ ∃ piece ∈ pieces, a ∈ piece := by
  induction pieces with
  | nil => exact absurd ha List.not_mem_nil
  | cons piece rest ih =>
    by_cases more : rest = []
    · subst more
      exact .inr ⟨piece, List.mem_cons_self, ha⟩
    · rw [glue_cons more, List.mem_append, List.mem_cons] at ha
      rcases ha with ha | rfl | ha
      · exact .inr ⟨piece, List.mem_cons_self, ha⟩
      · exact .inl rfl
      · rcases ih ha with h | ⟨p, hp, h⟩
        · exact .inl h
        · exact .inr ⟨p, List.mem_cons_of_mem piece hp, h⟩

theorem glue_concat {pieces : List (List α)} (nonempty : pieces ≠ []) (last : List α) :
    glue separator (pieces ++ [last]) = glue separator pieces ++ separator :: last := by
  induction pieces with
  | nil => exact absurd rfl nonempty
  | cons piece rest ih =>
    cases rest with
    | nil => rfl
    | cons next rest =>
      rw [List.cons_append, glue_cons (by simp), glue_cons (by simp), ih (by simp),
        List.append_assoc]
      rfl

/-- Pieces of a sequence whose elements are renamed. -/
theorem glue_map {β : Type} (separator : α) (f : α → β) (pieces : List (List α)) :
    glue (f separator) (pieces.map (List.map f)) = (glue separator pieces).map f := by
  induction pieces with
  | nil => rfl
  | cons piece rest ih =>
    cases rest with
    | nil => rfl
    | cons next rest =>
      have hnext : next :: rest ≠ [] := List.cons_ne_nil next rest
      have hmap : (next :: rest).map (List.map f) ≠ [] := by simp
      rw [List.map_cons, glue_cons hmap, ih, glue_cons hnext, List.map_append, List.map_cons]

variable [DecidableEq α]

/-- Pieces that do not have the separator are found again. -/
theorem split_glue {pieces : List (List α)} (nonempty : pieces ≠ [])
    (absent : ∀ piece ∈ pieces, separator ∉ piece) :
    split separator (glue separator pieces) = pieces := by
  induction pieces with
  | nil => exact absurd rfl nonempty
  | cons piece rest ih =>
    have hpiece : separator ∉ piece := absent piece List.mem_cons_self
    by_cases more : rest = []
    · subst more
      exact split_of_not_mem hpiece
    · rw [glue_cons more, split_append_cons, split_of_not_mem hpiece,
        ih more (fun p hp => absent p (List.mem_cons_of_mem piece hp))]
      rfl

/-- Before an element that is no separator the first piece grows. -/
theorem split_cons_of_ne {a : α} (other : a ≠ separator) (rest : List α) :
    ∃ first more, split separator rest = first :: more ∧
      split separator (a :: rest) = (a :: first) :: more := by
  obtain ⟨first, more, hrest⟩ := List.exists_cons_of_ne_nil (@split_ne_nil α separator _ rest)
  refine ⟨first, more, hrest, ?_⟩
  rw [split, if_neg other, hrest]

theorem not_mem_of_mem_split {l : List α} :
    ∀ {piece}, piece ∈ split separator l → separator ∉ piece := by
  induction l with
  | nil =>
    intro piece hpiece
    rw [List.mem_singleton.mp hpiece]
    exact List.not_mem_nil
  | cons a rest ih =>
    intro piece hpiece
    by_cases here : a = separator
    · rw [split, if_pos here] at hpiece
      rcases List.mem_cons.mp hpiece with rfl | hpiece
      · exact List.not_mem_nil
      · exact ih hpiece
    · obtain ⟨first, more, hrest, hsplit⟩ := split_cons_of_ne here rest
      rw [hsplit] at hpiece
      rw [hrest] at ih
      rcases List.mem_cons.mp hpiece with rfl | hpiece
      · rw [List.mem_cons, not_or]
        exact ⟨Ne.symm here, ih List.mem_cons_self⟩
      · exact ih (List.mem_cons_of_mem first hpiece)

/-- The pieces of a sequence are glued to it again. -/
theorem glue_split (l : List α) : glue separator (split separator l) = l := by
  induction l with
  | nil => rfl
  | cons a rest ih =>
    by_cases here : a = separator
    · rw [split, if_pos here, glue_cons (split_ne_nil rest), ih, here]
      rfl
    · obtain ⟨first, more, hrest, hsplit⟩ := split_cons_of_ne here rest
      rw [hsplit]
      rw [hrest] at ih
      cases more with
      | nil => exact congrArg (a :: ·) ih
      | cons next more => exact congrArg (a :: ·) ih

/-- Pieces that do not have the separator are told apart by what they are glued to. -/
theorem glue_injective {pieces others : List (List α)} (hpieces : pieces ≠ [])
    (hothers : others ≠ []) (absent : ∀ piece ∈ pieces, separator ∉ piece)
    (absent' : ∀ piece ∈ others, separator ∉ piece)
    (same : glue separator pieces = glue separator others) : pieces = others := by
  rw [← split_glue hpieces absent, same, split_glue hothers absent']

end BenchHarness.Pieces
