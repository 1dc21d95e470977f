import Mathlib.Data.List.DropRight

/-!
# Pieces between marks

A list is cut into pieces where a mark stands in it. No piece has a mark, and what is in a piece is in
the list. Pieces that are empty at the end stand for marks at the end and for nothing else, so joining
the other ones gives the list without these marks.
-/

namespace Overprint.Text

variable {α : Type} [DecidableEq α] {mark : α}

omit [DecidableEq α] in
theorem intercalate_concat {front : List (List α)} (hfront : front ≠ []) (last : List α) :
    [mark].intercalate (front ++ [last]) = [mark].intercalate front ++ mark :: last := by
  induction front with
  | nil => exact absurd rfl hfront
  | cons first rest ih =>
    cases rest with
    | nil => simp
    | cons second others =>
      have hrest := ih (List.cons_ne_nil second others)
      rw [List.cons_append, List.cons_append, List.intercalate_cons_cons,
        List.intercalate_cons_cons, ← List.cons_append, hrest, List.append_assoc, List.append_assoc,
        List.append_assoc]

theorem not_mem_of_mem_splitOn {items piece : List α} (hmem : piece ∈ items.splitOn mark) :
    mark ∉ piece := by
  induction items generalizing piece with
  | nil =>
    rw [List.splitOn_nil, List.mem_singleton] at hmem
    rw [hmem]
    exact List.not_mem_nil
  | cons item rest ih =>
    rw [List.splitOn_cons_eq_if_modifyHead] at hmem
    split at hmem
    · rcases List.mem_cons.1 hmem with rfl | hmem
      · exact List.not_mem_nil
      · exact ih hmem
    next hitem =>
      cases hpieces : rest.splitOn mark with
      | nil => exact absurd hpieces (List.splitOn_ne_nil mark rest)
      | cons first others =>
        rw [hpieces, List.modifyHead_cons] at hmem
        rw [hpieces] at ih
        rcases List.mem_cons.1 hmem with rfl | hmem
        · have hne : mark ≠ item := fun heq => hitem (beq_iff_eq.2 heq.symm)
          exact List.not_mem_cons_of_ne_of_not_mem hne (ih List.mem_cons_self)
        · exact ih (List.mem_cons_of_mem first hmem)

omit [DecidableEq α] in
theorem subset_intercalate {pieces : List (List α)} {piece : List α} (mark : α)
    (hmem : piece ∈ pieces) : piece ⊆ [mark].intercalate pieces := by
  induction pieces with
  | nil => cases hmem
  | cons first rest ih =>
    cases rest with
    | nil =>
      rw [List.intercalate_singleton, List.mem_singleton.1 hmem]
      exact List.Subset.refl first
    | cons second others =>
      rw [List.intercalate_cons_cons, List.append_assoc]
      rcases List.mem_cons.1 hmem with rfl | hmem
      · exact List.subset_append_left _ _
      · intro item hitem
        have hrest : item ∈ [mark].intercalate (second :: others) := ih hmem hitem
        exact List.mem_append_right first (List.mem_append_right [mark] hrest)

theorem subset_of_mem_splitOn {items piece : List α} (hmem : piece ∈ items.splitOn mark) :
    piece ⊆ items := by
  have hsubset := subset_intercalate mark hmem
  rwa [List.intercalate_splitOn] at hsubset

/-- The pieces between the marks, without the empty ones at the end. -/
def keptPieces (mark : α) (items : List α) : List (List α) :=
  (items.splitOn mark).rdropWhile (·.isEmpty)

/-- One more mark at the end is one more empty piece, which is not kept. -/
theorem keptPieces_concat_self (items : List α) :
    keptPieces mark (items ++ [mark]) = keptPieces mark items := by
  rw [keptPieces, List.splitOn_append_cons_self, List.splitOn_nil]
  exact List.rdropWhile_concat_pos _ _ _ rfl

/-- With an empty piece at its end a text would end in a mark. -/
theorem keptPieces_concat {items : List α} {item : α} (hitem : item ≠ mark) :
    keptPieces mark (items ++ [item]) = (items ++ [item]).splitOn mark := by
  have hjoined : [mark].intercalate ((items ++ [item]).splitOn mark) = items ++ [item] :=
    List.intercalate_splitOn mark
  rw [keptPieces, List.rdropWhile_eq_self_iff]
  intro hne hempty
  rw [← List.dropLast_append_getLast hne, List.isEmpty_iff.1 hempty] at hjoined
  by_cases hfront : ((items ++ [item]).splitOn mark).dropLast = []
  · rw [hfront, List.nil_append, List.intercalate_singleton] at hjoined
    exact absurd hjoined (by simp)
  · rw [intercalate_concat hfront] at hjoined
    have hlast := List.append_inj_right' hjoined rfl
    exact hitem (List.singleton_inj.1 hlast).symm

theorem intercalate_keptPieces (items : List α) :
    [mark].intercalate (keptPieces mark items) = items.rdropWhile (· == mark) := by
  induction items using List.reverseRecOn with
  | nil => rfl
  | append_singleton front item ih =>
    by_cases hitem : item = mark
    · rw [hitem, keptPieces_concat_self, ih, List.rdropWhile_concat_pos (· == mark) _ _ (by simp)]
    · rw [keptPieces_concat hitem, List.intercalate_splitOn,
        List.rdropWhile_concat_neg (· == mark) _ _ (by simpa using hitem)]

theorem keptPieces_eq_nil_iff {items : List α} :
    keptPieces mark items = [] ↔ ∀ item ∈ items, item = mark := by
  induction items using List.reverseRecOn with
  | nil => simp [keptPieces, List.rdropWhile]
  | append_singleton front item ih =>
    rw [List.forall_mem_append, List.forall_mem_singleton]
    by_cases hitem : item = mark
    · rw [hitem, keptPieces_concat_self, ih]
      simp only [and_true]
    · rw [keptPieces_concat hitem]
      simp only [List.splitOn_ne_nil, hitem, and_false]

end Overprint.Text
