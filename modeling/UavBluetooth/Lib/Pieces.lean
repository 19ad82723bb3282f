import Mathlib.Tactic

set_option autoImplicit false

/-! # Lists in pieces

What the standard library leaves open about the pieces of a list between separators: none of them
has a separator, and the last one is empty just when the list is empty or ends in a separator.
-/

namespace Pieces

variable {α : Type} [DecidableEq α] {sep : α} {l : List α}

theorem not_mem_piece {piece : List α} (h : piece ∈ l.splitOn sep) : sep ∉ piece := by
  induction l generalizing piece with
  | nil =>
      rw [List.splitOn_nil, List.mem_singleton] at h
      rw [h]
      exact List.not_mem_nil
  | cons x rest ih =>
      rw [List.splitOn_cons_eq_if_modifyHead] at h
      split at h
      · rcases List.mem_cons.mp h with rfl | h
        · exact List.not_mem_nil
        · exact ih h
      · rename_i hx
        have hne : sep ≠ x := by
          rintro rfl
          exact hx (beq_self_eq_true _)
        cases hsplit : rest.splitOn sep with
        | nil => exact absurd hsplit (List.splitOn_ne_nil sep rest)
        | cons first others =>
            rw [hsplit, List.modifyHead_cons] at h
            rcases List.mem_cons.mp h with rfl | h
            · intro hmem
              rcases List.mem_cons.mp hmem with heq | hmem
              · exact hne heq
              · exact ih (hsplit ▸ List.mem_cons_self) hmem
            · exact ih (hsplit ▸ List.mem_cons_of_mem first h)

omit [DecidableEq α] in
/-- What is in the joined list is a separator or in a piece. -/
theorem mem_of_mem_intercalate {pieces : List (List α)} {x : α}
    (h : x ∈ [sep].intercalate pieces) : x = sep ∨ ∃ piece ∈ pieces, x ∈ piece := by
  induction pieces with
  | nil => cases h
  | cons first rest ih =>
      cases rest with
      | nil =>
          rw [List.intercalate_singleton] at h
          exact Or.inr ⟨first, List.mem_cons_self, h⟩
      | cons second rest =>
          rw [List.intercalate_cons_cons, List.append_assoc, List.mem_append, List.mem_append,
            List.mem_singleton] at h
          rcases h with h | h | h
          · exact Or.inr ⟨first, List.mem_cons_self, h⟩
          · exact Or.inl h
          · rcases ih h with h | ⟨piece, hpiece, h⟩
            · exact Or.inl h
            · exact Or.inr ⟨piece, List.mem_cons_of_mem first hpiece, h⟩

theorem getLast?_splitOn_eq_nil_iff :
    (l.splitOn sep).getLast? = some [] ↔ l = [] ∨ l.getLast? = some sep := by
  by_cases hsep : sep ∈ l.reverse
  · -- Split at the last separator.
    obtain ⟨after, before, hsplit, hafter⟩ := List.eq_append_cons_of_mem hsep
    have hl : l = before.reverse ++ sep :: after.reverse := by
      rw [← List.reverse_reverse l, hsplit, List.reverse_append, List.reverse_cons,
        List.append_assoc, List.singleton_append]
    have hmem : sep ∉ after.reverse := fun h => hafter (List.mem_reverse.mp h)
    rw [hl, List.splitOn_append_cons_self, List.splitOn_eq_singleton hmem,
      List.getLast?_append_of_ne_nil _ (List.cons_ne_nil _ _), List.getLast?_singleton]
    cases hcase : after.reverse with
    | nil => simp
    | cons x rest =>
        rw [hcase] at hmem
        constructor
        · intro h
          cases h
        · rintro (h | h)
          · exact absurd h (by simp)
          · rw [List.getLast?_append_of_ne_nil _ (List.cons_ne_nil _ _),
              List.getLast?_cons_cons] at h
            exact absurd (List.mem_of_getLast? h) hmem
  · have hl : sep ∉ l := fun h => hsep (List.mem_reverse.mpr h)
    rw [List.splitOn_eq_singleton hl, List.getLast?_singleton, Option.some.injEq]
    constructor
    · exact Or.inl
    · rintro (h | h)
      · exact h
      · exact absurd (List.mem_of_getLast? h) hl

end Pieces
