import Mathlib.Tactic

set_option autoImplicit false

/-! # The window over the end of a growing list

A bounded queue that drops its oldest element when it grows too long holds the last elements of
everything that was ever put into it: `push n` on the queue is `last n` of the full list
(`push_last`). What is not in the window although it was put in once has been followed by a
whole window of other elements (`last_of_not_mem`).
-/

namespace Window

section

variable {α : Type} {n : Nat}

/-- The last `n` elements. -/
def last (n : Nat) (full : List α) : List α := full.drop (full.length - n)

/-- Append an element and drop the first one if there are now more than `n`. -/
def push (n : Nat) (window : List α) (x : α) : List α :=
  if n < (window ++ [x]).length then (window ++ [x]).tail else window ++ [x]

@[simp] theorem last_nil : last n ([] : List α) = [] := by
  simp [last]

theorem length_last (full : List α) : (last n full).length = min full.length n := by
  simp only [last, List.length_drop]
  omega

theorem length_last_le (full : List α) : (last n full).length ≤ n := by
  rw [length_last]
  exact Nat.min_le_right _ _

/-- **The bridge**: pushing on the window is appending to the full list. -/
theorem push_last (full : List α) (x : α) : push n (last n full) x = last n (full ++ [x]) := by
  have hlength := length_last (n := n) full
  unfold push
  rw [List.length_append, List.length_singleton, hlength]
  by_cases hfull : n ≤ full.length
  · rw [if_pos (by omega)]
    have hdrop : last n full ++ [x] = (full ++ [x]).drop (full.length - n) := by
      rw [List.drop_append_of_le_length (by omega)]
      rfl
    rw [hdrop, List.tail_drop]
    unfold last
    congr 1
    rw [List.length_append, List.length_singleton]
    omega
  · rw [if_neg (by omega)]
    have hall : ∀ l : List α, l.length ≤ n → last n l = l := by
      intro l hl
      unfold last
      rw [Nat.sub_eq_zero_of_le hl, List.drop_zero]
    rw [hall full (by omega), hall (full ++ [x]) (by simp; omega)]

/-- **An element that has left the window** has been followed by a whole window of others. -/
theorem last_of_not_mem {before after : List α} {x : α}
    (h : x ∉ last n (before ++ x :: after)) :
    (last n (before ++ x :: after)).length = n ∧ last n (before ++ x :: after) <:+ after := by
  have hlong : n ≤ after.length := by
    by_contra hshort
    refine h ?_
    unfold last
    rw [List.drop_append_of_le_length (by simp; omega)]
    exact List.mem_append_right _ List.mem_cons_self
  refine ⟨by rw [length_last]; simp; omega, ?_⟩
  unfold last
  have hsplit : before ++ x :: after = (before ++ [x]) ++ after := by simp
  rw [hsplit, List.drop_append, List.drop_eq_nil_of_le (by simp; omega), List.nil_append]
  exact List.drop_suffix _ _

end

end Window
