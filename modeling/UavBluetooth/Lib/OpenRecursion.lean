import Mathlib.Tactic

set_option autoImplicit false

/-! # Open recursion

Functions that call one another are written as one body, which answers a question with the help of
a callback. The body is unrolled until its questions have run out; where the questions that it
asks are smaller than its own, this solves the equations that the functions were written as, and
what stands at the end of the unrolling does not matter.
-/

namespace OpenRecursion

variable {α β : Type}

/-- The answer to a question, given what answers the questions that come up. -/
abbrev Body (α β : Type) := (α → β) → α → β

/-- The body with its callbacks replaced by itself, `n` levels deep. -/
def unrolled (body : Body α β) (bottom : α → β) : Nat → α → β
  | 0 => bottom
  | n + 1 => body (unrolled body bottom n)

/-- The body unrolled as deep as the size of a question asks. -/
def solution (body : Body α β) (bottom : α → β) (size : α → Nat) (x : α) : β :=
  unrolled body bottom (size x + 1) x

variable {body : Body α β} {bottom bottom' : α → β} {size : α → Nat} {Good : α → β → Prop}

/-! ## Partial correctness -/

/-- What a body keeps and the bottom has is so of every answer. -/
theorem unrolled_good (hbottom : ∀ x, Good x (bottom x))
    (hbody : ∀ f, (∀ x, Good x (f x)) → ∀ x, Good x (body f x)) (n : Nat) :
    ∀ x, Good x (unrolled body bottom n x) := by
  induction n with
  | zero => exact hbottom
  | succ n ih => exact hbody _ ih

theorem solution_good (hbottom : ∀ x, Good x (bottom x))
    (hbody : ∀ f, (∀ x, Good x (f x)) → ∀ x, Good x (body f x)) (x : α) :
    Good x (solution body bottom size x) :=
  unrolled_good hbottom hbody (size x + 1) x

/-! ## The equation -/

/-- A body that asks nothing but smaller questions. That it does may rest on what the answers to
the first of them are like, which the body keeps. -/
structure Descends (body : Body α β) (size : α → Nat) (Good : α → β → Prop) : Prop where
  good : ∀ f, (∀ x, Good x (f x)) → ∀ x, Good x (body f x)
  smaller : ∀ f g, (∀ x, Good x (f x)) → (∀ x, Good x (g x)) → ∀ x,
    (∀ y, size y < size x → f y = g y) → body f x = body g x

/-- Levels beyond the size of a question, and what stands below them, make no difference. -/
theorem Descends.unrolled_eq (h : Descends body size Good) (hbottom : ∀ x, Good x (bottom x))
    (hbottom' : ∀ x, Good x (bottom' x)) (n m : Nat) :
    ∀ x, size x < n → size x < m → unrolled body bottom n x = unrolled body bottom' m x := by
  induction n generalizing m with
  | zero =>
      intro x hn
      omega
  | succ n ih =>
      intro x hn hm
      obtain ⟨m, rfl⟩ : ∃ m', m = m' + 1 := ⟨m - 1, by omega⟩
      have hgood := unrolled_good hbottom h.good n
      have hgood' := unrolled_good hbottom' h.good m
      refine h.smaller _ _ hgood hgood' x fun y hy => ?_
      exact ih m y (by omega) (by omega)

/-- **The solution satisfies the equation.** -/
theorem Descends.solution_eq (h : Descends body size Good) (hbottom : ∀ x, Good x (bottom x))
    (x : α) : solution body bottom size x = body (solution body bottom size) x := by
  have hgood := unrolled_good hbottom h.good (size x)
  refine h.smaller _ _ hgood (solution_good hbottom h.good) x fun y hy => ?_
  exact h.unrolled_eq hbottom hbottom _ _ y hy (Nat.lt_succ_self _)

end OpenRecursion
