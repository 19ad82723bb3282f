import Mathlib.Tactic

set_option autoImplicit false

/-! # Greedy prefixes

`take weight budget used items` takes items from the front while their weights fit in the budget.
A prefix of the items is within the budget exactly when it is a prefix of what is taken
(`prefix_take_iff`).
-/

namespace Greedy

section

variable {α : Type} (weight : α → Nat) (budget : Nat)

/-- Take items until the next one would exceed the budget. -/
def take : Nat → List α → List α
  | _, [] => []
  | used, a :: rest =>
      if budget < used + weight a then [] else a :: take (used + weight a) rest

/-- The weight of all items. -/
def total (items : List α) : Nat := (items.map weight).sum

variable {weight budget} {a : α} {items p : List α} {used : Nat}

@[simp] theorem total_nil : total weight ([] : List α) = 0 := rfl

@[simp] theorem total_cons : total weight (a :: items) = weight a + total weight items := by
  simp [total]

theorem total_le_of_prefix (h : p <+: items) : total weight p ≤ total weight items := by
  obtain ⟨rest, rfl⟩ := h
  simp [total]

/-- **The prefixes within the budget are the prefixes of what is taken.** -/
theorem prefix_take_iff (hp : p <+: items) (hused : used ≤ budget) :
    used + total weight p ≤ budget ↔ p <+: take weight budget used items := by
  induction items generalizing p used with
  | nil =>
      rw [List.prefix_nil.mp hp]
      simpa [take] using hused
  | cons a items ih =>
      cases p with
      | nil => simpa using hused
      | cons b p =>
          obtain ⟨rfl, htail⟩ := List.cons_prefix_cons.mp hp
          rw [total_cons, take]
          by_cases hfull : budget < used + weight b
          · rw [if_pos hfull]
            constructor
            · intro h
              omega
            · intro h
              cases List.prefix_nil.mp h
          · rw [if_neg hfull, List.cons_prefix_cons, ← Nat.add_assoc]
            have hrest := @ih p (used + weight b) htail (by omega)
            exact hrest.trans ⟨fun h => ⟨rfl, h⟩, fun h => h.2⟩

theorem take_prefix : take weight budget used items <+: items := by
  induction items generalizing used with
  | nil => exact List.prefix_rfl
  | cons a items ih =>
      rw [take]
      by_cases hfull : budget < used + weight a
      · rw [if_pos hfull]
        exact List.nil_prefix
      · rw [if_neg hfull, List.cons_prefix_cons]
        exact ⟨rfl, ih⟩

theorem total_take_le (hused : used ≤ budget) :
    used + total weight (take weight budget used items) ≤ budget :=
  (prefix_take_iff take_prefix hused).mpr List.prefix_rfl

/-- A longer prefix exceeds the budget. -/
theorem lt_total_of_longer (hp : p <+: items) (hused : used ≤ budget)
    (hlonger : (take weight budget used items).length < p.length) :
    budget < used + total weight p := by
  by_contra hfits
  have hprefix := (prefix_take_iff hp hused).mp (not_lt.mp hfits)
  have hlength := hprefix.length_le
  omega

end

end Greedy
