import Mathlib.Tactic

set_option autoImplicit false

/-! # Arrival in order

Values are sent one after the other; some of them arrive, perhaps more than once. They arrive in
order if each arrival can be traced back to a place in the sequence sent so that the places never
go back (`InOrder`). `InOrderUpTo` bounds the places, which is what an invariant of a run keeps.
-/

namespace Arrival

variable {α : Type}

/-- No value arrives after one that was sent later. -/
def InOrder (sent arrived : List α) : Prop :=
  ∃ places : List Nat, places.Pairwise (· ≤ ·) ∧
    List.Forall₂ (fun i x => sent[i]? = some x) places arrived

/-- The values arrive in order, and none from a place after `last`. -/
def InOrderUpTo (sent arrived : List α) (last : Nat) : Prop :=
  ∃ places : List Nat, places.Pairwise (· ≤ ·) ∧ (∀ i ∈ places, i ≤ last) ∧
    List.Forall₂ (fun i x => sent[i]? = some x) places arrived

variable {sent arrived : List α} {last i : Nat} {x : α}

theorem InOrderUpTo.inOrder (h : InOrderUpTo sent arrived last) : InOrder sent arrived := by
  obtain ⟨places, hsorted, _, hplaces⟩ := h
  exact ⟨places, hsorted, hplaces⟩

theorem inOrderUpTo_nil (sent : List α) (last : Nat) : InOrderUpTo sent [] last :=
  ⟨[], List.Pairwise.nil, by simp, List.Forall₂.nil⟩

theorem getElem?_append_of_some {more : List α} (h : sent[i]? = some x) :
    (sent ++ more)[i]? = some x := by
  have hlt : i < sent.length := (List.getElem?_eq_some_iff.mp h).1
  rw [List.getElem?_append_left hlt, h]

/-- More is sent. -/
theorem InOrderUpTo.send (h : InOrderUpTo sent arrived last) (more : List α) :
    InOrderUpTo (sent ++ more) arrived last := by
  obtain ⟨places, hsorted, hlast, hplaces⟩ := h
  exact ⟨places, hsorted, hlast, hplaces.imp fun i x hx => getElem?_append_of_some hx⟩

/-- A value arrives that was not sent before any of the others. -/
theorem InOrderUpTo.arrive (h : InOrderUpTo sent arrived last) (hi : last ≤ i)
    (hx : sent[i]? = some x) : InOrderUpTo sent (arrived ++ [x]) i := by
  obtain ⟨places, hsorted, hlast, hplaces⟩ := h
  have hbound : ∀ j ∈ places, j ≤ i := fun j hj => Nat.le_trans (hlast j hj) hi
  refine ⟨places ++ [i], ?_, ?_, ?_⟩
  · refine List.pairwise_append.mpr ⟨hsorted, List.pairwise_singleton _ _, fun j hj k hk => ?_⟩
    rw [List.mem_singleton.mp hk]
    exact hbound j hj
  · intro j hj
    rcases List.mem_append.mp hj with hj | hj
    · exact hbound j hj
    · exact Nat.le_of_eq (List.mem_singleton.mp hj)
  · exact List.rel_append hplaces (List.Forall₂.cons hx List.Forall₂.nil)

/-- Some of the values do not arrive after all. -/
theorem InOrderUpTo.thin (h : InOrderUpTo sent arrived last) {fewer : List α}
    (hfewer : fewer.Sublist arrived) : InOrderUpTo sent fewer last := by
  obtain ⟨places, hsorted, hlast, hplaces⟩ := h
  have hrest : ∃ kept : List Nat, kept.Sublist places ∧
      List.Forall₂ (fun i x => sent[i]? = some x) kept fewer := by
    clear hsorted hlast
    induction hfewer generalizing places with
    | slnil => exact ⟨[], List.nil_sublist places, List.Forall₂.nil⟩
    | cons x _ ih =>
        obtain ⟨i, others, _, hothers, rfl⟩ := List.forall₂_cons_right_iff.mp hplaces
        obtain ⟨kept, hkept, hplaced⟩ := ih others hothers
        exact ⟨kept, hkept.cons i, hplaced⟩
    | cons_cons x _ ih =>
        obtain ⟨i, others, hi, hothers, rfl⟩ := List.forall₂_cons_right_iff.mp hplaces
        obtain ⟨kept, hkept, hplaced⟩ := ih others hothers
        exact ⟨i :: kept, hkept.cons_cons i, List.Forall₂.cons hi hplaced⟩
  obtain ⟨kept, hkept, hplaced⟩ := hrest
  exact ⟨kept, hsorted.sublist hkept, fun i hi => hlast i (hkept.subset hi), hplaced⟩

/-- Two different values that arrive the other way round are not in order. -/
theorem not_inOrder_swap {x y : α} (h : x ≠ y) : ¬ InOrder [x, y] [y, x] := by
  rintro ⟨places, hsorted, hplaces⟩
  cases hplaces with
  | @cons i _ places _ hy hrest =>
      cases hrest with
      | @cons j _ places _ hx _ =>
          have hij : i ≤ j := by
            rw [List.pairwise_cons] at hsorted
            exact hsorted.1 j List.mem_cons_self
          have hj : j = 0 := by
            rcases j with _ | _ | j
            · rfl
            · exact absurd (Option.some.inj hx).symm h
            · cases hx
          have hi : i = 0 := by omega
          rw [hi] at hy
          exact h (Option.some.inj hy)

end Arrival
