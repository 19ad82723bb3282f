import Mathlib.Tactic

set_option autoImplicit false

/-! # Allotment from a durable cursor

Pieces of a line are handed out from left to right. The next piece starts at a cursor in memory;
a restart forgets it and goes on from a cursor on a store. A piece is handed out only once the
store holds its end. An attempt that fails in between may leave a gap.

* `Move` is what the allotter can do, restarts included;
* `Sound.move` is the invariant: the pieces lie apart and the store is past all of them.
-/

/-- An allotter: its two cursors and the pieces that it has handed out, the latest first. -/
structure Allotment (α : Type) where
  memory : α
  stored : α
  handed : List (α × α)

namespace Allotment

section

variable {α : Type} [Preorder α]

/-- Two pieces, from their first element up to the one after their last, lie apart. -/
def Apart (p q : α × α) : Prop := p.2 ≤ q.1 ∨ q.2 ≤ p.1

inductive Move : Allotment α → Allotment α → Prop where
  /-- Nothing is handed out, but a piece may be skipped. -/
  | skip {s : Allotment α} {c : α} (h : s.memory ≤ c) : Move s { s with memory := c }
  /-- The end of the piece is stored before the piece is handed out. -/
  | hand {s : Allotment α} {c : α} (h : s.memory ≤ c) :
      Move s { memory := c, stored := c, handed := (s.memory, c) :: s.handed }
  | restart {s : Allotment α} : Move s { s with memory := s.stored }

/-- The pieces lie apart, between the floor and the stored cursor. -/
structure Sound (floor : α) (s : Allotment α) : Prop where
  floor_le : floor ≤ s.stored
  stored_le : s.stored ≤ s.memory
  inside : ∀ p ∈ s.handed, floor ≤ p.1 ∧ p.2 ≤ s.stored
  apart : s.handed.Pairwise Apart

theorem sound_initial (floor : α) : Sound floor ⟨floor, floor, []⟩ :=
  ⟨le_refl floor, le_refl floor, by simp, .nil⟩

/-- **The pieces stay apart**, whatever the allotter does. -/
theorem Sound.move {floor : α} {s t : Allotment α} (h : Sound floor s) (hmove : Move s t) :
    Sound floor t := by
  cases hmove with
  | skip hle => exact ⟨h.floor_le, h.stored_le.trans hle, h.inside, h.apart⟩
  | @hand c hle =>
      have hpast : s.stored ≤ c := h.stored_le.trans hle
      refine ⟨h.floor_le.trans hpast, le_refl c, fun p hp => ?_, ?_⟩
      · rcases List.mem_cons.mp hp with rfl | hp
        · exact ⟨h.floor_le.trans h.stored_le, le_refl c⟩
        · exact ⟨(h.inside p hp).1, (h.inside p hp).2.trans hpast⟩
      · -- every earlier piece ends where the stored cursor was, or before
        refine List.pairwise_cons.mpr ⟨fun p hp => Or.inr ?_, h.apart⟩
        exact (h.inside p hp).2.trans h.stored_le
  | restart => exact ⟨h.floor_le, le_refl s.stored, h.inside, h.apart⟩

end

/-- A piece that begins before another one ends, and ends after it begins, is not apart. -/
theorem not_apart {α : Type} [LinearOrder α] {p q : α × α} (h : p.1 < q.2) (h' : q.1 < p.2) :
    ¬ Apart p q := by
  rintro (hapart | hapart)
  · exact absurd hapart (not_le_of_gt h')
  · exact absurd hapart (not_le_of_gt h)

end Allotment
