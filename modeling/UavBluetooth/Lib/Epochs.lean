import Mathlib.Tactic

set_option autoImplicit false

/-! # Leaving and coming back

A party that is present or absent, and stamps what it sends with the order of sending, with
how often it has entered, and with whether it was present. Whoever has seen an absent stamp
wants to know which later ones say that the party is back: `Kept.returned` says that a stamp
shows it if it is of a later message and says present.
-/

namespace Epochs

structure Stamp where
  order : Nat
  epoch : Nat
  present : Bool
  deriving DecidableEq, Repr

/-- A party, with all stamps it has issued. -/
structure Party where
  epoch : Nat := 0
  present : Bool
  sent : List Stamp := []

namespace Party

/-- The stamp of the next message. -/
def stamp (p : Party) : Stamp := ⟨p.sent.length, p.epoch, p.present⟩

def send (p : Party) : Party := { p with sent := p.sent ++ [p.stamp] }

def enter (p : Party) : Party := { p with epoch := p.epoch + 1, present := true }

def leave (p : Party) : Party := { p with present := false }

end Party

/-- `b` was sent after the party had come back from the absence that `a` shows. -/
def Returned (a b : Stamp) : Prop := a.epoch < b.epoch ∧ b.present = true

instance (a b : Stamp) : Decidable (Returned a b) :=
  inferInstanceAs (Decidable (_ ∧ _))

/-- What the stamps of a party say about one another and about the party. -/
structure Party.Kept (p : Party) : Prop where
  order : ∀ a ∈ p.sent, a.order < p.sent.length
  epoch : ∀ a ∈ p.sent, a.epoch ≤ p.epoch
  absent : ∀ a ∈ p.sent, a.present = false → p.present = true → a.epoch < p.epoch
  later : ∀ a ∈ p.sent, ∀ b ∈ p.sent, a.present = false → b.present = true →
    a.order < b.order → a.epoch < b.epoch

namespace Party.Kept

variable {p : Party}

theorem fresh (epoch : Nat) (present : Bool) : Party.Kept ⟨epoch, present, []⟩ :=
  ⟨fun _ h => (List.not_mem_nil h).elim, fun _ h => (List.not_mem_nil h).elim,
    fun _ h => (List.not_mem_nil h).elim, fun _ h => (List.not_mem_nil h).elim⟩

theorem send (h : p.Kept) : p.send.Kept := by
  have hlength : p.send.sent.length = p.sent.length + 1 := by
    rw [Party.send, List.length_append, List.length_singleton]
  have hmem : ∀ a ∈ p.send.sent, a ∈ p.sent ∨ a = p.stamp := by
    intro a ha
    rcases List.mem_append.mp ha with ha | ha
    · exact Or.inl ha
    · exact Or.inr (List.mem_singleton.mp ha)
  refine ⟨fun a ha => ?_, fun a ha => ?_, fun a ha habsent hpresent => ?_,
    fun a ha b hb habsent hpresent hlater => ?_⟩
  · rw [hlength]
    rcases hmem a ha with ha | rfl
    · exact Nat.lt_succ_of_lt (h.order a ha)
    · exact Nat.lt_succ_self _
  · rcases hmem a ha with ha | rfl
    · exact h.epoch a ha
    · exact Nat.le_refl _
  · rcases hmem a ha with ha | rfl
    · exact h.absent a ha habsent hpresent
    · exact absurd (habsent.symm.trans hpresent) Bool.false_ne_true
  · rcases hmem a ha with ha | rfl
    · rcases hmem b hb with hb | rfl
      · exact h.later a ha b hb habsent hpresent hlater
      · exact h.absent a ha habsent hpresent
    · rcases hmem b hb with hb | rfl
      · exact absurd (h.order b hb) (Nat.lt_asymm hlater)
      · exact absurd hlater (Nat.lt_irrefl _)

theorem enter (h : p.Kept) : p.enter.Kept :=
  ⟨h.order, fun a ha => Nat.le_succ_of_le (h.epoch a ha),
    fun a ha _ _ => Nat.lt_succ_of_le (h.epoch a ha), h.later⟩

theorem leave (h : p.Kept) : p.leave.Kept :=
  ⟨h.order, h.epoch, fun _ _ _ hpresent => absurd hpresent Bool.false_ne_true, h.later⟩

/-- A later stamp that says present shows the return. -/
theorem returned (h : p.Kept) {a b : Stamp} (ha : a ∈ p.sent) (hb : b ∈ p.sent)
    (habsent : a.present = false) (hpresent : b.present = true) (hlater : a.order < b.order) :
    Returned a b :=
  ⟨h.later a ha b hb habsent hpresent hlater, hpresent⟩

end Party.Kept

end Epochs
