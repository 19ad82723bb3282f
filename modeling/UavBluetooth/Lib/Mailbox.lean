import UavBluetooth.Lib.Run

set_option autoImplicit false

/-! # A one-slot mailbox with give-back

A producer overwrites the only slot; a consumer takes the value out, offers it to a receiver
that accepts or refuses it, and afterwards puts a refused value back. Producer and consumer
interleave freely: a value may be put while an attempt is under way. Each value carries the
number of the put that made it (its *revision*), and a refused value goes back only when its
revision is still the newest and the slot is empty.

* `Mailbox.Inv` is the invariant of every interleaving (`Mailbox.inv_reachable`);
* `Inv.accepted_increasing`: no value is accepted twice, none out of order;
* `Inv.newest_kept`: with no attempt under way, the newest value was the last one accepted or
  waits in the slot.
-/

/-- A value on its way to the receiver, with the receiver's verdict once it is known. -/
structure Mailbox.Attempt (α : Type) where
  revision : Nat
  value : α
  verdict : Option Bool

/-- The mailbox, with the record of everything put and everything accepted, oldest first. -/
structure Mailbox (α : Type) where
  revision : Nat := 0
  slot : Option α := none
  attempt : Option (Mailbox.Attempt α) := none
  puts : List (Nat × α) := []
  accepted : List (Nat × α) := []

namespace Mailbox

variable {α : Type}

inductive Op (α : Type) where
  | put (value : α)
  | take
  | offer (verdict : Bool)
  | settle

/-- Put a value: it takes the next revision and replaces what waits in the slot. -/
def put (m : Mailbox α) (value : α) : Mailbox α :=
  { m with
    revision := m.revision + 1
    slot := some value
    puts := m.puts ++ [(m.revision + 1, value)] }

/-- Start an attempt with the waiting value. -/
def take (m : Mailbox α) : Option (Mailbox α) :=
  match m.attempt, m.slot with
  | none, some value =>
      some { m with slot := none, attempt := some ⟨m.revision, value, none⟩ }
  | _, _ => none

/-- Record the receiver's verdict. -/
def offer (m : Mailbox α) (verdict : Bool) : Option (Mailbox α) :=
  match m.attempt with
  | some ⟨revision, value, none⟩ =>
      some { m with
        attempt := some ⟨revision, value, some verdict⟩
        accepted := if verdict then m.accepted ++ [(revision, value)] else m.accepted }
  | _ => none

/-- End the attempt: a refused value that is still the newest goes back to an empty slot. -/
def settle (m : Mailbox α) : Option (Mailbox α) :=
  match m.attempt with
  | some ⟨revision, value, some verdict⟩ =>
      some { m with
        attempt := none
        slot :=
          if verdict = false ∧ m.revision = revision ∧ m.slot.isNone then some value
          else m.slot }
  | _ => none

def step (m : Mailbox α) : Op α → Option (Mailbox α)
  | .put value => some (m.put value)
  | .take => m.take
  | .offer verdict => m.offer verdict
  | .settle => m.settle

def Initial (m : Mailbox α) : Prop := m = {}

/-! ## The invariant -/

/-- What holds of the mailbox between any two operations. -/
structure Inv (m : Mailbox α) : Prop where
  /-- The newest value put has the newest revision. -/
  last_put : ∀ x, m.puts.getLast? = some x → x.1 = m.revision
  slot_newest : ∀ v, m.slot = some v → m.puts.getLast? = some (m.revision, v)
  slot_unaccepted : ∀ v, m.slot = some v → ∀ x ∈ m.accepted, x.1 < m.revision
  slot_after_attempt : ∀ v, m.slot = some v → ∀ a, m.attempt = some a → a.revision < m.revision
  accepted_le : ∀ x ∈ m.accepted, x.1 ≤ m.revision
  accepted_put : ∀ x ∈ m.accepted, x ∈ m.puts
  accepted_increasing : (m.accepted.map Prod.fst).Pairwise (· < ·)
  attempt_le : ∀ a, m.attempt = some a → a.revision ≤ m.revision
  attempt_put : ∀ a, m.attempt = some a → (a.revision, a.value) ∈ m.puts
  attempt_newest : ∀ a, m.attempt = some a → a.revision = m.revision →
    m.puts.getLast? = some (a.revision, a.value)
  /-- Until it is accepted, the attempted value is newer than every accepted one. -/
  attempt_unaccepted : ∀ a, m.attempt = some a → a.verdict ≠ some true →
    ∀ x ∈ m.accepted, x.1 < a.revision
  attempt_accepted : ∀ a, m.attempt = some a → a.verdict = some true →
    m.accepted.getLast? = some (a.revision, a.value)
  /-- The newest value waits, was the last one accepted, or is being attempted. -/
  kept : ∀ x, m.puts.getLast? = some x →
    m.slot = some x.2 ∨ m.accepted.getLast? = some x ∨
      ∃ a, m.attempt = some a ∧ a.revision = m.revision

theorem inv_initial : Inv ({} : Mailbox α) := by
  constructor <;> simp

theorem inv_put {m : Mailbox α} (h : Inv m) (value : α) : Inv (m.put value) := by
  have hlast : (m.put value).puts.getLast? = some (m.revision + 1, value) := by
    simp [put]
  constructor
  case last_put => intro x hx; rw [hlast] at hx; cases hx; rfl
  case slot_newest => intro v hv; cases hv; exact hlast
  case slot_unaccepted =>
    intro v _ x hx
    exact Nat.lt_succ_of_le (h.accepted_le x hx)
  case slot_after_attempt =>
    intro v _ a ha
    exact Nat.lt_succ_of_le (h.attempt_le a ha)
  case accepted_le => intro x hx; exact Nat.le_succ_of_le (h.accepted_le x hx)
  case accepted_put => intro x hx; exact List.mem_append_left _ (h.accepted_put x hx)
  case accepted_increasing => exact h.accepted_increasing
  case attempt_le => intro a ha; exact Nat.le_succ_of_le (h.attempt_le a ha)
  case attempt_put => intro a ha; exact List.mem_append_left _ (h.attempt_put a ha)
  case attempt_newest =>
    intro a ha heq
    have hle := h.attempt_le a ha
    have : a.revision = m.revision + 1 := heq
    omega
  case attempt_unaccepted => exact h.attempt_unaccepted
  case attempt_accepted => exact h.attempt_accepted
  case kept => intro x hx; rw [hlast] at hx; cases hx; exact Or.inl rfl

theorem inv_take {m m' : Mailbox α} (h : Inv m) (hm : m.take = some m') : Inv m' := by
  unfold take at hm
  split at hm
  case h_2 => cases hm
  case h_1 value _ hslot =>
    cases hm
    have hnew := h.slot_newest value hslot
    constructor
    case last_put => exact h.last_put
    case slot_newest => intro v hv; cases hv
    case slot_unaccepted => intro v hv; cases hv
    case slot_after_attempt => intro v hv; cases hv
    case accepted_le => exact h.accepted_le
    case accepted_put => exact h.accepted_put
    case accepted_increasing => exact h.accepted_increasing
    case attempt_le => intro a ha; cases ha; exact Nat.le_refl _
    case attempt_put => intro a ha; cases ha; exact List.mem_of_getLast? hnew
    case attempt_newest => intro a ha _; cases ha; exact hnew
    case attempt_unaccepted => intro a ha _; cases ha; exact h.slot_unaccepted value hslot
    case attempt_accepted => intro a ha hv; cases ha; cases hv
    case kept => intro x _; exact Or.inr (Or.inr ⟨_, rfl, rfl⟩)

theorem inv_offer {m m' : Mailbox α} {verdict : Bool} (h : Inv m)
    (hm : m.offer verdict = some m') : Inv m' := by
  unfold offer at hm
  split at hm
  case h_2 => cases hm
  case h_1 revision value hout =>
    cases hm
    have hun : ∀ x ∈ m.accepted, x.1 < revision :=
      h.attempt_unaccepted _ hout (by simp)
    have hle : revision ≤ m.revision := h.attempt_le _ hout
    have hput : (revision, value) ∈ m.puts := h.attempt_put _ hout
    have hafter : ∀ v, m.slot = some v → revision < m.revision :=
      fun v hv => h.slot_after_attempt v hv _ hout
    have hnewest : revision = m.revision → m.puts.getLast? = some (revision, value) :=
      h.attempt_newest _ hout
    cases verdict with
    | false =>
        refine { h with
          slot_after_attempt := ?_, attempt_le := ?_, attempt_put := ?_
          attempt_newest := ?_, attempt_unaccepted := ?_, attempt_accepted := ?_, kept := ?_ }
        · intro v hv a ha; cases ha; exact hafter v hv
        · intro a ha; cases ha; exact hle
        · intro a ha; cases ha; exact hput
        · intro a ha heq; cases ha; exact hnewest heq
        · intro a ha _; cases ha; exact hun
        · intro a ha hv; cases ha; cases hv
        · intro x hx
          rcases h.kept x hx with hs | hacc | ⟨a, ha, hr⟩
          · exact Or.inl hs
          · exact Or.inr (Or.inl hacc)
          · rw [hout] at ha
            cases ha
            exact Or.inr (Or.inr ⟨_, rfl, hr⟩)
    | true =>
        have hmem : ∀ x ∈ m.accepted ++ [(revision, value)], x ∈ m.accepted ∨ x = (revision, value) := by
          intro x hx
          simpa using hx
        constructor
        case last_put => exact h.last_put
        case slot_newest => exact h.slot_newest
        case slot_unaccepted =>
          intro v hv x hx
          rcases hmem x hx with hx | rfl
          · exact h.slot_unaccepted v hv x hx
          · exact hafter v hv
        case slot_after_attempt =>
          intro v hv a ha; cases ha; exact hafter v hv
        case accepted_le =>
          intro x hx
          rcases hmem x hx with hx | rfl
          · exact h.accepted_le x hx
          · exact hle
        case accepted_put =>
          intro x hx
          rcases hmem x hx with hx | rfl
          · exact h.accepted_put x hx
          · exact hput
        case accepted_increasing =>
          simp only [if_true, List.map_append, List.pairwise_append, List.map_cons, List.map_nil,
            List.mem_map, List.mem_singleton]
          refine ⟨h.accepted_increasing, by simp, ?_⟩
          rintro _ ⟨x, hx, rfl⟩ _ rfl
          exact hun x hx
        case attempt_le => intro a ha; cases ha; exact hle
        case attempt_put => intro a ha; cases ha; exact hput
        case attempt_newest => intro a ha heq; cases ha; exact hnewest heq
        case attempt_unaccepted => intro a ha hv; cases ha; exact absurd rfl hv
        case attempt_accepted => intro a ha _; cases ha; simp
        case kept =>
          intro x hx
          rcases h.kept x hx with hs | hacc | ⟨a, ha, hr⟩
          · exact Or.inl hs
          · -- An accepted newest value would be older than the attempt.
            have hlt := hun x (List.mem_of_getLast? hacc)
            have := h.last_put x hx
            omega
          · rw [hout] at ha
            cases ha
            exact Or.inr (Or.inr ⟨_, rfl, hr⟩)

theorem inv_settle {m m' : Mailbox α} (h : Inv m) (hm : m.settle = some m') : Inv m' := by
  unfold settle at hm
  split at hm
  case h_2 => cases hm
  case h_1 revision value verdict hout =>
    cases hm
    have hkept : ∀ x, m.puts.getLast? = some x → m.revision = revision → x = (revision, value) := by
      intro x hx hr
      have := h.attempt_newest _ hout hr.symm
      rw [this] at hx
      exact (Option.some.inj hx).symm
    by_cases hback : verdict = false ∧ m.revision = revision ∧ m.slot.isNone
    · obtain ⟨rfl, rfl, hs⟩ := hback
      have hun : ∀ x ∈ m.accepted, x.1 < m.revision := h.attempt_unaccepted _ hout (by simp)
      have hnew : m.puts.getLast? = some (m.revision, value) := h.attempt_newest _ hout rfl
      simp only [hs, and_self, if_true]
      refine { h with
        slot_newest := ?_, slot_unaccepted := ?_, slot_after_attempt := ?_
        attempt_le := ?_, attempt_put := ?_, attempt_newest := ?_
        attempt_unaccepted := ?_, attempt_accepted := ?_, kept := ?_ }
      · intro v hv; cases hv; exact hnew
      · intro v _; exact hun
      · intro v _ a ha; cases ha
      · intro a ha; cases ha
      · intro a ha; cases ha
      · intro a ha; cases ha
      · intro a ha; cases ha
      · intro a ha; cases ha
      · intro x hx
        left
        rw [hkept x hx rfl]
    · simp only [hback, if_false]
      refine { h with
        slot_after_attempt := ?_
        attempt_le := ?_, attempt_put := ?_, attempt_newest := ?_
        attempt_unaccepted := ?_, attempt_accepted := ?_, kept := ?_ }
      · intro v _ a ha; cases ha
      · intro a ha; cases ha
      · intro a ha; cases ha
      · intro a ha; cases ha
      · intro a ha; cases ha
      · intro a ha; cases ha
      · intro x hx
        rcases h.kept x hx with hs | hacc | ⟨a, ha, hr⟩
        · exact Or.inl hs
        · exact Or.inr (Or.inl hacc)
        · rw [hout] at ha
          cases ha
          have hx' := hkept x hx hr.symm
          cases hslot : m.slot with
          | some v =>
              have := h.slot_newest v hslot
              rw [this] at hx
              cases hx
              exact Or.inl rfl
          | none =>
              have hv : verdict = true := by
                cases verdict with
                | true => rfl
                | false => exact absurd ⟨rfl, hr.symm, by simp [hslot]⟩ hback
              subst hv
              rw [hx']
              exact Or.inr (Or.inl (h.attempt_accepted _ hout rfl))

/-- One operation keeps the invariant. -/
theorem inv_step {m m' : Mailbox α} {op : Op α} (h : Inv m) (hm : m.step op = some m') :
    Inv m' := by
  cases op with
  | put value => cases hm; exact inv_put h value
  | take => exact inv_take h hm
  | offer verdict => exact inv_offer h hm
  | settle => exact inv_settle h hm

/-- **The invariant holds after any interleaving of operations.** -/
theorem inv_reachable {m : Mailbox α} (h : Run.Reachable step Initial m) : Inv m :=
  h.invariant (fun _ h0 => h0 ▸ inv_initial) (fun _ _ _ hi _ hs => inv_step hi hs)

/-- With no attempt under way, the newest value was the last one accepted or it waits. -/
theorem Inv.newest_kept {m : Mailbox α} (h : Inv m) (hidle : m.attempt = none)
    {x : Nat × α} (hx : m.puts.getLast? = some x) :
    m.accepted.getLast? = some x ∨ m.slot = some x.2 := by
  rcases h.kept x hx with hs | hacc | ⟨a, ha, _⟩
  · exact Or.inr hs
  · exact Or.inl hacc
  · rw [hidle] at ha
    cases ha

end Mailbox
