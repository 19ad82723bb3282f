import Mathlib.Tactic

set_option autoImplicit false

/-! # Custody of unique items

Items are kept in slots, at most one in each, and in a queue. `Once c` says that no item is in
two places; `Held c x` that `x` is in some place. A relocation (`Relocates`) moves items
between places and keeps both; with a turnover (`Turnover`) one item may enter, and items that
have left may go. `Ledger` compares the store with the history of entries and departures.
-/

/-- The places of a store: slots and a queue. -/
structure Custody (κ ι : Type) where
  slot : κ → Option ι
  queue : List ι

namespace Custody

variable {κ ι : Type}

/-- The item is in some place. -/
def Held (c : Custody κ ι) (x : ι) : Prop := (∃ k, c.slot k = some x) ∨ x ∈ c.queue

/-- No item is in two places. -/
structure Once (c : Custody κ ι) : Prop where
  slot_inj : ∀ k l x, c.slot k = some x → c.slot l = some x → k = l
  slot_queue : ∀ k x, c.slot k = some x → x ∉ c.queue
  queue_nodup : c.queue.Nodup

/-- The same items are held afterwards, still no item is in two places, and no slot was
filled. -/
structure Relocates (c d : Custody κ ι) : Prop where
  once : Once c → Once d
  held : ∀ x, Held d x ↔ Held c x
  slot : ∀ k, c.slot k = none → d.slot k = none

theorem Relocates.refl (c : Custody κ ι) : Relocates c c :=
  ⟨id, fun _ => Iff.rfl, fun _ => id⟩

theorem Relocates.trans {c d e : Custody κ ι} (h : Relocates c d) (h' : Relocates d e) :
    Relocates c e :=
  ⟨fun hc => h'.once (h.once hc), fun x => (h'.held x).trans (h.held x),
    fun k hk => h'.slot k (h.slot k hk)⟩

/-- A relocation may go on beside queued items it does not touch. -/
theorem Relocates.append {c d : Custody κ ι} (h : Relocates c d) (extra : List ι) :
    Relocates ⟨c.slot, c.queue ++ extra⟩ ⟨d.slot, d.queue ++ extra⟩ := by
  refine ⟨fun hc => ?_, fun x => ?_, h.slot⟩
  · obtain ⟨hq, he, hqe⟩ := List.nodup_append.mp hc.queue_nodup
    have hd : Once d := h.once ⟨hc.slot_inj,
      fun k x hk hx => hc.slot_queue k x hk (List.mem_append_left _ hx), hq⟩
    -- What `d` holds, `c` holds, so it is not among the extra items.
    have hextra : ∀ x, Held d x → x ∉ extra := by
      intro x hx hmem
      rcases (h.held x).mp hx with ⟨k, hk⟩ | hxq
      · exact hc.slot_queue k x hk (List.mem_append_right _ hmem)
      · exact hqe x hxq x hmem rfl
    refine ⟨hd.slot_inj, fun k x hk hx => ?_, List.nodup_append.mpr
      ⟨hd.queue_nodup, he, fun x hx y hy hxy => hextra x (Or.inr hx) (hxy ▸ hy)⟩⟩
    rcases List.mem_append.mp hx with hx | hx
    · exact hd.slot_queue k x hk hx
    · exact hextra x (Or.inl ⟨k, hk⟩) hx
  · have := h.held x
    simp only [Held, List.mem_append] at this ⊢
    tauto

/-- Reordering the queue is a relocation. -/
theorem relocates_perm {c d : Custody κ ι} (hs : ∀ k, d.slot k = c.slot k)
    (hq : d.queue.Perm c.queue) : Relocates c d := by
  have hslot : d.slot = c.slot := funext hs
  refine ⟨fun hc => ⟨?_, ?_, hq.nodup_iff.mpr hc.queue_nodup⟩, fun x => ?_,
    fun k hk => (hs k).trans hk⟩
  · rw [hslot]
    exact hc.slot_inj
  · rw [hslot]
    intro k x hk hx
    exact hc.slot_queue k x hk (hq.mem_iff.mp hx)
  · simp only [Held, hslot, hq.mem_iff]

/-- Emptying a slot into the queue is a relocation. -/
theorem relocates_release [DecidableEq κ] {c d : Custody κ ι} {k : κ}
    (hs : ∀ l, d.slot l = if l = k then none else c.slot l)
    (hq : d.queue.Perm (c.queue ++ (c.slot k).toList)) : Relocates c d := by
  have hslot : ∀ l x, d.slot l = some x → l ≠ k ∧ c.slot l = some x := by
    intro l x hl
    rw [hs] at hl
    split at hl
    · cases hl
    · exact ⟨‹_›, hl⟩
  have hmem : ∀ x, x ∈ d.queue ↔ x ∈ c.queue ∨ c.slot k = some x := by
    intro x
    rw [hq.mem_iff, List.mem_append, Option.mem_toList]
  refine ⟨fun hc => ⟨?_, ?_, ?_⟩, fun x => ?_, fun l hl => ?_⟩
  · intro l l' x hl hl'
    exact hc.slot_inj l l' x (hslot l x hl).2 (hslot l' x hl').2
  · intro l x hl hx
    obtain ⟨hne, hl⟩ := hslot l x hl
    rcases (hmem x).mp hx with hx | hx
    · exact hc.slot_queue l x hl hx
    · exact hne (hc.slot_inj l k x hl hx)
  · rw [hq.nodup_iff, List.nodup_append]
    refine ⟨hc.queue_nodup, by cases c.slot k <;> simp, fun x hx y hy hxy => ?_⟩
    subst hxy
    exact hc.slot_queue k x (Option.mem_toList.mp hy) hx
  · unfold Held
    rw [hmem]
    constructor
    · rintro (⟨l, hl⟩ | hx | hx)
      · exact Or.inl ⟨l, (hslot l x hl).2⟩
      · exact Or.inr hx
      · exact Or.inl ⟨k, hx⟩
    · rintro (⟨l, hl⟩ | hx)
      · by_cases hlk : l = k
        · exact Or.inr (Or.inr (hlk ▸ hl))
        · exact Or.inl ⟨l, by rw [hs, if_neg hlk, hl]⟩
      · exact Or.inr (Or.inl hx)
  · rw [hs, hl, ite_self]

/-- Emptying several slots into the queue is a relocation. -/
theorem relocates_release_list [DecidableEq κ] (keys : List κ) {c d : Custody κ ι}
    (hn : keys.Nodup) (hs : ∀ l, d.slot l = if l ∈ keys then none else c.slot l)
    (hq : d.queue.Perm (c.queue ++ keys.filterMap c.slot)) : Relocates c d := by
  induction keys generalizing c with
  | nil => exact relocates_perm (by simpa using hs) (by simpa using hq)
  | cons k keys ih =>
      rw [List.nodup_cons] at hn
      -- First release `k`, then the others.
      let e : Custody κ ι :=
        ⟨fun l => if l = k then none else c.slot l, c.queue ++ (c.slot k).toList⟩
      have hke : Relocates c e := relocates_release (fun _ => rfl) (List.Perm.refl _)
      refine hke.trans (ih hn.2 (fun l => ?_) ?_)
      · rw [hs]
        by_cases hlk : l = k
        · simp [e, hlk]
        · simp [e, hlk]
      · have hsame : keys.filterMap e.slot = keys.filterMap c.slot := by
          apply List.filterMap_congr
          intro l hl
          have hlk : l ≠ k := fun h => hn.1 (h ▸ hl)
          simp [e, hlk]
        refine hq.trans ?_
        rw [hsame]
        cases hk : c.slot k with
        | none => simp [e, hk]
        | some x => simp [e, hk]

/-! ## Entering and leaving -/

/-- What is held afterwards: what was held and has not left, and the entry. -/
structure Turnover (c d : Custody κ ι) (entry : Option ι) (left : ι → Prop) : Prop where
  once : Once c → (∀ x, entry = some x → ¬ Held c x) → Once d
  held : ∀ x, Held d x → Held c x ∨ entry = some x
  kept : ∀ x, (Held c x ∧ ¬ left x) ∨ entry = some x → Held d x

theorem Relocates.turnover {c d : Custody κ ι} (h : Relocates c d) (left : ι → Prop) :
    Turnover c d none left where
  once := fun hc _ => h.once hc
  held := fun x hx => Or.inl ((h.held x).mp hx)
  kept := by
    rintro x (⟨hx, _⟩ | hx)
    · exact (h.held x).mpr hx
    · cases hx

/-- A new item takes a slot: what was there has left. -/
theorem turnover_place [DecidableEq κ] {c d : Custody κ ι} {k : κ} {x : ι} {left : ι → Prop}
    (hk : ∀ y, c.slot k = some y → left y)
    (hs : ∀ l, d.slot l = if l = k then some x else c.slot l) (hq : d.queue = c.queue) :
    Turnover c d (some x) left := by
  have hslot : ∀ l y, d.slot l = some y → (l = k ∧ y = x) ∨ c.slot l = some y := by
    intro l y hl
    rw [hs] at hl
    split at hl
    · exact Or.inl ⟨‹_›, (Option.some.inj hl).symm⟩
    · exact Or.inr hl
  refine ⟨fun hc hx => ⟨?_, ?_, hq ▸ hc.queue_nodup⟩, fun y hy => ?_, fun y hy => ?_⟩
  · have hnew : ∀ l, c.slot l ≠ some x := fun l hl => hx x rfl (Or.inl ⟨l, hl⟩)
    intro l l' y hl hl'
    rcases hslot l y hl with ⟨rfl, rfl⟩ | hl₀ <;> rcases hslot l' y hl' with ⟨rfl, h'⟩ | hl₁
    · rfl
    · exact absurd hl₁ (hnew l')
    · exact absurd (h' ▸ hl₀) (hnew l)
    · exact hc.slot_inj l l' y hl₀ hl₁
  · intro l y hl hy
    rw [hq] at hy
    rcases hslot l y hl with ⟨_, rfl⟩ | hl₀
    · exact hx y rfl (Or.inr hy)
    · exact hc.slot_queue l y hl₀ hy
  · rcases hy with ⟨l, hl⟩ | hy
    · rcases hslot l y hl with ⟨_, rfl⟩ | hl₀
      · exact Or.inr rfl
      · exact Or.inl (Or.inl ⟨l, hl₀⟩)
    · exact Or.inl (Or.inr (hq ▸ hy))
  · rcases hy with ⟨⟨l, hl⟩ | hmem, hleft⟩ | hy
    · have hlk : l ≠ k := by
        rintro rfl
        exact hleft (hk y hl)
      exact Or.inl ⟨l, by rw [hs, if_neg hlk, hl]⟩
    · exact Or.inr (hq ▸ hmem)
    · cases hy
      exact Or.inl ⟨k, by rw [hs, if_pos rfl]⟩

/-- A new item joins the queue. -/
theorem turnover_enqueue {c d : Custody κ ι} {x : ι} {left : ι → Prop}
    (hs : ∀ l, d.slot l = c.slot l) (hq : d.queue.Perm (x :: c.queue)) :
    Turnover c d (some x) left := by
  have hslot : d.slot = c.slot := funext hs
  refine ⟨fun hc hx => ⟨?_, ?_, ?_⟩, fun y => ?_, fun y => ?_⟩
  · rw [hslot]
    exact hc.slot_inj
  · intro l y hl hy
    rw [hslot] at hl
    rcases List.mem_cons.mp (hq.mem_iff.mp hy) with rfl | hy
    · exact hx y rfl (Or.inl ⟨l, hl⟩)
    · exact hc.slot_queue l y hl hy
  · rw [hq.nodup_iff, List.nodup_cons]
    exact ⟨fun hmem => hx x rfl (Or.inr hmem), hc.queue_nodup⟩
  · simp only [Held, hslot, hq.mem_iff, List.mem_cons, Option.some.injEq, eq_comm (a := x)]
    tauto
  · simp only [Held, hslot, hq.mem_iff, List.mem_cons, Option.some.injEq, eq_comm (a := x)]
    tauto

/-- An item that has left is taken off the queue. -/
theorem turnover_dequeue {c d : Custody κ ι} {x : ι} {left : ι → Prop} (hx : left x)
    (hs : ∀ l, d.slot l = c.slot l) (hq : c.queue.Perm (x :: d.queue)) :
    Turnover c d none left := by
  have hslot : d.slot = c.slot := funext hs
  refine ⟨fun hc _ => ⟨?_, ?_, ?_⟩, fun y hy => ?_, fun y hy => ?_⟩
  · rw [hslot]
    exact hc.slot_inj
  · intro l y hl hy
    rw [hslot] at hl
    exact hc.slot_queue l y hl (hq.mem_iff.mpr (List.mem_cons_of_mem _ hy))
  · exact (List.nodup_cons.mp (hq.nodup_iff.mp hc.queue_nodup)).2
  · simp only [Held, hslot, hq.mem_iff, List.mem_cons] at hy ⊢
    tauto
  · have hne : ¬ left y → y ≠ x := by
      rintro hleft rfl
      exact hleft hx
    simp only [Held, hslot, hq.mem_iff, List.mem_cons, reduceCtorEq, or_false] at hy ⊢
    tauto

/-- An item that has left is taken out of its slot. -/
theorem turnover_remove [DecidableEq κ] {c d : Custody κ ι} {k : κ} {left : ι → Prop}
    (hk : ∀ y, c.slot k = some y → left y)
    (hs : ∀ l, d.slot l = if l = k then none else c.slot l) (hq : d.queue = c.queue) :
    Turnover c d none left := by
  have hslot : ∀ l y, d.slot l = some y → c.slot l = some y := by
    intro l y hl
    rw [hs] at hl
    split at hl
    · cases hl
    · exact hl
  refine ⟨fun hc _ => ⟨?_, ?_, hq ▸ hc.queue_nodup⟩, fun y hy => ?_, fun y hy => ?_⟩
  · intro l l' y hl hl'
    exact hc.slot_inj l l' y (hslot l y hl) (hslot l' y hl')
  · intro l y hl
    rw [hq]
    exact hc.slot_queue l y (hslot l y hl)
  · rcases hy with ⟨l, hl⟩ | hmem
    · exact Or.inl (Or.inl ⟨l, hslot l y hl⟩)
    · exact Or.inl (Or.inr (hq ▸ hmem))
  · rcases hy with ⟨⟨l, hl⟩ | hmem, hleft⟩ | hy
    · have hlk : l ≠ k := by
        rintro rfl
        exact hleft (hk y hl)
      exact Or.inl ⟨l, by rw [hs, if_neg hlk, hl]⟩
    · exact Or.inr (hq ▸ hmem)
    · cases hy

/-- The store against its history: what it holds has entered, what has entered and not left is
still held, and nothing is in two places. -/
structure Ledger (c : Custody κ ι) (entered left : ι → Prop) : Prop where
  once : Once c
  held : ∀ x, Held c x → entered x
  kept : ∀ x, entered x → ¬ left x → Held c x

/-- The step rule of the ledger: the entry is new. -/
theorem Ledger.turnover {c d : Custody κ ι} {entered entered' left left' : ι → Prop}
    {entry : Option ι} (h : Ledger c entered left) (t : Turnover c d entry left')
    (hfresh : ∀ x, entry = some x → ¬ entered x)
    (hentered : ∀ x, entered' x ↔ entered x ∨ entry = some x)
    (hleft : ∀ x, left x → left' x) : Ledger d entered' left' where
  once := t.once h.once (fun x hx hheld => hfresh x hx (h.held x hheld))
  held := by
    intro x hx
    rw [hentered]
    exact (t.held x hx).imp_left (h.held x)
  kept := by
    intro x hx hnot
    rcases (hentered x).mp hx with hx | hx
    · exact t.kept x (Or.inl ⟨h.kept x hx (fun hl => hnot (hleft x hl)), hnot⟩)
    · exact t.kept x (Or.inr hx)

/-- An item is in exactly one place: one slot and not the queue, or the queue, once, and no
slot. -/
def HeldOnce [DecidableEq ι] (c : Custody κ ι) (x : ι) : Prop :=
  ((∃! k, c.slot k = some x) ∧ x ∉ c.queue) ∨
    ((∀ k, c.slot k ≠ some x) ∧ c.queue.count x = 1)

theorem Once.heldOnce [DecidableEq ι] {c : Custody κ ι} {x : ι} (h : Once c) (hx : Held c x) :
    HeldOnce c x := by
  rcases hx with ⟨k, hk⟩ | hmem
  · exact Or.inl ⟨⟨k, hk, fun l hl => h.slot_inj l k x hl hk⟩, h.slot_queue k x hk⟩
  · exact Or.inr ⟨fun k hk => h.slot_queue k x hk hmem,
      List.count_eq_one_of_mem h.queue_nodup hmem⟩

theorem Ledger.heldOnce [DecidableEq ι] {c : Custody κ ι} {entered left : ι → Prop}
    (h : Ledger c entered left) {x : ι} (hx : entered x) (hleft : ¬ left x) : HeldOnce c x :=
  h.once.heldOnce (h.kept x hx hleft)

end Custody
