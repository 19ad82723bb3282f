import Mathlib.Tactic
import Mathlib.Data.List.DropRight

set_option autoImplicit false

/-! # Stripping both ends of a list

`strip p l` drops the elements that satisfy `p` from both ends of `l`. It is the middle of the
only split of `l` into a part in `p`, a part that neither begins nor ends in `p`, and a part in
`p` (`strip_eq`); the other rules follow from that.
-/

namespace Strip

section

variable {α β : Type} {p q : α → Bool} {l : List α}

/-- Drop the elements in `p` from both ends. -/
def strip (p : α → Bool) (l : List α) : List α := (l.dropWhile p).rdropWhile p

/-- The list neither begins nor ends in `p`. -/
structure Tight (p : α → Bool) (l : List α) : Prop where
  head : ∀ x ∈ l.head?, p x = false
  last : ∀ x ∈ l.getLast?, p x = false

@[simp] theorem strip_nil : strip p ([] : List α) = [] := by
  simp [strip]

theorem dropWhile_append_of_all {a b : List α} (ha : ∀ x ∈ a, p x = true) :
    (a ++ b).dropWhile p = b.dropWhile p :=
  List.dropWhile_append_of_pos ha

theorem rdropWhile_append_of_all {a b : List α} (hb : ∀ x ∈ b, p x = true) :
    (a ++ b).rdropWhile p = a.rdropWhile p := by
  unfold List.rdropWhile
  rw [List.reverse_append, dropWhile_append_of_all (fun x hx => hb x (List.mem_reverse.mp hx))]

theorem Tight.dropWhile_append {m b : List α} (h : Tight p m) (hm : m ≠ []) :
    (m ++ b).dropWhile p = m ++ b := by
  obtain ⟨x, m', rfl⟩ := List.exists_cons_of_ne_nil hm
  have hx : p x = false := h.head x rfl
  simp [hx]

theorem Tight.rdropWhile {m : List α} (h : Tight p m) : m.rdropWhile p = m := by
  rw [List.rdropWhile_eq_self_iff]
  intro hm
  have hlast := h.last _ (List.getLast?_eq_some_getLast hm)
  simp [hlast]

/-- **The middle of the split.** -/
theorem strip_eq {a m b : List α} (ha : ∀ x ∈ a, p x = true) (hm : Tight p m)
    (hb : ∀ x ∈ b, p x = true) : strip p (a ++ (m ++ b)) = m := by
  unfold strip
  rw [dropWhile_append_of_all ha]
  by_cases hnil : m = []
  · subst hnil
    rw [List.nil_append, List.dropWhile_eq_nil_iff.mpr hb, List.rdropWhile_nil]
  · rw [hm.dropWhile_append hnil, rdropWhile_append_of_all hb, hm.rdropWhile]

theorem tight_strip : Tight p (strip p l) := by
  refine ⟨fun x hx => ?_, fun x hx => ?_⟩
  · obtain ⟨rest, hrest⟩ := List.rdropWhile_prefix p (l := l.dropWhile p)
    have hhead : x ∈ (l.dropWhile p).head? := by
      rw [← hrest]
      exact List.mem_head?_append_of_mem_head? hx
    have hne : l.dropWhile p ≠ [] := by
      intro hnil
      rw [hnil] at hhead
      cases hhead
    have := List.head_dropWhile_not p hne
    rw [List.head?_eq_some_head hne] at hhead
    cases hhead
    simpa using this
  · have hne : strip p l ≠ [] := by
      intro hnil
      rw [hnil] at hx
      cases hx
    rw [List.getLast?_eq_some_getLast hne] at hx
    cases hx
    exact Bool.eq_false_of_not_eq_true (List.rdropWhile_last_not p (l.dropWhile p) hne)

/-- The split exists. -/
theorem exists_split (p : α → Bool) (l : List α) :
    ∃ a b, l = a ++ (strip p l ++ b) ∧ (∀ x ∈ a, p x = true) ∧ ∀ x ∈ b, p x = true := by
  refine ⟨l.takeWhile p, (l.dropWhile p).rtakeWhile p, ?_, fun x hx => ?_, fun x hx => ?_⟩
  · have hright : strip p l ++ (l.dropWhile p).rtakeWhile p = l.dropWhile p :=
      List.rdropWhile_append_rtakeWhile
    rw [hright, List.takeWhile_append_dropWhile]
  · exact List.mem_takeWhile_imp hx
  · exact List.mem_rtakeWhile_imp hx

theorem strip_eq_nil_iff : strip p l = [] ↔ ∀ x ∈ l, p x = true := by
  constructor
  · intro h
    obtain ⟨a, b, hl, ha, hb⟩ := exists_split p l
    rw [h, List.nil_append] at hl
    intro x hx
    rw [hl, List.mem_append] at hx
    rcases hx with hx | hx
    · exact ha x hx
    · exact hb x hx
  · intro h
    have hsplit := strip_eq (a := l) (m := []) (b := []) h ⟨by simp, by simp⟩ (by simp)
    simpa using hsplit

/-- What is outside `p` stays. -/
theorem mem_strip {x : α} (hx : p x = false) : x ∈ strip p l ↔ x ∈ l := by
  obtain ⟨a, b, hl, ha, hb⟩ := exists_split p l
  constructor
  · intro h
    rw [hl]
    exact List.mem_append_right _ (List.mem_append_left _ h)
  · intro h
    rw [hl, List.mem_append, List.mem_append] at h
    rcases h with h | h | h
    · exact absurd (ha x h) (by simp [hx])
    · exact h
    · exact absurd (hb x h) (by simp [hx])

/-- An element outside `p` keeps what is before it. -/
theorem rdropWhile_append_of_mem {a b : List α} {x : α} (hx : x ∈ b) (hp : p x = false) :
    (a ++ b).rdropWhile p = a ++ b.rdropWhile p := by
  have hleft : (b.reverse.dropWhile p).isEmpty = false := by
    rw [List.isEmpty_eq_false_iff, ne_eq, List.dropWhile_eq_nil_iff]
    intro h
    have hpx := h x (List.mem_reverse.mpr hx)
    simp [hp] at hpx
  unfold List.rdropWhile
  rw [List.reverse_append, List.dropWhile_append, hleft]
  simp

/-- A first element outside `p` stays. -/
theorem strip_cons {c : α} (hc : p c = false) : strip p (c :: l) = c :: l.rdropWhile p := by
  unfold strip List.rdropWhile
  rw [List.dropWhile_cons_of_neg (by simp [hc]), List.reverse_cons, List.dropWhile_append]
  split
  · rename_i hempty
    rw [List.isEmpty_iff.mp hempty]
    simp [hc]
  · simp

/-- Stripping less first makes no difference. -/
theorem strip_strip (h : ∀ x, p x = true → q x = true) : strip q (strip p l) = strip q l := by
  obtain ⟨a, b, hl, ha, hb⟩ := exists_split p l
  obtain ⟨a', b', hm, ha', hb'⟩ := exists_split q (strip p l)
  have hwhole : l = (a ++ a') ++ (strip q (strip p l) ++ (b' ++ b)) := by
    calc l = a ++ (strip p l ++ b) := hl
      _ = a ++ ((a' ++ (strip q (strip p l) ++ b')) ++ b) := by rw [← hm]
      _ = (a ++ a') ++ (strip q (strip p l) ++ (b' ++ b)) := by simp only [List.append_assoc]
  refine Eq.symm ?_
  rw [hwhole]
  have hleft : ∀ x ∈ a ++ a', q x = true := by
    intro x hx
    rcases List.mem_append.mp hx with hx | hx
    · exact h x (ha x hx)
    · exact ha' x hx
  have hright : ∀ x ∈ b' ++ b, q x = true := by
    intro x hx
    rcases List.mem_append.mp hx with hx | hx
    · exact hb' x hx
    · exact h x (hb x hx)
  rw [strip_eq hleft tight_strip hright, ← hwhole]

theorem strip_of_tight (h : Tight p l) : strip p l = l := by
  have hsplit := strip_eq (a := []) (b := []) (by simp) h (by simp)
  simpa using hsplit

theorem strip_map (f : β → α) (l : List β) :
    strip p (l.map f) = (strip (p ∘ f) l).map f := by
  obtain ⟨a, b, hl, ha, hb⟩ := exists_split (p ∘ f) l
  have hmap : l.map f = a.map f ++ ((strip (p ∘ f) l).map f ++ b.map f) := by
    conv_lhs => rw [hl]
    simp only [List.map_append]
  rw [hmap]
  refine strip_eq ?_ ⟨?_, ?_⟩ ?_
  · simpa using ha
  · intro x hx
    rw [List.head?_map, Option.mem_def, Option.map_eq_some_iff] at hx
    obtain ⟨y, hy, rfl⟩ := hx
    exact tight_strip.head y hy
  · intro x hx
    rw [List.getLast?_map, Option.mem_def, Option.map_eq_some_iff] at hx
    obtain ⟨y, hy, rfl⟩ := hx
    exact tight_strip.last y hy
  · simpa using hb

end

end Strip
