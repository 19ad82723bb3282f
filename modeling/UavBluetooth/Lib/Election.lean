import Mathlib.Tactic

set_option autoImplicit false

/-! # Electing one candidate of a set

Every voter knows the same electorate, a preferred candidate or none and an order of
candidates, and a set of available candidates. `Elected` says whom it elects: the preferred
candidate if available, else the first available one in the order, else (without an order) the
least available one. Voters with equal sets elect the same candidate (`Elected.unique`).
-/

namespace Election

variable {α : Type} [LinearOrder α]

/-- What all voters agree on beforehand. -/
structure Electorate (α : Type) where
  preferred : Option α
  order : List α

/-- The preferred candidate, if there is one, is not available. -/
def Electorate.Open (e : Electorate α) (available : Set α) : Prop :=
  ∀ p, e.preferred = some p → p ∉ available

inductive Elected (e : Electorate α) (available : Set α) : α → Prop where
  | preferred {n : α} : e.preferred = some n → n ∈ available → Elected e available n
  | ordered {n : α} {before after : List α} : e.Open available →
      e.order = before ++ n :: after → (∀ m ∈ before, m ∉ available) → n ∈ available →
        Elected e available n
  | least {n : α} : e.Open available → e.order = [] → IsLeast available n →
      Elected e available n

variable {e : Electorate α} {available : Set α}

theorem Elected.mem {n : α} (h : Elected e available n) : n ∈ available := by
  cases h with
  | preferred _ hmem => exact hmem
  | ordered _ _ _ hmem => exact hmem
  | least _ _ hleast => exact hleast.1

omit [LinearOrder α] in
/-- The first element of a list in a set is determined. -/
theorem first_unique {n m : α} {before before' after after' : List α}
    (h : before ++ n :: after = before' ++ m :: after')
    (hbefore : ∀ x ∈ before, x ∉ available) (hbefore' : ∀ x ∈ before', x ∉ available)
    (hn : n ∈ available) (hm : m ∈ available) : n = m := by
  induction before generalizing before' with
  | nil =>
      cases before' with
      | nil => exact (List.cons.inj h).1
      | cons x rest =>
          have hx : n = x := (List.cons.inj h).1
          exact absurd (hx ▸ hn) (hbefore' x List.mem_cons_self)
  | cons x rest ih =>
      cases before' with
      | nil =>
          have hx : x = m := (List.cons.inj h).1
          exact absurd (hx ▸ hm) (hbefore x List.mem_cons_self)
      | cons y rest' =>
          exact ih (List.cons.inj h).2 (fun z hz => hbefore z (List.mem_cons_of_mem _ hz))
            (fun z hz => hbefore' z (List.mem_cons_of_mem _ hz))

/-- **Voters with equal sets of available candidates elect the same one.** -/
theorem Elected.unique {n m : α} (hn : Elected e available n) (hm : Elected e available m) :
    n = m := by
  cases hn with
  | preferred hpreferred hmem =>
      cases hm with
      | preferred hpreferred' _ => exact Option.some.inj (hpreferred.symm.trans hpreferred')
      | ordered hopen _ _ _ => exact absurd hmem (hopen n hpreferred)
      | least hopen _ _ => exact absurd hmem (hopen n hpreferred)
  | ordered hopen horder hbefore hmem =>
      cases hm with
      | preferred hpreferred' hmem' => exact absurd hmem' (hopen m hpreferred')
      | ordered _ horder' hbefore' hmem' =>
          exact first_unique (horder.symm.trans horder') hbefore hbefore' hmem hmem'
      | least _ hnone _ =>
          rw [hnone] at horder
          exact absurd horder (by simp)
  | least hopen hnone hleast =>
      cases hm with
      | preferred hpreferred' hmem' => exact absurd hmem' (hopen m hpreferred')
      | ordered _ horder _ _ =>
          rw [hnone] at horder
          exact absurd horder (by simp)
      | least _ _ hleast' => exact hleast.unique hleast'

end Election
