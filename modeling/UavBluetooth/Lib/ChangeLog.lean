import Mathlib.Data.Set.Insert
import Mathlib.Tactic

set_option autoImplicit false

/-! # Change logs

A holder of a set reports every key that it adds and every key that it removes. Who replays the
reports over an old set arrives at the new one.
-/

namespace ChangeLog

section

variable {κ : Type}

inductive Change (κ : Type) where
  | added (k : κ)
  | removed (k : κ)

def Change.apply (s : Set κ) : Change κ → Set κ
  | .added k => insert k s
  | .removed k => s \ {k}

/-- The set that the reports lead to. -/
def replay (s : Set κ) (log : List (Change κ)) : Set κ := log.foldl Change.apply s

variable {s t : Set κ} {log log' : List (Change κ)}

@[simp] theorem replay_nil : replay s [] = s := rfl

theorem replay_append : replay s (log ++ log') = replay (replay s log) log' :=
  List.foldl_append

/-- Reports go on from where the earlier ones led. -/
theorem replay_trans (h : replay s log = t) : replay s (log ++ log') = replay t log' := by
  rw [replay_append, h]

theorem replay_added (k : κ) : replay s [.added k] = insert k s := rfl

theorem replay_removed (k : κ) : replay s [.removed k] = s \ {k} := rfl

theorem replay_map_removed (ks : List κ) : replay s (ks.map .removed) = s \ {k | k ∈ ks} := by
  induction ks generalizing s with
  | nil => simp
  | cons k ks ih =>
      have hcons : replay s ((k :: ks).map .removed) = replay (s \ {k}) (ks.map .removed) := rfl
      rw [hcons, ih]
      ext x
      simp only [Set.mem_sdiff, Set.mem_singleton_iff, Set.mem_ofPred_eq, List.mem_cons, not_or]
      exact and_assoc

/-- What is gone has been reported. -/
theorem removed_mem_of_dropped {k : κ} (hs : k ∈ s) (hdropped : k ∉ replay s log) :
    .removed k ∈ log := by
  induction log generalizing s with
  | nil => exact absurd hs hdropped
  | cons c log ih =>
      have hrest : k ∉ replay (c.apply s) log := hdropped
      by_cases hkept : k ∈ c.apply s
      · exact List.mem_cons_of_mem _ (ih hkept hrest)
      · cases c with
        | added k' => exact absurd (Set.mem_insert_of_mem k' hs) hkept
        | removed k' =>
            have hk : k = k' := by
              by_contra hne
              exact hkept ⟨hs, hne⟩
            rw [hk]
            exact List.mem_cons_self

end

end ChangeLog
