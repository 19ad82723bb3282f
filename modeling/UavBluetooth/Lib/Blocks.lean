import Mathlib.Tactic

set_option autoImplicit false

/-! # Streams cut into blocks

A function that consumes whole blocks of `n` elements, fed in chunks of any size: what a machine
has to keep is the fold over the complete blocks (`full`) and the incomplete one (`rest`). A
chunk is absorbed by cutting the incomplete block together with it (`Absorbed.feed`).
-/

namespace Blocks

section

variable {α σ : Type} {n : Nat}

/-- The complete blocks. -/
def full (n : Nat) (l : List α) : List (List α) :=
  (List.range (l.length / n)).map fun k => (l.drop (n * k)).take n

/-- What is left behind the complete blocks. -/
def rest (n : Nat) (l : List α) : List α := l.drop (n * (l.length / n))

theorem full_of_lt {l : List α} (h : l.length < n) : full n l = [] := by
  simp [full, Nat.div_eq_of_lt h]

theorem rest_of_lt {l : List α} (h : l.length < n) : rest n l = l := by
  simp [rest, Nat.div_eq_of_lt h]

@[simp] theorem length_rest (l : List α) : (rest n l).length = l.length % n := by
  rw [rest, List.length_drop, Nat.mod_eq_sub]

theorem full_block_append (hn : 0 < n) {b l : List α} (hb : b.length = n) :
    full n (b ++ l) = b :: full n l := by
  have hlen : (b ++ l).length / n = l.length / n + 1 := by
    rw [List.length_append, hb, Nat.add_comm n, Nat.add_div_right _ hn]
  rw [full, hlen, List.range_succ_eq_map, List.map_cons, List.map_map, full]
  congr 1
  · simp [← hb]
  · refine List.map_congr_left fun k _ => ?_
    have hdrop : (b ++ l).drop (n * (k + 1)) = l.drop (n * k) := by
      rw [Nat.mul_add_one, Nat.add_comm, ← hb, List.drop_length_add_append]
    exact congrArg (List.take n) hdrop

theorem rest_block_append (hn : 0 < n) {b l : List α} (hb : b.length = n) :
    rest n (b ++ l) = rest n l := by
  have hlen : (b ++ l).length / n = l.length / n + 1 := by
    rw [List.length_append, hb, Nat.add_comm n, Nat.add_div_right _ hn]
  rw [rest, hlen, Nat.mul_add_one, Nat.add_comm, ← hb, List.drop_length_add_append, rest]

/-- Cutting a text is cutting its beginning, and then what is left of it with the end. -/
theorem cut_append (hn : 0 < n) (a b : List α) :
    full n (a ++ b) = full n a ++ full n (rest n a ++ b) ∧
      rest n (a ++ b) = rest n (rest n a ++ b) := by
  induction hlen : a.length using Nat.strong_induction_on generalizing a with
  | _ m ih =>
      by_cases hlt : a.length < n
      · rw [full_of_lt hlt, rest_of_lt hlt]
        exact ⟨rfl, rfl⟩
      · -- Take the first block off.
        obtain ⟨c, d, rfl, hc⟩ : ∃ c d, a = c ++ d ∧ c.length = n :=
          ⟨a.take n, a.drop n, (List.take_append_drop n a).symm, by
            rw [List.length_take]
            omega⟩
        have hd : d.length < m := by
          rw [← hlen, List.length_append]
          omega
        obtain ⟨hfull, hrest⟩ := ih d.length hd d rfl
        rw [List.append_assoc, full_block_append hn hc, full_block_append hn hc,
          rest_block_append hn hc, rest_block_append hn hc, hfull, List.cons_append]
        exact ⟨rfl, hrest⟩

/-- The machine has consumed `data`: the complete blocks are folded into its state, the
incomplete one is pending. -/
structure Absorbed (n : Nat) (f : σ → List α → σ) (s₀ : σ) (data : List α) (s : σ)
    (pending : List α) : Prop where
  state : s = (full n data).foldl f s₀
  pending : pending = rest n data

theorem Absorbed.nil (f : σ → List α → σ) (s₀ : σ) : Absorbed n f s₀ [] s₀ [] :=
  ⟨by simp [full], by simp [rest]⟩

/-- **Absorbing a chunk.** -/
theorem Absorbed.feed {f : σ → List α → σ} {s₀ s : σ} {data pending : List α}
    (h : Absorbed n f s₀ data s pending) (hn : 0 < n) (chunk : List α) :
    Absorbed n f s₀ (data ++ chunk) ((full n (pending ++ chunk)).foldl f s)
      (rest n (pending ++ chunk)) := by
  obtain ⟨hfull, hrest⟩ := cut_append hn data chunk
  refine ⟨?_, ?_⟩
  · rw [hfull, List.foldl_append, ← h.state, ← h.pending]
  · rw [hrest, ← h.pending]

end

end Blocks
