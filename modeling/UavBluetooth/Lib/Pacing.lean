import Mathlib.Tactic

set_option autoImplicit false

/-! # Admissions on a grid of deadlines

A gate admits nothing before its deadline. An admission takes a while, and when it is over the
deadline is moved on along a grid, past the present: `do deadline += step while (deadline <= now)`.
Two admissions in a row can come closer than `step`, since the first may have been late on the
grid; but over a window the grid tells (`Paced.length_le_window`).
-/

namespace Pacing

/-! ## The grid -/

/-- At most `rounds` rounds of `do deadline += step while (deadline <= now)`. -/
def catchUp (step now : Nat) : Nat → Nat → Option Nat
  | 0, _ => none
  | rounds + 1, deadline =>
      if deadline + step ≤ now then catchUp step now rounds (deadline + step)
      else some (deadline + step)

/-- The first point of the grid after `now`, and after the deadline. -/
def gridAfter (step now deadline : Nat) : Nat := deadline + ((now - deadline) / step + 1) * step

section

variable {step now deadline : Nat}

theorem add_step_le_gridAfter : deadline + step ≤ gridAfter step now deadline := by
  unfold gridAfter
  have hround : 1 * step ≤ ((now - deadline) / step + 1) * step :=
    Nat.mul_le_mul_right step (Nat.le_add_left 1 _)
  omega

theorem lt_gridAfter (hstep : 0 < step) : now < gridAfter step now deadline := by
  unfold gridAfter
  have hpast : now - deadline < ((now - deadline) / step + 1) * step := by
    rw [Nat.add_mul, Nat.one_mul, Nat.mul_comm]
    exact Nat.lt_mul_div_succ (now - deadline) hstep
  omega

/-- **The loop ends**, after as many rounds as there are grid points up to the present and one
more. -/
theorem catchUp_eq_some (hstep : 0 < step) {rounds : Nat}
    (h : (now - deadline) / step + 1 ≤ rounds) :
    catchUp step now rounds deadline = some (gridAfter step now deadline) := by
  -- The induction is on the allowance; each round uses up one step of the distance.
  induction rounds generalizing deadline with
  | zero => exact absurd h (Nat.not_succ_le_zero _)
  | succ rounds ih =>
      unfold catchUp
      by_cases hmore : deadline + step ≤ now
      · have hdistance : now - deadline = now - (deadline + step) + step := by omega
        have hdiv : (now - deadline) / step = (now - (deadline + step)) / step + 1 := by
          rw [hdistance, Nat.add_div_right _ hstep]
        rw [if_pos hmore, ih (by omega), gridAfter, gridAfter, hdiv]
        congr 1
        ring
      · have hdiv : (now - deadline) / step = 0 := Nat.div_eq_of_lt (by omega)
        rw [if_neg hmore, gridAfter, hdiv, Nat.zero_add, Nat.one_mul]

end

/-! ## Gates -/

/-- One admission, and the deadline that it had to wait for. -/
structure Admission where
  notBefore : Nat
  time : Nat

/-- The later admission waited for a later point of the grid, which was then past the first. -/
def Apart (step : Nat) (x : Admission) (deadline : Nat) : Prop :=
  x.time < deadline ∧ x.notBefore + step ≤ deadline

/-- A gate and the admissions so far, oldest first. While the gate is `held`, the deadline is
still that of the last admission. -/
structure Paced (step deadline clock : Nat) (held : Bool) (admissions : List Admission) :
    Prop where
  apart : admissions.Pairwise fun x y => Apart step x y.notBefore
  past : ∀ x ∈ admissions, x.notBefore ≤ x.time ∧ x.time ≤ clock
  ahead : held = false → ∀ x ∈ admissions, Apart step x deadline
  behind : held = true → ∃ old last, admissions = old ++ [last] ∧ last.notBefore = deadline ∧
    ∀ x ∈ old, Apart step x deadline

namespace Paced

variable {step deadline clock now : Nat} {held : Bool} {admissions : List Admission}

theorem nil : Paced step deadline clock false [] := by
  refine ⟨.nil, ?_, ?_, ?_⟩
  · intro x hx
    exact absurd hx List.not_mem_nil
  · intro _ x hx
    exact absurd hx List.not_mem_nil
  · intro hheld
    exact absurd hheld Bool.false_ne_true

/-- Time passes. -/
theorem later (h : Paced step deadline clock held admissions) (hnow : clock ≤ now) :
    Paced step deadline now held admissions := by
  refine ⟨h.apart, ?_, h.ahead, h.behind⟩
  intro x hx
  obtain ⟨hwaited, htime⟩ := h.past x hx
  exact ⟨hwaited, le_trans htime hnow⟩

/-- An admission at its deadline or later. -/
theorem admitted (h : Paced step deadline clock false admissions) (hdeadline : deadline ≤ clock) :
    Paced step deadline clock true (admissions ++ [⟨deadline, clock⟩]) := by
  have hahead := h.ahead rfl
  refine ⟨?_, ?_, ?_, ?_⟩
  · rw [List.pairwise_append]
    refine ⟨h.apart, List.pairwise_singleton _ _, ?_⟩
    intro x hx y hy
    rw [List.mem_singleton] at hy
    subst hy
    exact hahead x hx
  · intro x hx
    rcases List.mem_append.mp hx with hold | hnew
    · exact h.past x hold
    · rw [List.mem_singleton] at hnew
      subst hnew
      exact ⟨hdeadline, le_refl _⟩
  · intro hheld
    exact absurd hheld.symm Bool.false_ne_true
  · intro _
    exact ⟨admissions, ⟨deadline, clock⟩, rfl, rfl, hahead⟩

/-- The admission is over: the deadline moves on, past the present. -/
theorem settle {deadline' : Nat} (h : Paced step deadline clock true admissions)
    (hpast : clock < deadline') (hstep : deadline + step ≤ deadline') :
    Paced step deadline' clock false admissions := by
  obtain ⟨old, last, hadmissions, hlast, hold⟩ := h.behind rfl
  refine ⟨h.apart, h.past, ?_, ?_⟩
  · intro _ x hx
    have htime := (h.past x hx).2
    refine ⟨by omega, ?_⟩
    rw [hadmissions, List.mem_append, List.mem_singleton] at hx
    rcases hx with hx | rfl
    · have hxstep := (hold x hx).2
      omega
    · omega
  · intro hheld
    exact absurd hheld Bool.false_ne_true

end Paced

/-! ## Windows -/

/-- The grid points of admissions in a row are at least one step apart each. -/
theorem grid_le_of_pairwise {step : Nat} {x last : Admission} {rest : List Admission}
    (h : (x :: rest).Pairwise fun x y => Apart step x y.notBefore)
    (hlast : (x :: rest).getLast? = some last) :
    x.notBefore + rest.length * step ≤ last.notBefore := by
  induction rest generalizing x with
  | nil =>
      simp only [List.getLast?_singleton, Option.some.injEq] at hlast
      subst hlast
      simp
  | cons y rest ih =>
      have hxy : Apart step x y.notBefore := (List.pairwise_cons.mp h).1 y List.mem_cons_self
      have hrest := ih (List.pairwise_cons.mp h).2 (by rwa [List.getLast?_cons_cons] at hlast)
      calc x.notBefore + (y :: rest).length * step
          = x.notBefore + step + rest.length * step := by rw [List.length_cons]; ring
        _ ≤ y.notBefore + rest.length * step := Nat.add_le_add_right hxy.2 _
        _ ≤ last.notBefore := hrest

/-- **The rate of a gate**: in a window of length `length` there are at most two admissions more
than steps. -/
theorem Paced.length_le_window {step deadline clock : Nat} {held : Bool}
    {admissions : List Admission} (h : Paced step deadline clock held admissions)
    (hstep : 0 < step) (start length : Nat) :
    (admissions.filter fun x => start ≤ x.time ∧ x.time ≤ start + length).length ≤
      length / step + 2 := by
  have hinside : ∀ x ∈ admissions.filter fun x => start ≤ x.time ∧ x.time ≤ start + length,
      x.notBefore ≤ x.time ∧ start ≤ x.time ∧ x.time ≤ start + length := by
    intro x hx
    obtain ⟨hmem, hwindow⟩ := List.mem_filter.mp hx
    exact ⟨(h.past x hmem).1, of_decide_eq_true hwindow⟩
  have hapart := h.apart.filter fun x => start ≤ x.time ∧ x.time ≤ start + length
  revert hinside hapart
  generalize admissions.filter (fun x => start ≤ x.time ∧ x.time ≤ start + length) = window
  intro hinside hapart
  -- The first admission can be late on the grid; from the second on the grid bounds the times.
  match window with
  | [] => exact Nat.zero_le _
  | [_] => exact Nat.le_add_left 1 _
  | x :: y :: rest =>
      obtain ⟨last, hlast⟩ : ∃ last, (y :: rest).getLast? = some last :=
        ⟨_, List.getLast?_eq_some_getLast (List.cons_ne_nil y rest)⟩
      have hgrid := grid_le_of_pairwise (List.pairwise_cons.mp hapart).2 hlast
      have hxy : x.time < y.notBefore :=
        ((List.pairwise_cons.mp hapart).1 y List.mem_cons_self).1
      have hfirst := (hinside x List.mem_cons_self).2.1
      have hend := hinside last (List.mem_cons_of_mem x (List.mem_of_getLast? hlast))
      have hrest : rest.length ≤ length / step := by
        rw [Nat.le_div_iff_mul_le hstep]
        omega
      simp only [List.length_cons]
      omega

end Pacing
