import Mathlib.Tactic

set_option autoImplicit false

/-! # Runs of a partial deterministic machine

A machine is a function `step : σ → α → Option σ`: in state `s` the action `a` is either
impossible (`none`) or leads to one next state. All nondeterminism (which thread moves, what
a daemon answers, which frame is lost) is in the action.

* `exec step s as` runs a list of actions, so that a concrete run can be computed;
* `ReachableUnder step ok init` holds of the states reached by actions that all satisfy the
  guard `ok` in the state they start from; `Reachable` is the unguarded case;
* `ReachableUnder.invariant` is the invariant rule.
-/

namespace Run

section

variable {σ α : Type}

/-- Run a list of actions; `none` if one of them is impossible. -/
def exec (step : σ → α → Option σ) : σ → List α → Option σ
  | s, [] => some s
  | s, a :: as => (step s a).bind (fun t => exec step t as)

/-- Every action of the list is taken in a state that satisfies the guard. -/
def Guarded (step : σ → α → Option σ) (ok : σ → α → Prop) : σ → List α → Prop
  | _, [] => True
  | s, a :: as => ok s a ∧ ∀ t, step s a = some t → Guarded step ok t as

/-- The states reached from `init` by steps that all satisfy the guard `ok`. -/
inductive ReachableUnder (step : σ → α → Option σ) (ok : σ → α → Prop) (init : σ → Prop) :
    σ → Prop where
  | start {s : σ} : init s → ReachableUnder step ok init s
  | next {s t : σ} {a : α} :
      ReachableUnder step ok init s → ok s a → step s a = some t →
        ReachableUnder step ok init t

/-- The states reached from `init` by any steps. -/
abbrev Reachable (step : σ → α → Option σ) (init : σ → Prop) : σ → Prop :=
  ReachableUnder step (fun _ _ => True) init

variable {step : σ → α → Option σ} {ok : σ → α → Prop} {init : σ → Prop}

/-- **The invariant rule.** What holds initially and is preserved by every guarded step holds
in every state reached. -/
theorem ReachableUnder.invariant {P : σ → Prop} {s : σ}
    (hs : ReachableUnder step ok init s) (h0 : ∀ s, init s → P s)
    (hstep : ∀ s a t, P s → ok s a → step s a = some t → P t) : P s := by
  induction hs with
  | start hi => exact h0 _ hi
  | next _ hok ht ih => exact hstep _ _ _ ih hok ht

/-- The invariant rule relative to an invariant proved before. -/
theorem ReachableUnder.invariant_of {J P : σ → Prop} {s : σ}
    (hs : ReachableUnder step ok init s)
    (hJ : ∀ s, ReachableUnder step ok init s → J s) (h0 : ∀ s, init s → P s)
    (hstep : ∀ s a t, J s → J t → P s → ok s a → step s a = some t → P t) : P s := by
  induction hs with
  | start hi => exact h0 _ hi
  | next hr hok ht ih => exact hstep _ _ _ (hJ _ hr) (hJ _ (.next hr hok ht)) ih hok ht

/-- A weaker guard reaches at least as many states. -/
theorem ReachableUnder.mono {ok' : σ → α → Prop} {s : σ}
    (hs : ReachableUnder step ok init s) (h : ∀ s a, ok s a → ok' s a) :
    ReachableUnder step ok' init s := by
  induction hs with
  | start hi => exact .start hi
  | next _ hok ht ih => exact .next ih (h _ _ hok) ht

theorem ReachableUnder.reachable {s : σ} (hs : ReachableUnder step ok init s) :
    Reachable step init s :=
  hs.mono (fun _ _ _ => trivial)

/-- A computed run whose actions satisfy the guard ends in a reachable state. -/
theorem ReachableUnder.exec {s t : σ} {as : List α} (hs : ReachableUnder step ok init s)
    (hg : Guarded step ok s as) (h : Run.exec step s as = some t) :
    ReachableUnder step ok init t := by
  induction as generalizing s with
  | nil =>
      have hst : s = t := by simpa [Run.exec] using h
      exact hst ▸ hs
  | cons a as ih =>
      obtain ⟨u, hu, hrest⟩ := Option.bind_eq_some_iff.mp h
      exact ih (.next hs hg.1 hu) (hg.2 u hu) hrest

/-- Any computed run ends in a reachable state. -/
theorem Reachable.exec {s t : σ} {as : List α} (hs : Reachable step init s)
    (h : Run.exec step s as = some t) : Reachable step init t := by
  have hg : ∀ (as : List α) (s : σ), Guarded step (fun _ _ => True) s as := by
    intro as
    induction as with
    | nil => intro s; trivial
    | cons a as ih => intro s; exact ⟨trivial, fun t _ => ih t⟩
  exact ReachableUnder.exec hs (hg as s) h

/-- Whether every action of a run passes a test in the state it is taken in. -/
def allowed (step : σ → α → Option σ) (test : σ → α → Bool) : σ → List α → Bool
  | _, [] => true
  | s, a :: as =>
      test s a &&
        match step s a with
        | some t => allowed step test t as
        | none => true

/-- A guard can be checked by running a test that implies it, also when the test is good only
for states that satisfy `J`. -/
theorem guarded_of_allowed {J : σ → Prop} {test : σ → α → Bool} {s : σ} {as : List α}
    (htest : ∀ s a, J s → test s a = true → ok s a)
    (hJ : ∀ s a t, a ∈ as → J s → step s a = some t → J t) (hs : J s)
    (h : allowed step test s as = true) : Guarded step ok s as := by
  induction as generalizing s with
  | nil => trivial
  | cons a as ih =>
      simp only [allowed, Bool.and_eq_true] at h
      refine ⟨htest s a hs h.1, fun t ht => ?_⟩
      refine ih (fun s b t hb => hJ s b t (List.mem_cons_of_mem _ hb))
        (hJ s a t List.mem_cons_self hs ht) ?_
      simpa [ht] using h.2

/-- A decidable guard is its own test. -/
theorem guarded_of_decide [∀ s a, Decidable (ok s a)] {s : σ} {as : List α}
    (h : allowed step (fun s a => decide (ok s a)) s as = true) : Guarded step ok s as :=
  guarded_of_allowed (J := fun _ => True) (fun _ _ _ h => of_decide_eq_true h)
    (fun _ _ _ _ _ _ => trivial) trivial h

/-- A run keeps the guard exactly if all its states are good, when a guarded step keeps an
invariant that makes a state good and a step against the guard leads to a state that is not. -/
theorem guarded_iff_prefixes {J P : σ → Prop} {s : σ} {as : List α} (hs : J s)
    (hgood : ∀ s, J s → P s)
    (hstep : ∀ s a t, J s → ok s a → step s a = some t → J t)
    (hbreak : ∀ s a, J s → ¬ ok s a → ∃ t, step s a = some t ∧ ¬ P t) :
    Guarded step ok s as ↔ ∀ bs, bs <+: as → ∀ t, exec step s bs = some t → P t := by
  induction as generalizing s with
  | nil =>
      refine ⟨fun _ bs hbs t ht => ?_, fun _ => trivial⟩
      rw [List.prefix_nil.mp hbs] at ht
      rw [← Option.some.inj ht]
      exact hgood s hs
  | cons a as ih =>
      constructor
      · rintro ⟨hok, hrest⟩ bs hbs t ht
        rcases List.prefix_cons_iff.mp hbs with rfl | ⟨bs, rfl, hshorter⟩
        · rw [← Option.some.inj ht]
          exact hgood s hs
        · obtain ⟨u, hu, ht⟩ := Option.bind_eq_some_iff.mp ht
          exact (ih (hstep s a u hs hok hu)).mp (hrest u hu) bs hshorter t ht
      · intro hall
        have hok : ok s a := by
          by_contra hnot
          obtain ⟨t, ht, hbad⟩ := hbreak s a hs hnot
          refine hbad (hall [a] ⟨as, rfl⟩ t ?_)
          rw [exec, ht]
          rfl
        refine ⟨hok, fun u hu => (ih (hstep s a u hs hok hu)).mpr fun bs hbs t ht => ?_⟩
        refine hall (a :: bs) (List.cons_prefix_cons.mpr ⟨rfl, hbs⟩) t ?_
        rw [exec, hu]
        exact ht

theorem exec_append {s : σ} {as bs : List α} :
    exec step s (as ++ bs) = (exec step s as).bind (fun t => exec step t bs) := by
  induction as generalizing s with
  | nil => rfl
  | cons a as ih =>
      simp only [List.cons_append, exec, Option.bind_assoc]
      congr 1
      funext t
      exact ih

end

end Run
