import Mathlib.Tactic

set_option autoImplicit false

/-! # Computations that may throw

Taking a successful `Except` computation apart, and what a loop that threads a state through a
list has checked about each element when it gets to the end.
-/

namespace Fallible

section

variable {ε α β σ : Type}

theorem bind_eq_ok {x : Except ε α} {f : α → Except ε β} {b : β} :
    x >>= f = .ok b ↔ ∃ a, x = .ok a ∧ f a = .ok b := by
  cases x with
  | error e =>
      constructor
      · intro h
        cases h
      · rintro ⟨a, h, _⟩
        cases h
  | ok a =>
      constructor
      · exact fun h => ⟨a, rfl, h⟩
      · rintro ⟨a', h, hf⟩
        cases h
        exact hf

theorem bind_eq_error {x : Except ε α} {f : α → Except ε β} {e : ε} :
    x >>= f = .error e ↔ x = .error e ∨ ∃ a, x = .ok a ∧ f a = .error e := by
  cases x with
  | error e' =>
      constructor
      · intro h
        cases h
        exact Or.inl rfl
      · rintro (h | ⟨_, h, _⟩)
        · cases h
          rfl
        · cases h
  | ok a =>
      constructor
      · exact fun h => Or.inr ⟨a, rfl, h⟩
      · rintro (h | ⟨a', h, hf⟩)
        · cases h
        · cases h
          exact hf

/-- Computations that agree on what they begin with and on what follows each of its values. -/
theorem bind_congr_ok {x y : Except ε α} {f g : α → Except ε β} (hxy : x = y)
    (hfg : ∀ a, y = .ok a → f a = g a) : x >>= f = y >>= g := by
  rw [hxy]
  cases hy : y with
  | error e => rfl
  | ok a => exact hfg a hy

@[simp] theorem pure_eq_ok {a b : α} : (pure a : Except ε α) = .ok b ↔ a = b := by
  constructor
  · intro h
    cases h
    rfl
  · rintro rfl
    rfl

/-- Throw unless the condition holds. -/
def require (condition : Bool) (message : ε) : Except ε Unit :=
  if condition then .ok () else .error message

@[simp] theorem require_eq_ok {condition : Bool} {message : ε} {u : Unit} :
    require condition message = .ok u ↔ condition = true := by
  unfold require
  cases condition <;> simp

/-- Every value that the computation may return satisfies `P`. -/
def Ensures (P : α → Prop) (x : Except ε α) : Prop := ∀ a, x = .ok a → P a

theorem Ensures.pure {P : α → Prop} {a : α} (h : P a) : Ensures P (Pure.pure a : Except ε α) := by
  intro a' ha'
  rw [← pure_eq_ok.mp ha']
  exact h

theorem Ensures.bind {P : β → Prop} {x : Except ε α} {f : α → Except ε β}
    (h : ∀ a, Ensures P (f a)) : Ensures P (x >>= f) := by
  intro b hb
  obtain ⟨a, _, hf⟩ := bind_eq_ok.mp hb
  exact h a b hf

/-! ## Loops -/

/-- Run the body on each element, passing the state along and collecting the results. -/
def loop (body : σ → α → Except ε (β × σ)) : σ → List α → Except ε (List β)
  | _, [] => .ok []
  | s, a :: rest => do
      let (b, s') ← body s a
      let bs ← loop body s' rest
      return b :: bs

theorem loop_cons_eq_ok {body : σ → α → Except ε (β × σ)} {s : σ} {a : α} {rest : List α}
    {out : List β} :
    loop body s (a :: rest) = .ok out ↔
      ∃ b s' bs, body s a = .ok (b, s') ∧ loop body s' rest = .ok bs ∧ out = b :: bs := by
  simp only [loop, bind_eq_ok, pure_eq_ok, Prod.exists]
  constructor
  · rintro ⟨b, s', hbody, bs, hrest, rfl⟩
    exact ⟨b, s', bs, hbody, hrest, rfl⟩
  · rintro ⟨b, s', bs, hbody, hrest, rfl⟩
    exact ⟨b, s', hbody, bs, hrest, rfl⟩

/-- A property that the body ensures of each element holds all along the list. -/
theorem loop_forall₂ {body : σ → α → Except ε (β × σ)} {P : α → β → Prop}
    (hbody : ∀ s a b s', body s a = .ok (b, s') → P a b) {as : List α} {s : σ} {out : List β}
    (h : loop body s as = .ok out) : List.Forall₂ P as out := by
  induction as generalizing s out with
  | nil =>
      cases h
      exact .nil
  | cons a rest ih =>
      obtain ⟨b, s', bs, ha, hrest, rfl⟩ := loop_cons_eq_ok.mp h
      exact .cons (hbody s a b s' ha) (ih hrest)

/-- **A loop that refuses repetitions.** The state holds the keys seen so far, and the body
refuses an element whose key is among them. -/
theorem loop_nodup {κ : Type} {body : σ → α → Except ε (β × σ)} (seen : σ → κ → Prop)
    (key : β → Option κ)
    (hbody : ∀ s a b s', body s a = .ok (b, s') →
      (∀ k ∈ key b, ¬seen s k) ∧ ∀ k, seen s k ∨ k ∈ key b → seen s' k)
    {as : List α} {s : σ} {out : List β} (h : loop body s as = .ok out) :
    (out.filterMap key).Nodup ∧ ∀ k ∈ out.filterMap key, ¬seen s k := by
  induction as generalizing s out with
  | nil =>
      cases h
      simp
  | cons a rest ih =>
      obtain ⟨b, s', bs, ha, hrest, rfl⟩ := loop_cons_eq_ok.mp h
      obtain ⟨hnew, hseen⟩ := hbody s a b s' ha
      obtain ⟨hnodup, hfresh⟩ := ih hrest
      cases hkey : key b with
      | none =>
          rw [List.filterMap_cons_none hkey]
          exact ⟨hnodup, fun k hk hs => hfresh k hk (hseen k (Or.inl hs))⟩
      | some k₀ =>
          rw [List.filterMap_cons_some hkey]
          have hk₀ : seen s' k₀ := hseen k₀ (Or.inr hkey)
          refine ⟨List.nodup_cons.mpr ⟨fun hmem => hfresh k₀ hmem hk₀, hnodup⟩, ?_⟩
          intro k hk hs
          rcases List.mem_cons.mp hk with rfl | hk
          · exact hnew k hkey hs
          · exact hfresh k hk (hseen k (Or.inl hs))

/-! ## Maps -/

theorem mapM_eq_ok {f : α → Except ε β} {as : List α} {bs : List β} :
    as.mapM f = .ok bs ↔ List.Forall₂ (fun a b => f a = .ok b) as bs := by
  induction as generalizing bs with
  | nil =>
      rw [List.mapM_nil, pure_eq_ok, List.forall₂_nil_left_iff]
      exact eq_comm
  | cons a rest ih =>
      simp only [List.mapM_cons, bind_eq_ok, pure_eq_ok, ih]
      constructor
      · rintro ⟨b, hb, others, hothers, rfl⟩
        exact .cons hb hothers
      · intro h
        cases h with
        | cons hb hothers => exact ⟨_, hb, _, hothers, rfl⟩

/-- A map fails at the first element that does. -/
theorem mapM_eq_error {f : α → Except ε β} {as : List α} {e : ε} :
    as.mapM f = .error e ↔ ∃ before a after, as = before ++ a :: after ∧
      (∀ a' ∈ before, ∃ b, f a' = .ok b) ∧ f a = .error e := by
  induction as with
  | nil =>
      constructor
      · intro h
        cases h
      · rintro ⟨before, a, after, h, _⟩
        simp at h
  | cons a rest ih =>
      simp only [List.mapM_cons, bind_eq_error, ih]
      constructor
      · rintro (he | ⟨b, hb, ⟨before, a', after, rfl, hbefore, he⟩ | ⟨_, _, h⟩⟩)
        · exact ⟨[], a, rest, rfl, by simp, he⟩
        · refine ⟨a :: before, a', after, rfl, ?_, he⟩
          exact List.forall_mem_cons.mpr ⟨⟨b, hb⟩, hbefore⟩
        · cases h
      · rintro ⟨before, a', after, hsplit, hbefore, he⟩
        cases before with
        | nil =>
            obtain ⟨rfl, rfl⟩ := List.cons.inj hsplit
            exact Or.inl he
        | cons first before =>
            obtain ⟨rfl, rfl⟩ := List.cons.inj hsplit
            obtain ⟨hfirst, hbefore⟩ := List.forall_mem_cons.mp hbefore
            obtain ⟨b, hb⟩ := hfirst
            exact Or.inr ⟨b, hb, Or.inl ⟨before, a', after, rfl, hbefore, he⟩⟩

theorem exists_forall₂ {R : α → β → Prop} {as : List α} (h : ∀ a ∈ as, ∃ b, R a b) :
    ∃ bs, List.Forall₂ R as bs := by
  induction as with
  | nil => exact ⟨[], .nil⟩
  | cons a rest ih =>
      obtain ⟨hfirst, hrest⟩ := List.forall_mem_cons.mp h
      obtain ⟨b, hb⟩ := hfirst
      obtain ⟨bs, hbs⟩ := ih hrest
      exact ⟨b :: bs, .cons hb hbs⟩

theorem exists_of_forall₂ {R : α → β → Prop} {as : List α} {bs : List β}
    (h : List.Forall₂ R as bs) {b : β} (hb : b ∈ bs) : ∃ a ∈ as, R a b := by
  induction h with
  | nil => cases hb
  | cons hab _ ih =>
      rcases List.mem_cons.mp hb with rfl | hb
      · exact ⟨_, List.mem_cons_self, hab⟩
      · obtain ⟨a, ha, hr⟩ := ih hb
        exact ⟨a, List.mem_cons_of_mem _ ha, hr⟩

/-- Lists that are related to a third one are related to each other. -/
theorem forall₂_of_common {γ : Type} {R : α → β → Prop} {S : α → γ → Prop} {T : β → γ → Prop}
    (hT : ∀ a b c, R a b → S a c → T b c) {as : List α} {bs : List β} {cs : List γ}
    (h : List.Forall₂ R as bs) (h' : List.Forall₂ S as cs) : List.Forall₂ T bs cs := by
  induction h generalizing cs with
  | nil =>
      cases h'
      exact .nil
  | cons hab _ ih =>
      cases h' with
      | cons hac h' => exact .cons (hT _ _ _ hab hac) (ih h')

/-- Related elements are counted alike. -/
theorem countP_of_forall₂ {R : α → β → Prop} {p : α → Bool} {q : β → Bool} {as : List α}
    {bs : List β} (h : List.Forall₂ R as bs) (hR : ∀ a b, R a b → p a = q b) :
    as.countP p = bs.countP q := by
  induction h with
  | nil => rfl
  | cons hab _ ih => rw [List.countP_cons, List.countP_cons, ih, hR _ _ hab]

/-- A computation that is seen to end in some value. -/
theorem exists_ok_of_any {x : Except ε α} {p : α → Bool} (h : x.toOption.any p = true) :
    ∃ a, x = .ok a ∧ p a = true := by
  cases x with
  | error e => cases h
  | ok a => exact ⟨a, rfl, h⟩

end

end Fallible
