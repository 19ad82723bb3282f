import UavBluetooth.Lib.Paths

set_option autoImplicit false

/-! # Texts with holes

A template is a list in which `none` marks a hole, and `fill w` puts the word `w` into every
hole. Two words give one text exactly if they are equal or there is no hole (`fill_eq_iff`).
Words without separators and blanks commute with normal forms (`expands`), so that a template
can be normalised before it is filled.
-/

namespace Templates

section

variable {α : Type}

/-- Put a word into every hole. -/
def fill (w : List α) (t : List (Option α)) : List α :=
  t.flatMap fun x => x.elim w fun c => [c]

variable {w w' : List α} {t : List (Option α)}

@[simp] theorem fill_nil : fill w [] = [] := rfl

@[simp] theorem fill_cons_some (c : α) : fill w (some c :: t) = c :: fill w t := rfl

@[simp] theorem fill_cons_none : fill w (none :: t) = w ++ fill w t := rfl

@[simp] theorem fill_append (t' : List (Option α)) :
    fill w (t ++ t') = fill w t ++ fill w t' :=
  List.flatMap_append

theorem length_fill :
    (fill w t).length = t.countP Option.isSome + t.countP Option.isNone * w.length := by
  induction t with
  | nil => simp
  | cons x t ih =>
      cases x with
      | none =>
          rw [fill_cons_none, List.length_append, ih]
          simp only [List.countP_cons, Option.isSome_none, Option.isNone_none, if_true]
          ring_nf
          simp
      | some c =>
          rw [fill_cons_some, List.length_cons, ih]
          simp only [List.countP_cons, Option.isSome_some, Option.isNone_some, if_true]
          ring_nf
          simp

/-- Without a hole the word does not matter. -/
theorem fill_congr (h : none ∉ t) : fill w t = fill w' t := by
  induction t with
  | nil => rfl
  | cons x t ih =>
      have ht := ih fun hmem => h (List.mem_cons_of_mem _ hmem)
      cases x with
      | none => exact absurd List.mem_cons_self h
      | some c => rw [fill_cons_some, fill_cons_some, ht]

/-- The first hole tells words of one length apart. -/
theorem eq_of_fill_eq (hlength : w.length = w'.length) (hhole : none ∈ t)
    (h : fill w t = fill w' t) : w = w' := by
  induction t with
  | nil => cases hhole
  | cons x t ih =>
      cases x with
      | none =>
          rw [fill_cons_none, fill_cons_none] at h
          exact (List.append_inj h hlength).1
      | some c =>
          rw [fill_cons_some, fill_cons_some] at h
          exact ih (by simpa using hhole) (List.cons.inj h).2

/-- **Filling is injective** on templates with a hole. -/
theorem fill_eq_iff : fill w t = fill w' t ↔ w = w' ∨ none ∉ t := by
  constructor
  · intro h
    by_cases hhole : none ∈ t
    · refine Or.inl (eq_of_fill_eq ?_ hhole h)
      have hlength := congrArg List.length h
      rw [length_fill, length_fill] at hlength
      have hpos : 0 < t.countP Option.isNone :=
        List.countP_pos_iff.mpr ⟨none, hhole, rfl⟩
      exact Nat.eq_of_mul_eq_mul_left hpos (by omega)
    · exact Or.inr hhole
  · rintro (rfl | h)
    · rfl
    · exact fill_congr h

/-! ## Filling and normal forms -/

variable {space : α → Bool} {sep : α}

/-- Blanks of a template; a hole is none. -/
def blank (space : α → Bool) (x : Option α) : Bool := x.elim false space

theorem expands (hw : w ≠ []) (hspace : ∀ c ∈ w, space c = false) (hsep : ∀ c ∈ w, c ≠ sep) :
    Paths.Expands (blank space) (some sep) space sep fun x => x.elim w fun c => [c] where
  on_sep := rfl
  no_sep b hb c hc := by
    cases b with
    | none => exact hsep c hc
    | some d =>
        rw [List.mem_singleton.mp hc]
        exact fun hd => hb (congrArg some hd)
  ne_nil b := by
    cases b with
    | none => exact hw
    | some d => exact List.cons_ne_nil _ _
  on_space b hb c hc := by
    cases b with
    | none => cases hb
    | some d =>
        rw [List.mem_singleton.mp hc]
        exact hb
  no_space b hb c hc := by
    cases b with
    | none => exact hspace c hc
    | some d =>
        rw [List.mem_singleton.mp hc]
        exact hb

/-- A path of filled segments is a filled path. -/
theorem path_map_fill (segs : List (List (Option α))) :
    Paths.path sep (segs.map (fill w)) = fill w (Paths.path (some sep) segs) := by
  cases segs with
  | nil => rfl
  | cons first rest =>
      have hrest : (rest.map (fill w)).flatMap (sep :: ·) =
          fill w (rest.flatMap (some sep :: ·)) := by
        induction rest with
        | nil => rfl
        | cons next rest ih =>
            rw [List.map_cons, List.flatMap_cons, List.flatMap_cons, fill_append, ih]
            rfl
      rw [List.map_cons, Paths.path_cons, Paths.path_cons, fill_append, fill_cons_some, hrest]

end

end Templates
