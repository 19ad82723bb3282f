import Mathlib.Tactic
import UavBluetooth.Lib.Strip

set_option autoImplicit false

/-! # Normal forms of slash-separated paths

A path over an alphabet with one separator is stripped of blanks at its ends, made absolute,
and has repeated and trailing separators removed (`normalize`). Its normal form is the sequence
of its nonempty segments, each behind a separator (`normalize_eq`). `Expands` is a
translation of one alphabet into another that keeps separators and blanks apart from the rest;
normal forms commute with it (`normalize_expand`).
-/

namespace Paths

section

variable {α : Type} [DecidableEq α]

/-- Collapse runs of separators; `last` if the previous element was one. -/
def collapse (sep : α) : Bool → List α → List α
  | _, [] => []
  | last, c :: cs =>
      if c = sep then (if last then collapse sep true cs else c :: collapse sep true cs)
      else c :: collapse sep false cs

/-- Put a separator in front unless there is one. -/
def absolute (sep : α) (l : List α) : List α :=
  if l.head? = some sep then l else sep :: l

/-- Remove separators from the end, but never the first element. -/
def dropTrailing (sep : α) : List α → List α
  | [] => []
  | c :: cs => c :: cs.rdropWhile (· == sep)

def normalize (space : α → Bool) (sep : α) (l : List α) : List α :=
  let candidate := Strip.strip space l
  if candidate = [] then [sep]
  else dropTrailing sep (absolute sep (collapse sep false candidate))

/-- The nonempty stretches between separators. -/
def segments (sep : α) (l : List α) : List (List α) :=
  (l.splitOnP (· == sep)).filter (!·.isEmpty)

/-- The absolute path of some segments. -/
def path (sep : α) (segs : List (List α)) : List α :=
  if segs = [] then [sep] else segs.flatMap (sep :: ·)

variable {space : α → Bool} {sep : α}

/-! ## Segments -/

@[simp] theorem segments_nil : segments sep ([] : List α) = [] := by
  simp [segments]

@[simp] theorem segments_cons_sep (l : List α) : segments sep (sep :: l) = segments sep l := by
  simp [segments, List.splitOnP_cons_eq_if_modifyHead]

theorem segments_append_sep (l l' : List α) :
    segments sep (l ++ sep :: l') = segments sep l ++ segments sep l' := by
  unfold segments
  rw [List.splitOnP_append_cons _ _ (by simp), List.filter_append]

theorem segments_of_no_sep {l : List α} (h : ∀ c ∈ l, c ≠ sep) (hl : l ≠ []) :
    segments sep l = [l] := by
  unfold segments
  rw [List.splitOnP_eq_singleton (by simpa using h)]
  simp [hl]

/-- Segments are nonempty and contain no separator. -/
theorem mem_segments {l : List α} {seg : List α} (h : seg ∈ segments sep l) :
    seg ≠ [] ∧ ∀ c ∈ seg, c ≠ sep := by
  unfold segments at h
  obtain ⟨hmem, hne⟩ := List.mem_filter.mp h
  refine ⟨by simpa using hne, ?_⟩
  clear h hne
  induction l generalizing seg with
  | nil => simp_all
  | cons x xs ih =>
      rw [List.splitOnP_cons_eq_if_modifyHead] at hmem
      split at hmem
      · rcases List.mem_cons.mp hmem with rfl | hmem
        · simp
        · exact ih hmem
      · rename_i hx
        have hx' : x ≠ sep := by simpa using hx
        cases hsplit : xs.splitOnP (· == sep) with
        | nil => exact absurd hsplit (List.splitOnP_ne_nil _ _)
        | cons first rest =>
            rw [hsplit, List.modifyHead_cons] at hmem
            rcases List.mem_cons.mp hmem with rfl | hmem
            · have hfirst := @ih first (by rw [hsplit]; exact List.mem_cons_self)
              intro c hc
              rcases List.mem_cons.mp hc with rfl | hc
              · exact hx'
              · exact hfirst c hc
            · exact ih (by rw [hsplit]; exact List.mem_cons_of_mem _ hmem)

/-- The segments of an absolute path. -/
theorem segments_flatMap {segs : List (List α)}
    (h : ∀ seg ∈ segs, seg ≠ [] ∧ ∀ c ∈ seg, c ≠ sep) :
    segments sep (segs.flatMap (sep :: ·)) = segs := by
  induction segs with
  | nil => simp
  | cons seg rest ih =>
      have hseg := h seg List.mem_cons_self
      have hrest := ih (fun s hs => h s (List.mem_cons_of_mem _ hs))
      rw [List.flatMap_cons, List.cons_append, segments_cons_sep]
      cases rest with
      | nil => simp [segments_of_no_sep hseg.2 hseg.1]
      | cons next rest =>
          rw [List.flatMap_cons, List.cons_append, segments_append_sep,
            segments_of_no_sep hseg.2 hseg.1]
          rw [List.flatMap_cons, List.cons_append, segments_cons_sep] at hrest
          rw [hrest]
          rfl

theorem segments_path {segs : List (List α)}
    (h : ∀ seg ∈ segs, seg ≠ [] ∧ ∀ c ∈ seg, c ≠ sep) : segments sep (path sep segs) = segs := by
  unfold path
  split
  · rename_i hnil
    subst hnil
    simp
  · exact segments_flatMap h

/-! ## The normal form -/

/-- What `collapse` leaves, before and inside a segment. -/
theorem collapse_spec (l : List α) :
    (sep :: collapse sep true l = (segments sep l).flatMap (sep :: ·) ++
      if l.getLast? = some sep ∨ l = [] then [sep] else []) ∧
    ∀ first rest, l.splitOnP (· == sep) = first :: rest →
      collapse sep false l = first ++ ((rest.filter (!·.isEmpty)).flatMap (sep :: ·) ++
        if l.getLast? = some sep then [sep] else []) := by
  induction l with
  | nil =>
      refine ⟨by simp [collapse], fun first rest h => ?_⟩
      rw [List.splitOnP_nil] at h
      cases h
      simp [collapse]
  | cons c cs ih =>
      obtain ⟨htrue, hfalse⟩ := ih
      have hlast : (c :: cs).getLast? = some sep ↔
          cs.getLast? = some sep ∨ (cs = [] ∧ c = sep) := by
        cases cs with
        | nil => simp
        | cons d ds => simp [List.getLast?_cons_cons]
      by_cases hc : c = sep
      · subst hc
        have htrail : ((c :: cs).getLast? = some c ∨ c :: cs = []) ↔
            (cs.getLast? = some c ∨ cs = []) := by
          rw [hlast]
          simp
        constructor
        · rw [segments_cons_sep]
          simp only [htrail]
          simpa [collapse] using htrue
        · intro first rest h
          rw [List.splitOnP_cons_eq_if_modifyHead, if_pos (by simp)] at h
          obtain ⟨rfl, rfl⟩ := List.cons.inj h
          have hlast' : ((c :: cs).getLast? = some c) ↔ (cs.getLast? = some c ∨ cs = []) := by
            rw [hlast]
            simp
          simp only [hlast']
          simpa [collapse, segments] using htrue
      · cases hsplit : cs.splitOnP (· == sep) with
        | nil => exact absurd hsplit (List.splitOnP_ne_nil _ _)
        | cons first rest =>
            have hinside := hfalse first rest hsplit
            have hsplit' : (c :: cs).splitOnP (· == sep) = (c :: first) :: rest := by
              rw [List.splitOnP_cons_eq_if_modifyHead, if_neg (by simpa using hc), hsplit]
              rfl
            have hlast' : ((c :: cs).getLast? = some sep) ↔ cs.getLast? = some sep := by
              rw [hlast]
              simp [hc]
            constructor
            · have hsegs : segments sep (c :: cs) =
                  (c :: first) :: rest.filter (!·.isEmpty) := by
                simp [segments, hsplit']
              rw [hsegs]
              simp only [hlast', reduceCtorEq, or_false]
              simp [collapse, hc, hinside]
            · intro first' rest' h
              rw [hsplit'] at h
              obtain ⟨rfl, rfl⟩ := List.cons.inj h
              simp only [hlast']
              simp [collapse, hc, hinside]

/-- The last element of a list of segments is no separator. -/
theorem rdropWhile_segments {segs : List (List α)} (hne : segs ≠ [])
    (h : ∀ seg ∈ segs, seg ≠ [] ∧ ∀ c ∈ seg, c ≠ sep) (tail : List α)
    (htail : ∀ c ∈ tail, c = sep) :
    dropTrailing sep (segs.flatMap (sep :: ·) ++ tail) = segs.flatMap (sep :: ·) := by
  obtain ⟨front, seg, rfl⟩ := List.eq_nil_or_concat segs |>.resolve_left hne
  have hseg := h seg (by simp)
  obtain ⟨body, c, rfl⟩ := List.eq_nil_or_concat seg |>.resolve_left hseg.1
  have hc : c ≠ sep := hseg.2 c (by simp)
  have hdrop : ∀ l : List α, (l ++ [c] ++ tail).rdropWhile (· == sep) = l ++ [c] := by
    intro l
    rw [Strip.rdropWhile_append_of_all (by simpa using htail),
      List.rdropWhile_concat_neg _ _ _ (by simpa using hc)]
  have hform : ((front.concat (body.concat c)).flatMap (sep :: ·)) =
      (front.flatMap (sep :: ·) ++ sep :: body) ++ [c] := by
    simp
  rw [hform]
  cases hfront : front.flatMap (sep :: ·) ++ sep :: body with
  | nil => simp at hfront
  | cons x xs =>
      show x :: (xs ++ [c] ++ tail).rdropWhile (· == sep) = _
      rw [hdrop]
      rfl

/-- **The normal form of a path** is the path of its segments. -/
theorem normalize_eq (l : List α) :
    normalize space sep l = path sep (segments sep (Strip.strip space l)) := by
  unfold normalize
  simp only
  generalize Strip.strip space l = candidate
  by_cases hnil : candidate = []
  · rw [if_pos hnil, hnil]
    rfl
  · rw [if_neg hnil]
    have habsolute : absolute sep (collapse sep false candidate) =
        sep :: collapse sep true candidate := by
      obtain ⟨c, cs, rfl⟩ := List.exists_cons_of_ne_nil hnil
      by_cases hc : c = sep
      · subst hc
        simp [absolute, collapse]
      · simp [absolute, collapse, hc]
    rw [habsolute, (collapse_spec candidate).1]
    by_cases hsegs : segments sep candidate = []
    · -- without a segment only separators are left, so the last element is one
      have hleft := (@collapse_spec _ _ sep candidate).1
      rw [hsegs] at hleft ⊢
      split at hleft
      · rename_i hlast
        rw [if_pos hlast]
        rfl
      · cases hleft
    · unfold path
      rw [if_neg hsegs]
      refine rdropWhile_segments hsegs (fun seg hseg => mem_segments hseg) _ ?_
      intro c hc
      split at hc
      · exact List.mem_singleton.mp hc
      · cases hc

/-! ## What the normal form keeps -/

theorem flatten_segments (l : List α) :
    (segments sep l).flatten = l.filter fun c => !(c == sep) := by
  unfold segments
  rw [List.flatten_filter_not_isEmpty]
  induction l with
  | nil => rfl
  | cons c l ih =>
      rw [List.splitOnP_cons_eq_if_modifyHead]
      cases hc : c == sep with
      | true => simp [hc, ih]
      | false =>
          rw [if_neg Bool.false_ne_true, List.filter_cons_of_pos (by simp [hc]), ← ih]
          cases hsplit : l.splitOnP (· == sep) with
          | nil => exact absurd hsplit (List.splitOnP_ne_nil _ _)
          | cons first rest => rfl

omit [DecidableEq α] in
theorem mem_path {x : α} (hx : x ≠ sep) {segs : List (List α)} :
    x ∈ path sep segs ↔ x ∈ segs.flatten := by
  unfold path
  split
  · rename_i hnil
    simp [hnil, hx]
  · simp [hx]

/-- An element that is neither blank nor a separator is in the normal form as well. -/
theorem mem_normalize {x : α} (hspace : space x = false) (hsep : x ≠ sep) {l : List α} :
    x ∈ normalize space sep l ↔ x ∈ l := by
  rw [normalize_eq, mem_path hsep, flatten_segments, List.mem_filter, Strip.mem_strip hspace]
  simp [hsep]

theorem segments_normalize (l : List α) :
    segments sep (normalize space sep l) = segments sep (Strip.strip space l) := by
  rw [normalize_eq, segments_path fun seg hseg => mem_segments hseg]

/-- A normal form is the path of its own segments. -/
theorem path_segments_normalize (l : List α) :
    path sep (segments sep (normalize space sep l)) = normalize space sep l := by
  rw [segments_normalize, ← normalize_eq]

omit [DecidableEq α] in
theorem path_cons (first : List α) (rest : List (List α)) :
    path sep (first :: rest) = sep :: first ++ rest.flatMap (sep :: ·) := by
  unfold path
  rw [if_neg (List.cons_ne_nil _ _), List.flatMap_cons]

/-- A leading segment that is not blank is one segment more. -/
theorem length_segments_path_cons (hblank : space sep = false) {first : List α}
    {rest : List (List α)} (hfirst : first ≠ [] ∧ ∀ c ∈ first, c ≠ sep) {x : α} (hx : x ∈ first)
    (hspace : space x = false) :
    (segments sep (Strip.strip space (path sep (first :: rest)))).length =
      (segments sep (Strip.strip space (path sep rest))).length + 1 := by
  have hhead : ∀ l : List α, Strip.strip space (sep :: l) = (sep :: l).rdropWhile space := by
    intro l
    unfold Strip.strip
    rw [List.dropWhile_cons_of_neg (by simp [hblank])]
  rw [path_cons, List.cons_append, hhead]
  cases rest with
  | nil =>
      have hkept : (sep :: (first ++ [])).rdropWhile space = sep :: first.rdropWhile space := by
        rw [List.append_nil]
        exact @Strip.rdropWhile_append_of_mem _ _ [sep] first x hx hspace
      have hprefix : ∀ c ∈ first.rdropWhile space, c ≠ sep :=
        fun c hc => hfirst.2 c ((List.rdropWhile_prefix space first).subset hc)
      have hne : first.rdropWhile space ≠ [] := by
        intro hnil
        have hall := List.rdropWhile_eq_nil_iff.mp hnil x hx
        simp [hspace] at hall
      have hpath : Strip.strip space (path sep []) = [sep] := by
        rw [path, if_pos rfl, hhead]
        exact List.rdropWhile_concat_neg _ [] sep (by simp [hblank])
      rw [List.flatMap_nil, hkept, segments_cons_sep, segments_of_no_sep hprefix hne, hpath]
      simp
  | cons next rest =>
      obtain ⟨later, hlater⟩ : ∃ later, (next :: rest).flatMap (sep :: ·) = sep :: later :=
        ⟨_, rfl⟩
      have hpath : path sep (next :: rest) = sep :: later := by
        rw [← hlater]
        exact if_neg (List.cons_ne_nil _ _)
      have hkept : (sep :: (first ++ sep :: later)).rdropWhile space =
          sep :: (first ++ (sep :: later).rdropWhile space) :=
        @Strip.rdropWhile_append_of_mem _ _ (sep :: first) (sep :: later) sep List.mem_cons_self
          hblank
      obtain ⟨kept, hdrop⟩ : ∃ kept, (sep :: later).rdropWhile space = sep :: kept := by
        obtain ⟨gone, hgone⟩ := List.rdropWhile_prefix space (l := sep :: later)
        cases hleft : (sep :: later).rdropWhile space with
        | nil =>
            have hall := List.rdropWhile_eq_nil_iff.mp hleft sep List.mem_cons_self
            simp [hblank] at hall
        | cons c cs =>
            rw [hleft] at hgone
            cases hgone
            exact ⟨cs, rfl⟩
      rw [hlater, hkept, hpath, hhead, hdrop, segments_cons_sep, segments_append_sep,
        segments_of_no_sep hfirst.2 hfirst.1, segments_cons_sep]
      simp

/-! ## Expansion -/

variable {β : Type} [DecidableEq β]

/-- A translation that keeps separators and blanks and makes nothing else into one. -/
structure Expands (spaceB : β → Bool) (sepB : β) (space : α → Bool) (sep : α)
    (f : β → List α) : Prop where
  on_sep : f sepB = [sep]
  no_sep : ∀ b, b ≠ sepB → ∀ c ∈ f b, c ≠ sep
  ne_nil : ∀ b, f b ≠ []
  on_space : ∀ b, spaceB b = true → ∀ c ∈ f b, space c = true
  no_space : ∀ b, spaceB b = false → ∀ c ∈ f b, space c = false

variable {spaceB : β → Bool} {sepB : β} {f : β → List α}

theorem splitOnP_append_of_no_sep {w : List α} (hw : ∀ c ∈ w, c ≠ sep) (l : List α) :
    (w ++ l).splitOnP (· == sep) = (l.splitOnP (· == sep)).modifyHead (w ++ ·) := by
  induction w with
  | nil =>
      cases hsplit : l.splitOnP (· == sep) with
      | nil => exact absurd hsplit (List.splitOnP_ne_nil _ _)
      | cons first rest => simp [hsplit]
  | cons c w ih =>
      have hc : (c == sep) = false := by simpa using hw c List.mem_cons_self
      rw [List.cons_append, List.splitOnP_cons_eq_if_modifyHead, hc, if_neg Bool.false_ne_true,
        ih (fun d hd => hw d (List.mem_cons_of_mem _ hd))]
      cases l.splitOnP (· == sep) <;> rfl

theorem Expands.splitOnP (h : Expands spaceB sepB space sep f) (l : List β) :
    (l.flatMap f).splitOnP (· == sep) = (l.splitOnP (· == sepB)).map (·.flatMap f) := by
  induction l with
  | nil => rfl
  | cons b bs ih =>
      rw [List.flatMap_cons]
      by_cases hb : b = sepB
      · subst hb
        rw [h.on_sep, List.singleton_append, List.splitOnP_cons_eq_if_modifyHead,
          if_pos (by simp), ih, List.splitOnP_cons_eq_if_modifyHead, if_pos (by simp)]
        rfl
      · rw [splitOnP_append_of_no_sep (h.no_sep b hb), ih, List.splitOnP_cons_eq_if_modifyHead,
          if_neg (by simpa using hb)]
        cases bs.splitOnP (· == sepB) <;> rfl

omit [DecidableEq α] [DecidableEq β] in
theorem Expands.flatMap_eq_nil (h : Expands spaceB sepB space sep f) {l : List β} :
    l.flatMap f = [] ↔ l = [] := by
  constructor
  · intro hnil
    cases l with
    | nil => rfl
    | cons b bs =>
        rw [List.flatMap_cons] at hnil
        exact absurd (List.append_eq_nil_iff.mp hnil).1 (h.ne_nil b)
  · rintro rfl
    rfl

theorem Expands.segments (h : Expands spaceB sepB space sep f) (l : List β) :
    Paths.segments sep (l.flatMap f) = (Paths.segments sepB l).map (·.flatMap f) := by
  unfold Paths.segments
  rw [h.splitOnP, List.filter_map]
  congr 1
  refine List.filter_congr (fun seg _ => ?_)
  have hempty : (seg.flatMap f).isEmpty = seg.isEmpty := by
    cases hseg : seg.isEmpty with
    | true =>
        rw [List.isEmpty_iff.mp hseg]
        rfl
    | false =>
        rw [List.isEmpty_eq_false_iff] at hseg ⊢
        exact fun hnil => hseg (h.flatMap_eq_nil.mp hnil)
  show (!(seg.flatMap f).isEmpty) = !seg.isEmpty
  rw [hempty]

omit [DecidableEq α] [DecidableEq β] in
theorem Expands.strip (h : Expands spaceB sepB space sep f) (l : List β) :
    Strip.strip space (l.flatMap f) = (Strip.strip spaceB l).flatMap f := by
  obtain ⟨a, b, hl, ha, hb⟩ := Strip.exists_split spaceB l
  have htight : Strip.Tight spaceB (Strip.strip spaceB l) := Strip.tight_strip
  have hflat : l.flatMap f =
      a.flatMap f ++ ((Strip.strip spaceB l).flatMap f ++ b.flatMap f) := by
    conv_lhs => rw [hl]
    simp only [List.flatMap_append]
  have hblank : ∀ w : List β, (∀ x ∈ w, spaceB x = true) → ∀ c ∈ w.flatMap f, space c = true := by
    intro w hw c hc
    obtain ⟨x, hx, hcx⟩ := List.mem_flatMap.mp hc
    exact h.on_space x (hw x hx) c hcx
  rw [hflat]
  refine Strip.strip_eq (hblank a ha) ⟨?_, ?_⟩ (hblank b hb)
  · intro c hc
    cases hm : Strip.strip spaceB l with
    | nil =>
        rw [hm] at hc
        cases hc
    | cons x xs =>
        rw [hm] at hc htight
        have hx := htight.head x rfl
        refine h.no_space x hx c ?_
        obtain ⟨d, ds, hfx⟩ := List.exists_cons_of_ne_nil (h.ne_nil x)
        rw [List.flatMap_cons, hfx] at hc
        cases hc
        rw [hfx]
        exact List.mem_cons_self
  · intro c hc
    rcases List.eq_nil_or_concat (Strip.strip spaceB l) with hm | ⟨xs, x, hm⟩
    · rw [hm] at hc
      cases hc
    · rw [hm] at hc htight
      have hx := htight.last x (by simp)
      refine h.no_space x hx c ?_
      have hlast : ((xs.concat x).flatMap f).getLast? = (f x).getLast? := by
        obtain ⟨ds, d, hfx⟩ := List.eq_nil_or_concat (f x) |>.resolve_left (h.ne_nil x)
        simp [hfx]
      rw [hlast] at hc
      exact List.mem_of_mem_getLast? hc

/-- **Normal forms commute with expansion.** -/
theorem normalize_expand (h : Expands spaceB sepB space sep f) (l : List β) :
    normalize space sep (l.flatMap f) = (normalize spaceB sepB l).flatMap f := by
  rw [normalize_eq, normalize_eq, h.strip, h.segments]
  unfold path
  simp only [List.map_eq_nil_iff]
  split
  · simp [h.on_sep]
  · rw [List.flatMap_map, List.flatMap_assoc]
    refine List.flatMap_congr (fun seg _ => ?_)
    simp [h.on_sep]

end

end Paths
