import Mathlib.Logic.Relation
import UavBluetooth.Lib.Paths

set_option autoImplicit false

/-! # Canonical paths

When the normal form of a path is canonical. Blanks are stripped before trailing separators
are, so a separator at the end can hide a blank that is still there in the normal form. A path
is `Settled` if it does not; normalising twice is normalising once exactly for settled paths
(`normalize_normalize_iff`), and settled paths that differ in blanks at the ends, repeated and
trailing separators only have one normal form (`normalize_of_alike`).
-/

namespace Paths

section

variable {α : Type} [DecidableEq α] {space : α → Bool} {sep : α}

/-- Without blanks at its ends and then without trailing separators, the path does not end in a
blank. -/
def Settled (space : α → Bool) (sep : α) (l : List α) : Prop :=
  ∀ x ∈ ((Strip.strip space l).rdropWhile (· == sep)).getLast?, space x = false

instance (l : List α) : Decidable (Settled space sep l) :=
  inferInstanceAs
    (Decidable (∀ x ∈ ((Strip.strip space l).rdropWhile (· == sep)).getLast?, space x = false))

/-- One difference that a normal form should not show. -/
inductive Differ (space : α → Bool) (sep : α) : List α → List α → Prop where
  | blanks (before l after : List α) (hbefore : ∀ x ∈ before, space x = true)
      (hafter : ∀ x ∈ after, space x = true) : Differ space sep (before ++ (l ++ after)) l
  | repeated (l l' : List α) : Differ space sep (l ++ sep :: sep :: l') (l ++ sep :: l')
  | trailing (l : List α) : Differ space sep (l ++ [sep]) l

/-- The paths differ in blanks at the ends, repeated separators and trailing separators only. -/
def Alike (space : α → Bool) (sep : α) : List α → List α → Prop :=
  Relation.EqvGen (Differ space sep)

/-! ## The shape of a normal form -/

/-- An absolute path without repeated and without trailing separators. -/
structure Canonical (sep : α) (l : List α) : Prop where
  absolute : l.head? = some sep
  single : ¬ [sep, sep] <:+: l
  last : l.getLast? = some sep → l = [sep]

omit [DecidableEq α] in
/-- No two separators meet where none ends a segment. -/
theorem not_infix_append {seg rest : List α} (hseg : ∀ c ∈ seg, c ≠ sep)
    (hrest : ¬ [sep, sep] <:+: rest) : ¬ [sep, sep] <:+: seg ++ rest := by
  induction seg with
  | nil => exact hrest
  | cons c seg ih =>
      rw [List.cons_append, List.infix_cons_iff]
      rintro (hmeet | hinfix)
      · exact hseg c List.mem_cons_self (List.cons_prefix_cons.mp hmeet).1.symm
      · exact ih (fun d hd => hseg d (List.mem_cons_of_mem _ hd)) hinfix

omit [DecidableEq α] in
theorem not_infix_flatMap {segs : List (List α)}
    (h : ∀ seg ∈ segs, seg ≠ [] ∧ ∀ c ∈ seg, c ≠ sep) :
    ¬ [sep, sep] <:+: segs.flatMap (sep :: ·) := by
  induction segs with
  | nil => simp
  | cons seg segs ih =>
      have hseg := h seg List.mem_cons_self
      have hrest := not_infix_append hseg.2 (ih fun s hs => h s (List.mem_cons_of_mem _ hs))
      rw [List.flatMap_cons, List.cons_append, List.infix_cons_iff]
      rintro (hmeet | hinfix)
      · -- The separator before a segment is followed by the segment's first element.
        obtain ⟨c, body, rfl⟩ := List.exists_cons_of_ne_nil hseg.1
        have hnext := (List.cons_prefix_cons.mp hmeet).2
        rw [List.cons_append, List.cons_prefix_cons] at hnext
        exact hseg.2 c List.mem_cons_self hnext.1.symm
      · exact hrest hinfix

omit [DecidableEq α] in
/-- The path of some segments ends in an element of the last one. -/
theorem getLast?_path {segs : List (List α)} (hne : segs ≠ [])
    (h : ∀ seg ∈ segs, seg ≠ [] ∧ ∀ c ∈ seg, c ≠ sep) :
    ∃ x, (path sep segs).getLast? = some x ∧ x ≠ sep := by
  obtain ⟨front, seg, rfl⟩ := (List.eq_nil_or_concat segs).resolve_left hne
  have hseg := h seg (by simp)
  obtain ⟨body, x, rfl⟩ := (List.eq_nil_or_concat seg).resolve_left hseg.1
  have hform : (front.concat (body.concat x)).flatMap (sep :: ·) =
      (front.flatMap (sep :: ·) ++ sep :: body) ++ [x] := by simp
  refine ⟨x, ?_, hseg.2 x (by simp)⟩
  unfold path
  rw [if_neg hne, hform, List.getLast?_concat]

/-- **Every normal form is an absolute path** without repeated or trailing separators. -/
theorem canonical_normalize (l : List α) : Canonical sep (normalize space sep l) := by
  have hvalid : ∀ seg ∈ segments sep (Strip.strip space l), seg ≠ [] ∧ ∀ c ∈ seg, c ≠ sep :=
    fun seg hseg => mem_segments hseg
  rw [normalize_eq]
  generalize segments sep (Strip.strip space l) = segs at hvalid
  by_cases hnil : segs = []
  · subst hnil
    refine ⟨rfl, fun hinfix => ?_, fun _ => rfl⟩
    exact absurd hinfix.length_le (by simp [path])
  · refine ⟨?_, ?_, fun hlast => ?_⟩
    · obtain ⟨first, rest, rfl⟩ := List.exists_cons_of_ne_nil hnil
      rw [path_cons]
      rfl
    · unfold path
      rw [if_neg hnil]
      exact not_infix_flatMap hvalid
    · obtain ⟨x, hx, hne⟩ := getLast?_path hnil hvalid
      rw [hx] at hlast
      exact absurd (Option.some.inj hlast) hne

/-! ## The last element of a normal form -/

/-- The last element that is no separator. -/
theorem getLast?_filter_sep (l : List α) :
    (l.filter fun c => !(c == sep)).getLast? = (l.rdropWhile (· == sep)).getLast? := by
  rw [List.getLast?_filter, List.find?_not_eq_head?_dropWhile, List.rdropWhile,
    List.getLast?_reverse]

theorem filter_path (l : List α) :
    (path sep (segments sep l)).filter (fun c => !(c == sep)) =
      l.filter fun c => !(c == sep) := by
  rw [← flatten_segments, segments_path fun seg hseg => mem_segments hseg, flatten_segments]

/-- What is settled does not show a blank at the end of its normal form. -/
theorem settled_iff_getLast? (hblank : space sep = false) {l : List α} :
    Settled space sep l ↔ ∀ x ∈ (normalize space sep l).getLast?, space x = false := by
  unfold Settled
  rw [normalize_eq, ← getLast?_filter_sep]
  generalize Strip.strip space l = candidate
  by_cases hnil : segments sep candidate = []
  · have hfilter : candidate.filter (fun c => !(c == sep)) = [] := by
      rw [← flatten_segments, hnil]
      rfl
    rw [hfilter, hnil]
    simp [path, hblank]
  · obtain ⟨x, hx, hne⟩ := getLast?_path hnil fun seg hseg => mem_segments hseg
    have hlast : (candidate.filter fun c => !(c == sep)).getLast? = some x := by
      rw [← filter_path, getLast?_filter_sep]
      obtain ⟨front, hfront⟩ := List.getLast?_eq_some_iff.mp hx
      rw [hfront, List.rdropWhile_concat_neg _ _ _ (by simpa using hne), List.getLast?_concat]
    rw [hlast, hx]

/-! ## Normalising twice -/

theorem tight_normalize (hblank : space sep = false) {l : List α} (h : Settled space sep l) :
    Strip.Tight space (normalize space sep l) := by
  refine ⟨fun x hx => ?_, (settled_iff_getLast? hblank).mp h⟩
  rw [canonical_normalize l |>.absolute] at hx
  rw [← Option.some.inj hx]
  exact hblank

/-- Nothing but separators can be stripped from a list without a change of the rest. -/
theorem strip_of_filter (hblank : space sep = false) {l : List α}
    (h : (Strip.strip space l).filter (fun c => !(c == sep)) = l.filter fun c => !(c == sep)) :
    Strip.strip space l = l := by
  obtain ⟨before, after, hl, hbefore, hafter⟩ := Strip.exists_split space l
  have hspaces : ∀ blanks : List α, (∀ x ∈ blanks, space x = true) →
      blanks.filter (fun c => !(c == sep)) = blanks := by
    intro blanks hblanks
    refine List.filter_eq_self.mpr fun x hx => ?_
    have hne : x ≠ sep := by
      rintro rfl
      rw [hblanks x hx] at hblank
      cases hblank
    simp [hne]
  have hlength := congrArg List.length h
  rw [congrArg (List.filter fun c => !(c == sep)) hl, List.filter_append, List.filter_append,
    hspaces before hbefore, hspaces after hafter, List.length_append, List.length_append] at hlength
  have hnone : before = [] ∧ after = [] := by
    rw [← List.length_eq_zero_iff, ← List.length_eq_zero_iff]
    omega
  conv_rhs => rw [hl]
  rw [hnone.1, hnone.2, List.nil_append, List.append_nil]

/-- **Normalising twice is normalising once** exactly for settled paths. -/
theorem normalize_normalize_iff (hblank : space sep = false) {l : List α} :
    normalize space sep (normalize space sep l) = normalize space sep l ↔
      Settled space sep l := by
  constructor
  · intro hsame
    have hfilter := congrArg (List.filter fun c => !(c == sep)) hsame
    rw [normalize_eq (normalize space sep l), filter_path] at hfilter
    have hstrip := strip_of_filter hblank hfilter
    have htight : Strip.Tight space (Strip.strip space (normalize space sep l)) :=
      Strip.tight_strip
    rw [hstrip] at htight
    exact (settled_iff_getLast? hblank).mpr htight.last
  · intro hsettled
    rw [normalize_eq (normalize space sep l),
      Strip.strip_of_tight (tight_normalize hblank hsettled), path_segments_normalize]

/-! ## Paths that are alike -/

/-- The path without blanks and separators at its end, in any order. -/
def trimEnd (space : α → Bool) (sep : α) (l : List α) : List α :=
  l.rdropWhile fun c => space c || c == sep

theorem trimEnd_append_of_all {l l' : List α} (h : ∀ x ∈ l', (space x || x == sep) = true) :
    trimEnd space sep (l ++ l') = trimEnd space sep l :=
  Strip.rdropWhile_append_of_all h

theorem trimEnd_of_all {l : List α} (h : ∀ x ∈ l, (space x || x == sep) = true) :
    trimEnd space sep l = [] := by
  have hall := @trimEnd_append_of_all _ _ space sep [] l h
  rwa [List.nil_append] at hall

/-- What is neither blank nor a separator keeps what is before it. -/
theorem trimEnd_append_of_mem {l l' : List α} (h : ¬ ∀ x ∈ l', (space x || x == sep) = true) :
    trimEnd space sep (l ++ l') = l ++ trimEnd space sep l' := by
  simp only [not_forall, Bool.not_eq_true] at h
  obtain ⟨x, hx, hkept⟩ := h
  exact Strip.rdropWhile_append_of_mem hx hkept

theorem segments_append_of_seps {l tail : List α} (htail : ∀ c ∈ tail, c = sep) :
    segments sep (l ++ tail) = segments sep l := by
  induction tail generalizing l with
  | nil => rw [List.append_nil]
  | cons c tail ih =>
      have hrest : ∀ d ∈ tail, d = sep := fun d hd => htail d (List.mem_cons_of_mem _ hd)
      have hnone : segments sep tail = [] := by
        have hnil := @ih [] hrest
        rwa [List.nil_append, segments_nil] at hnil
      rw [htail c List.mem_cons_self, segments_append_sep, hnone, List.append_nil]

/-- A settled path has the normal form of the path without its end. -/
theorem normalize_trimEnd {l : List α} (h : Settled space sep l) :
    normalize space sep (trimEnd space sep l) = normalize space sep l := by
  unfold Settled at h
  obtain ⟨before, after, hl, hbefore, hafter⟩ := Strip.exists_split space l
  rw [normalize_eq l]
  have htight : Strip.Tight space (Strip.strip space l) := Strip.tight_strip
  generalize Strip.strip space l = candidate at h hl htight
  have hsplit : candidate.rdropWhile (· == sep) ++ candidate.rtakeWhile (· == sep) = candidate :=
    List.rdropWhile_append_rtakeWhile
  have hseps : ∀ c ∈ candidate.rtakeWhile (· == sep), c = sep := by
    intro c hc
    have hsep : (c == sep) = true := @List.mem_rtakeWhile_imp _ (· == sep) _ c hc
    exact eq_of_beq hsep
  have hlast : ∀ hne : candidate.rdropWhile (· == sep) ≠ [],
      ¬ ((candidate.rdropWhile (· == sep)).getLast hne == sep) = true :=
    fun hne => List.rdropWhile_last_not _ _ hne
  generalize candidate.rdropWhile (· == sep) = kept at h hsplit hlast
  generalize candidate.rtakeWhile (· == sep) = tail at hsplit hseps
  subst hsplit
  have htrim : trimEnd space sep l = trimEnd space sep (before ++ kept) := by
    have hdropped : ∀ c ∈ tail ++ after, (space c || c == sep) = true := by
      intro c hc
      rcases List.mem_append.mp hc with hc | hc
      · simp [hseps c hc]
      · simp [hafter c hc]
    calc trimEnd space sep l
        = trimEnd space sep (before ++ ((kept ++ tail) ++ after)) := by rw [← hl]
      _ = trimEnd space sep ((before ++ kept) ++ (tail ++ after)) := by
          simp only [List.append_assoc]
      _ = trimEnd space sep (before ++ kept) := trimEnd_append_of_all hdropped
  rw [htrim, segments_append_of_seps hseps]
  by_cases hnil : kept = []
  · subst hnil
    rw [List.append_nil, trimEnd_of_all fun c hc => by simp [hbefore c hc], segments_nil]
    rfl
  · have hwhole : trimEnd space sep (before ++ kept) = before ++ kept := by
      unfold trimEnd
      rw [List.rdropWhile_eq_self_iff]
      intro hne
      have hspace := h _ (List.getLast?_eq_some_getLast hnil)
      have hsep := hlast hnil
      rw [List.getLast_append_of_ne_nil _ hnil, hspace, Bool.false_or]
      exact hsep
    have hhead : ∀ x ∈ kept.head?, space x = false := by
      intro x hx
      exact htight.head x (List.mem_head?_append_of_mem_head? hx)
    have hstrip := @Strip.strip_eq _ space before kept [] hbefore ⟨hhead, h⟩ (by simp)
    rw [List.append_nil] at hstrip
    rw [hwhole, normalize_eq, hstrip]

theorem normalize_append_blanks {before l : List α} (hbefore : ∀ x ∈ before, space x = true) :
    normalize space sep (before ++ l) = normalize space sep l := by
  rw [normalize_eq, normalize_eq, Strip.strip, Strip.dropWhile_append_of_all hbefore, Strip.strip]

omit [DecidableEq α] in
/-- A separator keeps what is on its sides apart when the ends are stripped. -/
theorem strip_append_sep (hblank : space sep = false) (l l' : List α) :
    Strip.strip space (l ++ sep :: l') = l.dropWhile space ++ sep :: l'.rdropWhile space := by
  have hright : (sep :: l').rdropWhile space = sep :: l'.rdropWhile space := by
    have hstrip := @Strip.strip_cons _ space l' sep hblank
    rwa [Strip.strip, List.dropWhile_cons_of_neg (by simp [hblank])] at hstrip
  have hleft : (l ++ sep :: l').dropWhile space = l.dropWhile space ++ sep :: l' := by
    rw [List.dropWhile_append]
    split
    · rename_i hempty
      rw [List.isEmpty_iff.mp hempty, List.nil_append,
        List.dropWhile_cons_of_neg (by simp [hblank])]
    · rfl
  rw [Strip.strip, hleft, Strip.rdropWhile_append_of_mem List.mem_cons_self hblank, hright]

theorem normalize_repeated (hblank : space sep = false) (l l' : List α) :
    normalize space sep (l ++ sep :: sep :: l') = normalize space sep (l ++ sep :: l') := by
  have hright : (sep :: l').rdropWhile space = sep :: l'.rdropWhile space := by
    have hstrip := strip_append_sep hblank [] l'
    rwa [List.nil_append, Strip.strip, List.dropWhile_cons_of_neg (by simp [hblank]),
      List.dropWhile_nil, List.nil_append] at hstrip
  rw [normalize_eq, normalize_eq, strip_append_sep hblank, strip_append_sep hblank,
    segments_append_sep, segments_append_sep, hright, segments_cons_sep]

/-- Without its end, a path has the normal form of what differs little from it. -/
theorem Differ.normalize_trimEnd (hblank : space sep = false) {l l' : List α}
    (h : Differ space sep l l') :
    normalize space sep (trimEnd space sep l) = normalize space sep (trimEnd space sep l') := by
  cases h with
  | blanks before l after hbefore hafter =>
      have hafter' : trimEnd space sep (l' ++ after) = trimEnd space sep l' :=
        trimEnd_append_of_all fun c hc => by simp [hafter c hc]
      by_cases hall : ∀ x ∈ l' ++ after, (space x || x == sep) = true
      · have hwhole : trimEnd space sep (before ++ (l' ++ after)) = [] := by
          rw [trimEnd_append_of_all hall, trimEnd_of_all fun c hc => by simp [hbefore c hc]]
        rw [hwhole, trimEnd_of_all fun c hc => hall c (List.mem_append_left _ hc)]
      · rw [trimEnd_append_of_mem hall, hafter', normalize_append_blanks hbefore]
  | repeated l l' =>
      have htwo : l ++ sep :: sep :: l' = (l ++ [sep, sep]) ++ l' := by simp
      have hone : l ++ sep :: l' = (l ++ [sep]) ++ l' := by simp
      rw [htwo, hone]
      by_cases hall : ∀ x ∈ l', (space x || x == sep) = true
      · rw [trimEnd_append_of_all hall, trimEnd_append_of_all hall,
          trimEnd_append_of_all (by simp), trimEnd_append_of_all (by simp)]
      · rw [trimEnd_append_of_mem hall, trimEnd_append_of_mem hall, List.append_assoc,
          List.append_assoc]
        exact normalize_repeated hblank l (trimEnd space sep l')
  | trailing l => rw [trimEnd_append_of_all (by simp)]

/-- **Settled paths that are alike** have one normal form. -/
theorem normalize_of_alike (hblank : space sep = false) {l l' : List α}
    (h : Alike space sep l l') (hl : Settled space sep l) (hl' : Settled space sep l') :
    normalize space sep l = normalize space sep l' := by
  have hsame : normalize space sep (trimEnd space sep l) =
      normalize space sep (trimEnd space sep l') := by
    clear hl hl'
    induction h with
    | rel l l' hdiffer => exact hdiffer.normalize_trimEnd hblank
    | refl l => rfl
    | symm l l' _ ih => exact ih.symm
    | trans l l' l'' _ _ ih ih' => exact ih.trans ih'
  rw [← normalize_trimEnd hl, hsame, normalize_trimEnd hl']

end

end Paths
