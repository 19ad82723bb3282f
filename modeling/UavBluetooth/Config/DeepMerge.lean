import UavBluetooth.Config.YamlMemory
import UavBluetooth.Network.NetplanEdit

set_option autoImplicit false

/-! # Merging an overlay

`deep_merge` clones the base and replaces the nodes of the clone in place, so what it returns has
to be told apart from what its callers still hold. The tree that it returns is `mergeTree` of the
two trees, in cells that are new (`deepMerge_stores`); nothing that was in memory has changed.
-/

namespace UavBluetooth.Config

open Network Yaml

/-! ## The code -/

/-- `it->first.as<std::string>()` -/
def keyText : Data → Except String String
  | .null => .ok "null"
  | .scalar text => .ok text
  | _ => .error badConversion

/-- One entry of the overlay. -/
def mergeEntry (merge : Memory → Nat → Nat → Except String (Memory × Nat)) (depth merged : Nat)
    (m : Memory) (entry : Nat × Nat) : Except String Memory := do
  let key ← keyText (m.content entry.1)
  -- Every `merged[key]` of the iteration finds this node.
  let (m, slot) ← subscript m merged key
  let (m, value) ← if m.isDefined slot then merge m slot entry.2 else clone depth m entry.2
  return m.assign slot value

/-- Merge an overlay recursively while replacing scalars and sequences. -/
def deepMerge : Nat → Memory → Nat → Nat → Except String (Memory × Nat)
  | 0, _, _, _ => .error outOfDepth
  | depth + 1, m, base, override =>
      if !m.isDefined base || m.isNull base then clone (depth + 1) m override
      else if !m.isDefined override || m.isNull override then clone (depth + 1) m base
      else
        match m.content base, m.content override with
        | .map _, .map entries => do
            let (m, merged) ← clone (depth + 1) m base
            let m ← entries.foldlM (mergeEntry (deepMerge depth) depth merged) m
            return (m, merged)
        | _, _ => clone (depth + 1) m override

/-! ## The tree it is for -/

mutual

/-- The merge of two trees. -/
def mergeTree (base : Node) : Node → Node
  | .null => base
  | .map overrides =>
      match base with
      | .map entries => .map (mergeEntries entries overrides)
      | _ => .map overrides
  | override => override

def mergeEntries (entries : List (Node × Node)) : List (Node × Node) → List (Node × Node)
  | [] => entries
  | (.scalar key, value) :: overrides =>
      mergeEntries
        (setKey key
          (match Node.get (.map entries) key with
          | some old => mergeTree old value
          | none => value) entries) overrides
  | _ :: overrides => mergeEntries entries overrides

end

section

variable {base : Node} {entries overrides : List (Node × Node)}

@[simp] theorem mergeTree_null : mergeTree base .null = base := by
  rw [mergeTree]

@[simp] theorem mergeTree_scalar {text : String} :
    mergeTree base (.scalar text) = .scalar text := by
  simp [mergeTree]

@[simp] theorem mergeTree_sequence {items : List Node} :
    mergeTree base (.sequence items) = .sequence items := by
  simp [mergeTree]

@[simp] theorem mergeTree_map :
    mergeTree (.map entries) (.map overrides) = .map (mergeEntries entries overrides) := by
  simp [mergeTree]

/-- A map takes the place of what is not one. -/
theorem mergeTree_of_not_map (h : base.isMap = false) :
    mergeTree base (.map overrides) = .map overrides := by
  cases base with
  | map entries => cases h
  | null => simp [mergeTree]
  | scalar text => simp [mergeTree]
  | sequence items => simp [mergeTree]

theorem mergeTree_of_null (override : Node) : mergeTree .null override = override := by
  cases override <;> simp [mergeTree]

end

/-- What an entry of the overlay leaves under its key. -/
def mergedValue (entries : List (Node × Node)) (key : String) (value : Node) : Node :=
  match Node.get (.map entries) key with
  | some old => mergeTree old value
  | none => value

theorem mergeEntries_cons (entries overrides : List (Node × Node)) (key : String) (value : Node) :
    mergeEntries entries ((.scalar key, value) :: overrides) =
      mergeEntries (setKey key (mergedValue entries key value) entries) overrides := by
  rw [mergeEntries]
  rfl

/-! ## The entries of a map in memory -/

section

variable {m : Memory} {key : String}

theorem find_eq_none : ∀ {entries : List (Node × Node)} {cells : Set Nat} {pairs : List (Nat × Nat)},
    StoresEntries m entries cells pairs → Node.get (.map entries) key = none →
    (pairs.find? fun pair => isKeyNode m key pair.1) = none
  | [], _, _, h, _ => by
      rw [StoresEntries] at h
      rw [h]
      rfl
  | (k₀, v₀) :: entries, _, _, h, hget => by
      rw [StoresEntries] at h
      obtain ⟨k, v, rest, keyCells, valueCells, rfl, _, _, hk, _, hrest⟩ := h
      rw [get_cons] at hget
      split at hget
      · cases hget
      · rename_i hkey
        rw [List.find?_cons_of_neg (by rw [hk.isKeyNode_eq]; exact hkey)]
        exact find_eq_none hrest hget

/-- **The node under a key**: the cells of its value can be exchanged. -/
theorem find_eq_some : ∀ {entries : List (Node × Node)} {cells : Set Nat} {pairs : List (Nat × Nat)}
    {old : Node}, StoresEntries m entries cells pairs → Node.get (.map entries) key = some old →
    ∃ pair own, (pairs.find? fun pair => isKeyNode m key pair.1) = some pair ∧ own ⊆ cells ∧
      Stores m old own pair.2 ∧
      ∀ {m' : Memory} {value : Node} {own' : Set Nat}, m.Agrees m' (cells \ own) →
        Disjoint own' (cells \ own) → Stores m' value own' pair.2 →
        StoresEntries m' (setKey key value entries) ((cells \ own) ∪ own') pairs
  | [], _, _, _, _, hget => by cases hget
  | (k₀, v₀) :: entries, cells, _, old, h, hget => by
      rw [StoresEntries] at h
      obtain ⟨k, v, rest, keyCells, valueCells, rfl, hkeys, hvalues, hk, hv, hrest⟩ := h
      rw [get_cons] at hget
      split at hget
      · rename_i hkey
        cases hget
        refine ⟨(k, v), valueCells, List.find?_cons_of_pos (by rw [hk.isKeyNode_eq]; exact hkey),
          fun x hx => (hvalues hx).1, hv, ?_⟩
        intro m' value own' hagrees hdisjoint hvalue
        have hkeyOut : keyCells ⊆ cells \ valueCells :=
          fun x hx => ⟨hkeys hx, fun hx' => (hvalues hx').2 hx⟩
        have hrestOut : (cells \ keyCells) \ valueCells ⊆ cells \ valueCells :=
          fun x hx => ⟨hx.1.1, hx.2⟩
        rw [setKey, if_pos hkey, StoresEntries]
        refine ⟨k, v, rest, keyCells, own', rfl, fun x hx => Or.inl (hkeyOut hx), ?_,
          hk.frame (hagrees.mono hkeyOut), hvalue, ?_⟩
        · exact fun x hx => ⟨Or.inr hx,
            fun hx' => Set.disjoint_left.mp hdisjoint hx (hkeyOut hx')⟩
        · refine (hrest.frame (hagrees.mono hrestOut)).mono fun x hx => ?_
          exact ⟨⟨Or.inl (hrestOut hx), hx.1.2⟩,
            fun hx' => Set.disjoint_left.mp hdisjoint hx' (hrestOut hx)⟩
      · rename_i hkey
        obtain ⟨pair, own, hfind, hown, hold, hwand⟩ := find_eq_some hrest hget
        refine ⟨pair, own, ?_, fun x hx => (hown hx).1.1, hold, ?_⟩
        · rw [List.find?_cons_of_neg (by rw [hk.isKeyNode_eq]; exact hkey)]
          exact hfind
        · intro m' value own' hagrees hdisjoint hvalue
          have hkeyOut : keyCells ⊆ cells \ own :=
            fun x hx => ⟨hkeys hx, fun hx' => (hown hx').1.2 hx⟩
          have hvalueOut : valueCells ⊆ cells \ own :=
            fun x hx => ⟨(hvalues hx).1, fun hx' => (hown hx').2 hx⟩
          have hrestOut : ((cells \ keyCells) \ valueCells) \ own ⊆ cells \ own :=
            fun x hx => ⟨hx.1.1.1, hx.2⟩
          have htail := hwand (hagrees.mono hrestOut) (hdisjoint.mono_right hrestOut) hvalue
          rw [setKey, if_neg hkey, StoresEntries]
          refine ⟨k, v, rest, keyCells, valueCells, rfl, fun x hx => Or.inl (hkeyOut hx),
            fun x hx => ⟨Or.inl (hvalueOut hx), (hvalues hx).2⟩, hk.frame (hagrees.mono hkeyOut),
            hv.frame (hagrees.mono hvalueOut), htail.mono ?_⟩
          rintro x (hx | hx)
          · exact ⟨⟨Or.inl (hrestOut hx), hx.1.1.2⟩, hx.1.2⟩
          · exact ⟨⟨Or.inr hx, fun hx' => Set.disjoint_left.mp hdisjoint hx (hkeyOut hx')⟩,
              fun hx' => Set.disjoint_left.mp hdisjoint hx (hvalueOut hx')⟩

/-- A key that is missing is entered behind the others. -/
theorem storesEntries_append : ∀ {entries : List (Node × Node)} {cells : Set Nat}
    {pairs : List (Nat × Nat)} {value : Node} {k v : Nat} {keyCells valueCells : Set Nat},
    StoresEntries m entries cells pairs → Node.get (.map entries) key = none →
    Stores m (.scalar key) keyCells k → Stores m value valueCells v →
    Disjoint keyCells cells → Disjoint valueCells (cells ∪ keyCells) →
    StoresEntries m (setKey key value entries) ((cells ∪ keyCells) ∪ valueCells)
      (pairs ++ [(k, v)])
  | [], cells, _, value, k, v, keyCells, valueCells, h, _, hk, hv, _, hdisjoint => by
      rw [StoresEntries] at h
      subst h
      rw [setKey, StoresEntries]
      refine ⟨k, v, [], keyCells, valueCells, rfl, fun x hx => Or.inl (Or.inr hx),
        fun x hx => ⟨Or.inr hx, fun hx' => Set.disjoint_left.mp hdisjoint hx (Or.inr hx')⟩, hk, hv,
        by rw [StoresEntries]⟩
  | (k₀, v₀) :: entries, cells, _, value, k, v, keyCells, valueCells, h, hget, hk, hv, hdisjoint,
      hdisjoint' => by
      rw [StoresEntries] at h
      obtain ⟨k', v', rest, keys, values, rfl, hkeys, hvalues, hk', hv', hrest⟩ := h
      rw [get_cons] at hget
      split at hget
      · cases hget
      · rename_i hkey
        have hsub : (cells \ keys) \ values ⊆ cells := fun x hx => hx.1.1
        have htail := storesEntries_append hrest hget hk hv (hdisjoint.mono_right hsub)
          (hdisjoint'.mono_right (Set.union_subset_union_left _ hsub))
        rw [setKey, if_neg hkey, List.cons_append, StoresEntries]
        refine ⟨k', v', rest ++ [(k, v)], keys, values, rfl, fun x hx => Or.inl (Or.inl (hkeys hx)),
          fun x hx => ⟨Or.inl (Or.inl (hvalues hx).1), (hvalues hx).2⟩, hk', hv', htail.mono ?_⟩
        rintro x ((hx | hx) | hx)
        · exact ⟨⟨Or.inl (Or.inl (hsub hx)), hx.1.2⟩, hx.2⟩
        · have hout := Set.disjoint_left.mp hdisjoint hx
          exact ⟨⟨Or.inl (Or.inr hx), fun hx' => hout (hkeys hx')⟩,
            fun hx' => hout (hvalues hx').1⟩
        · have hout := fun hc => Set.disjoint_left.mp hdisjoint' hx (Or.inl hc)
          exact ⟨⟨Or.inr hx, fun hx' => hout (hkeys hx')⟩, fun hx' => hout (hvalues hx').1⟩

end

/-! ## One entry -/

/-- A recursive call returns the merge of the two trees in cells that are new. -/
def Merges (merge : Memory → Nat → Nat → Except String (Memory × Nat)) (depth : Nat) : Prop :=
  ∀ {base override : Node} {cells cells' : Set Nat} {m : Memory} {b o : Nat},
    height base ≤ depth → height override ≤ depth → stringKeys override = true →
    cells ⊆ Set.Iio m.next → cells' ⊆ Set.Iio m.next → Stores m base cells b →
    Stores m override cells' o →
    ∃ m' r, merge m b o = .ok (m', r) ∧ m.Extends m' ∧
      Stores m' (mergeTree base override) (newCells m m') r

section

variable {merge : Memory → Nat → Nat → Except String (Memory × Nat)} {depth merged : Nat}
  {m₀ m : Memory} {entries : List (Node × Node)} {key : String} {value : Node}

theorem extends_assign (h : m₀.Extends m) {slot : Nat} (hslot : m₀.next ≤ slot) (n : Nat) :
    m₀.Extends (m.assign slot n) := by
  refine ⟨h.next, fun x hx => ⟨?_, (h.agrees x hx).2⟩⟩
  have hne : x ≠ slot := ne_of_lt (lt_of_lt_of_le hx hslot)
  exact (Function.update_of_ne hne _ _).trans (h.agrees x hx).1

theorem agrees_assign (m : Memory) (slot n : Nat) : m.Agrees (m.assign slot n) {slot}ᶜ :=
  fun _ hx => ⟨Function.update_of_ne hx _ _, rfl⟩

theorem Merges.entry_present (hmerge : Merges merge depth) (hext : m₀.Extends m)
    (hmerged : Stores m (.map entries) (newCells m₀ m) merged)
    {old : Node} (hget : Node.get (.map entries) key = some old) (hold : height old ≤ depth)
    {k v : Nat} {cells : Set Nat} (hk : m₀.content k = .scalar key) (hcells : cells ⊆ Set.Iio m₀.next)
    (hkCells : m₀.Owns (Set.Iio m₀.next) k) (hv : Stores m₀ value cells v)
    (hvalue : height value ≤ depth) (hkeys : stringKeys value = true) :
    ∃ m', mergeEntry merge depth merged m (k, v) = .ok m' ∧ m₀.Extends m' ∧
      Stores m' (.map (setKey key (mergeTree old value) entries)) (newCells m₀ m') merged := by
  rw [Stores] at hmerged
  obtain ⟨howns, pairs, hcontent, hentries⟩ := hmerged
  obtain ⟨⟨k', slot⟩, own, hfind, hown, hslot, hwand⟩ := find_eq_some hentries hget
  have hbelow : own ⊆ Set.Iio m.next := fun x hx => (hown hx).1.2
  have hcells' : cells ⊆ Set.Iio m.next := fun x hx => lt_of_lt_of_le (hcells hx) hext.next
  obtain ⟨m₁, r, hcall, hext₁, hstores₁⟩ := hmerge hold hvalue hkeys hbelow hcells' hslot
    (hv.frame (hext.agrees.mono hcells))
  have hslotBelow : slot < m.next := hbelow hslot.owns.1
  have hslotSince : m₀.next ≤ slot := (hown hslot.owns.1).1.1
  have hfresh : slot ∉ Set.Ico m.next m₁.next := fun hmem => absurd hmem.1 (not_le_of_gt hslotBelow)
  refine ⟨m₁.assign slot r, ?_, extends_assign (hext.trans hext₁) hslotSince r, ?_⟩
  · simp only [mergeEntry, subscript, hcontent, hfind, hslot.isDefined, hcall,
      hext.agrees.content hkCells, hk, keyText, bind, Except.bind, pure, Except.pure, if_true]
  · have hagrees : m.Agrees (m₁.assign slot r) (Set.Iio m.next \ {slot}) := by
      intro x hx
      have hassign := agrees_assign m₁ slot r x hx.2
      exact ⟨hassign.1.trans (hext₁.agrees x hx.1).1, hassign.2.trans (hext₁.agrees x hx.1).2⟩
    have hslotIn := hown hslot.owns.1
    have hroot : m.Owns (Set.Iio m.next \ {slot}) merged :=
      ⟨⟨howns.1.2, fun heq => hslotIn.2 (Or.inl heq.symm)⟩,
        ⟨howns.2.2, fun heq => hslotIn.2 (Or.inr heq.symm)⟩⟩
    have href : (m₁.assign slot r).ref merged = m.ref merged := (hagrees merged hroot.1).1
    have hwider : newCells m₀ m ⊆ newCells m₀ (m₁.assign slot r) :=
      fun x hx => ⟨hx.1, lt_of_lt_of_le hx.2 hext₁.next⟩
    have hnew : Disjoint (insert slot (Set.Ico m.next m₁.next))
        ((newCells m₀ m \ {merged, m.ref merged}) \ own) := by
      rw [Set.disjoint_left]
      rintro x (rfl | hx) hx'
      · exact hx'.2 hslot.owns.1
      · exact absurd hx'.1.1.2 (not_lt_of_ge hx.1)
    have hentries' := hwand (hagrees.mono fun x hx => ⟨hx.1.1.2, fun heq => hx.2 (heq ▸ hslot.owns.1)⟩)
      hnew (hstores₁.assign hfresh)
    rw [Stores]
    refine ⟨⟨hwider howns.1, by rw [href]; exact hwider howns.2⟩, pairs,
      (hagrees.content hroot).trans hcontent, hentries'.mono ?_⟩
    rw [href]
    rintro x (hx | rfl | hx)
    · exact ⟨hwider hx.1.1, hx.1.2⟩
    · exact ⟨hwider hslotIn.1, hslotIn.2⟩
    · refine ⟨⟨(hext.next.trans hx.1), hx.2⟩, ?_⟩
      rintro (rfl | rfl)
      · exact absurd howns.1.2 (not_lt_of_ge hx.1)
      · exact absurd howns.2.2 (not_lt_of_ge hx.1)

/-- A key that the map does not have gets a clone of the overlay's value. -/
theorem entry_absent (hext : m₀.Extends m)
    (hmerged : Stores m (.map entries) (newCells m₀ m) merged)
    (hget : Node.get (.map entries) key = none) {k v : Nat} {cells : Set Nat}
    (hk : m₀.content k = .scalar key) (hkCells : m₀.Owns (Set.Iio m₀.next) k)
    (hcells : cells ⊆ Set.Iio m₀.next) (hv : Stores m₀ value cells v)
    (hvalue : height value ≤ depth) :
    ∃ m', mergeEntry merge depth merged m (k, v) = .ok m' ∧ m₀.Extends m' ∧
      Stores m' (.map (setKey key value entries)) (newCells m₀ m') merged := by
  rw [Stores] at hmerged
  obtain ⟨howns, pairs, hcontent, hentries⟩ := hmerged
  obtain ⟨m₁, hsubscript, hentered⟩ :=
    subscript_absent hcontent (find_eq_none hentries hget) ⟨howns.1.2, howns.2.2⟩
  have hext₁ : m₀.Extends m₁ := by
    refine ⟨by rw [hentered.next]; exact hext.next.trans (Nat.le_add_right _ _), fun x hx => ?_⟩
    have hx' : x ∈ Set.Iio m.next \ {m.ref merged} :=
      ⟨lt_of_lt_of_le hx hext.next, fun heq => absurd howns.2.1 (not_le_of_gt (heq ▸ hx))⟩
    exact ⟨(hentered.agrees x hx').1.trans (hext.agrees x hx).1,
      (hentered.agrees x hx').2.trans (hext.agrees x hx).2⟩
  obtain ⟨m₂, copy, hclone, hext₂, hcopy⟩ := clone_stores hvalue
    (hcells.trans fun x hx => lt_of_lt_of_le hx hext₁.next) (hv.frame (hext₁.agrees.mono hcells))
  have hnext : m₁.next = m.next + 2 := hentered.next
  have hlater : m₁.Agrees (m₂.assign (m.next + 1) copy) (Set.Iio m₁.next \ {m.next + 1}) := by
    intro x hx
    have hassign := agrees_assign m₂ (m.next + 1) copy x hx.2
    exact ⟨hassign.1.trans (hext₂.agrees x hx.1).1, hassign.2.trans (hext₂.agrees x hx.1).2⟩
  have hsinceOld : ∀ x < m.next, x ∈ Set.Iio m₁.next \ {m.next + 1} := fun x hx =>
    ⟨lt_of_lt_of_le hx (by omega), ne_of_lt (Nat.lt_succ_of_lt hx)⟩
  have hroot : m₁.Owns (Set.Iio m₁.next \ {m.next + 1}) merged :=
    ⟨hsinceOld _ howns.1.2, by rw [hentered.ref merged howns.1.2]; exact hsinceOld _ howns.2.2⟩
  have href : (m₂.assign (m.next + 1) copy).ref merged = m.ref merged :=
    (hlater merged hroot.1).1.trans (hentered.ref merged howns.1.2)
  have hfresh : m.next + 1 ∉ Set.Ico m₁.next m₂.next := fun hmem => absurd hmem.1 (by omega)
  refine ⟨m₂.assign (m.next + 1) copy, ?_, extends_assign (hext₁.trans hext₂)
    (hext.next.trans (Nat.le_succ _)) copy, ?_⟩
  · simp only [mergeEntry, hsubscript, hentered.slot, hclone, hext.agrees.content hkCells, hk, keyText,
      bind, Except.bind, pure, Except.pure, Bool.false_eq_true, if_false]
  · have hold : StoresEntries (m₂.assign (m.next + 1) copy) entries
        (newCells m₀ m \ {merged, m.ref merged}) pairs := by
      have hmid := hentries.frame
        (hentered.agrees.mono fun x hx => ⟨hx.1.2, fun heq => hx.2 (Or.inr heq)⟩)
      exact hmid.frame (hlater.mono fun x hx => hsinceOld x hx.1.2)
    have hkeyNode : Stores (m₂.assign (m.next + 1) copy) (.scalar key) {m.next} m.next := by
      refine hentered.key.frame (hlater.mono ?_)
      rintro x rfl
      exact ⟨by show m.next < m₁.next; omega, Nat.ne_of_lt (Nat.lt_succ_self _)⟩
    have hkeyOut : Disjoint {m.next} (newCells m₀ m \ {merged, m.ref merged}) := by
      rw [Set.disjoint_left]
      rintro x rfl hx
      exact absurd hx.1.2 (lt_irrefl _)
    have hvalueOut : Disjoint (insert (m.next + 1) (Set.Ico m₁.next m₂.next))
        ((newCells m₀ m \ {merged, m.ref merged}) ∪ {m.next}) := by
      rw [Set.disjoint_left]
      rintro x (rfl | hx) (hx' | hx')
      · exact absurd hx'.1.2 (by omega)
      · exact absurd hx' (by simp)
      · exact absurd hx'.1.2 (not_lt_of_ge ((by omega : m.next ≤ m₁.next).trans hx.1))
      · have heq : x = m.next := hx'
        have hle := hx.1
        omega
    have hentries' := storesEntries_append hold hget hkeyNode (hcopy.assign hfresh) hkeyOut hvalueOut
    have hnew : ∀ x, m.next ≤ x → x < m₂.next →
        x ∈ newCells m₀ (m₂.assign (m.next + 1) copy) \ {merged, m.ref merged} := by
      intro x hle hlt
      refine ⟨⟨hext.next.trans hle, hlt⟩, ?_⟩
      rintro (rfl | rfl)
      · exact absurd howns.1.2 (not_lt_of_ge hle)
      · exact absurd howns.2.2 (not_lt_of_ge hle)
    have hwider : newCells m₀ m ⊆ newCells m₀ (m₂.assign (m.next + 1) copy) := by
      intro x hx
      have hlt := hx.2
      have hle := hext₂.next
      exact ⟨hx.1, by show x < m₂.next; omega⟩
    have hgrown := hext₂.next
    rw [Stores]
    refine ⟨⟨hwider howns.1, by rw [href]; exact hwider howns.2⟩, _,
      (hlater.content hroot).trans hentered.content, hentries'.mono ?_⟩
    rw [href]
    rintro x ((hx | hx) | rfl | hx)
    · exact ⟨hwider hx.1, hx.2⟩
    · have heq : x = m.next := hx
      exact hnew x (by omega) (by omega)
    · exact hnew _ (Nat.le_succ _) (by omega)
    · have hle := hx.1
      exact hnew x (by omega) hx.2

end

/-! ## Heights -/

theorem height_pos (t : Node) : 1 ≤ height t := by
  cases t <;> simp [height]

theorem height_of_get {entries : List (Node × Node)} {key : String} {value : Node}
    (h : Node.get (.map entries) key = some value) : height value ≤ heightEntries entries := by
  induction entries with
  | nil => cases h
  | cons entry entries ih =>
      rw [get_cons] at h
      rw [heightEntries]
      split at h
      · cases h
        omega
      · have hle := ih h
        omega

theorem heightEntries_setKey (key : String) (value : Node) (entries : List (Node × Node)) :
    heightEntries (setKey key value entries) ≤ max (heightEntries entries) (height value) := by
  have hpos := height_pos value
  induction entries with
  | nil =>
      simp only [setKey, heightEntries, height]
      omega
  | cons entry entries ih =>
      unfold setKey
      split
      · simp only [heightEntries]
        omega
      · simp only [heightEntries]
        omega

mutual

theorem height_mergeTree : ∀ (base override : Node), stringKeys override = true →
    height (mergeTree base override) ≤ max (height base) (height override)
  | _, .null, _ => by
      rw [mergeTree_null]
      exact le_max_left _ _
  | _, .scalar _, _ => by
      rw [mergeTree_scalar]
      exact le_max_right _ _
  | _, .sequence _, _ => by
      rw [mergeTree_sequence]
      exact le_max_right _ _
  | base, .map overrides, hkeys => by
      by_cases hmap : base.isMap = true
      · obtain ⟨entries, rfl⟩ := exists_map_of_isMap hmap
        have h := heightEntries_mergeEntries entries overrides (by rwa [stringKeys] at hkeys)
        rw [mergeTree_map]
        simp only [height]
        omega
      · rw [mergeTree_of_not_map (by simpa using hmap)]
        exact le_max_right _ _

theorem heightEntries_mergeEntries : ∀ (entries overrides : List (Node × Node)),
    stringKeysEntries overrides = true → heightEntries (mergeEntries entries overrides) ≤
      max (heightEntries entries) (heightEntries overrides)
  | entries, [], _ => by
      rw [mergeEntries]
      exact le_max_left _ _
  | entries, (k, value) :: overrides, hkeys => by
      obtain ⟨⟨key, rfl⟩, hvalueKeys, hrestKeys⟩ := stringKeysEntries_cons hkeys
      have hvalue : height (mergedValue entries key value) ≤
          max (heightEntries entries) (height value) := by
        unfold mergedValue
        cases hget : Node.get (.map entries) key with
        | none => exact le_max_right _ _
        | some old =>
            have hold := height_of_get hget
            have hmerge := height_mergeTree old value hvalueKeys
            simp only
            omega
      have hset := heightEntries_setKey key (mergedValue entries key value) entries
      have hrest := heightEntries_mergeEntries (setKey key (mergedValue entries key value) entries)
        overrides hrestKeys
      rw [mergeEntries_cons]
      simp only [heightEntries]
      omega

end

/-! ## The whole merge -/

section

variable {merge : Memory → Nat → Nat → Except String (Memory × Nat)} {depth merged : Nat}
  {m₀ : Memory}

/-- **The loop over the overlay's entries.** The map that is merged into stays a tree of new cells,
and the memory before the clone stays as it was. -/
theorem mergeEntries_stores (hmerge : Merges merge depth) :
    ∀ {overrides : List (Node × Node)} {cells : Set Nat} {pairs : List (Nat × Nat)} {m : Memory}
      {entries : List (Node × Node)}, heightEntries overrides ≤ depth →
      stringKeysEntries overrides = true → cells ⊆ Set.Iio m₀.next →
      StoresEntries m₀ overrides cells pairs → m₀.Extends m → heightEntries entries ≤ depth →
      Stores m (.map entries) (newCells m₀ m) merged →
      ∃ m', pairs.foldlM (mergeEntry merge depth merged) m = .ok m' ∧ m₀.Extends m' ∧
        Stores m' (.map (mergeEntries entries overrides)) (newCells m₀ m') merged
  | [], _, _, m, entries, _, _, _, h, hext, _, hmerged => by
      rw [StoresEntries] at h
      subst h
      rw [mergeEntries]
      exact ⟨m, rfl, hext, hmerged⟩
  | (k, value) :: overrides, cells, _, m, entries, hdepth, hkeys, hcells, h, hext, hentries,
      hmerged => by
      obtain ⟨⟨key, rfl⟩, hvalueKeys, hrestKeys⟩ := stringKeysEntries_cons hkeys
      rw [StoresEntries] at h
      obtain ⟨kNode, v, rest, keyCells, valueCells, rfl, hkeyCells, hvalueCells, hk, hv, hrest⟩ := h
      rw [heightEntries, max_le_iff, max_le_iff] at hdepth
      have howns : m₀.Owns (Set.Iio m₀.next) kNode :=
        ⟨hcells (hkeyCells hk.owns.1), hcells (hkeyCells hk.owns.2)⟩
      have hbelow : valueCells ⊆ Set.Iio m₀.next := fun x hx => hcells (hvalueCells hx).1
      rw [Stores] at hk
      have hstep : ∃ m', mergeEntry merge depth merged m (kNode, v) = .ok m' ∧ m₀.Extends m' ∧
          Stores m' (.map (setKey key (mergedValue entries key value) entries)) (newCells m₀ m')
            merged := by
        unfold mergedValue
        cases hget : Node.get (.map entries) key with
        | none => exact entry_absent hext hmerged hget hk.2 howns hbelow hv hdepth.1.2
        | some old =>
            exact hmerge.entry_present hext hmerged hget ((height_of_get hget).trans hentries) hk.2
              hbelow howns hv hdepth.1.2 hvalueKeys
      obtain ⟨m₁, hentry, hext₁, hmerged₁⟩ := hstep
      have hheight : heightEntries (setKey key (mergedValue entries key value) entries) ≤ depth := by
        have hset := heightEntries_mergeEntries entries [(.scalar key, value)]
          (by rw [stringKeysEntries, hvalueKeys]; rfl)
        rw [mergeEntries_cons, mergeEntries] at hset
        refine hset.trans (max_le hentries ?_)
        simp only [heightEntries]
        have hone := hdepth.1.1
        have htwo := hdepth.1.2
        omega
      obtain ⟨m₂, hloop, hext₂, hmerged₂⟩ := mergeEntries_stores hmerge hdepth.2 hrestKeys
        (fun x hx => hcells hx.1.1) hrest hext₁ hheight hmerged₁
      refine ⟨m₂, ?_, hext₂, ?_⟩
      · rw [List.foldlM_cons, hentry]
        exact hloop
      · rw [mergeEntries_cons]
        exact hmerged₂

end

/-- What is no map is replaced. -/
theorem deepMerge_eq {depth : Nat} {m : Memory} {b o : Nat} (hb : m.isDefined b = true)
    (hbNull : m.isNull b = false) (ho : m.isDefined o = true) (hoNull : m.isNull o = false) :
    deepMerge (depth + 1) m b o =
      match m.content b, m.content o with
      | .map _, .map entries => do
          let (m, merged) ← clone (depth + 1) m b
          let m ← entries.foldlM (mergeEntry (deepMerge depth) depth merged) m
          return (m, merged)
      | _, _ => clone (depth + 1) m o := by
  rw [deepMerge, hb, hbNull, ho, hoNull]
  rfl

/-- **`deep_merge` returns the merge of the two trees in cells that are new.** -/
theorem deepMerge_stores : ∀ depth : Nat, Merges (deepMerge depth) depth := by
  intro depth
  induction depth with
  | zero =>
      intro base override _ _ _ _ _ hbase
      have hpos := height_pos base
      omega
  | succ depth ih =>
      intro base override cells cells' m b o hbase hoverride hkeys hcells hcells' hb ho
      by_cases hnull : base = .null
      · -- A null base gives way to the overlay.
        obtain ⟨m', r, hclone, hext, hstores⟩ := clone_stores hoverride hcells' ho
        refine ⟨m', r, ?_, hext, ?_⟩
        · rw [deepMerge, hb.isNull_eq.mpr hnull, Bool.or_true, if_pos rfl, hclone]
        · rwa [hnull, mergeTree_of_null]
      have hbNull : m.isNull b = false := by
        rw [← Bool.not_eq_true, hb.isNull_eq]
        exact hnull
      by_cases honull : override = .null
      · -- A null overlay leaves the base.
        obtain ⟨m', r, hclone, hext, hstores⟩ := clone_stores hbase hcells hb
        refine ⟨m', r, ?_, hext, ?_⟩
        · rw [deepMerge, hb.isDefined, hbNull, ho.isNull_eq.mpr honull, Bool.or_true,
            if_neg (by simp), if_pos rfl, hclone]
        · rwa [honull, mergeTree_null]
      have hoNull : m.isNull o = false := by
        rw [← Bool.not_eq_true, ho.isNull_eq]
        exact honull
      rw [deepMerge_eq hb.isDefined hbNull ho.isDefined hoNull]
      by_cases hmaps : base.isMap = true ∧ override.isMap = true
      · obtain ⟨entries, rfl⟩ := exists_map_of_isMap hmaps.1
        obtain ⟨overrides, rfl⟩ := exists_map_of_isMap hmaps.2
        obtain ⟨m₁, merged, hclone, hext, hmerged⟩ := clone_stores hbase hcells hb
        rw [Stores] at hb ho
        obtain ⟨_, basePairs, hbContent, _⟩ := hb
        obtain ⟨_, pairs, hoContent, hoEntries⟩ := ho
        obtain ⟨m₂, hloop, hext₂, hmerged₂⟩ := mergeEntries_stores ih
          (Nat.le_of_succ_le_succ hoverride) (by rwa [stringKeys] at hkeys)
          (Set.sdiff_subset.trans hcells') hoEntries hext (Nat.le_of_succ_le_succ hbase) hmerged
        refine ⟨m₂, merged, ?_, hext₂, ?_⟩
        · rw [hbContent, hoContent]
          simp only [hclone, hloop, bind, Except.bind, pure, Except.pure]
        · rw [mergeTree_map]
          exact hmerged₂
      · obtain ⟨m', r, hclone, hext, hstores⟩ := clone_stores hoverride hcells' ho
        refine ⟨m', r, ?_, hext, ?_⟩
        · split
          · rename_i hbContent hoContent
            exact absurd ⟨hb.isMap_of_content hbContent, ho.isMap_of_content hoContent⟩ hmaps
          · exact hclone
        · have hwins : mergeTree base override = override := by
            cases override with
            | null => exact absurd rfl honull
            | scalar text => exact mergeTree_scalar
            | sequence items => exact mergeTree_sequence
            | map overrides =>
                exact mergeTree_of_not_map (by simpa [Node.isMap] using hmaps)
          rwa [hwins]

end UavBluetooth.Config
