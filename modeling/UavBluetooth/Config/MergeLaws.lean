import UavBluetooth.Config.DeepMerge

set_option autoImplicit false

/-! # What a merged configuration holds

The merge of two trees, path by path: a scalar or a sequence of the overlay wins, two maps are
merged, and the base stays where the overlay has nothing or a null. Two details belong to the
design: a scalar of the overlay takes away what the base has below its path, and a null of the
overlay is taken over where the base has nothing.
-/

namespace UavBluetooth.Config

open Network Yaml

/-! ## Distinct keys -/

mutual

/-- No map of the tree has a key twice. -/
def DistinctKeys : Node → Prop
  | .map entries => (entries.map Prod.fst).Nodup ∧ DistinctEntries entries
  | .sequence items => DistinctItems items
  | _ => True

def DistinctEntries : List (Node × Node) → Prop
  | [] => True
  | (_, value) :: entries => DistinctKeys value ∧ DistinctEntries entries

def DistinctItems : List Node → Prop
  | [] => True
  | item :: items => DistinctKeys item ∧ DistinctItems items

end

section

variable {key : String} {entries overrides : List (Node × Node)} {value : Node}

theorem get_eq_none (h : Node.scalar key ∉ entries.map Prod.fst) :
    Node.get (.map entries) key = none := by
  induction entries with
  | nil => rfl
  | cons entry entries ih =>
      rw [List.map_cons, List.mem_cons, not_or] at h
      rw [get_cons, if_neg fun hkey => h.1 (eq_of_isKey hkey).symm]
      exact ih h.2

theorem get_of_mem (hnodup : (entries.map Prod.fst).Nodup)
    (h : (Node.scalar key, value) ∈ entries) : Node.get (.map entries) key = some value := by
  induction entries with
  | nil => cases h
  | cons entry entries ih =>
      rw [List.map_cons, List.nodup_cons] at hnodup
      rw [get_cons]
      rcases List.mem_cons.mp h with rfl | h
      · rw [if_pos (by simp)]
      · rw [if_neg, ih hnodup.2 h]
        intro hkey
        rw [eq_of_isKey hkey] at hnodup
        exact hnodup.1 (List.mem_map_of_mem h)

theorem setKey_self (h : Node.get (.map entries) key = some value) :
    setKey key value entries = entries := by
  induction entries with
  | nil => cases h
  | cons entry entries ih =>
      rw [get_cons] at h
      unfold setKey
      split at h
      · rename_i hkey
        cases h
        rw [if_pos hkey]
      · rename_i hkey
        rw [if_neg hkey, ih h]

/-- **The keys of both maps**, each with the merge of what they have under it. -/
theorem get_mergeEntries (hkeys : stringKeysEntries overrides = true)
    (hnodup : (overrides.map Prod.fst).Nodup) :
    Node.get (.map (mergeEntries entries overrides)) key =
      match Node.get (.map overrides) key with
      | some value => some (mergedValue entries key value)
      | none => Node.get (.map entries) key := by
  induction overrides generalizing entries with
  | nil => rw [mergeEntries]; rfl
  | cons override overrides ih =>
      obtain ⟨k, value⟩ := override
      obtain ⟨⟨other, rfl⟩, _, hrest⟩ := stringKeysEntries_cons hkeys
      rw [List.map_cons, List.nodup_cons] at hnodup
      rw [mergeEntries_cons, ih hrest hnodup.2, get_cons]
      by_cases heq : other = key
      · subst heq
        rw [get_eq_none hnodup.1, if_pos (by simp)]
        exact get_setKey_self
      · have hne : ¬ Node.isKey key (.scalar other) = true := by simpa using heq
        have hget : Node.get (.map (setKey other (mergedValue entries other value) entries)) key =
            Node.get (.map entries) key := get_setKey_of_ne fun h => heq h.symm
        rw [if_neg hne]
        unfold mergedValue at hget ⊢
        rw [hget]

end

/-! ## Path by path -/

/-- A value that is neither null nor a map. -/
def Leaf (node : Node) : Prop := node.isMap = false ∧ node ≠ .null

/-- The path goes on below a scalar or a sequence. -/
def LeadsThroughLeaf (tree : Node) (path : List String) : Prop :=
  ∃ before rest leaf, path = before ++ rest ∧ rest ≠ [] ∧ nodeAt tree before = some leaf ∧ Leaf leaf

theorem LeadsThroughLeaf.cons {overrides : List (Node × Node)} {key : String} {path : List String}
    {value : Node} (hget : Node.get (.map overrides) key = some value)
    (h : LeadsThroughLeaf value path) : LeadsThroughLeaf (.map overrides) (key :: path) := by
  obtain ⟨before, rest, leaf, rfl, hne, hat, hleaf⟩ := h
  refine ⟨key :: before, rest, leaf, rfl, hne, ?_, hleaf⟩
  rw [nodeAt, hget]
  exact hat

theorem distinctEntries_get {entries : List (Node × Node)} {key : String} {value : Node}
    (h : DistinctEntries entries) (hget : Node.get (.map entries) key = some value) :
    DistinctKeys value := by
  induction entries with
  | nil => cases hget
  | cons entry entries ih =>
      obtain ⟨k, v⟩ := entry
      rw [DistinctEntries] at h
      rw [get_cons] at hget
      split at hget
      · cases hget
        exact h.1
      · exact ih h.2 hget

/-- The overlay's maps have distinct texts as keys. -/
structure WellKeyed (tree : Node) : Prop where
  strings : stringKeys tree = true
  distinct : DistinctKeys tree

theorem WellKeyed.get {overrides : List (Node × Node)} {key : String} {value : Node}
    (h : WellKeyed (.map overrides)) (hget : Node.get (.map overrides) key = some value) :
    WellKeyed value := by
  have hstrings := h.strings
  have hdistinct := h.distinct
  rw [stringKeys] at hstrings
  rw [DistinctKeys] at hdistinct
  exact ⟨stringKeys_get hstrings hget, distinctEntries_get hdistinct.2 hget⟩

/-- One key down the merge of two maps. -/
theorem nodeAt_merge_cons {entries overrides : List (Node × Node)} (h : WellKeyed (.map overrides))
    (key : String) (path : List String) :
    nodeAt (mergeTree (.map entries) (.map overrides)) (key :: path) =
      match Node.get (.map overrides) key with
      | some value => nodeAt (mergedValue entries key value) path
      | none => nodeAt (.map entries) (key :: path) := by
  have hstrings := h.strings
  have hdistinct := h.distinct
  rw [stringKeys] at hstrings
  rw [DistinctKeys] at hdistinct
  rw [mergeTree_map, nodeAt, get_mergeEntries hstrings hdistinct.1]
  cases Node.get (.map overrides) key with
  | some value => rfl
  | none => rfl

/-- **A scalar or a sequence of the overlay wins.** -/
theorem nodeAt_merge_leaf : ∀ {path : List String} {base override leaf : Node},
    WellKeyed override → nodeAt override path = some leaf → Leaf leaf →
    nodeAt (mergeTree base override) path = some leaf := by
  intro path
  induction path with
  | nil =>
      intro base override leaf _ hat hleaf
      cases hat
      rw [nodeAt]
      cases override with
      | null => exact absurd rfl hleaf.2
      | scalar text => rw [mergeTree_scalar]
      | sequence items => rw [mergeTree_sequence]
      | map overrides => exact absurd hleaf.1 (by simp [Node.isMap])
  | cons key path ih =>
      intro base override leaf hkeyed hat hleaf
      cases override with
      | null => cases hat
      | scalar text => cases hat
      | sequence items => cases hat
      | map overrides =>
          by_cases hmap : base.isMap = true
          · obtain ⟨entries, rfl⟩ := exists_map_of_isMap hmap
            rw [nodeAt] at hat
            obtain ⟨value, hget, hat⟩ := Option.bind_eq_some_iff.mp hat
            rw [nodeAt_merge_cons hkeyed, hget]
            simp only
            unfold mergedValue
            cases Node.get (.map entries) key with
            | none => exact hat
            | some old => exact ih (hkeyed.get hget) hat hleaf
          · rw [mergeTree_of_not_map (by simpa using hmap)]
            exact hat

/-- **Two maps are merged.** -/
theorem nodeAt_merge_maps : ∀ {path : List String} {base override : Node}
    {entries overrides : List (Node × Node)}, WellKeyed override →
    nodeAt base path = some (.map entries) → nodeAt override path = some (.map overrides) →
    nodeAt (mergeTree base override) path = some (mergeTree (.map entries) (.map overrides)) := by
  intro path
  induction path with
  | nil =>
      intro base override entries overrides _ hbase hover
      cases hbase
      cases hover
      rfl
  | cons key path ih =>
      intro base override entries overrides hkeyed hbase hover
      rw [nodeAt] at hbase hover
      obtain ⟨old, hold, hold'⟩ := Option.bind_eq_some_iff.mp hbase
      obtain ⟨value, hvalue, hvalue'⟩ := Option.bind_eq_some_iff.mp hover
      cases base with
      | null => cases hold
      | scalar text => cases hold
      | sequence items => cases hold
      | map bases =>
          cases override with
          | null => cases hvalue
          | scalar text => cases hvalue
          | sequence items => cases hvalue
          | map others =>
              rw [nodeAt_merge_cons hkeyed, hvalue]
              simp only [mergedValue, hold]
              exact ih (hkeyed.get hvalue) hold' hvalue'

theorem nodeAt_cons_of_not_map {node : Node} (h : node.isMap = false) (key : String)
    (path : List String) : nodeAt node (key :: path) = none := by
  cases node with
  | map entries => cases h
  | null => rfl
  | scalar text => rfl
  | sequence items => rfl

/-- **Where the overlay has nothing or a null the base stays.** What the base does not have the
overlay's null is. -/
theorem nodeAt_merge_kept : ∀ {path : List String} {base override : Node}, WellKeyed override →
    (nodeAt override path = none ∨ nodeAt override path = some .null) →
    ¬ LeadsThroughLeaf override path →
    nodeAt (mergeTree base override) path = (nodeAt base path).or (nodeAt override path) := by
  intro path
  induction path with
  | nil =>
      intro base override _ hover _
      rcases hover with hover | hover
      · cases hover
      · cases hover
        rw [mergeTree_null]
        rfl
  | cons key path ih =>
      intro base override hkeyed hover hleaf
      cases override with
      | null =>
          rw [mergeTree_null, @nodeAt_cons_of_not_map .null rfl, Option.or_none]
      | scalar text =>
          exact absurd ⟨[], key :: path, _, rfl, List.cons_ne_nil _ _, rfl, rfl, by simp⟩ hleaf
      | sequence items =>
          exact absurd ⟨[], key :: path, _, rfl, List.cons_ne_nil _ _, rfl, rfl, by simp⟩ hleaf
      | map overrides =>
          by_cases hmap : base.isMap = true
          · obtain ⟨entries, rfl⟩ := exists_map_of_isMap hmap
            rw [nodeAt_merge_cons hkeyed]
            cases hget : Node.get (.map overrides) key with
            | none =>
                have hnone : nodeAt (.map overrides) (key :: path) = none := by
                  rw [nodeAt, hget]
                  rfl
                rw [hnone, Option.or_none]
            | some value =>
                have hvalue : nodeAt (.map overrides) (key :: path) = nodeAt value path := by
                  rw [nodeAt, hget]
                  rfl
                rw [hvalue] at hover ⊢
                simp only [mergedValue]
                cases hold : Node.get (.map entries) key with
                | none =>
                    have hbase : nodeAt (.map entries) (key :: path) = none := by
                      rw [nodeAt, hold]
                      rfl
                    rw [hbase, Option.none_or]
                | some old =>
                    have hbase : nodeAt (.map entries) (key :: path) = nodeAt old path := by
                      rw [nodeAt, hold]
                      rfl
                    rw [hbase]
                    exact ih (hkeyed.get hget) hover fun h => hleaf (h.cons hget)
          · have hfalse : base.isMap = false := by simpa using hmap
            rw [mergeTree_of_not_map hfalse, nodeAt_cons_of_not_map hfalse, Option.none_or]

/-! ## Merging again -/

theorem mergeEntries_fixed {entries : List (Node × Node)} :
    ∀ {overrides : List (Node × Node)}, stringKeysEntries overrides = true →
      (∀ key value, (Node.scalar key, value) ∈ overrides →
        ∃ merged, Node.get (.map entries) key = some merged ∧ mergeTree merged value = merged) →
      mergeEntries entries overrides = entries := by
  intro overrides
  induction overrides with
  | nil =>
      intro _ _
      rw [mergeEntries]
  | cons override overrides ih =>
      intro hkeys h
      obtain ⟨k, value⟩ := override
      obtain ⟨⟨key, rfl⟩, _, hrest⟩ := stringKeysEntries_cons hkeys
      obtain ⟨merged, hget, hfixed⟩ := h key value List.mem_cons_self
      have hset : setKey key (mergedValue entries key value) entries = entries := by
        simp only [mergedValue, hget, hfixed]
        exact setKey_self hget
      rw [mergeEntries_cons, hset]
      exact ih hrest fun key value hmem => h key value (List.mem_cons_of_mem _ hmem)

mutual

/-- **Merging the same overlay again changes nothing.** -/
theorem mergeTree_again : ∀ (override : Node), WellKeyed override → ∀ base : Node,
    mergeTree (mergeTree base override) override = mergeTree base override
  | .null, _, base => by rw [mergeTree_null]
  | .scalar _, _, _ => by simp only [mergeTree_scalar]
  | .sequence _, _, _ => by simp only [mergeTree_sequence]
  | .map overrides, hkeyed, base => by
      have hstrings := hkeyed.strings
      have hdistinct := hkeyed.distinct
      rw [stringKeys] at hstrings
      rw [DistinctKeys] at hdistinct
      have hagain := mergeEntries_again overrides hstrings hdistinct.2
      by_cases hmap : base.isMap = true
      · obtain ⟨entries, rfl⟩ := exists_map_of_isMap hmap
        rw [mergeTree_map, mergeTree_map]
        refine congrArg Node.map (mergeEntries_fixed hstrings fun key value hmem => ?_)
        refine ⟨mergedValue entries key value, ?_, ?_⟩
        · rw [get_mergeEntries hstrings hdistinct.1, get_of_mem hdistinct.1 hmem]
        · unfold mergedValue
          cases Node.get (.map entries) key with
          | some old => exact hagain key value hmem old
          | none =>
              have hself := hagain key value hmem .null
              rwa [mergeTree_of_null] at hself
      · have hwins : mergeTree base (.map overrides) = .map overrides :=
          mergeTree_of_not_map (by simpa using hmap)
        rw [hwins, mergeTree_map]
        refine congrArg Node.map (mergeEntries_fixed hstrings fun key value hmem => ?_)
        refine ⟨value, get_of_mem hdistinct.1 hmem, ?_⟩
        have hself := hagain key value hmem .null
        rwa [mergeTree_of_null] at hself

theorem mergeEntries_again : ∀ (overrides : List (Node × Node)),
    stringKeysEntries overrides = true → DistinctEntries overrides →
    ∀ key value, (Node.scalar key, value) ∈ overrides → ∀ base : Node,
      mergeTree (mergeTree base value) value = mergeTree base value
  | [], _, _ => by
      intro _ _ hmem
      cases hmem
  | (k, v) :: overrides, hstrings, hdistinct => by
      obtain ⟨⟨other, rfl⟩, hv, hrest⟩ := stringKeysEntries_cons hstrings
      rw [DistinctEntries] at hdistinct
      intro key value hmem
      have hhead := mergeTree_again v ⟨hv, hdistinct.1⟩
      have htail := mergeEntries_again overrides hrest hdistinct.2 key value
      rcases List.mem_cons.mp hmem with heq | hmem
      · cases heq
        exact hhead
      · exact htail hmem

end

/-! ## The law of the merge -/

/-- A tree in cells that are in memory. -/
def Held (m : Memory) (tree : Node) (n : Nat) : Prop :=
  ∃ cells ⊆ Set.Iio m.next, Stores m tree cells n

theorem Held.later {m m' : Memory} {tree : Node} {n : Nat} (h : Held m tree n)
    (hext : m.Extends m') : Held m' tree n := by
  obtain ⟨cells, hcells, hstores⟩ := h
  exact ⟨cells, hcells.trans fun x hx => lt_of_lt_of_le hx hext.next,
    hstores.frame (hext.agrees.mono hcells)⟩

theorem held_load (t : Node) (m : Memory) : Held (load m t).1 t (load m t).2 :=
  ⟨_, fun _ hx => hx.2, (load_stores t m).2⟩

/-- What the merge of a base and an overlay holds. -/
structure MergeLaw (base override result : Node) : Prop where
  /-- A scalar or a sequence of the overlay wins. -/
  leaf : ∀ path leaf, nodeAt override path = some leaf → Leaf leaf →
    nodeAt result path = some leaf
  /-- Two maps are merged, and the merge has the keys of both. -/
  maps : ∀ path entries overrides, nodeAt base path = some (.map entries) →
    nodeAt override path = some (.map overrides) →
    nodeAt result path = some (mergeTree (.map entries) (.map overrides)) ∧
    ∀ key, (Node.get (mergeTree (.map entries) (.map overrides)) key).isSome =
      ((Node.get (.map entries) key).isSome || (Node.get (.map overrides) key).isSome)
  /-- Where the overlay has nothing or a null, and no leaf on the way, the base stays; the null is
  taken over where the base has nothing. -/
  kept : ∀ path, (nodeAt override path = none ∨ nodeAt override path = some .null) →
    ¬ LeadsThroughLeaf override path →
    nodeAt result path = (nodeAt base path).or (nodeAt override path)

theorem wellKeyed_at : ∀ {path : List String} {tree node : Node}, WellKeyed tree →
    nodeAt tree path = some node → WellKeyed node := by
  intro path
  induction path with
  | nil =>
      intro tree node h hat
      cases hat
      exact h
  | cons key path ih =>
      intro tree node h hat
      cases tree with
      | null => cases hat
      | scalar text => cases hat
      | sequence items => cases hat
      | map entries =>
          obtain ⟨value, hget, hat⟩ := Option.bind_eq_some_iff.mp hat
          exact ih (h.get hget) hat

theorem mergeLaw_mergeTree {base override : Node} (h : WellKeyed override) :
    MergeLaw base override (mergeTree base override) where
  leaf _ _ hat hleaf := nodeAt_merge_leaf h hat hleaf
  maps path entries overrides hbase hover := by
    refine ⟨nodeAt_merge_maps h hbase hover, fun key => ?_⟩
    have hkeyed := wellKeyed_at h hover
    have hstrings := hkeyed.strings
    have hdistinct := hkeyed.distinct
    rw [stringKeys] at hstrings
    rw [DistinctKeys] at hdistinct
    rw [mergeTree_map, get_mergeEntries hstrings hdistinct.1]
    cases Node.get (.map overrides) key with
    | none => rw [Option.isSome_none, Bool.or_false]
    | some value => rw [Option.isSome_some, Option.isSome_some, Bool.or_true]
  kept _ hover hleaf := nodeAt_merge_kept h hover hleaf

/-- **`deep_merge` merges the overlay into the base**, changes nothing that is in memory, and has
the same result when it merges the same overlay again. -/
theorem deepMerge_law {base override : Node} {m : Memory} {b o depth : Nat} (hb : Held m base b)
    (ho : Held m override o) (hkeyed : WellKeyed override) (hbase : height base ≤ depth)
    (hoverride : height override ≤ depth) :
    ∃ m' r result, deepMerge depth m b o = .ok (m', r) ∧ Held m' result r ∧
      MergeLaw base override result ∧
      m.Agrees m' (Set.Iio m.next) ∧ Held m' base b ∧ Held m' override o ∧
      ∃ m'' r', deepMerge depth m' r o = .ok (m'', r') ∧ Held m'' result r' := by
  obtain ⟨bCells, hbCells, hbStores⟩ := hb
  obtain ⟨oCells, hoCells, hoStores⟩ := ho
  obtain ⟨m', r, hmerge, hext, hresult⟩ := deepMerge_stores depth hbase hoverride hkeyed.strings
    hbCells hoCells hbStores hoStores
  have ho' := Held.later ⟨oCells, hoCells, hoStores⟩ hext
  have hb' := Held.later ⟨bCells, hbCells, hbStores⟩ hext
  refine ⟨m', r, mergeTree base override, hmerge, ⟨_, fun _ hx => hx.2, hresult⟩,
    mergeLaw_mergeTree hkeyed, hext.agrees, hb', ho', ?_⟩
  obtain ⟨oCells', hoCells', hoStores'⟩ := ho'
  have hheight := (height_mergeTree base override hkeyed.strings).trans (max_le hbase hoverride)
  obtain ⟨m'', r', hagain, hext', hresult'⟩ := deepMerge_stores depth hheight hoverride
    hkeyed.strings (fun _ hx => hx.2) hoCells' hresult hoStores'
  rw [mergeTree_again override hkeyed base] at hresult'
  exact ⟨m'', r', hagain, _, fun _ hx => hx.2, hresult'⟩

def emptyMemory : Memory := ⟨id, fun _ => .undefined, 0⟩

/-- A base with a map below one of its keys. -/
def baseDocument : Node :=
  .map [(.scalar "enable_mesh", .scalar "false"),
    (.scalar "advertisement", .map [(.scalar "local_name", .scalar "uav1")])]

/-- An overlay with a scalar in the place of that map. -/
def flatOverlay : Node := .map [(.scalar "advertisement", .scalar "off")]

/-- An overlay with a null under a key that the base does not have. -/
def nullOverlay : Node := .map [(.scalar "mesh_token", .null)]

theorem wellKeyed_flatOverlay : WellKeyed flatOverlay :=
  ⟨by decide, by simp [flatOverlay, DistinctKeys, DistinctEntries]⟩

theorem wellKeyed_nullOverlay : WellKeyed nullOverlay :=
  ⟨by decide, by simp [nullOverlay, DistinctKeys, DistinctEntries]⟩

/-- The memory after a base and an overlay have been loaded. -/
def loadedMemory (overlay : Node) : Memory := (load (load emptyMemory baseDocument).1 overlay).1

def loadedBase : Nat := (load emptyMemory baseDocument).2

def loadedOverlay (overlay : Node) : Nat := (load (load emptyMemory baseDocument).1 overlay).2

theorem held_loadedBase (overlay : Node) : Held (loadedMemory overlay) baseDocument loadedBase :=
  (held_load baseDocument emptyMemory).later (load_stores overlay _).1

theorem held_loadedOverlay (overlay : Node) :
    Held (loadedMemory overlay) overlay (loadedOverlay overlay) :=
  held_load overlay _

theorem deepMerge_law_flat : ∃ m' r result,
    deepMerge 3 (loadedMemory flatOverlay) loadedBase (loadedOverlay flatOverlay) = .ok (m', r) ∧
      Held m' result r ∧ MergeLaw baseDocument flatOverlay result ∧
      (loadedMemory flatOverlay).Agrees m' (Set.Iio (loadedMemory flatOverlay).next) ∧
      Held m' baseDocument loadedBase ∧ Held m' flatOverlay (loadedOverlay flatOverlay) ∧
      ∃ m'' r', deepMerge 3 m' r (loadedOverlay flatOverlay) = .ok (m'', r') ∧ Held m'' result r' :=
  deepMerge_law (held_loadedBase _) (held_loadedOverlay _) wellKeyed_flatOverlay (by decide)
    (by decide)

/-- The base does not always stay where the overlay has nothing or a null: a scalar of the overlay
takes away what is below its path, and a null is taken over where the base has nothing. -/
theorem base_not_kept :
    (∃ m' r result, deepMerge 3 (loadedMemory flatOverlay) loadedBase (loadedOverlay flatOverlay) =
        .ok (m', r) ∧ Held m' result r ∧
      nodeAt flatOverlay ["advertisement", "local_name"] = none ∧
      nodeAt result ["advertisement", "local_name"] ≠
        nodeAt baseDocument ["advertisement", "local_name"]) ∧
    ∃ m' r result, deepMerge 3 (loadedMemory nullOverlay) loadedBase (loadedOverlay nullOverlay) =
        .ok (m', r) ∧ Held m' result r ∧
      nodeAt nullOverlay ["mesh_token"] = some .null ∧
      nodeAt result ["mesh_token"] ≠ nodeAt baseDocument ["mesh_token"] := by
  constructor
  · obtain ⟨bCells, hbCells, hb⟩ := held_loadedBase flatOverlay
    obtain ⟨oCells, hoCells, ho⟩ := held_loadedOverlay flatOverlay
    obtain ⟨m', r, hmerge, _, hresult⟩ := deepMerge_stores 3 (by decide) (by decide)
      wellKeyed_flatOverlay.strings hbCells hoCells hb ho
    refine ⟨m', r, _, hmerge, ⟨_, fun _ hx => hx.2, hresult⟩, rfl, ?_⟩
    have hnone : nodeAt (mergeTree baseDocument flatOverlay) ["advertisement", "local_name"] = none :=
      rfl
    rw [hnone]
    exact fun heq => by cases heq
  · obtain ⟨bCells, hbCells, hb⟩ := held_loadedBase nullOverlay
    obtain ⟨oCells, hoCells, ho⟩ := held_loadedOverlay nullOverlay
    obtain ⟨m', r, hmerge, _, hresult⟩ := deepMerge_stores 3 (by decide) (by decide)
      wellKeyed_nullOverlay.strings hbCells hoCells hb ho
    refine ⟨m', r, _, hmerge, ⟨_, fun _ hx => hx.2, hresult⟩, rfl, ?_⟩
    have hnull : nodeAt (mergeTree baseDocument nullOverlay) ["mesh_token"] = some .null := rfl
    rw [hnull]
    exact fun heq => by cases heq

end UavBluetooth.Config
