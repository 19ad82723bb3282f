import UavBluetooth.Network.NetplanEdit
import UavBluetooth.Network.NetplanManager

set_option autoImplicit false

/-! # What is written of a netplan document

The edit gives one node of the document new contents: the access points of `wlan0` or, if it has
none, `wlan0` itself (`Changed`). What `write_netplan` writes is the edited document exactly if the
document has `network.wifis.wlan0`, and nothing beside the way there leads to that node through an
alias (`writeNetplan_rewrites_iff`).
-/

namespace UavBluetooth.Yaml

/-! ## Maps among nodes -/

def Data.keys : Data → List Nat
  | .map pairs => pairs.map Prod.fst
  | _ => []

def Data.values : Data → List Nat
  | .sequence items => items
  | .map pairs => pairs.map Prod.snd
  | _ => []

/-- The node under a key. -/
def Memory.valueAt (m : Memory) (n : Nat) (key : String) : Option Nat :=
  match m.content n with
  | .map pairs => (pairs.find? fun pair => isKeyNode m key pair.1).map Prod.snd
  | _ => none

/-- The values of a map but the one under a key. -/
def Memory.others (m : Memory) (n : Nat) (key : String) : List Nat :=
  match m.content n with
  | .map pairs => (pairs.eraseP fun pair => isKeyNode m key pair.1).map Prod.snd
  | _ => []

section

variable {m m' : Memory} {depth depth' n v : Nat} {key : String} {pairs : List (Nat × Nat)}

theorem Memory.mem_children_of_key (h : v ∈ (m.content n).keys) : v ∈ m.children n := by
  rw [Memory.children]
  cases hcontent : m.content n with
  | map pairs =>
      rw [hcontent] at h
      exact List.mem_append_left _ h
  | undefined => rw [hcontent] at h; cases h
  | null => rw [hcontent] at h; cases h
  | scalar text => rw [hcontent] at h; cases h
  | sequence items => rw [hcontent] at h; cases h

theorem Memory.mem_children_of_value (h : v ∈ (m.content n).values) : v ∈ m.children n := by
  rw [Memory.children]
  cases hcontent : m.content n with
  | map pairs =>
      rw [hcontent] at h
      exact List.mem_append_right _ h
  | sequence items =>
      rw [hcontent] at h
      exact h
  | undefined => rw [hcontent] at h; cases h
  | null => rw [hcontent] at h; cases h
  | scalar text => rw [hcontent] at h; cases h

/-- A value that is found is one of a map. -/
theorem Memory.valueAt_eq_some (h : m.valueAt n key = some v) :
    ∃ pairs k, m.content n = .map pairs ∧
      (pairs.find? fun pair => isKeyNode m key pair.1) = some (k, v) := by
  unfold Memory.valueAt at h
  cases hcontent : m.content n with
  | map pairs =>
      rw [hcontent] at h
      obtain ⟨⟨k, v'⟩, hfind, rfl⟩ := Option.map_eq_some_iff.mp h
      exact ⟨pairs, k, rfl, hfind⟩
  | undefined => rw [hcontent] at h; cases h
  | null => rw [hcontent] at h; cases h
  | scalar text => rw [hcontent] at h; cases h
  | sequence items => rw [hcontent] at h; cases h

theorem Memory.value_mem (h : m.valueAt n key = some v) : v ∈ (m.content n).values := by
  obtain ⟨pairs, k, hcontent, hfind⟩ := Memory.valueAt_eq_some h
  rw [hcontent]
  exact List.mem_map_of_mem (f := Prod.snd) (List.mem_of_find?_eq_some hfind)

theorem Memory.others_subset (h : v ∈ m.others n key) : v ∈ (m.content n).values := by
  unfold Memory.others at h
  cases hcontent : m.content n with
  | map pairs =>
      rw [hcontent] at h
      obtain ⟨pair, hpair, rfl⟩ := List.mem_map.mp h
      exact List.mem_map_of_mem (f := Prod.snd) (List.mem_of_mem_eraseP hpair)
  | undefined => rw [hcontent] at h; cases h
  | null => rw [hcontent] at h; cases h
  | scalar text => rw [hcontent] at h; cases h
  | sequence items => rw [hcontent] at h; cases h

theorem subscript_of_valueAt (h : m.valueAt n key = some v) : subscript m n key = .ok (m, v) := by
  obtain ⟨pairs, k, hcontent, hfind⟩ := Memory.valueAt_eq_some h
  simp only [subscript, hcontent, hfind]

/-- What is found depends on the map and its keys. -/
theorem Memory.valueAt_congr (hcontent : m'.content n = m.content n)
    (hkeys : ∀ k ∈ (m.content n).keys, m'.content k = m.content k) :
    m'.valueAt n key = m.valueAt n key := by
  unfold Memory.valueAt
  rw [hcontent]
  cases hmap : m.content n with
  | map pairs =>
      rw [hmap] at hkeys
      refine congrArg (Option.map Prod.snd) (List.find?_congr fun pair hpair => ?_)
      unfold isKeyNode
      rw [hkeys pair.1 (List.mem_map_of_mem hpair)]
  | undefined => rfl
  | null => rfl
  | scalar text => rfl
  | sequence items => rfl

theorem Memory.isKey_treeOf {k : Nat} (h : m.within depth k = true) :
    (m.treeOf depth k).isKey key = isKeyNode m key k := by
  cases depth with
  | zero => cases h
  | succ depth =>
      unfold Memory.treeOf isKeyNode
      cases m.content k <;> rfl

/-- A map is unfolded pair by pair. -/
theorem Memory.treeOf_map (h : m.content n = .map pairs) :
    m.treeOf (depth + 1) n =
      .map (pairs.map fun pair => (m.treeOf depth pair.1, m.treeOf depth pair.2)) := by
  rw [Memory.treeOf, h]

theorem Memory.get_treeOf (h : m.within (depth + 1) n = true) :
    (m.treeOf (depth + 1) n).get key = (m.valueAt n key).map (m.treeOf depth) := by
  have hbelow := (Memory.within_succ.mp h).2
  rw [Memory.children] at hbelow
  unfold Memory.valueAt
  cases hcontent : m.content n with
  | map pairs =>
      rw [hcontent] at hbelow
      have hkeys : ∀ pair ∈ pairs, (m.treeOf depth pair.1).isKey key = isKeyNode m key pair.1 :=
        fun pair hpair => Memory.isKey_treeOf (hbelow _
          (List.mem_append_left _ (List.mem_map_of_mem hpair)))
      rw [Memory.treeOf_map hcontent, Node.get, Node.entries, List.find?_map, Option.map_map,
        Option.map_map]
      refine congrArg₂ Option.map rfl (List.find?_congr fun pair hpair => ?_)
      exact hkeys pair hpair
  | undefined => rw [Memory.treeOf, hcontent]; rfl
  | null => rw [Memory.treeOf, hcontent]; rfl
  | scalar text => rw [Memory.treeOf, hcontent]; rfl
  | sequence items => rw [Memory.treeOf, hcontent]; rfl

end

end UavBluetooth.Yaml

namespace UavBluetooth.Network

open Fallible Util Yaml

/-! ## One level of the way -/

section

variable {m m' : Memory} {depth extra n v : Nat} {key : String} {t : Node}
  {pairs : List (Nat × Nat)} {f f' : Nat → Node}

/-- Pair by pair, the value under the key is the one that is set, and the others are as they
were. -/
theorem map_eq_setKey_iff {found : Nat × Nat}
    (hfind : (pairs.find? fun pair => isKeyNode m key pair.1) = some found)
    (hkeys : ∀ pair ∈ pairs, (f pair.1).isKey key = isKeyNode m key pair.1)
    (hsame : ∀ pair ∈ pairs, f' pair.1 = f pair.1) :
    (pairs.map fun pair => (f' pair.1, f' pair.2)) =
        setKey key t (pairs.map fun pair => (f pair.1, f pair.2)) ↔
      f' found.2 = t ∧
        ∀ x ∈ (pairs.eraseP fun pair => isKeyNode m key pair.1).map Prod.snd, f' x = f x := by
  induction pairs with
  | nil => cases hfind
  | cons pair rest ih =>
      have hrestKeys := fun other hother => hkeys other (List.mem_cons_of_mem _ hother)
      have hrestSame := fun other hother => hsame other (List.mem_cons_of_mem _ hother)
      rw [List.map_cons, List.map_cons, setKey, hkeys pair List.mem_cons_self,
        hsame pair List.mem_cons_self]
      rw [List.find?_cons] at hfind
      cases hpair : isKeyNode m key pair.1 with
      | true =>
          rw [hpair] at hfind
          obtain rfl := Option.some.inj hfind
          simp only [List.eraseP_cons, hpair, cond_true, if_true]
          rw [List.cons.injEq, Prod.mk.injEq]
          refine and_congr (and_iff_right rfl) ?_
          rw [List.map_inj_left]
          simp only [List.mem_map, forall_exists_index, and_imp, forall_apply_eq_imp_iff₂,
            Prod.mk.injEq]
          exact forall₂_congr fun other hother => and_iff_right (hrestSame other hother)
      | false =>
          rw [hpair] at hfind
          simp only [List.eraseP_cons, hpair, cond_false, Bool.false_eq_true, if_false]
          rw [List.map_cons, List.forall_mem_cons, List.cons.injEq,
            Prod.mk.injEq, ih hfind hrestKeys hrestSame, and_iff_right rfl]
          exact and_left_comm

/-- A level where nothing is entered. -/
theorem treeOf_level_iff (hvalue : m.valueAt n key = some v)
    (hwithin : m.within (depth + 1) n = true) (hcontent : m'.content n = m.content n)
    (hsame : ∀ k ∈ (m.content n).keys, m'.treeOf (depth + extra) k = m.treeOf depth k) :
    m'.treeOf (depth + 1 + extra) n = setAt t [key] (m.treeOf (depth + 1) n) ↔
      m'.treeOf (depth + extra) v = t ∧
        ∀ x ∈ m.others n key, m'.treeOf (depth + extra) x = m.treeOf depth x := by
  obtain ⟨pairs, k, hmap, hfind⟩ := Memory.valueAt_eq_some hvalue
  have hbelow := (Memory.within_succ.mp hwithin).2
  rw [Memory.children, hmap] at hbelow
  rw [hmap] at hsame
  rw [Nat.add_right_comm, Memory.treeOf_map (hcontent.trans hmap), Memory.treeOf_map hmap, setAt,
    setAt, Node.map.injEq, Memory.others, hmap]
  refine map_eq_setKey_iff hfind (fun pair hpair => ?_) fun pair hpair => ?_
  · exact Memory.isKey_treeOf (hbelow _ (List.mem_append_left _ (List.mem_map_of_mem hpair)))
  · exact hsame _ (List.mem_map_of_mem hpair)

end

/-! ## The node that is changed -/

/-- The nodes on the way to `wlan0`. -/
structure Way (m : Memory) (root network wifis interface : Nat) : Prop where
  atNetwork : m.valueAt root "network" = some network
  atWifis : m.valueAt network "wifis" = some wifis
  atWlan0 : m.valueAt wifis "wlan0" = some interface

/-- The node gets new contents: it is the access points of `wlan0`, or refers to its map if there
are none. -/
def Changed (m : Memory) (interface y : Nat) : Prop :=
  match m.valueAt interface "access-points" with
  | some points => y = points
  | none => m.ref y = m.ref interface

/-- The values beside the way. -/
def beside (m : Memory) (root network wifis interface : Nat) : List Nat :=
  m.others root "network" ++ m.others network "wifis" ++ m.others wifis "wlan0" ++
    m.others interface "access-points"

instance (m : Memory) (interface y : Nat) : Decidable (Changed m interface y) := by
  unfold Changed
  cases m.valueAt interface "access-points" <;> infer_instance

/-- Nothing beside the way leads to the node that is changed. -/
def Alone (config : Document) : Prop :=
  ∀ network wifis interface, Way config.memory config.root network wifis interface →
    ∀ x ∈ beside config.memory config.root network wifis interface, ∀ y,
      config.memory.Reaches x y → ¬Changed config.memory interface y

/-- No key of the document is also a value of it. -/
def OwnKeys (config : Document) : Prop :=
  ∀ n n', config.memory.Reaches config.root n → config.memory.Reaches config.root n' →
    ∀ k ∈ (config.memory.content n).keys, k ∉ (config.memory.content n').values

/-- What the edit does: the node that is changed is the requested access points now, or a map in
which they have been entered. -/
structure Edited (m m' : Memory) (interface : Nat) (aps : Node) : Prop where
  same : ∀ y < m.next, ¬Changed m interface y → m'.content y = m.content y
  assigned : ∀ points, m.valueAt interface "access-points" = some points →
    ∀ depth, 3 ≤ depth → m'.treeOf depth points = aps
  entered : m.valueAt interface "access-points" = none → ∀ pairs, m.content interface = .map pairs →
    ∃ key slot, m'.content key = .scalar "access-points" ∧
      (∀ depth, 3 ≤ depth → m'.treeOf depth slot = aps) ∧
      ∀ y < m.next, m.ref y = m.ref interface → m'.content y = .map (pairs ++ [(key, slot)])

section

variable {m : Memory} {depth root network wifis interface y c k n : Nat}

/-- What is above `wlan0` is not changed. -/
theorem not_changed_of_above (hy : m.within depth y = true) (hc : c ∈ m.children y)
    (hreach : m.Reaches c interface) : ¬Changed m interface y := by
  have hinterface : m.within depth interface = true :=
    Memory.within_of_reaches hy (.head hc hreach)
  unfold Changed
  split
  · rename_i points hpoints
    rintro rfl
    refine Memory.not_reaches_of_child hy hc (hreach.tail ?_)
    exact Memory.mem_children_of_value (Memory.value_mem hpoints)
  · intro href
    have hcontent : m.content y = m.content interface := congrArg m.data href
    refine Memory.not_reaches_of_child hinterface (c := c) ?_ hreach
    rwa [Memory.children, ← hcontent]

theorem Way.unique {network' wifis' interface' : Nat} (h : Way m root network wifis interface)
    (h' : Way m root network' wifis' interface') :
    network = network' ∧ wifis = wifis' ∧ interface = interface' := by
  obtain rfl := Option.some.inj (h.atNetwork.symm.trans h'.atNetwork)
  obtain rfl := Option.some.inj (h.atWifis.symm.trans h'.atWifis)
  exact ⟨rfl, rfl, Option.some.inj (h.atWlan0.symm.trans h'.atWlan0)⟩

theorem Way.child_network (h : Way m root network wifis interface) : network ∈ m.children root :=
  Memory.mem_children_of_value (Memory.value_mem h.atNetwork)

theorem Way.child_wifis (h : Way m root network wifis interface) : wifis ∈ m.children network :=
  Memory.mem_children_of_value (Memory.value_mem h.atWifis)

theorem Way.child_interface (h : Way m root network wifis interface) :
    interface ∈ m.children wifis := Memory.mem_children_of_value (Memory.value_mem h.atWlan0)

theorem Way.reaches_wifis (h : Way m root network wifis interface) : m.Reaches root wifis :=
  .head h.child_network (.single h.child_wifis)

theorem Way.reaches_interface (h : Way m root network wifis interface) :
    m.Reaches root interface := h.reaches_wifis.tail h.child_interface

theorem Way.root_same (h : Way m root network wifis interface) (hroot : m.within depth root = true) :
    ¬Changed m interface root :=
  not_changed_of_above hroot h.child_network (.head h.child_wifis (.single h.child_interface))

theorem Way.network_same (h : Way m root network wifis interface)
    (hroot : m.within depth root = true) : ¬Changed m interface network :=
  not_changed_of_above (Memory.within_of_reaches hroot (.single h.child_network)) h.child_wifis
    (.single h.child_interface)

theorem Way.wifis_same (h : Way m root network wifis interface)
    (hroot : m.within depth root = true) : ¬Changed m interface wifis :=
  not_changed_of_above (Memory.within_of_reaches hroot h.reaches_wifis) h.child_interface .refl

end

/-! ## What the edit does -/

theorem height_requestedAps (ssid : String) (password : Option String) (previousPassword : String) :
    height (requestedAps ssid password previousPassword) ≤ 3 := by
  have hconfig : height (accessPointConfig password previousPassword) ≤ 2 := by
    unfold accessPointConfig
    dsimp only
    split
    · simp [height, heightEntries]
    · split <;> simp [height, heightEntries]
  simp only [requestedAps, height, heightEntries]
  omega

section

variable {m m₁ : Memory} {interface aps points : Nat} {t : Node} {pairs : List (Nat × Nat)}

/-- The node of the access points gets a new tree. -/
theorem edited_assign (hclosed : m.Closed) (hext : m.Extends m₁)
    (hstores : Stores m₁ t (newCells m m₁) aps) (hheight : height t ≤ 3)
    (hpoints : m.valueAt interface "access-points" = some points) (hold : points < m.next) :
    Edited m (m₁.assign points aps) interface t where
  same := by
    intro y hy hne
    rw [Changed, hpoints] at hne
    exact (Memory.content_assign_of_ne hne).trans (hext.content_eq hclosed hy)
  assigned := by
    intro points' hpoints' depth hdepth
    obtain rfl : points = points' := Option.some.inj (hpoints.symm.trans hpoints')
    have hnew : points ∉ newCells m m₁ := fun hmem => absurd hmem.1 (Nat.not_le_of_lt hold)
    exact (hstores.assign hnew).treeOf_eq (hheight.trans hdepth)
  entered := fun hnone => by rw [hpoints] at hnone; cases hnone

/-- Access points are entered in the map of `wlan0`, for all that refer to it. -/
theorem edited_enter (hclosed : m.Closed) (hclosed' : m₁.Closed) (hext : m.Extends m₁)
    (hstores : Stores m₁ t (newCells m m₁) aps) (hheight : height t ≤ 3)
    (hpoints : m.valueAt interface "access-points" = none)
    (hvalue : m₁.valueAt interface "access-points" = none)
    (hcontent : m.content interface = .map pairs) (hold : interface < m.next) :
    ∃ m₂ slot, subscript m₁ interface "access-points" = .ok (m₂, slot) ∧
      Edited m (m₂.assign slot aps) interface t := by
  have hcontent₁ : m₁.content interface = .map pairs := (hext.content_eq hclosed hold).trans hcontent
  have hfind : (pairs.find? fun pair => isKeyNode m₁ "access-points" pair.1) = none := by
    rw [Memory.valueAt, hcontent₁] at hvalue
    exact Option.map_eq_none_iff.mp hvalue
  have hold₁ : ∀ {y}, y < m.next → y < m₁.next := fun hy => hy.trans_le hext.next
  have href : ∀ {y}, y < m.next → m₁.ref y = m.ref y := fun hy => (hext.agrees _ hy).1
  obtain ⟨m₂, hsubscript, hentered⟩ := subscript_absent hcontent₁ hfind
    ⟨hold₁ hold, hclosed'.ref interface (hold₁ hold)⟩
  have hslot : ∀ {y}, y < m.next → y ≠ m₁.next + 1 := fun hy =>
    Nat.ne_of_lt (Nat.lt_succ_of_lt (hold₁ hy))
  refine ⟨m₂, m₁.next + 1, hsubscript, ⟨fun y hy hne => ?_, fun points hsome => ?_,
    fun _ pairs' hpairs' => ⟨m₁.next, m₁.next + 1, ?_, fun depth hdepth => ?_,
      fun y hy hsameRef => ?_⟩⟩⟩
  · rw [Changed, hpoints, ← href hy, ← href hold] at hne
    rw [Memory.content_assign_of_ne (hslot hy), ← hext.content_eq hclosed hy, Memory.content,
      hentered.ref y (hold₁ hy)]
    exact (hentered.agrees _ ⟨hclosed'.ref y (hold₁ hy), hne⟩).2
  · rw [hpoints] at hsome
    cases hsome
  · have hkey := hentered.key
    rw [Stores] at hkey
    rw [Memory.content_assign_of_ne (Nat.ne_of_lt (Nat.lt_succ_self _))]
    exact hkey.2
  · -- The tree is in cells of its own, and entering the pair has not touched them.
    have hframe : m₁.Agrees m₂ (newCells m m₁) := by
      refine hentered.agrees.mono fun x hx => ⟨hx.2, fun heq => ?_⟩
      have hlow : m₁.ref interface < m.next := by
        rw [href hold]
        exact hclosed.ref interface hold
      rw [heq] at hx
      exact absurd hx.1 (Nat.not_le_of_lt hlow)
    have hnew : m₁.next + 1 ∉ newCells m m₁ := fun hmem => absurd hmem.2 (by omega)
    exact ((hstores.frame hframe).assign hnew).treeOf_eq (hheight.trans hdepth)
  · obtain rfl : pairs = pairs' := Data.map.inj (hcontent.symm.trans hpairs')
    rw [Memory.content_assign_of_ne (hslot hy), ← hentered.content, Memory.content,
      Memory.content, hentered.ref y (hold₁ hy), hentered.ref interface (hold₁ hold), href hy,
      href hold, hsameRef]

end

/-- **The edit of a document with `wlan0`** gives that one node its new contents. -/
theorem editNodes_edited {config : Document} {network wifis interface : Nat}
    (way : Way config.memory config.root network wifis interface)
    (hmap : (config.memory.content interface).isMap = true)
    (hkeys : ∀ n, config.memory.Reaches config.root n → ∀ k ∈ (config.memory.content n).keys,
      ¬Changed config.memory interface k)
    (hostname ssid : String) (password : Option String) (previousPassword : String) :
    ∃ m', editNodes hostname config.memory config.root ssid password previousPassword = .ok m' ∧
      Edited config.memory m' interface (requestedAps ssid password previousPassword) := by
  obtain ⟨m, root, depth, hwithin, hclosed, hroot⟩ := config
  dsimp only at way hmap hkeys ⊢
  have hlt : ∀ {y}, m.Reaches root y → y < m.next := fun hy => hclosed.reaches_lt hroot hy
  have hinterface : m.Reaches root interface := way.reaches_interface
  have hkeyReach : ∀ {n k}, m.Reaches root n → k ∈ (m.content n).keys → m.Reaches root k :=
    fun hn hk => hn.tail (Memory.mem_children_of_key hk)
  -- The way is there, so the maps on it are kept as they are.
  have hnetwork : (m.content network).isMap = true := by
    obtain ⟨pairs, _, hcontent, _⟩ := Memory.valueAt_eq_some way.atWifis
    rw [hcontent]
    rfl
  have hwifis : hasEntries (m.content wifis) = true := by
    obtain ⟨pairs, _, hcontent, hfind⟩ := Memory.valueAt_eq_some way.atWlan0
    rw [hcontent]
    cases pairs with
    | nil => cases hfind
    | cons pair rest => rfl
  have hheight := height_requestedAps ssid password previousPassword
  obtain ⟨hext, hstores⟩ := load_stores (requestedAps ssid password previousPassword) m
  have hclosed' := closed_load (requestedAps ssid password previousPassword) hclosed
  have hedit : ∀ {m₂ slot}, subscript (load m (requestedAps ssid password previousPassword)).1
      interface "access-points" = .ok (m₂, slot) →
      (m₂.assign slot (load m (requestedAps ssid password previousPassword)).2).valueAt wifis
        "wlan0" = some interface →
      editNodes hostname m root ssid password previousPassword =
        .ok (m₂.assign slot (load m (requestedAps ssid password previousPassword)).2) := by
    intro m₂ slot hslot hsecond
    simp only [editNodes, subscript_of_valueAt way.atNetwork, subscript_of_valueAt way.atWifis,
      subscript_of_valueAt way.atWlan0, orElse, hnetwork, hwifis, hmap, hslot,
      subscript_of_valueAt hsecond, bind, Except.bind, pure, Except.pure, if_true]
    rw [Memory.assign, Function.update_eq_self]
  revert hext hstores hclosed' hedit
  generalize load m (requestedAps ssid password previousPassword) = loaded
  obtain ⟨m₁, aps⟩ := loaded
  intro hext hstores hclosed' hedit
  dsimp only at hext hstores hclosed' hedit
  -- The second subscript finds `wlan0` again if its map and the keys of it are as they were.
  have hsecond : ∀ {m₂ : Memory}, (∀ y < m.next, ¬Changed m interface y →
      m₂.content y = m.content y) → m₂.valueAt wifis "wlan0" = some interface := by
    intro m₂ hsame
    refine (Memory.valueAt_congr (hsame _ (hlt way.reaches_wifis) (way.wifis_same hwithin))
      fun k hk => ?_).trans way.atWlan0
    exact hsame _ (hlt (hkeyReach way.reaches_wifis hk)) (hkeys _ way.reaches_wifis k hk)
  have hvalue : m₁.valueAt interface "access-points" = m.valueAt interface "access-points" :=
    Memory.valueAt_congr (hext.content_eq hclosed (hlt hinterface)) fun k hk =>
      hext.content_eq hclosed (hlt (hkeyReach hinterface hk))
  cases hpoints : m.valueAt interface "access-points" with
  | some points =>
      have hold : points < m.next :=
        hlt (hinterface.tail (Memory.mem_children_of_value (Memory.value_mem hpoints)))
      have hedited := edited_assign hclosed hext hstores hheight hpoints hold
      exact ⟨_, hedit (subscript_of_valueAt (hvalue.trans hpoints)) (hsecond hedited.same), hedited⟩
  | none =>
      obtain ⟨pairs, hcontent⟩ := Data.exists_pairs hmap
      obtain ⟨m₂, slot, hslot, hedited⟩ := edited_enter hclosed hclosed' hext hstores hheight
        hpoints (hvalue.trans hpoints) hcontent (hlt hinterface)
      exact ⟨_, hedit hslot (hsecond hedited.same), hedited⟩

/-! ## Text keys among nodes -/

section

variable {m : Memory} {depth root n c k : Nat}

theorem stringKeys_child (hkeys : stringKeys (m.treeOf (depth + 1) n) = true)
    (hc : c ∈ m.children n) : stringKeys (m.treeOf depth c) = true := by
  rw [Memory.treeOf] at hkeys
  rw [Memory.children] at hc
  cases hcontent : m.content n with
  | undefined => rw [hcontent] at hc; cases hc
  | null => rw [hcontent] at hc; cases hc
  | scalar text => rw [hcontent] at hc; cases hc
  | sequence items =>
      rw [hcontent] at hc hkeys
      rw [stringKeys, stringKeysItems_iff] at hkeys
      exact hkeys _ (List.mem_map_of_mem hc)
  | map pairs =>
      rw [hcontent] at hc hkeys
      rw [stringKeys, stringKeysEntries_iff] at hkeys
      rcases List.mem_append.mp hc with hc | hc
      · obtain ⟨pair, hpair, rfl⟩ := List.mem_map.mp hc
        obtain ⟨text, htext⟩ := (hkeys _ (List.mem_map_of_mem hpair)).1
        dsimp only at htext
        rw [htext]
        rfl
      · obtain ⟨pair, hpair, rfl⟩ := List.mem_map.mp hc
        exact (hkeys _ (List.mem_map_of_mem hpair)).2

/-- The keys of a document with text keys are texts. -/
theorem key_scalar (h : m.within depth root = true) (hkeys : stringKeys (m.treeOf depth root) = true)
    (hn : m.Reaches root n) (hk : k ∈ (m.content n).keys) : ∃ text, m.content k = .scalar text := by
  induction depth generalizing root with
  | zero => cases h
  | succ depth ih =>
      rcases Relation.ReflTransGen.cases_head hn with rfl | ⟨c, hc, hreach⟩
      · have hbelow := (Memory.within_succ.mp h).2 k (Memory.mem_children_of_key hk)
        cases hcontent : m.content root with
        | map pairs =>
            rw [hcontent] at hk
            obtain ⟨pair, hpair, rfl⟩ := List.mem_map.mp hk
            rw [Memory.treeOf_map hcontent, stringKeys, stringKeysEntries_iff] at hkeys
            obtain ⟨text, htext⟩ := (hkeys _ (List.mem_map_of_mem hpair)).1
            refine ⟨text, ?_⟩
            cases depth with
            | zero => cases hbelow
            | succ depth =>
                dsimp only at htext hbelow
                rw [Memory.treeOf] at htext
                cases hkey : m.content pair.1 with
                | scalar text' =>
                    rw [hkey] at htext
                    rw [Node.scalar.inj htext]
                | undefined => rw [hkey] at htext; cases htext
                | null => rw [hkey] at htext; cases htext
                | sequence items => rw [hkey] at htext; cases htext
                | map pairs => rw [hkey] at htext; cases htext
        | undefined => rw [hcontent] at hk; cases hk
        | null => rw [hcontent] at hk; cases hk
        | scalar text => rw [hcontent] at hk; cases hk
        | sequence items => rw [hcontent] at hk; cases hk
      · exact ih ((Memory.within_succ.mp h).2 c hc) (stringKeys_child hkeys hc) hreach

end

section

variable {config : Document} {network wifis interface n k : Nat}

/-- A key is not the node that is changed: it is no value, and no map. -/
theorem not_changed_of_key (hkeys : stringKeys config.tree = true) (hown : OwnKeys config)
    (way : Way config.memory config.root network wifis interface)
    (hmap : (config.memory.content interface).isMap = true)
    (hn : config.memory.Reaches config.root n) (hk : k ∈ (config.memory.content n).keys) :
    ¬Changed config.memory interface k := by
  unfold Changed
  split
  · rename_i points hpoints
    rintro rfl
    exact hown n interface hn way.reaches_interface k hk (Memory.value_mem hpoints)
  · intro href
    obtain ⟨text, htext⟩ := key_scalar config.within hkeys hn hk
    have hcontent : config.memory.content k = config.memory.content interface :=
      congrArg config.memory.data href
    rw [← hcontent, htext] at hmap
    cases hmap

/-! ## The edited tree -/

/-- A key that is missing is entered last. -/
theorem setKey_absent {key : String} {value : Node} {entries : List (Node × Node)}
    (h : ∀ entry ∈ entries, entry.1.isKey key = false) :
    setKey key value entries = entries ++ [(.scalar key, value)] := by
  induction entries with
  | nil => rfl
  | cons entry entries ih =>
      rw [List.forall_mem_cons] at h
      rw [setKey, h.1, if_neg Bool.false_ne_true, ih h.2, List.cons_append]

variable {m' : Memory} {aps : Node} {depth : Nat}

/-- The level of `wlan0`. -/
theorem Edited.interface_level (h : Edited config.memory m' interface aps)
    (hreach : config.memory.Reaches config.root interface)
    (hmap : (config.memory.content interface).isMap = true)
    (hwithin : config.memory.within (depth + 1) interface = true)
    (hsame : ∀ k ∈ (config.memory.content interface).keys,
      m'.treeOf (depth + 6) k = config.memory.treeOf depth k) :
    m'.treeOf (depth + 1 + 6) interface =
        setAt aps ["access-points"] (config.memory.treeOf (depth + 1) interface) ↔
      ∀ x ∈ config.memory.others interface "access-points",
        m'.treeOf (depth + 6) x = config.memory.treeOf depth x := by
  have hold := config.closed.reaches_lt config.root_lt hreach
  cases hpoints : config.memory.valueAt interface "access-points" with
  | some points =>
      have hne : ¬Changed config.memory interface interface := by
        rw [Changed, hpoints]
        rintro rfl
        exact Memory.not_reaches_of_child hwithin
          (Memory.mem_children_of_value (Memory.value_mem hpoints)) .refl
      rw [treeOf_level_iff hpoints hwithin (h.same _ hold hne) hsame]
      exact and_iff_right (h.assigned points hpoints _ (by omega))
  | none =>
      obtain ⟨pairs, hcontent⟩ := Data.exists_pairs hmap
      obtain ⟨key, slot, hkey, hslot, hentered⟩ := h.entered hpoints pairs hcontent
      have hnone : ∀ pair ∈ pairs, isKeyNode config.memory "access-points" pair.1 = false := by
        rw [Memory.valueAt, hcontent] at hpoints
        have hfind := List.find?_eq_none.mp (Option.map_eq_none_iff.mp hpoints)
        exact fun pair hpair => Bool.eq_false_iff.mpr (hfind pair hpair)
      have hbelow := (Memory.within_succ.mp hwithin).2
      rw [Memory.children, hcontent] at hbelow
      rw [hcontent] at hsame
      have hentries : ∀ entry ∈ pairs.map (fun pair =>
          (config.memory.treeOf depth pair.1, config.memory.treeOf depth pair.2)),
          entry.1.isKey "access-points" = false := by
        intro entry hentry
        obtain ⟨pair, hpair, rfl⟩ := List.mem_map.mp hentry
        exact (Memory.isKey_treeOf (hbelow _
          (List.mem_append_left _ (List.mem_map_of_mem hpair)))).trans (hnone pair hpair)
      have hkeyTree : m'.treeOf (depth + 6) key = .scalar "access-points" := by
        rw [Memory.treeOf, hkey]
      rw [Nat.add_right_comm, Memory.treeOf_map (hentered interface hold rfl),
        Memory.treeOf_map hcontent, setAt, setAt, Node.entries, setKey_absent hentries,
        Node.map.injEq, List.map_append, List.map_cons, List.map_nil, hkeyTree, hslot _ (by omega),
        List.append_left_inj, List.map_inj_left, Memory.others, hcontent]
      simp only
      rw [List.eraseP_of_forall_not fun pair hpair => by rw [hnone pair hpair]; exact Bool.false_ne_true]
      simp only [List.mem_map, forall_exists_index, and_imp, forall_apply_eq_imp_iff₂,
        Prod.mk.injEq]
      exact forall₂_congr fun pair hpair => and_iff_right (hsame _ (List.mem_map_of_mem hpair))

/-- The trees of keys are as they were. -/
theorem Edited.key_same (h : Edited config.memory m' interface aps)
    (hkeys : stringKeys config.tree = true) (hown : OwnKeys config)
    (way : Way config.memory config.root network wifis interface)
    (hmap : (config.memory.content interface).isMap = true)
    (hn : config.memory.Reaches config.root n)
    (hwithin : config.memory.within (depth + 1) n = true) :
    ∀ k ∈ (config.memory.content n).keys,
      m'.treeOf (depth + 6) k = config.memory.treeOf depth k := by
  intro k hk
  have hchild := Memory.mem_children_of_key hk
  obtain ⟨text, htext⟩ := key_scalar config.within hkeys hn hk
  have hsame := h.same k (config.closed.reaches_lt config.root_lt (hn.tail hchild))
    (not_changed_of_key hkeys hown way hmap hn hk)
  cases depth with
  | zero => cases (Memory.within_succ.mp hwithin).2 k hchild
  | succ depth =>
      rw [Nat.add_right_comm]
      refine Memory.treeOf_congr hsame fun c hc => ?_
      rw [Memory.children, htext] at hc
      cases hc

/-- What an edited tree has at a node: the tree that was there, exactly if the requested access
points were there already or the node that is changed is not reached. -/
theorem Edited.treeOf_iff {x : Nat} (h : Edited config.memory m' interface aps)
    (hmap : (config.memory.content interface).isMap = true)
    (hx : config.memory.Reaches config.root x) (hwithin : config.memory.within depth x = true)
    {deeper : Nat} (hinterface : config.memory.within (deeper + 1) interface = true) :
    m'.treeOf (depth + 6) x = config.memory.treeOf depth x ↔
      (config.memory.treeOf (deeper + 1) interface).get "access-points" = some aps ∨
        ∀ y, config.memory.Reaches x y → ¬Changed config.memory interface y := by
  have hsame : ∀ y, config.memory.Reaches x y → ¬Changed config.memory interface y →
      m'.content y = config.memory.content y :=
    fun y hy => h.same y (config.closed.reaches_lt config.root_lt (hx.trans hy))
  rw [Memory.get_treeOf hinterface]
  cases hpoints : config.memory.valueAt interface "access-points" with
  | some points =>
      have hchanged : ∀ y, Changed config.memory interface y ↔ y = points := by
        intro y
        rw [Changed, hpoints]
      have hdeeper : config.memory.within deeper points = true :=
        (Memory.within_succ.mp hinterface).2 points
          (Memory.mem_children_of_value (Memory.value_mem hpoints))
      rw [Option.map_some, Option.some.injEq]
      by_cases halready : config.memory.treeOf deeper points = aps
      · refine iff_of_true (Memory.treeOf_unchanged hsame ?_ hwithin) (Or.inl halready)
        intro y k _ hy hk
        obtain rfl := (hchanged y).mp hy
        rw [h.assigned y hpoints _ (by omega), Memory.treeOf_eq_of_within hk hdeeper, halready]
      · rw [or_iff_right halready]
        refine Memory.treeOf_eq_iff hsame ?_ hwithin
        intro y k _ hy hk
        obtain rfl := (hchanged y).mp hy
        rw [h.assigned y hpoints _ (by omega), Memory.treeOf_eq_of_within hk hdeeper]
        exact fun heq => halready heq.symm
  | none =>
      rw [Option.map_none, or_iff_right (by simp)]
      refine Memory.treeOf_eq_iff hsame ?_ hwithin
      intro y k hy hychanged hk heq
      rw [Changed, hpoints] at hychanged
      obtain ⟨pairs, hcontent⟩ := Data.exists_pairs hmap
      obtain ⟨key, slot, _, _, hentered⟩ := h.entered hpoints pairs hcontent
      have hold : config.memory.content y = .map pairs :=
        (congrArg config.memory.data hychanged).trans hcontent
      -- An entry more makes another tree.
      cases k with
      | zero => cases hk
      | succ k =>
          rw [Nat.add_right_comm, Memory.treeOf_map (hentered y
            (config.closed.reaches_lt config.root_lt (hx.trans hy)) hychanged),
            Memory.treeOf_map hold, Node.map.injEq] at heq
          have hlength := congrArg List.length heq
          rw [List.length_map, List.length_map, List.length_append, List.length_singleton] at hlength
          omega

/-- **The tree that is edited** is the document with the requested access points set, exactly if
they were there already or nothing beside the way leads to the node that is changed. -/
theorem treeOf_edited_iff (h : Edited config.memory m' interface aps)
    (hkeys : stringKeys config.tree = true) (hown : OwnKeys config)
    (way : Way config.memory config.root network wifis interface)
    (hmap : (config.memory.content interface).isMap = true) :
    m'.treeOf (config.depth + 6) config.root =
        setAt aps (wlan0Path ++ ["access-points"]) config.tree ↔
      nodeAt config.tree (wlan0Path ++ ["access-points"]) = some aps ∨ Alone config := by
  have hroot := config.within
  unfold Document.tree
  obtain ⟨d₃, hdepth⟩ := Memory.exists_depth hroot
  rw [hdepth] at hroot ⊢
  have hnetwork := (Memory.within_succ.mp hroot).2 network way.child_network
  obtain ⟨d₂, rfl⟩ := Memory.exists_depth hnetwork
  have hwifis := (Memory.within_succ.mp hnetwork).2 wifis way.child_wifis
  obtain ⟨d₁, rfl⟩ := Memory.exists_depth hwifis
  have hinterface := (Memory.within_succ.mp hwifis).2 interface way.child_interface
  obtain ⟨d₀, rfl⟩ := Memory.exists_depth hinterface
  have hget₁ := @Memory.get_treeOf _ _ _ "network" hroot
  have hget₂ := @Memory.get_treeOf _ _ _ "wifis" hnetwork
  have hget₃ := @Memory.get_treeOf _ _ _ "wlan0" hwifis
  rw [way.atNetwork, Option.map_some] at hget₁
  rw [way.atWifis, Option.map_some] at hget₂
  rw [way.atWlan0, Option.map_some] at hget₃
  -- The four levels, from the root down.
  have hset : setAt aps (wlan0Path ++ ["access-points"])
      (config.memory.treeOf (d₀ + 1 + 1 + 1 + 1) config.root) =
        setAt (setAt (setAt (setAt aps ["access-points"] (config.memory.treeOf (d₀ + 1) interface))
          ["wlan0"] (config.memory.treeOf (d₀ + 1 + 1) wifis))
          ["wifis"] (config.memory.treeOf (d₀ + 1 + 1 + 1) network))
          ["network"] (config.memory.treeOf (d₀ + 1 + 1 + 1 + 1) config.root) := by
    simp only [wlan0Path, List.cons_append, List.nil_append, setAt, hget₁, hget₂, hget₃,
      Option.getD_some]
  have hnode : nodeAt (config.memory.treeOf (d₀ + 1 + 1 + 1 + 1) config.root)
      (wlan0Path ++ ["access-points"]) =
        (config.memory.treeOf (d₀ + 1) interface).get "access-points" := by
    simp only [wlan0Path, List.cons_append, List.nil_append, nodeAt, hget₁, hget₂, hget₃,
      Option.bind_some]
    exact Option.bind_fun_some _
  have hcontent : ∀ n, config.memory.Reaches config.root n → ¬Changed config.memory interface n →
      m'.content n = config.memory.content n :=
    fun n hn => h.same n (config.closed.reaches_lt config.root_lt hn)
  have hreach : config.memory.Reaches config.root network := .single way.child_network
  rw [hset, hnode,
    treeOf_level_iff way.atNetwork hroot (hcontent _ .refl (way.root_same hroot))
      (h.key_same hkeys hown way hmap .refl hroot),
    treeOf_level_iff way.atWifis hnetwork (hcontent _ hreach (way.network_same hroot))
      (h.key_same hkeys hown way hmap hreach hnetwork),
    treeOf_level_iff way.atWlan0 hwifis (hcontent _ way.reaches_wifis (way.wifis_same hroot))
      (h.key_same hkeys hown way hmap way.reaches_wifis hwifis),
    h.interface_level way.reaches_interface hmap hinterface
      (h.key_same hkeys hown way hmap way.reaches_interface hinterface)]
  have hother : ∀ {d n key x}, config.memory.Reaches config.root n →
      config.memory.within (d + 1) n = true → x ∈ config.memory.others n key →
      (m'.treeOf (d + 6) x = config.memory.treeOf d x ↔
        (config.memory.treeOf (d₀ + 1) interface).get "access-points" = some aps ∨
          ∀ y, config.memory.Reaches x y → ¬Changed config.memory interface y) := by
    intro d n key x hn hw hx
    have hchild := Memory.mem_children_of_value (Memory.others_subset hx)
    exact h.treeOf_iff hmap (hn.tail hchild) ((Memory.within_succ.mp hw).2 x hchild) hinterface
  constructor
  · rintro ⟨⟨⟨hat₀, hat₁⟩, hat₂⟩, hat₃⟩
    by_cases halready :
        (config.memory.treeOf (d₀ + 1) interface).get "access-points" = some aps
    · exact Or.inl halready
    · refine Or.inr fun network' wifis' interface' way' x hx => ?_
      obtain ⟨rfl, rfl, rfl⟩ := way.unique way'
      simp only [beside, List.mem_append] at hx
      rcases hx with ((hx | hx) | hx) | hx
      · exact ((hother .refl hroot hx).mp (hat₃ x hx)).resolve_left halready
      · exact ((hother hreach hnetwork hx).mp (hat₂ x hx)).resolve_left halready
      · exact ((hother way.reaches_wifis hwifis hx).mp (hat₁ x hx)).resolve_left halready
      · exact ((hother way.reaches_interface hinterface hx).mp (hat₀ x hx)).resolve_left halready
  · intro hcondition
    have hall : ∀ x ∈ beside config.memory config.root network wifis interface,
        (config.memory.treeOf (d₀ + 1) interface).get "access-points" = some aps ∨
          ∀ y, config.memory.Reaches x y → ¬Changed config.memory interface y :=
      fun x hx => hcondition.imp_right fun halone => halone network wifis interface way x hx
    simp only [beside, List.mem_append] at hall
    exact ⟨⟨⟨fun x hx => (hother way.reaches_interface hinterface hx).mpr (hall x (.inr hx)),
      fun x hx => (hother way.reaches_wifis hwifis hx).mpr (hall x (.inl (.inr hx)))⟩,
      fun x hx => (hother hreach hnetwork hx).mpr (hall x (.inl (.inl (.inr hx))))⟩,
      fun x hx => (hother .refl hroot hx).mpr (hall x (.inl (.inl (.inl hx))))⟩

/-- The edited tree has text keys again. -/
theorem Edited.stringKeys (h : Edited config.memory m' interface aps)
    (hkeys : stringKeys config.tree = true) (hown : OwnKeys config)
    (way : Way config.memory config.root network wifis interface)
    (hmap : (config.memory.content interface).isMap = true) (haps : Network.stringKeys aps = true)
    (hn : config.memory.Reaches config.root n) (hwithin : config.memory.within depth n = true) :
    Network.stringKeys (m'.treeOf (depth + 6) n) = true := by
  induction depth generalizing n with
  | zero => cases hwithin
  | succ depth ih =>
      have hold := config.closed.reaches_lt config.root_lt hn
      have hbelow := (Memory.within_succ.mp hwithin).2
      rw [Memory.children] at hbelow
      have hvalue : ∀ c ∈ config.memory.children n,
          Network.stringKeys (m'.treeOf (depth + 6) c) = true :=
        fun c hc => ih (hn.tail hc) ((Memory.within_succ.mp hwithin).2 c hc)
      rw [Memory.children] at hvalue
      -- The entries of a map that was there.
      have hentries : ∀ {pairs}, config.memory.content n = .map pairs → ∀ entry ∈ pairs.map
          (fun pair => (m'.treeOf (depth + 6) pair.1, m'.treeOf (depth + 6) pair.2)),
          (∃ text, entry.1 = .scalar text) ∧ Network.stringKeys entry.2 = true := by
        intro pairs hcontent entry hentry
        obtain ⟨pair, hpair, rfl⟩ := List.mem_map.mp hentry
        have hkey : pair.1 ∈ (config.memory.content n).keys := by
          rw [hcontent]
          exact List.mem_map_of_mem hpair
        obtain ⟨text, htext⟩ := key_scalar config.within hkeys hn hkey
        have hsame := h.same pair.1
          (config.closed.reaches_lt config.root_lt (hn.tail (Memory.mem_children_of_key hkey)))
          (not_changed_of_key hkeys hown way hmap hn hkey)
        rw [hcontent] at hvalue
        refine ⟨⟨text, ?_⟩, hvalue _ (List.mem_append_right _ (List.mem_map_of_mem hpair))⟩
        dsimp only
        rw [Memory.treeOf, hsame, htext]
      by_cases hchanged : Changed config.memory interface n
      · cases hpoints : config.memory.valueAt interface "access-points" with
        | some points =>
            rw [Changed, hpoints] at hchanged
            obtain rfl : n = points := hchanged
            rwa [h.assigned n hpoints _ (by omega)]
        | none =>
            rw [Changed, hpoints] at hchanged
            obtain ⟨pairs, hcontent⟩ := Data.exists_pairs hmap
            obtain ⟨key, slot, hkey, hslot, hentered⟩ := h.entered hpoints pairs hcontent
            have hcontent' : config.memory.content n = .map pairs :=
              (congrArg config.memory.data hchanged).trans hcontent
            rw [Nat.add_right_comm, Memory.treeOf_map (hentered n hold hchanged), Network.stringKeys,
              stringKeysEntries_iff, List.map_append]
            intro entry hentry
            rcases List.mem_append.mp hentry with hentry | hentry
            · exact hentries hcontent' entry hentry
            · rw [List.mem_singleton.mp hentry]
              refine ⟨⟨"access-points", ?_⟩, ?_⟩
              · dsimp only
                rw [Memory.treeOf, hkey]
              · dsimp only
                rwa [hslot _ (by omega)]
      · have hsame := h.same n hold hchanged
        rw [Nat.add_right_comm, Memory.treeOf, hsame]
        cases hcontent : config.memory.content n with
        | undefined => rfl
        | null => rfl
        | scalar text => rfl
        | sequence items =>
            rw [hcontent] at hvalue
            rw [Network.stringKeys, stringKeysItems_iff]
            intro item hitem
            obtain ⟨c, hc, rfl⟩ := List.mem_map.mp hitem
            exact hvalue c hc
        | map pairs =>
            rw [Network.stringKeys, stringKeysEntries_iff]
            exact hentries hcontent

/-- The way to `wlan0`, if the document has it. -/
theorem exists_way (h : (nodeAt config.tree wlan0Path).isSome = true)
    (hmaps : AbsentOrMaps config.tree) : ∃ network wifis interface,
      Way config.memory config.root network wifis interface ∧
        (config.memory.content interface).isMap = true := by
  obtain ⟨wlan0, hwlan0⟩ := Option.isSome_iff_exists.mp h
  have hmap := hmaps wlan0Path (by simp) wlan0 hwlan0
  have hroot := config.within
  unfold Document.tree at hwlan0
  obtain ⟨d₃, hdepth⟩ := Memory.exists_depth hroot
  rw [hdepth] at hroot hwlan0
  rw [wlan0Path, nodeAt_cons, Memory.get_treeOf hroot] at hwlan0
  obtain ⟨_, hnetwork, hbelow⟩ := Option.bind_eq_some_iff.mp hwlan0
  obtain ⟨network, hatNetwork, rfl⟩ := Option.map_eq_some_iff.mp hnetwork
  have hnetworkIn := (Memory.within_succ.mp hroot).2 network
    (Memory.mem_children_of_value (Memory.value_mem hatNetwork))
  obtain ⟨d₂, rfl⟩ := Memory.exists_depth hnetworkIn
  rw [nodeAt_cons, Memory.get_treeOf hnetworkIn] at hbelow
  obtain ⟨_, hwifis, hbelow'⟩ := Option.bind_eq_some_iff.mp hbelow
  obtain ⟨wifis, hatWifis, rfl⟩ := Option.map_eq_some_iff.mp hwifis
  have hwifisIn := (Memory.within_succ.mp hnetworkIn).2 wifis
    (Memory.mem_children_of_value (Memory.value_mem hatWifis))
  obtain ⟨d₁, rfl⟩ := Memory.exists_depth hwifisIn
  rw [nodeAt_cons, Memory.get_treeOf hwifisIn] at hbelow'
  obtain ⟨_, hinterface, hlast⟩ := Option.bind_eq_some_iff.mp hbelow'
  obtain ⟨interface, hatWlan0, rfl⟩ := Option.map_eq_some_iff.mp hinterface
  obtain rfl := Option.some.inj hlast
  exact ⟨network, wifis, interface, ⟨hatNetwork, hatWifis, hatWlan0⟩, isMap_content_of_treeOf hmap⟩

end

theorem requestedAps_eq (ssid : String) (password : Option String) (config : Node) :
    requestedAps ssid password (savedPassword config) = requested ssid password config := by
  rw [requestedAps, requested, accessPointConfig_eq]

theorem stringKeys_requested (ssid : String) (password : Option String) (config : Node) :
    stringKeys (requested ssid password config) = true := by
  rw [requested, stringKeys, stringKeysEntries, stringKeys, stringKeysEntries, Bool.and_true]
  unfold requestedSettings
  split
  · rfl
  · split <;> rfl

/-! ## The document that is written -/

namespace NetplanManager

variable (m : NetplanManager)

/-- The stream that `write_netplan` hands to the emitter, if it gets there. -/
def emitted (o : Outcomes) (file : Option Bytes) (ssid : String) (password : Option String) :
    Option (List Token) :=
  match readDocument o file with
  | .error _ => none
  | .ok (config, previousPassword) =>
      match editDocument m.hostname config ssid password previousPassword with
      | .error _ => none
      | .ok document => some (emitYamlNode document false)

/-- The text that `write_netplan` writes, if it gets there. -/
def written (o : Outcomes) (file : Option Bytes) (ssid : String) (password : Option String) :
    Option Bytes :=
  (m.emitted o file ssid password).bind fun tokens => (o.emit tokens).toOption

variable {m} {o : Outcomes} {file : Option Bytes} {ssid : String} {password : Option String}

/-- `write_netplan` writes that text and goes on, or writes nothing and fails. -/
theorem writeNetplan_eq (hsnapshot : o.escape ≠ some .snapshot) (hedit : o.escape ≠ some .edit) :
    match m.written o file ssid password with
    | some text => m.writeNetplan o file ssid password =
        if (writeFile file text o.write).2 then
          applyChange o (writeFile file text o.write).1 (takeFileSnapshot file o.readSnapshot) ssid
        else
          { busy := false
            file := (writeFile file text o.write).1
            exit := .returned false failedFlush
            effects := [.wrote] }
    | none => (m.writeNetplan o file ssid password).exit.success = false ∧
        (m.writeNetplan o file ssid password).file = file ∧
        (m.writeNetplan o file ssid password).effects = [] := by
  unfold written emitted writeNetplan
  dsimp only
  rw [if_neg hsnapshot]
  cases hread : readDocument o file with
  | error e => exact ⟨rfl, rfl, rfl⟩
  | ok read =>
      obtain ⟨config, previousPassword⟩ := read
      dsimp only
      cases hdocument : editDocument m.hostname config ssid password previousPassword with
      | error e => exact ⟨rfl, rfl, rfl⟩
      | ok document =>
          dsimp only
          rw [if_neg hedit, Option.bind_some, commitDocument]
          cases o.emit (emitYamlNode document false) with
          | error e => exact ⟨rfl, rfl, rfl⟩
          | ok text => rfl

end NetplanManager

/-- The text of a stream that spells a tree is loaded as a document with that tree. -/
def Outcomes.EmitsFaithfully (o : Outcomes) (tokens : List Token) : Prop :=
  ∀ tree, spelled tokens = some tree →
    ∃ text document, o.emit tokens = .ok text ∧ o.load text = .ok document ∧ document.tree = tree

/-- `write_netplan` gets as far as writing, and what it writes is the edited document. -/
def NetplanManager.Rewrites (m : NetplanManager) (o : Outcomes) (contents : Bytes) (ssid : String)
    (password : Option String) (config : Document) : Prop :=
  ∃ text document, m.written o (some contents) ssid password = some text ∧
    (o.escape = none → o.write = .complete → m.writeNetplan o (some contents) ssid password =
      applyChange o (some text) (takeFileSnapshot (some contents) o.readSnapshot) ssid) ∧
    o.load text = .ok document ∧ EditedFrom m.hostname ssid password config.tree document.tree

/-- With `wlan0` the document is read and edited, and the tree that is emitted has text keys. -/
theorem emitted_of_present (m : NetplanManager) {o : Outcomes} {contents : Bytes} {ssid : String}
    {password : Option String} {config : Document} (hexists : o.existsError = none)
    (hload : o.load contents = .ok config) (hkeys : stringKeys config.tree = true)
    (hown : OwnKeys config) (hmaps : AbsentOrMaps config.tree)
    (h : (nodeAt config.tree wlan0Path).isSome = true) :
    ∃ tree, m.emitted o (some contents) ssid password = some (emitYamlNode tree false) ∧
      spelled (emitYamlNode tree false) = some tree ∧
      (tree = setAt (requested ssid password config.tree) (wlan0Path ++ ["access-points"])
          config.tree ↔
        nodeAt config.tree (wlan0Path ++ ["access-points"]) =
          some (requested ssid password config.tree) ∨ Alone config) := by
  obtain ⟨network, wifis, interface, way, hmap⟩ := exists_way h hmaps
  obtain ⟨document, networkEntries, wifisEntries, interfaceEntries, htree, hnetwork, hwifis,
    hinterface⟩ := levels_of_wlan0 hmaps h
  have hread : readDocument o (some contents) = .ok (config, savedPassword config.tree) := by
    rw [readDocument, hexists]
    simp only [bind_eq_ok, pure_eq_ok]
    refine ⟨config, hload, savedPassword config.tree, ?_, rfl⟩
    rw [htree]
    exact readAccessPointPassword_of_present hnetwork hwifis hinterface
  obtain ⟨m', hedit, hedited⟩ := editNodes_edited way hmap
    (fun n hn k hk => not_changed_of_key hkeys hown way hmap hn hk) m.hostname ssid password
    (savedPassword config.tree)
  rw [requestedAps_eq] at hedited
  refine ⟨m'.treeOf (config.depth + 6) config.root, ?_, ?_,
    treeOf_edited_iff hedited hkeys hown way hmap⟩
  · rw [NetplanManager.emitted, hread]
    dsimp only
    rw [editDocument, hedit]
    rfl
  · exact spelled_emitYamlNode (hedited.stringKeys hkeys hown way hmap
      (stringKeys_requested ssid password config.tree) .refl config.within)

/-- **The netplan document is edited** exactly if it has `network.wifis.wlan0` and the edit is not
seen elsewhere: then what is written is the document outside of `wlan0` and has the requested access
point in it. The edit is seen elsewhere if an alias beside the way leads to the node that is changed,
unless the access points are the requested ones already. Without `wlan0` nothing is written. -/
theorem writeNetplan_rewrites_iff (m : NetplanManager) (o : Outcomes) (contents : Bytes)
    (ssid : String) (password : Option String) (config : Document) (hexists : o.existsError = none)
    (hload : o.load contents = .ok config)
    (hyaml : ∀ tokens, m.emitted o (some contents) ssid password = some tokens →
      o.EmitsFaithfully tokens)
    (hkeys : stringKeys config.tree = true) (hown : OwnKeys config)
    (hmaps : AbsentOrMaps config.tree) :
    m.Rewrites o contents ssid password config ↔
      (nodeAt config.tree wlan0Path).isSome = true ∧
        (nodeAt config.tree (wlan0Path ++ ["access-points"]) =
          some (requested ssid password config.tree) ∨ Alone config) := by
  by_cases hpresent : (nodeAt config.tree wlan0Path).isSome = true
  · obtain ⟨tree, hemitted, hspelled, hset⟩ :=
      @emitted_of_present m o contents ssid password config hexists hload hkeys hown hmaps hpresent
    obtain ⟨text, document, htext, hreload, hdocument⟩ := hyaml _ hemitted tree hspelled
    have hwritten : m.written o (some contents) ssid password = some text := by
      rw [NetplanManager.written, hemitted, Option.bind_some, htext]
      rfl
    rw [and_iff_right hpresent, ← hset]
    constructor
    · rintro ⟨text', document', hwritten', -, hreload', hedited⟩
      obtain rfl : text = text' := Option.some.inj (hwritten.symm.trans hwritten')
      obtain rfl : document = document' := Except.ok.inj (hreload.symm.trans hreload')
      exact hdocument ▸ hedited.entries hpresent
    · intro heq
      obtain ⟨entries, network, wifis, interface, htree, hnetwork, hwifis, hinterface⟩ :=
        levels_of_wlan0 hmaps hpresent
      refine ⟨text, document, hwritten, fun hescape hwrite => ?_, hreload, ?_⟩
      · have hgoes := @NetplanManager.writeNetplan_eq m o (some contents) ssid password
          (by rw [hescape]; exact Option.some_ne_none _ ∘ Eq.symm)
          (by rw [hescape]; exact Option.some_ne_none _ ∘ Eq.symm)
        rw [hwritten, hwrite] at hgoes
        exact hgoes
      · rw [hdocument, heq, htree]
        exact editedFrom_setAt m.hostname ssid password hnetwork hwifis hinterface
  · rw [Option.not_isSome_iff_eq_none] at hpresent
    refine iff_of_false ?_ fun h => by rw [hpresent] at h; cases h.1
    -- The reading does not get past what is missing.
    obtain ⟨e, he⟩ := readAccessPointPassword_of_absent hmaps hpresent
    have hread : readDocument o (some contents) = .error e := by
      simp only [readDocument, hexists, hload, bind, Except.bind, he]
    rintro ⟨text, document, hwritten, -⟩
    rw [NetplanManager.written, NetplanManager.emitted, hread] at hwritten
    cases hwritten

/-! ## Documents with and without aliases -/

/-- Keys and values are told apart by looking at every node. -/
theorem ownKeys_of_below {config : Document}
    (h : ∀ n ∈ config.memory.below config.depth config.root,
      ∀ n' ∈ config.memory.below config.depth config.root,
        ∀ k ∈ (config.memory.content n).keys, k ∉ (config.memory.content n').values) :
    OwnKeys config :=
  fun n n' hn hn' => h n (Memory.mem_below config.within hn) n' (Memory.mem_below config.within hn')

theorem alone_of_below {config : Document} {network wifis interface : Nat}
    (way : Way config.memory config.root network wifis interface)
    (h : ∀ x ∈ beside config.memory config.root network wifis interface,
      config.memory.within config.depth x = true ∧
        ∀ y ∈ config.memory.below config.depth x, ¬Changed config.memory interface y) :
    Alone config := by
  intro network' wifis' interface' way' x hx y hy
  obtain ⟨rfl, rfl, rfl⟩ := way.unique way'
  exact (h x hx).2 y (Memory.mem_below (h x hx).1 hy)

/-- A document with two access points and a renderer. -/
def homeDocument : Document :=
  .ofNode <| .map [(.scalar "network", .map [(.scalar "renderer", .scalar "networkd"),
    (.scalar "wifis", .map [(.scalar "wlan0", .map [(.scalar "dhcp4", .scalar "true"),
      (.scalar "access-points", .map [(.scalar "home",
        .map [(.scalar "password", .scalar "secret")]), (.scalar "other", .map [])])])])])]

/-- The emitter writes one text, and the loader knows that text and the document. -/
def homeOutcomes (edited : Node) : Outcomes where
  load text := .ok (if text = [1] then homeDocument else .ofNode edited)
  emit _ := .ok [2]

theorem writeNetplan_rewrites_iff_home : ∃ edited,
    editDocument "uav12" homeDocument "lab" none "secret" = .ok edited ∧
      ({ hostname := "uav12" } : NetplanManager).Rewrites (homeOutcomes edited) [1] "lab" none
        homeDocument := by
  have way : Way homeDocument.memory homeDocument.root 2 6 8 :=
    ⟨by decide +kernel, by decide +kernel, by decide +kernel⟩
  have hown : OwnKeys homeDocument := ownKeys_of_below (by decide +kernel)
  have halone : Alone homeDocument := alone_of_below way (by decide +kernel)
  have htree : homeDocument.tree.isMap = true := by
    rw [homeDocument, Document.tree_ofNode]
    rfl
  obtain ⟨edited, hedited⟩ := editDocument_ok htree "uav12" "lab" none "secret"
  have hkeys : (editDocument "uav12" homeDocument "lab" none "secret").toOption.any stringKeys :=
    by decide +kernel
  rw [hedited] at hkeys
  have hread : readDocument (homeOutcomes edited) (some [1]) = .ok (homeDocument, "secret") := by
    rw [homeOutcomes, readDocument]
    simp only [if_true, homeDocument, Document.tree_ofNode, bind, Except.bind, pure, Except.pure]
    rfl
  have hemitted : ({ hostname := "uav12" } : NetplanManager).emitted (homeOutcomes edited)
      (some [1]) "lab" none = some (emitYamlNode edited false) := by
    rw [NetplanManager.emitted, hread]
    dsimp only
    rw [hedited]
  refine ⟨edited, hedited, (writeNetplan_rewrites_iff { hostname := "uav12" } (homeOutcomes edited)
    [1] "lab" none homeDocument rfl rfl ?_ ?_ hown ?_).mpr ⟨?_, .inr halone⟩⟩
  · intro tokens htokens tree htree
    rw [hemitted, Option.some.injEq] at htokens
    rw [← htokens, spelled_emitYamlNode hkeys, Option.some.injEq] at htree
    exact ⟨[2], .ofNode edited, rfl, rfl, by rw [Document.tree_ofNode, htree]⟩
  · decide +kernel
  · intro path hpath node hnode
    rw [homeDocument, Document.tree_ofNode] at hnode
    simp only [List.mem_cons, List.not_mem_nil, or_false] at hpath
    rcases hpath with rfl | rfl | rfl
    all_goals
      cases hnode
      rfl
  · decide +kernel

/-- A document without interfaces. -/
def bareDocument : Document :=
  .ofNode <| .map [(.scalar "network", .map [(.scalar "version", .scalar "2")])]

/-- The document has no interfaces yet, and nothing is written. -/
theorem bareDocument_not_rewritten : ¬∀ (m : NetplanManager) (o : Outcomes) (contents : Bytes)
    (ssid : String) (password : Option String) (config : Document), o.existsError = none →
      o.load contents = .ok config →
        (∀ tokens, m.emitted o (some contents) ssid password = some tokens →
          o.EmitsFaithfully tokens) →
          stringKeys config.tree = true → OwnKeys config → AbsentOrMaps config.tree →
            m.Rewrites o contents ssid password config := by
  intro hclaim
  have hmaps : AbsentOrMaps bareDocument.tree := by
    intro path hpath node hnode
    rw [bareDocument, Document.tree_ofNode] at hnode
    simp only [List.mem_cons, List.not_mem_nil, or_false] at hpath
    rcases hpath with rfl | rfl | rfl
    · cases hnode
      rfl
    · cases hnode
    · cases hnode
  obtain ⟨text, document, hwritten, -⟩ := hclaim { hostname := "uav12" }
    { load := fun _ => .ok bareDocument, emit := fun _ => .ok [] } [1] "lab" none bareDocument
    rfl rfl (fun tokens htokens => by cases htokens) rfl (ownKeys_of_below (by decide +kernel)) hmaps
  cases hwritten

/-- A document in which `wlan1` is an alias of `wlan0`. -/
def sharedDocument : Document where
  memory :=
    { ref := id
      data := fun
        | 0 => .map [(1, 2)]
        | 1 => .scalar "network"
        | 2 => .map [(3, 4)]
        | 3 => .scalar "wifis"
        | 4 => .map [(5, 6), (7, 6)]
        | 5 => .scalar "wlan0"
        | 6 => .map []
        | 7 => .scalar "wlan1"
        | _ => .undefined
      next := 8 }
  root := 0
  depth := 4
  within := by decide
  closed := by decide
  root_lt := by decide

/-- The requested access point is entered for `wlan1` as well. -/
example : (editDocument "uav12" sharedDocument "lab" none "").toOption.any fun edited =>
    (nodeAt edited ["network", "wifis", "wlan1", "access-points", "lab"]).isSome := by
  decide +kernel

end UavBluetooth.Network
