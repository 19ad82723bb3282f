import UavBluetooth.Config.YamlMemory

set_option autoImplicit false

/-! # Trees of shared nodes

An alias in a YAML document is the node of its anchor, met once more: what is assigned to that node
is seen wherever it is met. `treeOf` unfolds a node to its tree, which is finite if nothing is
below itself (`Within`).

When nodes are given new contents, the tree of a node stays what it was exactly if no node with a
new tree is reached from it (`treeOf_eq_iff`).
-/

namespace UavBluetooth.Yaml

/-! ## Unfolding -/

def Data.isDefined : Data → Bool
  | .undefined => false
  | _ => true

/-- The nodes that are listed, keys and values alike. -/
def Data.children : Data → List Nat
  | .sequence items => items
  | .map pairs => pairs.map Prod.fst ++ pairs.map Prod.snd
  | _ => []

namespace Memory

variable (m : Memory)

def children (n : Nat) : List Nat := (m.content n).children

/-- The second node is met below the first one, or it is the first one. -/
def Reaches : Nat → Nat → Prop := Relation.ReflTransGen fun n c => c ∈ m.children n

/-- The tree at a node, down to a depth. -/
def treeOf : Nat → Nat → Node
  | 0, _ => .null
  | depth + 1, n =>
      match m.content n with
      | .undefined | .null => .null
      | .scalar text => .scalar text
      | .sequence items => .sequence (items.map (treeOf depth))
      | .map pairs => .map (pairs.map fun pair => (treeOf depth pair.1, treeOf depth pair.2))

/-- Below a node all is defined, and it ends before the depth does. -/
def within : Nat → Nat → Bool
  | 0, _ => false
  | depth + 1, n => (m.content n).isDefined && (m.children n).all (within depth)

/-- The nodes that are met, down to a depth. -/
def below : Nat → Nat → List Nat
  | 0, _ => []
  | depth + 1, n => n :: (m.children n).flatMap (below depth)

/-- Nothing refers to a number that is still free. -/
structure Closed : Prop where
  ref : ∀ n < m.next, m.ref n < m.next
  children : ∀ a < m.next, ∀ c ∈ (m.data a).children, c < m.next

instance : Decidable m.Closed :=
  decidable_of_iff ((∀ n < m.next, m.ref n < m.next) ∧
      ∀ a < m.next, ∀ c ∈ (m.data a).children, c < m.next)
    ⟨fun h => ⟨h.1, h.2⟩, fun h => ⟨h.ref, h.children⟩⟩

end Memory

section

variable {m m' : Memory} {depth depth' n c x : Nat}

theorem Memory.within_succ : m.within (depth + 1) n = true ↔
    (m.content n).isDefined = true ∧ ∀ c ∈ m.children n, m.within depth c = true := by
  rw [Memory.within, Bool.and_eq_true, List.all_eq_true]

theorem Memory.exists_depth (h : m.within depth n = true) : ∃ depth', depth = depth' + 1 := by
  cases depth with
  | zero => cases h
  | succ depth => exact ⟨depth, rfl⟩

theorem Memory.within_mono (h : m.within depth n = true) (hle : depth ≤ depth') :
    m.within depth' n = true := by
  induction depth generalizing n depth' with
  | zero => cases h
  | succ depth ih =>
      obtain ⟨depth', rfl⟩ : ∃ k, depth' = k + 1 := Nat.exists_eq_succ_of_ne_zero (by omega)
      rw [Memory.within_succ] at h ⊢
      exact ⟨h.1, fun c hc => ih (h.2 c hc) (by omega)⟩

theorem Memory.within_of_reaches (h : m.within depth n = true) (hx : m.Reaches n x) :
    m.within depth x = true := by
  induction hx with
  | refl => exact h
  | tail _ hchild ih =>
      cases depth with
      | zero => cases h
      | succ depth => exact Memory.within_mono ((Memory.within_succ.mp ih).2 _ hchild) (by omega)

theorem Memory.mem_below (h : m.within depth n = true) (hx : m.Reaches n x) :
    x ∈ m.below depth n := by
  induction depth generalizing n with
  | zero => cases h
  | succ depth ih =>
      rcases Relation.ReflTransGen.cases_head hx with rfl | ⟨c, hc, hreach⟩
      · exact List.mem_cons_self
      · exact List.mem_cons_of_mem _ (List.mem_flatMap.mpr
          ⟨c, hc, ih ((Memory.within_succ.mp h).2 c hc) hreach⟩)

/-- What is within a depth is not below itself. -/
theorem Memory.not_reaches_of_child (h : m.within depth n = true) (hc : c ∈ m.children n) :
    ¬m.Reaches c n := by
  intro hback
  -- Each round along the way back takes a level, and there are only so many.
  induction depth with
  | zero => cases h
  | succ depth ih =>
      exact ih (Memory.within_of_reaches ((Memory.within_succ.mp h).2 c hc) hback)

/-- Unfolding further adds nothing. -/
theorem Memory.treeOf_of_within (h : m.within depth n = true) (hle : depth ≤ depth') :
    m.treeOf depth' n = m.treeOf depth n := by
  induction depth generalizing n depth' with
  | zero => cases h
  | succ depth ih =>
      obtain ⟨depth', rfl⟩ : ∃ k, depth' = k + 1 := Nat.exists_eq_succ_of_ne_zero (by omega)
      have hbelow := (Memory.within_succ.mp h).2
      rw [Memory.children] at hbelow
      rw [Memory.treeOf, Memory.treeOf]
      cases hcontent : m.content n with
      | undefined => rfl
      | null => rfl
      | scalar text => rfl
      | sequence items =>
          rw [hcontent] at hbelow
          exact congrArg Node.sequence (List.map_congr_left fun c hc =>
            ih (hbelow c hc) (by omega))
      | map pairs =>
          rw [hcontent] at hbelow
          refine congrArg Node.map (List.map_congr_left fun pair hpair => ?_)
          have hkey : pair.1 ∈ (Data.map pairs).children :=
            List.mem_append_left _ (List.mem_map_of_mem hpair)
          have hvalue : pair.2 ∈ (Data.map pairs).children :=
            List.mem_append_right _ (List.mem_map_of_mem hpair)
          rw [ih (hbelow _ hkey) (by omega), ih (hbelow _ hvalue) (by omega)]

theorem Memory.treeOf_eq_of_within (h : m.within depth n = true) (h' : m.within depth' n = true) :
    m.treeOf depth n = m.treeOf depth' n := by
  rcases Nat.le_total depth depth' with hle | hle
  · exact (Memory.treeOf_of_within h hle).symm
  · exact Memory.treeOf_of_within h' hle

/-! ## New contents -/

/-- Trees of nodes with the same content are equal if those below are. -/
theorem Memory.treeOf_congr (hcontent : m'.content n = m.content n)
    (h : ∀ c ∈ m.children n, m'.treeOf depth' c = m.treeOf depth c) :
    m'.treeOf (depth' + 1) n = m.treeOf (depth + 1) n := by
  rw [Memory.treeOf, Memory.treeOf, hcontent]
  rw [Memory.children] at h
  cases hdata : m.content n with
  | undefined => rfl
  | null => rfl
  | scalar text => rfl
  | sequence items =>
      rw [hdata] at h
      exact congrArg Node.sequence (List.map_congr_left h)
  | map pairs =>
      rw [hdata] at h
      refine congrArg Node.map (List.map_congr_left fun pair hpair => ?_)
      rw [h _ (List.mem_append_left _ (List.mem_map_of_mem hpair)),
        h _ (List.mem_append_right _ (List.mem_map_of_mem hpair))]

/-- Equal trees of nodes with the same content have equal trees below. -/
theorem Memory.treeOf_inj (hcontent : m'.content n = m.content n)
    (h : m'.treeOf (depth' + 1) n = m.treeOf (depth + 1) n) :
    ∀ c ∈ m.children n, m'.treeOf depth' c = m.treeOf depth c := by
  rw [Memory.treeOf, Memory.treeOf, hcontent] at h
  rw [Memory.children]
  cases hdata : m.content n with
  | undefined => intro c hc; cases hc
  | null => intro c hc; cases hc
  | scalar text => intro c hc; cases hc
  | sequence items =>
      rw [hdata] at h
      exact List.map_inj_left.mp (Node.sequence.inj h)
  | map pairs =>
      rw [hdata] at h
      have hpairs := List.map_inj_left.mp (Node.map.inj h)
      intro c hc
      rcases List.mem_append.mp hc with hkey | hvalue
      · obtain ⟨pair, hpair, rfl⟩ := List.mem_map.mp hkey
        exact (Prod.mk.inj (hpairs pair hpair)).1
      · obtain ⟨pair, hpair, rfl⟩ := List.mem_map.mp hvalue
        exact (Prod.mk.inj (hpairs pair hpair)).2

/-- What reaches only unchanged contents has its tree. -/
theorem Memory.treeOf_frame (h : ∀ y, m.Reaches n y → m'.content y = m.content y) :
    m'.treeOf depth n = m.treeOf depth n := by
  induction depth generalizing n with
  | zero => rfl
  | succ depth ih =>
      exact Memory.treeOf_congr (h n .refl) fun c hc =>
        ih fun y hy => h y (Relation.ReflTransGen.head hc hy)

variable {changed : Nat → Prop} {extra : Nat}

/-- New contents that unfold to the old trees are not seen. -/
theorem Memory.treeOf_unchanged
    (hsame : ∀ y, m.Reaches n y → ¬changed y → m'.content y = m.content y)
    (hchanged : ∀ y k, m.Reaches n y → changed y → m.within k y = true →
      m'.treeOf (k + extra) y = m.treeOf k y)
    (h : m.within depth n = true) : m'.treeOf (depth + extra) n = m.treeOf depth n := by
  induction depth generalizing n with
  | zero => cases h
  | succ depth ih =>
      -- A changed node shows its old tree, whatever it consists of now.
      by_cases hn : changed n
      · exact hchanged n _ .refl hn h
      · rw [Nat.add_right_comm]
        refine Memory.treeOf_congr (hsame n .refl hn) fun c hc => ?_
        exact ih (fun y hy => hsame y (Relation.ReflTransGen.head hc hy))
          (fun y k hy => hchanged y k (Relation.ReflTransGen.head hc hy))
          ((Memory.within_succ.mp h).2 c hc)

/-- **A tree stays what it was** exactly if no node with a new tree is reached. -/
theorem Memory.treeOf_eq_iff
    (hsame : ∀ y, m.Reaches n y → ¬changed y → m'.content y = m.content y)
    (hchanged : ∀ y k, m.Reaches n y → changed y → m.within k y = true →
      m'.treeOf (k + extra) y ≠ m.treeOf k y)
    (h : m.within depth n = true) :
    m'.treeOf (depth + extra) n = m.treeOf depth n ↔ ∀ y, m.Reaches n y → ¬changed y := by
  constructor
  · intro heq y hy
    -- Along the way to `y`: equal trees are equal below, and a changed node has a new one.
    induction depth generalizing n with
    | zero => cases h
    | succ depth ih =>
        have hn : ¬changed n := fun hn => hchanged n _ .refl hn h heq
        rcases Relation.ReflTransGen.cases_head hy with rfl | ⟨c, hc, hreach⟩
        · exact hn
        · rw [Nat.add_right_comm] at heq
          exact ih (fun z hz => hsame z (Relation.ReflTransGen.head hc hz))
            (fun z k hz => hchanged z k (Relation.ReflTransGen.head hc hz))
            ((Memory.within_succ.mp h).2 c hc)
            (Memory.treeOf_inj (hsame n .refl hn) heq c hc) hreach
  · intro hnone
    rw [Memory.treeOf_frame fun y hy => hsame y hy (hnone y hy)]
    exact Memory.treeOf_of_within h (Nat.le_add_right _ _)

end

/-! ## Memory stays closed -/

section

variable {m m' m'' : Memory} {n other : Nat} {data : Data}

theorem Memory.Closed.content_lt (h : m.Closed) (hn : n < m.next) :
    ∀ c ∈ m.children n, c < m.next := h.children _ (h.ref n hn)

theorem Memory.Closed.reaches_lt (h : m.Closed) (hn : n < m.next) (hreach : m.Reaches n other) :
    other < m.next := by
  induction hreach with
  | refl => exact hn
  | tail _ hchild ih => exact h.content_lt ih _ hchild

theorem Memory.Closed.create (h : m.Closed) (hdata : ∀ c ∈ data.children, c < m.next) :
    (m.create data).1.Closed := by
  constructor
  · intro x hx
    by_cases heq : x = m.next
    · rw [heq]
      show Function.update m.ref m.next m.next m.next < m.next + 1
      rw [Function.update_self]
      exact Nat.lt_succ_self _
    · have hold : x < m.next := Nat.lt_of_le_of_ne (Nat.lt_succ_iff.mp hx) heq
      show Function.update m.ref m.next m.next x < m.next + 1
      rw [Function.update_of_ne heq]
      exact Nat.lt_succ_of_lt (h.ref x hold)
  · intro a ha c hc
    change c ∈ (Function.update m.data m.next data a).children at hc
    show c < m.next + 1
    by_cases heq : a = m.next
    · rw [heq, Function.update_self] at hc
      exact Nat.lt_succ_of_lt (hdata c hc)
    · rw [Function.update_of_ne heq] at hc
      have hold : a < m.next := Nat.lt_of_le_of_ne (Nat.lt_succ_iff.mp ha) heq
      exact Nat.lt_succ_of_lt (h.children a hold c hc)

theorem Memory.Closed.fill (h : m.Closed) (hdata : ∀ c ∈ data.children, c < m.next) :
    (m.fill n data).Closed := by
  refine ⟨h.ref, fun a ha c hc => ?_⟩
  change c ∈ (Function.update m.data (m.ref n) data a).children at hc
  by_cases heq : a = m.ref n
  · rw [heq, Function.update_self] at hc
    exact hdata c hc
  · rw [Function.update_of_ne heq] at hc
    exact h.children a ha c hc

theorem Memory.Closed.assign (h : m.Closed) (hother : other < m.next) :
    (m.assign n other).Closed := by
  refine ⟨fun x hx => ?_, h.children⟩
  show Function.update m.ref n (m.ref other) x < m.next
  by_cases heq : x = n
  · rw [heq, Function.update_self]
    exact h.ref other hother
  · rw [Function.update_of_ne heq]
    exact h.ref x hx

theorem load_lt (t : Node) (m : Memory) : (load m t).2 < (load m t).1.next :=
  (load_stores t m).2.owns.1.2

mutual

/-- A loaded document leaves the memory closed. -/
theorem closed_load : ∀ (t : Node) {m : Memory}, m.Closed → (load m t).1.Closed
  | .null, m, h => h.create fun c hc => by cases hc
  | .scalar text, m, h => by
      have hcreated : (m.create .null).1.Closed := h.create fun c hc => by cases hc
      exact hcreated.fill fun c hc => by cases hc
  | .sequence items, m, h => by
      have hcreated : (m.create .null).1.Closed := h.create fun c hc => by cases hc
      obtain ⟨hclosed, hbelow⟩ := closed_loadItems items hcreated
      exact hclosed.fill hbelow
  | .map entries, m, h => by
      have hcreated : (m.create .null).1.Closed := h.create fun c hc => by cases hc
      obtain ⟨hclosed, hbelow⟩ := closed_loadEntries entries hcreated
      refine hclosed.fill fun c hc => ?_
      rcases List.mem_append.mp hc with hc | hc
      · obtain ⟨pair, hpair, rfl⟩ := List.mem_map.mp hc
        exact (hbelow pair hpair).1
      · obtain ⟨pair, hpair, rfl⟩ := List.mem_map.mp hc
        exact (hbelow pair hpair).2

theorem closed_loadItems : ∀ (items : List Node) {m : Memory}, m.Closed →
    (loadItems m items).1.Closed ∧ ∀ c ∈ (loadItems m items).2, c < (loadItems m items).1.next
  | [], m, h => ⟨h, fun c hc => by cases hc⟩
  | item :: items, m, h => by
      obtain ⟨hclosed, hbelow⟩ := closed_loadItems items (closed_load item h)
      refine ⟨hclosed, fun c hc => ?_⟩
      rcases List.mem_cons.mp hc with rfl | hc
      · exact lt_of_lt_of_le (load_lt item m) (loadItems_stores items (load m item).1).1.next
      · exact hbelow c hc

theorem closed_loadEntries : ∀ (entries : List (Node × Node)) {m : Memory}, m.Closed →
    (loadEntries m entries).1.Closed ∧ ∀ pair ∈ (loadEntries m entries).2,
      pair.1 < (loadEntries m entries).1.next ∧ pair.2 < (loadEntries m entries).1.next
  | [], m, h => ⟨h, fun c hc => by cases hc⟩
  | (key, value) :: entries, m, h => by
      obtain ⟨hclosed, hbelow⟩ := closed_loadEntries entries (closed_load value (closed_load key h))
      have hvalue := load_lt value (load m key).1
      have hkey := lt_of_lt_of_le (load_lt key m) (load_stores value (load m key).1).1.next
      have hrest := (loadEntries_stores entries (load (load m key).1 value).1).1.next
      refine ⟨hclosed, fun pair hpair => ?_⟩
      rcases List.mem_cons.mp hpair with rfl | hpair
      · exact ⟨lt_of_lt_of_le hkey hrest, lt_of_lt_of_le hvalue hrest⟩
      · exact hbelow pair hpair

end

end

/-! ## Maps stay maps -/

def Data.isMap : Data → Bool
  | .map _ => true
  | _ => false

theorem Data.exists_pairs {data : Data} (h : data.isMap = true) : ∃ pairs, data = .map pairs := by
  cases data with
  | map pairs => exact ⟨pairs, rfl⟩
  | undefined => cases h
  | null => cases h
  | scalar text => cases h
  | sequence items => cases h

/-- The second memory has more cells, and what was a map in the first one is still one. -/
structure Memory.Keeps (m m' : Memory) : Prop where
  closed : m'.Closed
  next : m.next ≤ m'.next
  maps : ∀ n < m.next, (m.content n).isMap = true → (m'.content n).isMap = true

section

variable {m m' m'' : Memory} {n other : Nat} {data : Data} {key : String}

theorem Memory.Keeps.refl (h : m.Closed) : m.Keeps m := ⟨h, le_rfl, fun _ _ hn => hn⟩

theorem Memory.Keeps.trans (h : m.Keeps m') (h' : m'.Keeps m'') : m.Keeps m'' :=
  ⟨h'.closed, h.next.trans h'.next, fun n hn hmap =>
    h'.maps n (lt_of_lt_of_le hn h.next) (h.maps n hn hmap)⟩

theorem Memory.Extends.content_eq (h : m.Extends m') (hclosed : m.Closed) (hn : n < m.next) :
    m'.content n = m.content n := h.agrees.content ⟨hn, hclosed.ref n hn⟩

theorem Memory.Extends.keeps (h : m.Extends m') (hclosed : m.Closed) (hclosed' : m'.Closed) :
    m.Keeps m' :=
  ⟨hclosed', h.next, fun n hn hmap => by rwa [h.content_eq hclosed hn]⟩

theorem Memory.Closed.keeps_fill (h : m.Closed) (hdata : ∀ c ∈ data.children, c < m.next)
    (hmap : data.isMap = true) : m.Keeps (m.fill n data) := by
  refine ⟨h.fill hdata, le_rfl, fun x _ hx => ?_⟩
  show (Function.update m.data (m.ref n) data (m.ref x)).isMap = true
  by_cases heq : m.ref x = m.ref n
  · rwa [heq, Function.update_self]
  · rwa [Function.update_of_ne heq]

theorem Memory.content_assign_self : (m.assign n other).content n = m.content other := by
  show m.data (Function.update m.ref n (m.ref other) n) = _
  rw [Function.update_self]
  rfl

theorem Memory.content_assign_of_ne {x : Nat} (hne : x ≠ n) :
    (m.assign n other).content x = m.content x := by
  show m.data (Function.update m.ref n (m.ref other) x) = _
  rw [Function.update_of_ne hne]
  rfl

theorem Memory.Closed.keeps_assign (h : m.Closed) (hother : other < m.next)
    (hmap : (m.content other).isMap = true) : m.Keeps (m.assign n other) := by
  refine ⟨h.assign hother, le_rfl, fun x _ hx => ?_⟩
  by_cases heq : x = n
  · rwa [heq, Memory.content_assign_self]
  · rwa [Memory.content_assign_of_ne heq]

/-- **A subscript of a map** gives a node of the memory, and keeps the maps. -/
theorem exists_subscript (h : m.Closed) (hn : n < m.next) (hmap : (m.content n).isMap = true)
    (key : String) :
    ∃ m' slot, subscript m n key = .ok (m', slot) ∧ slot < m'.next ∧ m.Keeps m' := by
  obtain ⟨pairs, hcontent⟩ := Data.exists_pairs hmap
  have hpairs := h.content_lt hn
  rw [Memory.children, hcontent] at hpairs
  cases hfind : pairs.find? fun pair => isKeyNode m key pair.1 with
  | some pair =>
      refine ⟨m, pair.2, by simp only [subscript, hcontent, hfind], hpairs _ ?_, .refl h⟩
      exact List.mem_append_right _ (List.mem_map_of_mem (List.mem_of_find?_eq_some hfind))
  | none =>
      refine ⟨((m.create (.scalar key)).1.create .undefined).1.fill n
        (.map (pairs ++ [(m.next, m.next + 1)])), m.next + 1, ?_, Nat.lt_succ_self _, ?_⟩
      · simp only [subscript, hcontent, hfind]
        rfl
      -- The pair that is appended consists of two new nodes.
      have hkey : (m.create (.scalar key)).1.Closed := h.create fun c hc => by cases hc
      have hvalue : ((m.create (.scalar key)).1.create .undefined).1.Closed :=
        hkey.create fun c hc => by cases hc
      have hext := (m.extends_create (.scalar key)).trans
        ((m.create (.scalar key)).1.extends_create .undefined)
      refine (hext.keeps h hvalue).trans (hvalue.keeps_fill (fun c hc => ?_) rfl)
      rw [Data.children, List.map_append, List.map_append, List.mem_append, List.mem_append,
        List.mem_append] at hc
      have hold : ∀ c ∈ (Data.map pairs).children, c < m.next + 1 + 1 := fun c hc =>
        (hpairs c hc).trans_le (by omega)
      rcases hc with (hc | hc) | hc | hc
      · exact hold c (List.mem_append_left _ hc)
      · rw [List.mem_singleton.mp hc]
        exact Nat.lt_succ_of_lt (Nat.lt_succ_self _)
      · exact hold c (List.mem_append_right _ hc)
      · rw [List.mem_singleton.mp hc]
        exact Nat.lt_succ_self _

theorem isMap_content_of_treeOf {depth : Nat} (h : (m.treeOf depth n).isMap = true) :
    (m.content n).isMap = true := by
  cases depth with
  | zero => cases h
  | succ depth =>
      rw [Memory.treeOf] at h
      cases hcontent : m.content n with
      | map pairs => rfl
      | undefined => rw [hcontent] at h; cases h
      | null => rw [hcontent] at h; cases h
      | scalar text => rw [hcontent] at h; cases h
      | sequence items => rw [hcontent] at h; cases h

theorem isMap_load (m : Memory) (entries : List (Node × Node)) :
    ((load m (.map entries)).1.content (load m (.map entries)).2).isMap = true := by
  have hstores := (load_stores (.map entries) m).2
  rw [Stores] at hstores
  obtain ⟨_, pairs, hcontent, _⟩ := hstores
  rw [hcontent]
  rfl

end

/-! ## What is stored is unfolded -/

mutual

theorem Stores.treeOf_eq {m : Memory} : ∀ {t : Node} {cells : Set Nat} {n depth : Nat},
    Stores m t cells n → height t ≤ depth → m.treeOf depth n = t
  | .null, _, _, depth + 1, h, _ => by
      rw [Stores] at h
      rw [Memory.treeOf, h.2]
  | .scalar _, _, _, depth + 1, h, _ => by
      rw [Stores] at h
      rw [Memory.treeOf, h.2]
  | .sequence items, _, _, depth + 1, h, hdepth => by
      rw [Stores] at h
      obtain ⟨_, ns, hcontent, hitems⟩ := h
      rw [height] at hdepth
      rw [Memory.treeOf, hcontent]
      exact congrArg Node.sequence (hitems.map_treeOf (Nat.le_of_succ_le_succ hdepth))
  | .map entries, _, _, depth + 1, h, hdepth => by
      rw [Stores] at h
      obtain ⟨_, pairs, hcontent, hentries⟩ := h
      rw [height] at hdepth
      rw [Memory.treeOf, hcontent]
      exact congrArg Node.map (hentries.map_treeOf (Nat.le_of_succ_le_succ hdepth))
  | .null, _, _, 0, _, hdepth => by cases hdepth
  | .scalar _, _, _, 0, _, hdepth => by cases hdepth
  | .sequence _, _, _, 0, _, hdepth => by cases hdepth
  | .map _, _, _, 0, _, hdepth => by cases hdepth

theorem StoresItems.map_treeOf {m : Memory} : ∀ {items : List Node} {cells : Set Nat}
    {ns : List Nat} {depth : Nat}, StoresItems m items cells ns → heightItems items ≤ depth →
    ns.map (m.treeOf depth) = items
  | [], _, _, _, h, _ => by
      rw [StoresItems] at h
      rw [h]
      rfl
  | _ :: _, _, _, _, h, hdepth => by
      rw [StoresItems] at h
      obtain ⟨n, rest, own, rfl, _, hitem, hitems⟩ := h
      rw [heightItems, max_le_iff] at hdepth
      rw [List.map_cons, hitem.treeOf_eq hdepth.1, hitems.map_treeOf hdepth.2]

theorem StoresEntries.map_treeOf {m : Memory} : ∀ {entries : List (Node × Node)}
    {cells : Set Nat} {pairs : List (Nat × Nat)} {depth : Nat}, StoresEntries m entries cells pairs →
    heightEntries entries ≤ depth →
    (pairs.map fun pair => (m.treeOf depth pair.1, m.treeOf depth pair.2)) = entries
  | [], _, _, _, h, _ => by
      rw [StoresEntries] at h
      rw [h]
      rfl
  | (_, _) :: _, _, _, _, h, hdepth => by
      rw [StoresEntries] at h
      obtain ⟨k, v, rest, keyCells, valueCells, rfl, _, _, hk, hv, hrest⟩ := h
      rw [heightEntries, max_le_iff, max_le_iff] at hdepth
      rw [List.map_cons, hk.treeOf_eq hdepth.1.1, hv.treeOf_eq hdepth.1.2,
        hrest.map_treeOf hdepth.2]

end

mutual

/-- Nothing stored in cells of its own is below itself. -/
theorem Stores.within {m : Memory} : ∀ {t : Node} {cells : Set Nat} {n depth : Nat},
    Stores m t cells n → height t ≤ depth → m.within depth n = true
  | .null, _, _, depth + 1, h, _ => by
      rw [Stores] at h
      simp [Memory.within, Memory.children, h.2, Data.isDefined, Data.children]
  | .scalar _, _, _, depth + 1, h, _ => by
      rw [Stores] at h
      simp [Memory.within, Memory.children, h.2, Data.isDefined, Data.children]
  | .sequence items, _, _, depth + 1, h, hdepth => by
      rw [Stores] at h
      obtain ⟨_, ns, hcontent, hitems⟩ := h
      rw [height] at hdepth
      rw [Memory.within_succ, Memory.children, hcontent]
      exact ⟨rfl, hitems.within (Nat.le_of_succ_le_succ hdepth)⟩
  | .map entries, _, _, depth + 1, h, hdepth => by
      rw [Stores] at h
      obtain ⟨_, pairs, hcontent, hentries⟩ := h
      rw [height] at hdepth
      have hbelow := hentries.within (Nat.le_of_succ_le_succ hdepth)
      rw [Memory.within_succ, Memory.children, hcontent]
      refine ⟨rfl, fun c hc => ?_⟩
      rcases List.mem_append.mp hc with hc | hc
      · obtain ⟨pair, hpair, rfl⟩ := List.mem_map.mp hc
        exact (hbelow pair hpair).1
      · obtain ⟨pair, hpair, rfl⟩ := List.mem_map.mp hc
        exact (hbelow pair hpair).2
  | .null, _, _, 0, _, hdepth => by cases hdepth
  | .scalar _, _, _, 0, _, hdepth => by cases hdepth
  | .sequence _, _, _, 0, _, hdepth => by cases hdepth
  | .map _, _, _, 0, _, hdepth => by cases hdepth

theorem StoresItems.within {m : Memory} : ∀ {items : List Node} {cells : Set Nat}
    {ns : List Nat} {depth : Nat}, StoresItems m items cells ns → heightItems items ≤ depth →
    ∀ n ∈ ns, m.within depth n = true
  | [], _, _, _, h, _ => by
      rw [StoresItems] at h
      rw [h]
      exact fun n hn => by cases hn
  | _ :: _, _, _, _, h, hdepth => by
      rw [StoresItems] at h
      obtain ⟨n, rest, own, rfl, _, hitem, hitems⟩ := h
      rw [heightItems, max_le_iff] at hdepth
      exact List.forall_mem_cons.mpr ⟨hitem.within hdepth.1, hitems.within hdepth.2⟩

theorem StoresEntries.within {m : Memory} : ∀ {entries : List (Node × Node)}
    {cells : Set Nat} {pairs : List (Nat × Nat)} {depth : Nat}, StoresEntries m entries cells pairs →
    heightEntries entries ≤ depth →
    ∀ pair ∈ pairs, m.within depth pair.1 = true ∧ m.within depth pair.2 = true
  | [], _, _, _, h, _ => by
      rw [StoresEntries] at h
      rw [h]
      exact fun pair hpair => by cases hpair
  | (_, _) :: _, _, _, _, h, hdepth => by
      rw [StoresEntries] at h
      obtain ⟨k, v, rest, keyCells, valueCells, rfl, _, _, hk, hv, hrest⟩ := h
      rw [heightEntries, max_le_iff, max_le_iff] at hdepth
      exact List.forall_mem_cons.mpr
        ⟨⟨hk.within hdepth.1.1, hv.within hdepth.1.2⟩, hrest.within hdepth.2⟩

end

/-! ## Documents -/

/-- What `YAML::LoadFile` gives. An alias is the node of its anchor; a document with an alias below
its own anchor has no end, and is none here. -/
structure Document where
  memory : Memory
  root : Nat
  depth : Nat
  within : memory.within depth root = true
  closed : memory.Closed
  root_lt : root < memory.next

namespace Document

def tree (d : Document) : Node := d.memory.treeOf d.depth d.root

/-- A memory without nodes. -/
def blank : Memory := ⟨id, fun _ => .undefined, 0⟩

theorem closed_blank : blank.Closed := ⟨fun n hn => absurd hn (Nat.not_lt_zero n),
  fun a ha => absurd ha (Nat.not_lt_zero a)⟩

/-- The document of a text without aliases. -/
def ofNode (t : Node) : Document where
  memory := (load blank t).1
  root := (load blank t).2
  depth := height t
  within := (load_stores t blank).2.within le_rfl
  closed := closed_load t closed_blank
  root_lt := load_lt t blank

@[simp] theorem tree_ofNode (t : Node) : (ofNode t).tree = t :=
  (load_stores t blank).2.treeOf_eq le_rfl

end Document

end UavBluetooth.Yaml
