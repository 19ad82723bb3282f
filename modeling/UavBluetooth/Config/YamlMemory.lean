import Mathlib
import UavBluetooth.Config.Yaml

set_option autoImplicit false

/-! # Nodes in memory

A `YAML::Node` is a handle: copying it copies nothing, a subscript gives the node that is in the
tree, and an assignment makes that node refer to the data of another one. `YAML::Clone` copies
what is below a node; a node that it meets twice it copies once.

A tree is stored in a set of cells (`Stores`), each part of it in cells of its own. What agrees on
the cells stores the same tree (`Stores.frame`), and a clone is the same tree in cells that are
new (`clone_stores`).
-/

namespace UavBluetooth.Yaml

/-! ## Memory -/

/-- What a node refers to. -/
inductive Data where
  | undefined
  | null
  | scalar (text : String)
  | sequence (items : List Nat)
  | map (pairs : List (Nat × Nat))

/-- The nodes, the data they refer to, and the first number that is free for both. -/
structure Memory where
  ref : Nat → Nat
  data : Nat → Data
  next : Nat

namespace Memory

def content (m : Memory) (n : Nat) : Data := m.data (m.ref n)

def isDefined (m : Memory) (n : Nat) : Bool :=
  match m.content n with
  | .undefined => false
  | _ => true

def isNull (m : Memory) (n : Nat) : Bool :=
  match m.content n with
  | .null => true
  | _ => false

/-- `memory.create_node()`, with what it is to hold. -/
def create (m : Memory) (data : Data) : Memory × Nat :=
  ({ ref := Function.update m.ref m.next m.next
     data := Function.update m.data m.next data
     next := m.next + 1 }, m.next)

/-- Change the data that the node refers to. -/
def fill (m : Memory) (n : Nat) (data : Data) : Memory :=
  { m with data := Function.update m.data (m.ref n) data }

/-- `node = other`: the node refers to the data of the other. -/
def assign (m : Memory) (n other : Nat) : Memory :=
  { m with ref := Function.update m.ref n (m.ref other) }

end Memory

/-! ## Subscripts -/

/-- Whether a node is the scalar `key`. -/
def isKeyNode (m : Memory) (key : String) (n : Nat) : Bool :=
  match m.content n with
  | .scalar text => text == key
  | _ => false

def badSubscript : String := "operator[] call on a scalar"

/-- `merged[key]` of a map. A key that is missing is entered with an undefined node. -/
def subscript (m : Memory) (merged : Nat) (key : String) : Except String (Memory × Nat) :=
  match m.content merged with
  | .map pairs =>
      match pairs.find? fun pair => isKeyNode m key pair.1 with
      | some pair => .ok (m, pair.2)
      | none =>
          let (withKey, keyNode) := m.create (.scalar key)
          let (withValue, valueNode) := withKey.create .undefined
          .ok (withValue.fill merged (.map (pairs ++ [(keyNode, valueNode)])), valueNode)
  | _ => .error badSubscript

/-! ## Documents -/

mutual

/-- `YAML::Load` of a document without aliases: a node is there before what is below it. -/
def load (m : Memory) : Node → Memory × Nat
  | .null => m.create .null
  | .scalar text => ((m.create .null).1.fill m.next (.scalar text), m.next)
  | .sequence items =>
      let (loaded, ns) := loadItems (m.create .null).1 items
      (loaded.fill m.next (.sequence ns), m.next)
  | .map entries =>
      let (loaded, pairs) := loadEntries (m.create .null).1 entries
      (loaded.fill m.next (.map pairs), m.next)

def loadItems (m : Memory) : List Node → Memory × List Nat
  | [] => (m, [])
  | item :: items =>
      let (loaded, n) := load m item
      let (loaded, ns) := loadItems loaded items
      (loaded, n :: ns)

def loadEntries (m : Memory) : List (Node × Node) → Memory × List (Nat × Nat)
  | [] => (m, [])
  | (key, value) :: entries =>
      let (loaded, k) := load m key
      let (loaded, v) := load loaded value
      let (loaded, pairs) := loadEntries loaded entries
      (loaded, (k, v) :: pairs)

end

/-! ## Clones -/

/-- A copy under construction, with the copies of what was met by its reference. -/
structure Builder where
  memory : Memory
  anchors : List (Nat × Nat)

def outOfDepth : String := "out of depth"

/-- Copy the members of a list one after another. -/
def copyAll {α : Type} (copy : Builder → α → Except String (Builder × α)) :
    Builder → List α → Except String (Builder × List α)
  | b, [] => .ok (b, [])
  | b, a :: rest => do
      let (b, a) ← copy b a
      let (b, rest) ← copyAll copy b rest
      return (b, a :: rest)

/-- Copy a key and its value. -/
def copyPair (copy : Builder → Nat → Except String (Builder × Nat)) (b : Builder)
    (pair : Nat × Nat) : Except String (Builder × Nat × Nat) := do
  let (b, key) ← copy b pair.1
  let (b, value) ← copy b pair.2
  return (b, key, value)

/-- A new node, which is the copy of what the node refers to. -/
def Builder.start (b : Builder) (n : Nat) : Builder :=
  ⟨(b.memory.create .null).1, (b.memory.ref n, b.memory.next) :: b.anchors⟩

def Builder.fill (b : Builder) (n : Nat) (data : Data) : Builder :=
  { b with memory := b.memory.fill n data }

/-- Copy one node. What is undefined becomes null. -/
def copyNode : Nat → Builder → Nat → Except String (Builder × Nat)
  | 0, _, _ => .error outOfDepth
  | depth + 1, b, n =>
      match b.anchors.lookup (b.memory.ref n) with
      | some copy => .ok (b, copy)
      | none =>
          let copy := b.memory.next
          match b.memory.content n with
          | .undefined => .ok (b.start n, copy)
          | .null => .ok (b.start n, copy)
          | .scalar text => .ok ((b.start n).fill copy (.scalar text), copy)
          | .sequence items => do
              let (b, items) ← copyAll (copyNode depth) (b.start n) items
              return (b.fill copy (.sequence items), copy)
          | .map pairs => do
              let (b, pairs) ← copyAll (copyPair (copyNode depth)) (b.start n) pairs
              return (b.fill copy (.map pairs), copy)

/-- `YAML::Clone(node)` -/
def clone (depth : Nat) (m : Memory) (n : Nat) : Except String (Memory × Nat) := do
  let (b, copy) ← copyNode depth ⟨m, []⟩ n
  return (b.memory, copy)

/-! ## Trees in memory -/

/-- The node and its data are among the cells. -/
def Memory.Owns (m : Memory) (cells : Set Nat) (n : Nat) : Prop := n ∈ cells ∧ m.ref n ∈ cells

mutual

/-- The tree is what is at a node, each part of it in cells of its own. -/
def Stores (m : Memory) : Node → Set Nat → Nat → Prop
  | .null, cells, n => m.Owns cells n ∧ m.content n = .null
  | .scalar text, cells, n => m.Owns cells n ∧ m.content n = .scalar text
  | .sequence items, cells, n => m.Owns cells n ∧ ∃ ns, m.content n = .sequence ns ∧
      StoresItems m items (cells \ {n, m.ref n}) ns
  | .map entries, cells, n => m.Owns cells n ∧ ∃ pairs, m.content n = .map pairs ∧
      StoresEntries m entries (cells \ {n, m.ref n}) pairs

def StoresItems (m : Memory) : List Node → Set Nat → List Nat → Prop
  | [], _, ns => ns = []
  | item :: items, cells, ns => ∃ n rest own, ns = n :: rest ∧ own ⊆ cells ∧ Stores m item own n ∧
      StoresItems m items (cells \ own) rest

def StoresEntries (m : Memory) : List (Node × Node) → Set Nat → List (Nat × Nat) → Prop
  | [], _, pairs => pairs = []
  | (key, value) :: entries, cells, pairs => ∃ k v rest keyCells valueCells,
      pairs = (k, v) :: rest ∧ keyCells ⊆ cells ∧ valueCells ⊆ cells \ keyCells ∧
      Stores m key keyCells k ∧ Stores m value valueCells v ∧
      StoresEntries m entries ((cells \ keyCells) \ valueCells) rest

end

/-- The second memory has the same in these cells. -/
def Memory.Agrees (m m' : Memory) (cells : Set Nat) : Prop :=
  ∀ x ∈ cells, m'.ref x = m.ref x ∧ m'.data x = m.data x

/-- The second memory has more cells and the same in those of the first. -/
structure Memory.Extends (m m' : Memory) : Prop where
  next : m.next ≤ m'.next
  agrees : m.Agrees m' (Set.Iio m.next)

theorem Memory.Agrees.mono {m m' : Memory} {cells cells' : Set Nat} (h : m.Agrees m' cells')
    (hsub : cells ⊆ cells') : m.Agrees m' cells :=
  fun x hx => h x (hsub hx)

theorem Memory.Agrees.content {m m' : Memory} {cells : Set Nat} (h : m.Agrees m' cells) {n : Nat}
    (hn : m.Owns cells n) : m'.content n = m.content n := by
  unfold Memory.content
  rw [(h n hn.1).1, (h _ hn.2).2]

theorem Memory.Agrees.owns {m m' : Memory} {cells : Set Nat} (h : m.Agrees m' cells) {n : Nat}
    (hn : m.Owns cells n) : m'.Owns cells n :=
  ⟨hn.1, by rw [(h n hn.1).1]; exact hn.2⟩

mutual

/-- **What agrees on the cells stores the same tree.** -/
theorem Stores.frame {m m' : Memory} : ∀ {t : Node} {cells : Set Nat} {n : Nat},
    Stores m t cells n → m.Agrees m' cells → Stores m' t cells n
  | .null, _, _, h, ha => by
      rw [Stores] at h ⊢
      exact ⟨ha.owns h.1, (ha.content h.1).trans h.2⟩
  | .scalar _, _, _, h, ha => by
      rw [Stores] at h ⊢
      exact ⟨ha.owns h.1, (ha.content h.1).trans h.2⟩
  | .sequence _, _, n, h, ha => by
      rw [Stores] at h ⊢
      obtain ⟨howns, ns, hcontent, hitems⟩ := h
      refine ⟨ha.owns howns, ns, (ha.content howns).trans hcontent, ?_⟩
      rw [(ha n howns.1).1]
      exact hitems.frame (ha.mono Set.sdiff_subset)
  | .map _, _, n, h, ha => by
      rw [Stores] at h ⊢
      obtain ⟨howns, pairs, hcontent, hentries⟩ := h
      refine ⟨ha.owns howns, pairs, (ha.content howns).trans hcontent, ?_⟩
      rw [(ha n howns.1).1]
      exact hentries.frame (ha.mono Set.sdiff_subset)

theorem StoresItems.frame {m m' : Memory} : ∀ {items : List Node} {cells : Set Nat} {ns : List Nat},
    StoresItems m items cells ns → m.Agrees m' cells → StoresItems m' items cells ns
  | [], _, _, h, _ => by
      rw [StoresItems] at h ⊢
      exact h
  | _ :: _, _, _, h, ha => by
      rw [StoresItems] at h ⊢
      obtain ⟨n, rest, own, hns, hown, hitem, hitems⟩ := h
      exact ⟨n, rest, own, hns, hown, hitem.frame (ha.mono hown),
        hitems.frame (ha.mono Set.sdiff_subset)⟩

theorem StoresEntries.frame {m m' : Memory} : ∀ {entries : List (Node × Node)} {cells : Set Nat}
    {pairs : List (Nat × Nat)}, StoresEntries m entries cells pairs → m.Agrees m' cells →
    StoresEntries m' entries cells pairs
  | [], _, _, h, _ => by
      rw [StoresEntries] at h ⊢
      exact h
  | (_, _) :: _, _, _, h, ha => by
      rw [StoresEntries] at h ⊢
      obtain ⟨k, v, rest, keyCells, valueCells, hpairs, hkey, hvalue, hk, hv, hrest⟩ := h
      refine ⟨k, v, rest, keyCells, valueCells, hpairs, hkey, hvalue, hk.frame (ha.mono hkey),
        hv.frame (ha.mono (hvalue.trans Set.sdiff_subset)), hrest.frame (ha.mono ?_)⟩
      exact Set.sdiff_subset.trans Set.sdiff_subset

end

mutual

/-- More cells do no harm. -/
theorem Stores.mono {m : Memory} : ∀ {t : Node} {cells cells' : Set Nat} {n : Nat},
    Stores m t cells n → cells ⊆ cells' → Stores m t cells' n
  | .null, _, _, _, h, hsub => by
      rw [Stores] at h ⊢
      exact ⟨⟨hsub h.1.1, hsub h.1.2⟩, h.2⟩
  | .scalar _, _, _, _, h, hsub => by
      rw [Stores] at h ⊢
      exact ⟨⟨hsub h.1.1, hsub h.1.2⟩, h.2⟩
  | .sequence _, _, _, _, h, hsub => by
      rw [Stores] at h ⊢
      obtain ⟨howns, ns, hcontent, hitems⟩ := h
      exact ⟨⟨hsub howns.1, hsub howns.2⟩, ns, hcontent,
        hitems.mono fun x hx => ⟨hsub hx.1, hx.2⟩⟩
  | .map _, _, _, _, h, hsub => by
      rw [Stores] at h ⊢
      obtain ⟨howns, pairs, hcontent, hentries⟩ := h
      exact ⟨⟨hsub howns.1, hsub howns.2⟩, pairs, hcontent,
        hentries.mono fun x hx => ⟨hsub hx.1, hx.2⟩⟩

theorem StoresItems.mono {m : Memory} : ∀ {items : List Node} {cells cells' : Set Nat}
    {ns : List Nat}, StoresItems m items cells ns → cells ⊆ cells' → StoresItems m items cells' ns
  | [], _, _, _, h, _ => by
      rw [StoresItems] at h ⊢
      exact h
  | _ :: _, _, _, _, h, hsub => by
      rw [StoresItems] at h ⊢
      obtain ⟨n, rest, own, hns, hown, hitem, hitems⟩ := h
      exact ⟨n, rest, own, hns, hown.trans hsub, hitem,
        hitems.mono fun x hx => ⟨hsub hx.1, hx.2⟩⟩

theorem StoresEntries.mono {m : Memory} : ∀ {entries : List (Node × Node)}
    {cells cells' : Set Nat} {pairs : List (Nat × Nat)}, StoresEntries m entries cells pairs →
    cells ⊆ cells' → StoresEntries m entries cells' pairs
  | [], _, _, _, h, _ => by
      rw [StoresEntries] at h ⊢
      exact h
  | (_, _) :: _, _, _, _, h, hsub => by
      rw [StoresEntries] at h ⊢
      obtain ⟨k, v, rest, keyCells, valueCells, hpairs, hkey, hvalue, hk, hv, hrest⟩ := h
      exact ⟨k, v, rest, keyCells, valueCells, hpairs, hkey.trans hsub,
        fun x hx => ⟨hsub (hvalue hx).1, (hvalue hx).2⟩, hk, hv,
        hrest.mono fun x hx => ⟨⟨hsub hx.1.1, hx.1.2⟩, hx.2⟩⟩

end

/-! ## What a clone stores -/

mutual

/-- How deep a tree is. -/
def height : Node → Nat
  | .sequence items => heightItems items + 1
  | .map entries => heightEntries entries + 1
  | _ => 1

def heightItems : List Node → Nat
  | [] => 0
  | item :: items => max (height item) (heightItems items)

def heightEntries : List (Node × Node) → Nat
  | [] => 0
  | (key, value) :: entries => max (max (height key) (height value)) (heightEntries entries)

end

namespace Memory.Extends

variable {m m' m'' : Memory}

theorem refl (m : Memory) : m.Extends m := ⟨le_rfl, fun _ _ => ⟨rfl, rfl⟩⟩

theorem trans (h : m.Extends m') (h' : m'.Extends m'') : m.Extends m'' := by
  refine ⟨h.next.trans h'.next, fun x hx => ?_⟩
  have hx' : x ∈ Set.Iio m'.next := lt_of_lt_of_le hx h.next
  exact ⟨(h'.agrees x hx').1.trans (h.agrees x hx).1, (h'.agrees x hx').2.trans (h.agrees x hx).2⟩

end Memory.Extends

theorem Memory.extends_create (m : Memory) (data : Data) : m.Extends (m.create data).1 := by
  refine ⟨Nat.le_succ _, fun x hx => ?_⟩
  have hne : x ≠ m.next := ne_of_lt hx
  exact ⟨Function.update_of_ne hne _ _, Function.update_of_ne hne _ _⟩

/-- Filling what was created later leaves the rest. -/
theorem Memory.Extends.fill {m m' : Memory} (h : m.Extends m') {n : Nat} (hn : m.next ≤ m'.ref n)
    (data : Data) : m.Extends (m'.fill n data) := by
  refine ⟨h.next, fun x hx => ⟨(h.agrees x hx).1, ?_⟩⟩
  have hne : x ≠ m'.ref n := ne_of_lt (lt_of_lt_of_le hx hn)
  exact (Function.update_of_ne hne _ _).trans (h.agrees x hx).2

theorem Memory.agrees_fill (m : Memory) {n : Nat} {cells : Set Nat} (hn : m.ref n ∉ cells)
    (data : Data) : m.Agrees (m.fill n data) cells := by
  intro x hx
  have hne : x ≠ m.ref n := fun heq => hn (heq ▸ hx)
  exact ⟨rfl, Function.update_of_ne hne _ _⟩

/-! ## New cells -/

/-- The cells that the second memory has and the first does not. -/
def newCells (m m' : Memory) : Set Nat := Set.Ico m.next m'.next

section

variable {m m₁ m₂ m₃ : Memory}

theorem newCells_left (h : m₁.next ≤ m₂.next) : newCells m m₁ ⊆ newCells m m₂ :=
  fun _ hx => ⟨hx.1, lt_of_lt_of_le hx.2 h⟩

theorem newCells_right (h : m.Extends m₁) : newCells m₁ m₂ ⊆ newCells m m₂ \ newCells m m₁ :=
  fun _ hx => ⟨⟨h.next.trans hx.1, hx.2⟩, fun hx' => absurd hx'.2 (not_lt_of_ge hx.1)⟩

theorem newCells_frame (h : m₁.Extends m₂) : m₁.Agrees m₂ (newCells m m₁) :=
  h.agrees.mono fun _ hx => hx.2

/-- An item in new cells and the others in newer ones. -/
theorem storesItems_cons (h₁ : m.Extends m₁) (h₂ : m₁.Extends m₂) {item : Node} {items : List Node}
    {n : Nat} {ns : List Nat} (hitem : Stores m₁ item (newCells m m₁) n)
    (hitems : StoresItems m₂ items (newCells m₁ m₂) ns) :
    StoresItems m₂ (item :: items) (newCells m m₂) (n :: ns) := by
  rw [StoresItems]
  exact ⟨n, ns, newCells m m₁, rfl, newCells_left h₂.next, hitem.frame (newCells_frame h₂),
    hitems.mono (newCells_right h₁)⟩

theorem storesEntries_cons (h₁ : m.Extends m₁) (h₂ : m₁.Extends m₂) (h₃ : m₂.Extends m₃)
    {key value : Node} {entries : List (Node × Node)} {k v : Nat} {pairs : List (Nat × Nat)}
    (hk : Stores m₁ key (newCells m m₁) k) (hv : Stores m₂ value (newCells m₁ m₂) v)
    (hentries : StoresEntries m₃ entries (newCells m₂ m₃) pairs) :
    StoresEntries m₃ ((key, value) :: entries) (newCells m m₃) ((k, v) :: pairs) := by
  have hlater := h₂.trans h₃
  rw [StoresEntries]
  refine ⟨k, v, pairs, newCells m m₁, newCells m₁ m₂, rfl, newCells_left hlater.next, ?_,
    hk.frame (newCells_frame hlater), hv.frame (newCells_frame h₃), hentries.mono fun x hx => ?_⟩
  · exact fun x hx => newCells_right h₁ (newCells_left h₃.next hx)
  · have hx₁ := newCells_right h₂ hx
    exact ⟨newCells_right h₁ hx₁.1, hx₁.2⟩

end

/-! ## A node that is filled after what is below it -/

namespace Memory

variable {m m' : Memory} {data : Data}

theorem ref_created (h : (m.create .null).1.Extends m') : m'.ref m.next = m.next := by
  rw [(h.agrees m.next (Nat.lt_succ_self _)).1]
  exact Function.update_self _ _ _

theorem owns_fill (h : (m.create .null).1.Extends m') :
    (m'.fill m.next data).Owns (newCells m m') m.next := by
  have hnext : m.next < m'.next := h.next
  refine ⟨⟨le_rfl, hnext⟩, ?_⟩
  show m'.ref m.next ∈ newCells m m'
  rw [ref_created h]
  exact ⟨le_rfl, hnext⟩

theorem content_fill {n : Nat} : (m.fill n data).content n = data :=
  Function.update_self _ _ _

theorem agrees_below (h : (m.create .null).1.Extends m') :
    m'.Agrees (m'.fill m.next data) (newCells (m.create .null).1 m') := by
  refine m'.agrees_fill ?_ data
  rw [ref_created h]
  exact fun hmem => absurd hmem.1 (Nat.not_succ_le_self _)

theorem below_sub (h : (m.create .null).1.Extends m') :
    newCells (m.create .null).1 m' ⊆
      newCells m m' \ {m.next, (m'.fill m.next data).ref m.next} := by
  intro x hx
  have href : (m'.fill m.next data).ref m.next = m.next := @ref_created m m' h
  have hne : x ≠ m.next := Nat.ne_of_gt hx.1
  refine ⟨⟨(Nat.le_succ _).trans hx.1, hx.2⟩, ?_⟩
  rw [href]
  simpa using hne

theorem stores_fill_sequence (h : (m.create .null).1.Extends m') {items : List Node}
    {ns : List Nat} (hitems : StoresItems m' items (newCells (m.create .null).1 m') ns) :
    Stores (m'.fill m.next (.sequence ns)) (.sequence items) (newCells m m') m.next := by
  rw [Stores]
  refine ⟨owns_fill h, ns, content_fill, ?_⟩
  exact (hitems.frame (agrees_below h)).mono (below_sub h)

theorem stores_fill_map (h : (m.create .null).1.Extends m') {entries : List (Node × Node)}
    {pairs : List (Nat × Nat)}
    (hentries : StoresEntries m' entries (newCells (m.create .null).1 m') pairs) :
    Stores (m'.fill m.next (.map pairs)) (.map entries) (newCells m m') m.next := by
  rw [Stores]
  refine ⟨owns_fill h, pairs, content_fill, ?_⟩
  exact (hentries.frame (agrees_below h)).mono (below_sub h)

theorem stores_create_null (m : Memory) :
    Stores (m.create .null).1 .null (newCells m (m.create .null).1) m.next := by
  have href : (m.create .null).1.ref m.next = m.next := Function.update_self _ _ _
  have hnew : m.next ∈ newCells m (m.create .null).1 := ⟨le_rfl, Nat.lt_succ_self _⟩
  rw [Stores]
  refine ⟨⟨hnew, by rwa [href]⟩, ?_⟩
  show (m.create .null).1.data ((m.create .null).1.ref m.next) = .null
  rw [href]
  exact Function.update_self _ _ _

theorem stores_fill_scalar (m : Memory) (text : String) :
    Stores ((m.create .null).1.fill m.next (.scalar text)) (.scalar text)
      (newCells m (m.create .null).1) m.next := by
  rw [Stores]
  exact ⟨owns_fill (.refl _), content_fill⟩

end Memory

/-- What a copy of the cells has done: the memory has grown, and only these cells have got
anchors. -/
structure Builder.Copied (b b' : Builder) (cells : Set Nat) : Prop where
  memory : b.memory.Extends b'.memory
  anchors : ∀ r ∉ cells, b.anchors.lookup r = none → b'.anchors.lookup r = none

/-- The cells can be copied: they are there, and none has an anchor. -/
structure Builder.Ready (b : Builder) (cells : Set Nat) : Prop where
  below : cells ⊆ Set.Iio b.memory.next
  fresh : ∀ r ∈ cells, b.anchors.lookup r = none

namespace Builder

variable {b b' b'' : Builder} {cells cells' : Set Nat}

theorem Copied.refl (b : Builder) (cells : Set Nat) : b.Copied b cells :=
  ⟨.refl _, fun _ _ h => h⟩

theorem Copied.trans (h : b.Copied b' cells) (h' : b'.Copied b'' cells) : b.Copied b'' cells :=
  ⟨h.memory.trans h'.memory, fun r hr hb => h'.anchors r hr (h.anchors r hr hb)⟩

theorem Copied.mono (h : b.Copied b' cells) (hsub : cells ⊆ cells') : b.Copied b' cells' :=
  ⟨h.memory, fun r hr => h.anchors r fun hr' => hr (hsub hr')⟩

theorem Ready.mono (h : b.Ready cells') (hsub : cells ⊆ cells') : b.Ready cells :=
  ⟨hsub.trans h.below, fun r hr => h.fresh r (hsub hr)⟩

/-- Copying some cells leaves the others as they are. -/
theorem Ready.after (h : b.Ready cells) (hcopied : b.Copied b' cells')
    (hdisjoint : Disjoint cells cells') : b'.Ready cells := by
  refine ⟨fun x hx => lt_of_lt_of_le (h.below hx) hcopied.memory.next, fun r hr => ?_⟩
  exact hcopied.anchors r (Set.disjoint_left.mp hdisjoint hr) (h.fresh r hr)

theorem Copied.frame (h : b.Copied b' cells') (hready : b.Ready cells) :
    b.memory.Agrees b'.memory cells :=
  h.memory.agrees.mono hready.below

section

variable {n : Nat} {data : Data}

theorem copied_start (b : Builder) (hn : b.memory.ref n ∈ cells) : b.Copied (b.start n) cells := by
  refine ⟨b.memory.extends_create _, fun r hr hb => ?_⟩
  have hne : r ≠ b.memory.ref n := fun heq => hr (heq ▸ hn)
  simp [start, List.lookup_cons, hb, beq_eq_false_iff_ne.mpr hne]

theorem Ready.start (h : b.Ready cells) : (b.start n).Ready (cells \ {n, b.memory.ref n}) := by
  refine ⟨fun x hx => lt_of_lt_of_le (h.below hx.1) (Nat.le_succ _), fun r hr => ?_⟩
  have hne : r ≠ b.memory.ref n := fun heq => hr.2 (by simp [heq])
  simp [Builder.start, List.lookup_cons, h.fresh r hr.1, beq_eq_false_iff_ne.mpr hne]

theorem Copied.fill (h : (b.start n).Copied b' cells') (hsub : cells' ⊆ cells)
    (hn : b.memory.ref n ∈ cells) : b.Copied (b'.fill b.memory.next data) cells := by
  have hcopied := (b.copied_start hn).trans (h.mono hsub)
  refine ⟨hcopied.memory.fill ?_ data, hcopied.anchors⟩
  rw [Memory.ref_created h.memory]

end

end Builder

/-- The result of a copy is the tree in new cells. -/
def CopiesTo (b : Builder) (cells : Set Nat) (t : Node) (result : Except String (Builder × Nat)) :
    Prop :=
  ∃ b' copy, result = .ok (b', copy) ∧ b.Copied b' cells ∧ Stores b'.memory t (newCells b.memory b'.memory) copy

theorem copyNode_eq {b : Builder} {n depth : Nat} (h : b.anchors.lookup (b.memory.ref n) = none) :
    copyNode (depth + 1) b n =
      match b.memory.content n with
      | .undefined => .ok (b.start n, b.memory.next)
      | .null => .ok (b.start n, b.memory.next)
      | .scalar text => .ok ((b.start n).fill b.memory.next (.scalar text), b.memory.next)
      | .sequence items => do
          let (b', items) ← copyAll (copyNode depth) (b.start n) items
          return (b'.fill b.memory.next (.sequence items), b.memory.next)
      | .map pairs => do
          let (b', pairs) ← copyAll (copyPair (copyNode depth)) (b.start n) pairs
          return (b'.fill b.memory.next (.map pairs), b.memory.next) := by
  rw [copyNode, h]

mutual

/-- **A copy of a node stores the tree that the node stores.** -/
theorem copyNode_stores : ∀ {t : Node} {cells : Set Nat} {b : Builder} {n depth : Nat},
    height t ≤ depth → b.Ready cells → Stores b.memory t cells n →
    CopiesTo b cells t (copyNode depth b n)
  | .null, cells, b, n, depth + 1, _, hready, h => by
      rw [Stores] at h
      obtain ⟨howns, hcontent⟩ := h
      rw [copyNode_eq (hready.fresh _ howns.2), hcontent]
      exact ⟨b.start n, b.memory.next, rfl, b.copied_start howns.2, b.memory.stores_create_null⟩
  | .scalar text, cells, b, n, depth + 1, _, hready, h => by
      rw [Stores] at h
      obtain ⟨howns, hcontent⟩ := h
      rw [copyNode_eq (hready.fresh _ howns.2), hcontent]
      have hstart := Builder.Copied.refl (b.start n) ∅
      refine ⟨(b.start n).fill b.memory.next (.scalar text), b.memory.next, rfl,
        hstart.fill (Set.empty_subset _) howns.2, ?_⟩
      exact b.memory.stores_fill_scalar text
  | .sequence items, cells, b, n, depth + 1, hdepth, hready, h => by
      rw [Stores] at h
      obtain ⟨howns, ns, hcontent, hitems⟩ := h
      rw [copyNode_eq (hready.fresh _ howns.2), hcontent]
      have hframed := hitems.frame
        (((b.copied_start howns.2).frame hready).mono Set.sdiff_subset)
      obtain ⟨b', ns', hcopy, hcopied, hstores⟩ :=
        copyItems_stores (Nat.le_of_succ_le_succ hdepth) hready.start hframed
      refine ⟨b'.fill b.memory.next (.sequence ns'), b.memory.next, ?_,
        hcopied.fill Set.sdiff_subset howns.2, ?_⟩
      · simp only [hcopy]
        rfl
      · exact Memory.stores_fill_sequence hcopied.memory hstores
  | .map entries, cells, b, n, depth + 1, hdepth, hready, h => by
      rw [Stores] at h
      obtain ⟨howns, pairs, hcontent, hentries⟩ := h
      rw [copyNode_eq (hready.fresh _ howns.2), hcontent]
      have hframed := hentries.frame
        (((b.copied_start howns.2).frame hready).mono Set.sdiff_subset)
      obtain ⟨b', pairs', hcopy, hcopied, hstores⟩ :=
        copyEntries_stores (Nat.le_of_succ_le_succ hdepth) hready.start hframed
      refine ⟨b'.fill b.memory.next (.map pairs'), b.memory.next, ?_,
        hcopied.fill Set.sdiff_subset howns.2, ?_⟩
      · simp only [hcopy]
        rfl
      · exact Memory.stores_fill_map hcopied.memory hstores

theorem copyItems_stores : ∀ {items : List Node} {cells : Set Nat} {b : Builder} {ns : List Nat}
    {depth : Nat}, heightItems items ≤ depth → b.Ready cells → StoresItems b.memory items cells ns →
    ∃ b' ns', copyAll (copyNode depth) b ns = .ok (b', ns') ∧ b.Copied b' cells ∧
      StoresItems b'.memory items (newCells b.memory b'.memory) ns'
  | [], cells, b, ns, depth, _, _, h => by
      rw [StoresItems] at h
      subst h
      exact ⟨b, [], rfl, .refl _ _, by rw [StoresItems]⟩
  | item :: items, cells, b, ns, depth, hdepth, hready, h => by
      rw [StoresItems] at h
      obtain ⟨n, rest, own, rfl, hown, hitem, hitems⟩ := h
      rw [heightItems, max_le_iff] at hdepth
      obtain ⟨b₁, n', hcopy₁, hcopied₁, hstores₁⟩ :=
        copyNode_stores hdepth.1 (hready.mono hown) hitem
      have hrest : b.Ready (cells \ own) := hready.mono Set.sdiff_subset
      obtain ⟨b₂, ns', hcopy₂, hcopied₂, hstores₂⟩ :=
        copyItems_stores hdepth.2 (hrest.after hcopied₁ disjoint_sdiff_self_left)
          (hitems.frame (hcopied₁.frame hrest))
      refine ⟨b₂, n' :: ns', ?_, (hcopied₁.mono hown).trans (hcopied₂.mono Set.sdiff_subset), ?_⟩
      · simp only [copyAll, hcopy₁, hcopy₂, bind, Except.bind, pure, Except.pure]
      · exact storesItems_cons hcopied₁.memory hcopied₂.memory hstores₁ hstores₂

theorem copyEntries_stores : ∀ {entries : List (Node × Node)} {cells : Set Nat} {b : Builder}
    {pairs : List (Nat × Nat)} {depth : Nat}, heightEntries entries ≤ depth → b.Ready cells →
    StoresEntries b.memory entries cells pairs →
    ∃ b' pairs', copyAll (copyPair (copyNode depth)) b pairs = .ok (b', pairs') ∧
      b.Copied b' cells ∧ StoresEntries b'.memory entries (newCells b.memory b'.memory) pairs'
  | [], cells, b, pairs, depth, _, _, h => by
      rw [StoresEntries] at h
      subst h
      exact ⟨b, [], rfl, .refl _ _, by rw [StoresEntries]⟩
  | (key, value) :: entries, cells, b, pairs, depth, hdepth, hready, h => by
      rw [StoresEntries] at h
      obtain ⟨k, v, rest, keyCells, valueCells, rfl, hkey, hvalue, hk, hv, hentries⟩ := h
      rw [heightEntries, max_le_iff, max_le_iff] at hdepth
      -- The key, the value and what follows lie in cells of their own.
      have hothers : b.Ready (cells \ keyCells) := hready.mono Set.sdiff_subset
      have hrest : b.Ready ((cells \ keyCells) \ valueCells) := hothers.mono Set.sdiff_subset
      obtain ⟨b₁, k', hcopy₁, hcopied₁, hstores₁⟩ :=
        copyNode_stores hdepth.1.1 (hready.mono hkey) hk
      have hothers₁ := hothers.after hcopied₁ disjoint_sdiff_self_left
      obtain ⟨b₂, v', hcopy₂, hcopied₂, hstores₂⟩ :=
        copyNode_stores hdepth.1.2 (hothers₁.mono hvalue)
          (hv.frame (hcopied₁.frame (hothers.mono hvalue)))
      have hrest₁ := hothers₁.mono (Set.sdiff_subset (t := valueCells))
      have hframe₂ : b.memory.Agrees b₂.memory ((cells \ keyCells) \ valueCells) :=
        (hcopied₁.memory.trans hcopied₂.memory).agrees.mono hrest.below
      obtain ⟨b₃, rest', hcopy₃, hcopied₃, hstores₃⟩ :=
        copyEntries_stores hdepth.2 (hrest₁.after hcopied₂ disjoint_sdiff_self_left)
          (hentries.frame hframe₂)
      refine ⟨b₃, (k', v') :: rest', ?_, ?_, ?_⟩
      · simp only [copyAll, copyPair, hcopy₁, hcopy₂, hcopy₃, bind, Except.bind, pure, Except.pure]
      · exact (hcopied₁.mono hkey).trans ((hcopied₂.mono (hvalue.trans Set.sdiff_subset)).trans
          (hcopied₃.mono (Set.sdiff_subset.trans Set.sdiff_subset)))
      · exact storesEntries_cons hcopied₁.memory hcopied₂.memory hcopied₃.memory hstores₁ hstores₂
          hstores₃

end

mutual

/-- **A loaded document stores its tree in cells that are new.** -/
theorem load_stores : ∀ (t : Node) (m : Memory), m.Extends (load m t).1 ∧
    Stores (load m t).1 t (newCells m (load m t).1) (load m t).2
  | .null, m => ⟨m.extends_create _, m.stores_create_null⟩
  | .scalar text, m => by
      refine ⟨(m.extends_create _).fill ?_ _, m.stores_fill_scalar text⟩
      rw [Memory.ref_created (.refl _)]
  | .sequence items, m => by
      obtain ⟨hext, hstores⟩ := loadItems_stores items (m.create .null).1
      rw [load]
      refine ⟨((m.extends_create _).trans hext).fill ?_ _, Memory.stores_fill_sequence hext hstores⟩
      rw [Memory.ref_created hext]
  | .map entries, m => by
      obtain ⟨hext, hstores⟩ := loadEntries_stores entries (m.create .null).1
      rw [load]
      refine ⟨((m.extends_create _).trans hext).fill ?_ _, Memory.stores_fill_map hext hstores⟩
      rw [Memory.ref_created hext]

theorem loadItems_stores : ∀ (items : List Node) (m : Memory), m.Extends (loadItems m items).1 ∧
    StoresItems (loadItems m items).1 items (newCells m (loadItems m items).1)
      (loadItems m items).2
  | [], m => ⟨.refl m, by rw [StoresItems]; rfl⟩
  | item :: items, m => by
      obtain ⟨hext₁, hstores₁⟩ := load_stores item m
      obtain ⟨hext₂, hstores₂⟩ := loadItems_stores items (load m item).1
      rw [loadItems]
      exact ⟨hext₁.trans hext₂, storesItems_cons hext₁ hext₂ hstores₁ hstores₂⟩

theorem loadEntries_stores : ∀ (entries : List (Node × Node)) (m : Memory),
    m.Extends (loadEntries m entries).1 ∧
    StoresEntries (loadEntries m entries).1 entries
      (newCells m (loadEntries m entries).1) (loadEntries m entries).2
  | [], m => ⟨.refl m, by rw [StoresEntries]; rfl⟩
  | (key, value) :: entries, m => by
      obtain ⟨hext₁, hstores₁⟩ := load_stores key m
      obtain ⟨hext₂, hstores₂⟩ := load_stores value (load m key).1
      obtain ⟨hext₃, hstores₃⟩ := loadEntries_stores entries (load (load m key).1 value).1
      rw [loadEntries]
      exact ⟨hext₁.trans (hext₂.trans hext₃),
        storesEntries_cons hext₁ hext₂ hext₃ hstores₁ hstores₂ hstores₃⟩

end

/-- **A clone stores the tree of the node in cells that are new.** -/
theorem clone_stores {t : Node} {cells : Set Nat} {m : Memory} {n depth : Nat}
    (hdepth : height t ≤ depth) (hcells : cells ⊆ Set.Iio m.next) (h : Stores m t cells n) :
    ∃ m' copy, clone depth m n = .ok (m', copy) ∧ m.Extends m' ∧
      Stores m' t (newCells m m') copy := by
  have hready : Builder.Ready ⟨m, []⟩ cells := ⟨hcells, fun _ _ => rfl⟩
  obtain ⟨b, copy, hcopy, hcopied, hstores⟩ := copyNode_stores hdepth hready h
  refine ⟨b.memory, copy, ?_, hcopied.memory, hstores⟩
  rw [clone, hcopy]
  rfl

/-! ## Looking at a node and assigning it -/

section

variable {m : Memory} {t : Node} {cells : Set Nat} {n : Nat} {key : String}

theorem Stores.owns (h : Stores m t cells n) : m.Owns cells n := by
  cases t <;> (rw [Stores] at h; exact h.1)

theorem Stores.isKeyNode_eq (h : Stores m t cells n) : isKeyNode m key n = t.isKey key := by
  unfold isKeyNode
  cases t with
  | null => rw [Stores] at h; rw [h.2]; rfl
  | scalar text => rw [Stores] at h; rw [h.2]; rfl
  | sequence items =>
      rw [Stores] at h
      obtain ⟨_, ns, hcontent, _⟩ := h
      rw [hcontent]
      rfl
  | map entries =>
      rw [Stores] at h
      obtain ⟨_, pairs, hcontent, _⟩ := h
      rw [hcontent]
      rfl

theorem Stores.isDefined (h : Stores m t cells n) : m.isDefined n = true := by
  unfold Memory.isDefined
  cases t with
  | null => rw [Stores] at h; rw [h.2]
  | scalar text => rw [Stores] at h; rw [h.2]
  | sequence items =>
      rw [Stores] at h
      obtain ⟨_, ns, hcontent, _⟩ := h
      rw [hcontent]
  | map entries =>
      rw [Stores] at h
      obtain ⟨_, pairs, hcontent, _⟩ := h
      rw [hcontent]

theorem Stores.isNull_eq (h : Stores m t cells n) : m.isNull n = true ↔ t = .null := by
  unfold Memory.isNull
  cases t with
  | null => rw [Stores] at h; rw [h.2]; simp
  | scalar text => rw [Stores] at h; rw [h.2]; simp
  | sequence items =>
      rw [Stores] at h
      obtain ⟨_, ns, hcontent, _⟩ := h
      rw [hcontent]
      simp
  | map entries =>
      rw [Stores] at h
      obtain ⟨_, pairs, hcontent, _⟩ := h
      rw [hcontent]
      simp

theorem Stores.isMap_of_content (h : Stores m t cells n) {pairs : List (Nat × Nat)}
    (hcontent : m.content n = .map pairs) : t.isMap = true := by
  cases t with
  | map entries => rfl
  | null => rw [Stores, hcontent] at h; cases h.2
  | scalar text => rw [Stores, hcontent] at h; cases h.2
  | sequence items =>
      rw [Stores, hcontent] at h
      obtain ⟨_, ns, hns, _⟩ := h
      cases hns

/-- **A node that is assigned stores the tree of the other.** -/
theorem Stores.assign {slot : Nat} (h : Stores m t cells n) (hslot : slot ∉ cells) :
    Stores (m.assign slot n) t (insert slot cells) slot := by
  have hagrees : m.Agrees (m.assign slot n) cells := by
    intro x hx
    have hne : x ≠ slot := fun heq => hslot (heq ▸ hx)
    exact ⟨Function.update_of_ne hne _ _, rfl⟩
  have href : (m.assign slot n).ref slot = m.ref n := Function.update_self _ _ _
  have hcontent : (m.assign slot n).content slot = m.content n := by
    unfold Memory.content
    rw [href]
    rfl
  have howns : (m.assign slot n).Owns (insert slot cells) slot := by
    refine ⟨Set.mem_insert _ _, ?_⟩
    rw [href]
    exact Set.mem_insert_of_mem _ h.owns.2
  have hsub : cells \ {n, m.ref n} ⊆ insert slot cells \ {slot, (m.assign slot n).ref slot} := by
    rw [href]
    rintro x ⟨hx, hother⟩
    refine ⟨Set.mem_insert_of_mem _ hx, ?_⟩
    rintro (rfl | heq)
    · exact hslot hx
    · exact hother (Or.inr heq)
  cases t with
  | null =>
      rw [Stores] at h ⊢
      exact ⟨howns, hcontent.trans h.2⟩
  | scalar text =>
      rw [Stores] at h ⊢
      exact ⟨howns, hcontent.trans h.2⟩
  | sequence items =>
      rw [Stores] at h ⊢
      obtain ⟨_, ns, hns, hitems⟩ := h
      refine ⟨howns, ns, hcontent.trans hns, ?_⟩
      exact (hitems.frame (hagrees.mono Set.sdiff_subset)).mono hsub
  | map entries =>
      rw [Stores] at h ⊢
      obtain ⟨_, pairs, hpairs, hentries⟩ := h
      refine ⟨howns, pairs, hcontent.trans hpairs, ?_⟩
      exact (hentries.frame (hagrees.mono Set.sdiff_subset)).mono hsub

end

/-! ## A key that is entered -/

/-- The memory after a subscript that has entered a key. -/
structure Entered (m m' : Memory) (merged : Nat) (key : String) (pairs : List (Nat × Nat)) :
    Prop where
  next : m'.next = m.next + 2
  agrees : m.Agrees m' (Set.Iio m.next \ {m.ref merged})
  ref : ∀ x < m.next, m'.ref x = m.ref x
  content : m'.content merged = .map (pairs ++ [(m.next, m.next + 1)])
  key : Stores m' (.scalar key) {m.next} m.next
  slot : m'.isDefined (m.next + 1) = false

theorem subscript_absent {m : Memory} {merged : Nat} {key : String} {pairs : List (Nat × Nat)}
    (hcontent : m.content merged = .map pairs)
    (hfind : (pairs.find? fun pair => isKeyNode m key pair.1) = none)
    (howns : m.Owns (Set.Iio m.next) merged) :
    ∃ m', subscript m merged key = .ok (m', m.next + 1) ∧ Entered m m' merged key pairs := by
  have hmerged : merged ≠ m.next ∧ merged ≠ m.next + 1 :=
    ⟨ne_of_lt howns.1, ne_of_lt (Nat.lt_succ_of_lt howns.1)⟩
  have hdata : m.ref merged ≠ m.next ∧ m.ref merged ≠ m.next + 1 :=
    ⟨ne_of_lt howns.2, ne_of_lt (Nat.lt_succ_of_lt howns.2)⟩
  refine ⟨((m.create (.scalar key)).1.create .undefined).1.fill merged
    (.map (pairs ++ [(m.next, m.next + 1)])), ?_, rfl, ?_, ?_, ?_, ?_, ?_⟩
  · simp only [subscript, hcontent, hfind]
    rfl
  · intro x hx
    have hnext : x ≠ m.next := ne_of_lt hx.1
    have hnext' : x ≠ m.next + 1 := ne_of_lt (Nat.lt_succ_of_lt hx.1)
    have hne : x ≠ m.ref merged := hx.2
    simp [Memory.fill, Memory.create, Function.update_of_ne, hnext, hnext', hmerged.1, hmerged.2, hne]
  · intro x hx
    have hnext : x ≠ m.next := ne_of_lt hx
    have hnext' : x ≠ m.next + 1 := ne_of_lt (Nat.lt_succ_of_lt hx)
    simp [Memory.fill, Memory.create, Function.update_of_ne, hnext, hnext']
  · simp [Memory.content, Memory.fill]
  · rw [Stores]
    simp [Memory.Owns, Memory.content, Memory.fill, Memory.create, Function.update_of_ne,
      hmerged.1, hmerged.2, hdata.1.symm]
  · simp [Memory.isDefined, Memory.content, Memory.fill, Memory.create, Function.update_of_ne,
      hmerged.1, hmerged.2, hdata.2.symm]

end UavBluetooth.Yaml
