import UavBluetooth.Bridge.LeafBindings
import UavBluetooth.Bridge.StructCodec

set_option autoImplicit false

/-! # The number of leaves of a path

`decode_payload` counts what a member path selects before it collects the bindings. Both are
compared here with the list of selected leaves, which is read off the path and the schema alone.
The count is taken in 64 bits; that it does not overflow is due to the memory that the selected
leaves take up.
-/

namespace UavBluetooth.Bridge

open Config Fallible Relocation

/-! ## The leaves of a path -/

/-- The leaves that a path selects below a position, in order. -/
def selectedLeaves (dynamicCount : Option Nat) (path : List PathSegment)
    (members : List MessageMember) (position : Position) : List Position :=
  takes (requests dynamicCount path members position)

/-- The number of leaves that a path selects. -/
def leafCount (dynamicCount : Option Nat) : List PathSegment → List MessageMember → Nat
  | [], _ => 0
  | segment :: rest, members =>
      match members.find? (·.name = segment.name) with
      | none => 0
      | some member =>
          let below :=
            if rest.isEmpty then 1 else leafCount dynamicCount rest (member.nested.getD [])
          if member.shape = .single then below
          else
            (pickedIndices segment.selector dynamicCount member.shape.fixedSize).length * below

section

variable {dynamicCount : Option Nat} {path rest : List PathSegment} {segment : PathSegment}
  {members : List MessageMember} {member : MessageMember} {position leaf : Position}

theorem takes_growth (member : MessageMember) (field : Position) (n : Nat) :
    takes (growth member field n) = [] := by
  unfold growth
  split <;> rfl

/-- The leaves below a field or an element that a segment leads to. -/
def leavesBelow (dynamicCount : Option Nat) (rest : List PathSegment) (member : MessageMember)
    (element : Position) : List Position :=
  if rest.isEmpty then [element]
  else selectedLeaves dynamicCount rest (member.nested.getD []) element

theorem takes_below (element : Position) :
    takes (if rest.isEmpty then [.take element]
      else requests dynamicCount rest (member.nested.getD []) element) =
    leavesBelow dynamicCount rest member element := by
  unfold leavesBelow
  split <;> rfl

theorem selectedLeaves_single (hfind : members.find? (·.name = segment.name) = some member)
    (hshape : member.shape = .single) :
    selectedLeaves dynamicCount (segment :: rest) members position =
      leavesBelow dynamicCount rest member (position ++ [.field segment.name]) := by
  rw [selectedLeaves, requests, hfind]
  dsimp only
  rw [if_pos hshape, takes_below]

theorem selectedLeaves_array (hfind : members.find? (·.name = segment.name) = some member)
    (hshape : member.shape ≠ .single) :
    selectedLeaves dynamicCount (segment :: rest) members position =
      (pickedIndices segment.selector dynamicCount member.shape.fixedSize).flatMap fun index =>
        leavesBelow dynamicCount rest member (position ++ [.field segment.name] ++ [.item index]) := by
  rw [selectedLeaves, requests, hfind]
  dsimp only
  rw [if_neg hshape, takes_append, takes_growth, List.nil_append, takes_flatMap]
  simp only [takes_below]

theorem selectedLeaves_unknown (hfind : members.find? (·.name = segment.name) = none) :
    selectedLeaves dynamicCount (segment :: rest) members position = [] := by
  rw [selectedLeaves, requests, hfind]
  rfl

theorem prefix_of_mem_selectedLeaves (h : leaf ∈ selectedLeaves dynamicCount path members position) :
    position <+: leaf :=
  requests_below (mem_takes.mp h)

theorem prefix_of_mem_leavesBelow {element : Position}
    (h : leaf ∈ leavesBelow dynamicCount rest member element) : element <+: leaf := by
  unfold leavesBelow at h
  split at h
  · rw [List.mem_singleton.mp h]
  · exact prefix_of_mem_selectedLeaves h

/-- **No leaf is selected twice.** -/
theorem selectedLeaves_nodup : (selectedLeaves dynamicCount path members position).Nodup := by
  induction path generalizing members position with
  | nil => exact List.nodup_nil
  | cons segment rest ih =>
      have hbelow : ∀ (member : MessageMember) (element : Position),
          (leavesBelow dynamicCount rest member element).Nodup := by
        intro member element
        unfold leavesBelow
        split
        · exact List.nodup_singleton _
        · exact ih
      cases hfind : members.find? (·.name = segment.name) with
      | none =>
          rw [selectedLeaves_unknown hfind]
          exact List.nodup_nil
      | some member =>
          by_cases hshape : member.shape = .single
          · rw [selectedLeaves_single hfind hshape]
            exact hbelow _ _
          · rw [selectedLeaves_array hfind hshape]
            refine List.nodup_flatMap.mpr ⟨fun index _ => hbelow _ _, ?_⟩
            refine (pickedIndices_nodup segment.selector dynamicCount _).imp ?_
            intro i j hne leaf hi hj
            exact hne (eq_of_prefix_items (prefix_of_mem_leavesBelow hi)
              (prefix_of_mem_leavesBelow hj))

theorem length_selectedLeaves :
    (selectedLeaves dynamicCount path members position).length =
      leafCount dynamicCount path members := by
  induction path generalizing members position with
  | nil => rfl
  | cons segment rest ih =>
      -- Below an element there is one leaf, or what the rest of the path selects there.
      have hbelow : ∀ (member : MessageMember) (element : Position),
          (leavesBelow dynamicCount rest member element).length =
            if rest.isEmpty then 1 else leafCount dynamicCount rest (member.nested.getD []) := by
        intro member element
        unfold leavesBelow
        split
        · rfl
        · exact ih
      rw [leafCount]
      cases hfind : members.find? (·.name = segment.name) with
      | none =>
          rw [selectedLeaves_unknown hfind]
          rfl
      | some member =>
          dsimp only
          by_cases hshape : member.shape = .single
          · rw [selectedLeaves_single hfind hshape, if_pos hshape]
            exact hbelow _ _
          · rw [selectedLeaves_array hfind hshape, if_neg hshape, List.length_flatMap]
            simp only [hbelow, List.map_const', List.sum_replicate, smul_eq_mul]

end

/-! ## What is counted -/

theorem length_indicesFrom (start count : Nat) (step : ℕ+) :
    (indicesFrom start count step).length = count := by
  rw [indicesFrom, List.length_map, List.length_range]

section

variable {segment : PathSegment} {member : MessageMember} {isLast : Bool}

/-- An open-ended selection is at the end of a path and has as many elements as it is given. -/
theorem selectedCount_none (hlast : (isLast || decide (segment.selector ≠ .absent)) = true)
    (h : selectedCount member segment isLast = .ok none) :
    isLast = true ∧
      ∀ k size, (pickedIndices segment.selector (some k) size).length = k := by
  unfold selectedCount at h
  split at h
  · cases h
  · simp only [bind_eq_ok, pure_eq_ok, reduceCtorEq, and_false, exists_false] at h
  · cases h
  · rename_i start step hsel
    simp only [bind_eq_ok, require_eq_ok] at h
    obtain ⟨_, hisLast, _⟩ := h
    refine ⟨hisLast, fun k size => ?_⟩
    rw [hsel]
    exact length_indicesFrom _ _ _
  · cases h
  · rename_i hsel _
    refine ⟨by simpa [hsel] using hlast, fun k size => ?_⟩
    rw [hsel]
    exact List.length_range

theorem selectedCount_some {n : Nat} (h : selectedCount member segment isLast = .ok (some n)) :
    (pickedIndices segment.selector none member.shape.fixedSize).length = n := by
  unfold selectedCount at h
  split at h
  · rename_i hsel
    cases h
    rw [hsel]
    rfl
  · rename_i hsel _
    simp only [bind_eq_ok, pure_eq_ok, Option.some.injEq] at h
    obtain ⟨_, _, rfl⟩ := h
    rw [hsel]
    exact length_indicesFrom _ _ _
  · rename_i hsel _
    cases h
    rw [hsel]
    exact length_indicesFrom _ _ _
  · rename_i hsel
    simp only [bind_eq_ok] at h
    obtain ⟨_, _, h⟩ := h
    split at h
    · rename_i size hshape
      simp only [bind_eq_ok, pure_eq_ok, Option.some.injEq] at h
      obtain ⟨_, _, rfl⟩ := h
      rw [hsel, hshape]
      exact length_indicesFrom _ _ _
    · cases h
  · rename_i size hsel hshape
    cases h
    rw [hsel, hshape]
    exact List.length_range
  · cases h

end

/-- **The count of a path**: the marker for an open-ended vector at its end, and else the number
of selected leaves unless that does not fit 64 bits. -/
theorem selectionCountForPath_spec {path : List PathSegment} {members : List MessageMember}
    {n : Nat} (h : selectionCountForPath path members = .ok n) :
    (n = kDynamicBindingCount ∧ ∀ k, leafCount (some k) path members = k) ∨
      (leafCount none path members < 2 ^ 64 → n = leafCount none path members) := by
  induction path generalizing members n with
  | nil => cases h
  | cons segment rest ih =>
      simp only [selectionCountForPath, bind_eq_ok] at h
      obtain ⟨member, hfind, h⟩ := h
      simp only [leafCount, findMember_eq_ok hfind]
      by_cases hshape : member.shape = .single
      · rw [if_pos hshape] at h
        simp only [bind_eq_ok] at h
        obtain ⟨_, _, h⟩ := h
        simp only [if_pos hshape]
        cases hmore : rest.isEmpty with
        | true =>
            rw [hmore, if_pos rfl, pure_eq_ok] at h
            exact Or.inr fun _ => h.symm
        | false =>
            rw [hmore, if_neg (by simp)] at h
            simp only [bind_eq_ok] at h
            obtain ⟨nested, hnested, h⟩ := h
            simp only [Bool.false_eq_true, if_false, getNestedMembers_eq_ok hnested]
            exact ih h
      · rw [if_neg hshape] at h
        simp only [bind_eq_ok, require_eq_ok] at h
        obtain ⟨_, hlast, selected, hselected, h⟩ := h
        simp only [if_neg hshape]
        cases selected with
        | none =>
            obtain ⟨hisLast, hpicked⟩ := selectedCount_none hlast hselected
            dsimp only at h
            rw [pure_eq_ok] at h
            refine Or.inl ⟨h.symm, fun k => ?_⟩
            rw [if_pos hisLast, hpicked, mul_one]
        | some selected =>
            refine Or.inr ?_
            rw [selectedCount_some hselected]
            dsimp only at h
            cases hmore : rest.isEmpty with
            | true =>
                rw [hmore, if_pos rfl, pure_eq_ok] at h
                intro _
                rw [if_pos rfl, mul_one, h]
            | false =>
                rw [hmore, if_neg (by simp)] at h
                simp only [bind_eq_ok, require_eq_ok, decide_eq_true_eq, pure_eq_ok] at h
                obtain ⟨nested, hnested, count, hcount, _, hne, rfl⟩ := h
                simp only [Bool.false_eq_true, if_false, getNestedMembers_eq_ok hnested]
                intro hfits
                rcases ih hcount with ⟨hdynamic, _⟩ | hexact
                · exact absurd hdynamic hne
                · rcases Nat.eq_zero_or_pos selected with rfl | hpos
                  · simp
                  · -- The nested count fits as well.
                    have hle := Nat.le_mul_of_pos_left (leafCount none rest nested) hpos
                    rw [hexact (Nat.lt_of_le_of_lt hle hfits), Nat.mod_eq_of_lt hfits]

/-! ## The memory of a message -/

/-- What a segment of a path leads to: the field, or an element that its array has. -/
def MessageInstance.HasElement (message : MessageInstance) (member : MessageMember)
    (field element : Position) : Prop :=
  if member.shape = .single then element = field
  else ∃ index < arraySize member message field, element = field ++ [.item index]

/-- The objects that a message has for a chain of field names, one for each choice of elements
from the arrays on the way. -/
def MessageInstance.Holds (message : MessageInstance) :
    List String → List MessageMember → Position → Position → Prop
  | [], _, _, _ => False
  | name :: rest, members, position, object =>
      ∃ member element, members.find? (·.name = name) = some member ∧
        message.HasElement member (position ++ [.field name]) element ∧
        if rest = [] then object = element
        else message.Holds rest (member.nested.getD []) element object

/-- There is memory for the message: the objects of one member are at addresses of their own,
none of which is null or the last of all. -/
def MessageInstance.Allocated (message : MessageInstance) (members : List MessageMember) : Prop :=
  ∀ names, ∃ address : Position → Nat,
    Set.InjOn address {object | message.Holds names members [] object} ∧
      ∀ object, message.Holds names members [] object →
        0 < address object ∧ address object + 1 < 2 ^ 64

section

variable {message message' : MessageInstance}

/-- An allocated message has fewer objects of a member than the marker says. -/
theorem MessageInstance.Allocated.length_lt {members : List MessageMember}
    (h : message.Allocated members) {names : List String} {objects : List Position}
    (hnodup : objects.Nodup) (hobjects : ∀ object ∈ objects, message.Holds names members [] object) :
    objects.length < kDynamicBindingCount := by
  obtain ⟨address, hinj, hrange⟩ := h names
  have hmap : (objects.map address).Nodup :=
    hnodup.map_on fun p hp q hq heq => hinj (hobjects p hp) (hobjects q hq) heq
  have hsubset : (objects.map address).toFinset ⊆ Finset.Ioo 0 (2 ^ 64 - 1) := by
    intro a ha
    obtain ⟨object, hobject, rfl⟩ := List.mem_map.mp (List.mem_toFinset.mp ha)
    obtain ⟨hpos, hlast⟩ := hrange object (hobjects object hobject)
    exact Finset.mem_Ioo.mpr ⟨hpos, by omega⟩
  have hcard := Finset.card_le_card hsubset
  rw [List.toFinset_card_of_nodup hmap, List.length_map, Nat.card_Ioo] at hcard
  unfold kDynamicBindingCount
  omega

/-- The vectors of the first message are not longer than those of the second. -/
def MessageInstance.Grows (message message' : MessageInstance) : Prop :=
  ∀ p, message.arrays.length p ≤ message'.arrays.length p

theorem MessageInstance.Grows.trans {message'' : MessageInstance} (h : message.Grows message')
    (h' : message'.Grows message'') : message.Grows message'' :=
  fun p => Nat.le_trans (h p) (h' p)

theorem MessageInstance.Grows.arraySize_le (h : message.Grows message') (member : MessageMember)
    (field : Position) : arraySize member message field ≤ arraySize member message' field := by
  unfold arraySize
  split
  · exact Nat.le_refl _
  · exact Nat.le_refl _
  · exact h field

theorem MessageInstance.Grows.holds (h : message.Grows message') {names : List String}
    {members : List MessageMember} {position object : Position}
    (hholds : message.Holds names members position object) :
    message'.Holds names members position object := by
  induction names generalizing members position with
  | nil => exact hholds
  | cons name rest ih =>
      obtain ⟨member, element, hfind, helement, hrest⟩ := hholds
      refine ⟨member, element, hfind, ?_, ?_⟩
      · unfold MessageInstance.HasElement at helement ⊢
        split at helement
        · rename_i hshape
          rwa [if_pos hshape]
        · rename_i hshape
          obtain ⟨index, hindex, rfl⟩ := helement
          rw [if_neg hshape]
          exact ⟨index, Nat.lt_of_lt_of_le hindex (h.arraySize_le member _), rfl⟩
      · by_cases hnil : rest = []
        · rw [if_pos hnil] at hrest ⊢
          exact hrest
        · rw [if_neg hnil] at hrest ⊢
          exact ih hrest

theorem MessageInstance.Grows.allocated {members : List MessageMember} (h : message.Grows message')
    (hallocated : message'.Allocated members) : message.Allocated members := by
  intro names
  obtain ⟨address, hinj, hrange⟩ := hallocated names
  refine ⟨address, ?_, fun object hobject => hrange object (h.holds hobject)⟩
  exact hinj.mono fun object hobject => h.holds hobject

end

/-! ## Collecting -/

section

variable {member : MessageMember} {segment : PathSegment} {isLast : Bool} {field : Position}
  {dynamicCount : Option Nat} {message message' : MessageInstance}

theorem fixedSize_le_arraySize (member : MessageMember) (message : MessageInstance)
    (field : Position) : member.shape.fixedSize ≤ arraySize member message field := by
  unfold Shape.fixedSize arraySize
  cases member.shape with
  | single => exact Nat.le_refl 0
  | fixed size => exact Nat.le_refl size
  | sequence initial bound => exact Nat.zero_le _

theorem ensureSize_spec {required : Nat} (hshape : member.shape ≠ .single)
    (h : ensureSize member segment field required message = .ok message') :
    message.Grows message' ∧ required ≤ arraySize member message' field := by
  unfold ensureSize at h
  split at h
  · rename_i hle
    cases h
    exact ⟨fun p => Nat.le_refl _, hle⟩
  · rename_i hlt
    cases hkind : member.shape with
    | single => exact absurd hkind hshape
    | fixed size =>
        rw [hkind] at h
        cases h
    | sequence initial bound =>
        rw [arraySize, hkind] at hlt
        rw [hkind] at h
        dsimp only at h
        split at h
        · cases h
          constructor
          · intro p
            change _ ≤ Function.update message.arrays.length field required p
            by_cases hp : p = field
            · rw [hp, Function.update_self]
              exact (Nat.lt_of_not_le hlt).le
            · rw [Function.update_of_ne hp]
          · rw [arraySize, hkind]
            exact (Function.update_self field required message.arrays.length).ge
        · cases h

theorem lt_of_mem_indicesFrom {start stop i : Nat} {step : ℕ+}
    (h : i ∈ indicesFrom start (countRange start stop step) step) : i < stop := by
  obtain ⟨item, hitem, rfl⟩ := List.mem_map.mp h
  have hlt := List.mem_range.mp hitem
  unfold countRange at hlt
  split at hlt
  · omega
  · have hle : item ≤ (stop - start - 1) / step := by omega
    have hmul : item * step ≤ stop - start - 1 := (Nat.le_div_iff_mul_le step.pos).mp hle
    omega

/-- After a selection the array has every element that the path asks for by itself. -/
theorem selectIndicesMutable_spec {indices : List Nat} (hshape : member.shape ≠ .single)
    (h : selectIndicesMutable member segment isLast field dynamicCount message =
      .ok (indices, message')) :
    message.Grows message' ∧
      ∀ i ∈ pickedIndices segment.selector none member.shape.fixedSize,
        i < arraySize member message' field := by
  have hsame : message.Grows message := fun p => Nat.le_refl _
  have hfixed := fixedSize_le_arraySize member message' field
  unfold selectIndicesMutable at h
  split at h
  · rename_i n hsel
    simp only [bind_eq_ok, pure_eq_ok, Prod.mk.injEq] at h
    obtain ⟨_, hensure, rfl, rfl⟩ := h
    obtain ⟨hgrows, hsize⟩ := ensureSize_spec hshape hensure
    refine ⟨hgrows, fun i hi => ?_⟩
    rw [hsel] at hi
    rw [List.mem_singleton.mp hi]
    exact hsize
  · rename_i start stop step hsel
    simp only [bind_eq_ok, pure_eq_ok, Prod.mk.injEq] at h
    obtain ⟨_, hensure, rfl, rfl⟩ := h
    obtain ⟨hgrows, hsize⟩ := ensureSize_spec hshape hensure
    refine ⟨hgrows, fun i hi => ?_⟩
    rw [hsel] at hi
    exact Nat.lt_of_lt_of_le (lt_of_mem_indicesFrom hi) hsize
  · rename_i start step count hsel
    simp only [bind_eq_ok, pure_eq_ok, Prod.mk.injEq] at h
    obtain ⟨_, hensure, rfl, rfl⟩ := h
    refine ⟨(ensureSize_spec hshape hensure).1, fun i hi => ?_⟩
    rw [hsel] at hi
    exact Nat.lt_of_lt_of_le (lt_of_mem_indicesFrom hi) hfixed
  · rename_i start step hsel
    simp only [bind_eq_ok, pure_eq_ok, Prod.mk.injEq] at h
    obtain ⟨_, _, rfl, rfl⟩ := h
    refine ⟨hsame, fun i hi => ?_⟩
    rw [hsel] at hi
    exact Nat.lt_of_lt_of_le (lt_of_mem_indicesFrom hi) hfixed
  · rename_i dynamic _ _ hsel
    simp only [bind_eq_ok] at h
    obtain ⟨_, _, h⟩ := h
    have hrange : ∀ i ∈ pickedIndices segment.selector none member.shape.fixedSize,
        i < arraySize member message' field := by
      intro i hi
      rw [hsel] at hi
      exact Nat.lt_of_lt_of_le (List.mem_range.mp hi) hfixed
    cases dynamic with
    | some count =>
        simp only [bind_eq_ok, pure_eq_ok, Prod.mk.injEq] at h
        obtain ⟨_, hensure, _, rfl⟩ := h
        exact ⟨(ensureSize_spec hshape hensure).1, hrange⟩
    | none =>
        simp only [pure_eq_ok, Prod.mk.injEq] at h
        obtain ⟨_, rfl⟩ := h
        exact ⟨hsame, hrange⟩

/-- In the middle of a path a selector picks the same indices with and without a count. -/
theorem pickedIndices_middle {n : Nat} (hselector : segment.selector ≠ .absent)
    (h : selectedCount member segment false = .ok (some n)) (size : Nat) :
    pickedIndices segment.selector dynamicCount size = pickedIndices segment.selector none size := by
  unfold selectedCount at h
  split at h
  · rename_i hsel
    rw [hsel]
    rfl
  · rename_i hsel _
    rw [hsel]
    rfl
  · rename_i hsel _
    rw [hsel]
    rfl
  · simp only [bind_eq_ok, require_eq_ok, Bool.false_eq_true, false_and, exists_false] at h
  · rename_i hsel _
    exact absurd hsel hselector
  · cases h

end

/-- The element that is collected from on the way, when nothing shrinks. -/
theorem forItems_spec {body : Position → MessageInstance →
      Except StdException (List MutableLeafBinding × MessageInstance)} {field : Position}
    {indices : List Nat} {message message' : MessageInstance} {bindings : List MutableLeafBinding}
    (hbody : ∀ element before collected after,
      body element before = .ok (collected, after) → before.Grows after)
    (h : forItems body field indices message = .ok (bindings, message')) :
    message.Grows message' ∧ ∀ index ∈ indices, ∃ before collected after,
      body (field ++ [.item index]) before = .ok (collected, after) ∧ after.Grows message' := by
  induction indices generalizing message bindings with
  | nil =>
      cases h
      refine ⟨fun p => Nat.le_refl _, ?_⟩
      intro index hmem
      cases hmem
  | cons index rest ih =>
      simp only [forItems, bind_eq_ok, pure_eq_ok, Prod.exists, Prod.mk.injEq] at h
      obtain ⟨first, next, hfirst, others, last, hothers, _, rfl⟩ := h
      obtain ⟨hgrows, hitems⟩ := ih hothers
      refine ⟨(hbody _ _ _ _ hfirst).trans hgrows, ?_⟩
      intro i hi
      rcases List.mem_cons.mp hi with rfl | hi
      · exact ⟨message, first, next, hfirst, hgrows⟩
      · exact hitems i hi

theorem collectMutableLeafBindings_grows {dynamicCount : Option Nat} {path : List PathSegment}
    {members : List MessageMember} {position : Position} {message message' : MessageInstance}
    {bindings : List MutableLeafBinding}
    (h : collectMutableLeafBindings dynamicCount path members position message =
      .ok (bindings, message')) : message.Grows message' := by
  induction path generalizing members position message message' bindings with
  | nil => cases h
  | cons segment rest ih =>
      simp only [collectMutableLeafBindings, bind_eq_ok] at h
      obtain ⟨member, _, h⟩ := h
      -- Below an element the message is left alone, or the rest of the path grows it.
      have hbelow : ∀ (element : Position) (before : MessageInstance) collected after,
          (if rest.isEmpty then .ok ([⟨member, before.arrays.take element⟩], before)
            else do
              collectMutableLeafBindings dynamicCount rest (← getNestedMembers member) element
                before) = (.ok (collected, after) : Except StdException _) →
          before.Grows after := by
        intro element before collected after hcollect
        split at hcollect
        · cases hcollect
          exact fun p => Nat.le_refl _
        · simp only [bind_eq_ok] at hcollect
          obtain ⟨nested, _, hcollect⟩ := hcollect
          exact ih hcollect
      by_cases hshape : member.shape = .single
      · rw [if_pos hshape] at h
        simp only [bind_eq_ok] at h
        obtain ⟨_, _, h⟩ := h
        exact hbelow _ _ _ _ h
      · rw [if_neg hshape] at h
        simp only [bind_eq_ok, Prod.exists] at h
        obtain ⟨indices, grown, hselect, hitems⟩ := h
        refine (selectIndicesMutable_spec hshape hselect).1.trans (forItems_spec ?_ hitems).1
        intro element before collected after hbody
        simp only [bind_eq_ok] at hbody
        obtain ⟨_, _, hbody⟩ := hbody
        exact hbelow _ _ _ _ hbody

/-- **What is collected is there**: the message has every leaf that the path selects by itself. -/
theorem collectMutableLeafBindings_holds {dynamicCount : Option Nat} {path : List PathSegment}
    {members : List MessageMember} {position : Position} {message message' : MessageInstance}
    {bindings : List MutableLeafBinding} {count : Nat}
    (hcount : selectionCountForPath path members = .ok count)
    (h : collectMutableLeafBindings dynamicCount path members position message =
      .ok (bindings, message')) :
    ∀ leaf ∈ selectedLeaves none path members position,
      message'.Holds (path.map PathSegment.name) members position leaf := by
  induction path generalizing members position message message' bindings count with
  | nil => cases h
  | cons segment rest ih =>
      simp only [collectMutableLeafBindings, bind_eq_ok] at h
      obtain ⟨member, hfind, h⟩ := h
      simp only [selectionCountForPath, bind_eq_ok] at hcount
      obtain ⟨member', hfind', hcount⟩ := hcount
      obtain rfl : member = member' := Except.ok.inj (hfind.symm.trans hfind')
      have hmember := findMember_eq_ok hfind
      -- Below an element the path ends or goes on in a nested message that has a count as well.
      have hbelow : (rest.isEmpty = false → ∀ nested, getNestedMembers member = .ok nested →
            ∃ nestedCount, selectionCountForPath rest nested = .ok nestedCount) →
          ∀ (element : Position) (before : MessageInstance) collected after,
          (if rest.isEmpty then .ok ([⟨member, before.arrays.take element⟩], before)
            else do
              collectMutableLeafBindings dynamicCount rest (← getNestedMembers member) element
                before) = (.ok (collected, after) : Except StdException _) →
          ∀ leaf ∈ leavesBelow none rest member element,
            if rest.map PathSegment.name = [] then leaf = element
            else after.Holds (rest.map PathSegment.name) (member.nested.getD []) element leaf := by
        intro hnested element before collected after hcollect leaf hleaf
        unfold leavesBelow at hleaf
        cases hmore : rest.isEmpty with
        | true =>
            rw [hmore, if_pos rfl] at hleaf
            rw [List.isEmpty_iff.mp hmore, List.map_nil, if_pos rfl]
            exact List.mem_singleton.mp hleaf
        | false =>
            have hne : rest.map PathSegment.name ≠ [] := by
              intro hnil
              rw [List.map_eq_nil_iff.mp hnil] at hmore
              cases hmore
            rw [hmore, if_neg (by simp)] at hleaf hcollect
            simp only [bind_eq_ok] at hcollect
            obtain ⟨nested, hmembers, hcollect⟩ := hcollect
            obtain ⟨nestedCount, hn⟩ := hnested hmore nested hmembers
            rw [getNestedMembers_eq_ok hmembers] at hleaf ⊢
            rw [if_neg hne]
            exact ih hn hcollect leaf hleaf
      rw [List.map_cons]
      by_cases hshape : member.shape = .single
      · rw [if_pos hshape] at h hcount
        simp only [bind_eq_ok] at h hcount
        obtain ⟨_, _, h⟩ := h
        obtain ⟨_, _, hcount⟩ := hcount
        intro leaf hleaf
        rw [selectedLeaves_single hmember hshape] at hleaf
        refine ⟨member, position ++ [.field segment.name], hmember, ?_, ?_⟩
        · rw [MessageInstance.HasElement, if_pos hshape]
        · refine hbelow ?_ _ _ _ _ h leaf hleaf
          intro hmore nested hmembers
          rw [if_neg (by simp [hmore])] at hcount
          simp only [bind_eq_ok] at hcount
          obtain ⟨nested', hmembers', hcount⟩ := hcount
          obtain rfl : nested = nested' := Except.ok.inj (hmembers.symm.trans hmembers')
          exact ⟨count, hcount⟩
      · rw [if_neg hshape] at h hcount
        simp only [bind_eq_ok, require_eq_ok, Prod.exists] at h hcount
        obtain ⟨indices, grown, hselect, hitems⟩ := h
        obtain ⟨_, hlast, selected, hselected, hcount⟩ := hcount
        obtain ⟨_, hrange⟩ := selectIndicesMutable_spec hshape hselect
        have hbody : ∀ (element : Position) (before : MessageInstance) collected after,
            (do
              require member.accessor
                (.runtimeError ("Array member lacks mutable accessor: " ++ segment.name))
              if rest.isEmpty then .ok ([⟨member, before.arrays.take element⟩], before)
              else do
                collectMutableLeafBindings dynamicCount rest (← getNestedMembers member)
                  element before) = (.ok (collected, after) : Except StdException _) →
            before.Grows after := by
          intro element before collected after hbody
          simp only [bind_eq_ok] at hbody
          obtain ⟨_, _, hbody⟩ := hbody
          split at hbody
          · cases hbody
            exact fun p => Nat.le_refl _
          · simp only [bind_eq_ok] at hbody
            obtain ⟨nested, _, hbody⟩ := hbody
            exact collectMutableLeafBindings_grows hbody
        obtain ⟨hgrows, hvisited⟩ := forItems_spec hbody hitems
        intro leaf hleaf
        rw [selectedLeaves_array hmember hshape] at hleaf
        obtain ⟨index, hindex, hleaf⟩ := List.mem_flatMap.mp hleaf
        refine ⟨member, position ++ [.field segment.name] ++ [.item index], hmember, ?_, ?_⟩
        · rw [MessageInstance.HasElement, if_neg hshape]
          exact ⟨index, Nat.lt_of_lt_of_le (hrange index hindex) (hgrows.arraySize_le member _),
            rfl⟩
        · cases hmore : rest.isEmpty with
          | true =>
              rw [leavesBelow, if_pos hmore] at hleaf
              rw [List.isEmpty_iff.mp hmore, List.map_nil, if_pos rfl]
              exact List.mem_singleton.mp hleaf
          | false =>
              rw [hmore] at hlast hselected
              have hselector : segment.selector ≠ .absent := by simpa using hlast
              cases selected with
              | none => exact absurd (selector_of_selectedCount_none hselected) hselector
              | some selected =>
                  dsimp only at hcount
                  rw [if_neg (by simp [hmore])] at hcount
                  simp only [bind_eq_ok] at hcount
                  obtain ⟨nested', hmembers', nestedCount, hn, _⟩ := hcount
                  -- The element was visited, and the message has only grown since.
                  have hvisit : index ∈ indices := by
                    rw [← hmore] at hselected
                    obtain ⟨hindices, _⟩ := selectIndicesMutable_run hshape hselected
                      (fun hnone => absurd hnone (Option.some_ne_none _)) hselect
                    rw [hmore] at hselected
                    rw [hindices, pickedIndices_middle hselector hselected]
                    exact hindex
                  obtain ⟨before, collected, after, hcollect, hafter⟩ := hvisited index hvisit
                  simp only [bind_eq_ok] at hcollect
                  obtain ⟨_, _, hcollect⟩ := hcollect
                  have hheld := hbelow (fun _ nested hmembers => by
                    obtain rfl : nested = nested' := Except.ok.inj (hmembers.symm.trans hmembers')
                    exact ⟨nestedCount, hn⟩) _ _ _ _ hcollect leaf hleaf
                  split at hheld
                  · rename_i hnil
                    rwa [if_pos hnil]
                  · rename_i hcons
                    rw [if_neg hcons]
                    exact hafter.holds hheld

section

variable {path : List PathSegment} {members : List MessageMember}
  {message message' : MessageInstance} {bindings : List MutableLeafBinding}

/-- The bindings are the selected leaves. -/
theorem map_path_bindings {dynamicCount : Option Nat} {count : Nat}
    (hcount : selectionCountForPath path members = .ok count)
    (hdynamic : count = kDynamicBindingCount → dynamicCount ≠ none)
    (h : collectMutableLeafBindings dynamicCount path members [] message =
      .ok (bindings, message')) :
    bindings.map (fun binding => binding.pointer.path) =
      selectedLeaves dynamicCount path members [] := by
  have hrun := collectMutableLeafBindings_run hcount hdynamic h
  have hpaths := map_path_run message.arrays (requests dynamicCount path members [])
  rw [hrun] at hpaths
  rw [selectedLeaves, ← hpaths, pointers, List.map_map]
  rfl

/-- The leaves that the path selects by itself fit into the memory of the message. -/
theorem leafCount_lt {dynamicCount : Option Nat} {count : Nat}
    (hcount : selectionCountForPath path members = .ok count)
    (h : collectMutableLeafBindings dynamicCount path members [] message =
      .ok (bindings, message')) (hallocated : message'.Allocated members) :
    leafCount none path members < kDynamicBindingCount := by
  rw [← @length_selectedLeaves none path members []]
  exact hallocated.length_lt selectedLeaves_nodup (collectMutableLeafBindings_holds hcount h)

theorem length_bindings_fixed {n : Nat} (hcount : selectionCountForPath path members = .ok n)
    (hfixed : n ≠ kDynamicBindingCount)
    (h : collectMutableLeafBindings none path members [] message = .ok (bindings, message'))
    (hallocated : message'.Allocated members) : bindings.length = n := by
  have hpaths := congrArg List.length (map_path_bindings hcount (fun heq => absurd heq hfixed) h)
  rw [List.length_map, length_selectedLeaves] at hpaths
  rcases selectionCountForPath_spec hcount with ⟨hdynamic, _⟩ | hexact
  · exact absurd hdynamic hfixed
  · have hfits := leafCount_lt hcount h hallocated
    rw [hpaths, hexact (Nat.lt_of_lt_of_le hfits (by decide))]

theorem length_bindings_dynamic {k : Nat}
    (hcount : selectionCountForPath path members = .ok kDynamicBindingCount)
    (h : collectMutableLeafBindings (some k) path members [] message = .ok (bindings, message'))
    (hallocated : message'.Allocated members) : bindings.length = k := by
  have hpaths := congrArg List.length
    (map_path_bindings hcount (fun _ => Option.some_ne_none k) h)
  rw [List.length_map, length_selectedLeaves] at hpaths
  rcases selectionCountForPath_spec hcount with ⟨_, hdynamic⟩ | hexact
  · rw [hpaths, hdynamic k]
  · -- A count that fits into memory is not the marker.
    have hfits := leafCount_lt hcount h hallocated
    have heq := hexact (Nat.lt_of_lt_of_le hfits (by decide))
    omega

theorem bindings_nodup {dynamicCount : Option Nat} {count : Nat}
    (hcount : selectionCountForPath path members = .ok count)
    (hdynamic : count = kDynamicBindingCount → dynamicCount ≠ none)
    (h : collectMutableLeafBindings dynamicCount path members [] message =
      .ok (bindings, message')) :
    (bindings.map fun binding => binding.pointer.path).Nodup := by
  rw [map_path_bindings hcount hdynamic h]
  exact selectedLeaves_nodup

end

/-! ## The size of a payload -/

section

variable {members : List MessageMember} {message message' : MessageInstance}
  {fields : List WireField}

theorem totalWireSize_append (specs others : List BridgeMemberSpec) :
    totalWireSize (specs ++ others) = totalWireSize specs + totalWireSize others := by
  rw [totalWireSize, List.map_append, List.sum_append, totalWireSize, totalWireSize]

theorem bindSpec_spec {dynamicCount : Option Nat} {spec : BridgeMemberSpec}
    (h : bindSpec members dynamicCount spec message = .ok (fields, message')) :
    message.Grows message' ∧
      totalWireSize (fields.map WireField.spec) = fields.length * wireSize spec := by
  have hsize : ∀ fields : List WireField, (∀ field ∈ fields, field.spec = spec) →
      totalWireSize (fields.map WireField.spec) = fields.length * wireSize spec := by
    intro fields hspec
    rw [List.map_congr_left hspec, List.map_const', totalWireSize, List.map_replicate,
      List.sum_replicate, smul_eq_mul]
  unfold bindSpec at h
  split at h
  · cases h
    exact ⟨fun p => Nat.le_refl _, hsize _ (by simp)⟩
  · simp only [bind_eq_ok, pure_eq_ok, Prod.exists, Prod.mk.injEq] at h
    obtain ⟨path, _, bindings, grown, hcollect, rfl, rfl⟩ := h
    exact ⟨collectMutableLeafBindings_grows hcollect, hsize _ (by simp)⟩

theorem bindSpecs_grows {countAt : Nat → Option Nat} {index : Nat} {specs : List BridgeMemberSpec}
    (h : bindSpecs members countAt index specs message = .ok (fields, message')) :
    message.Grows message' := by
  induction specs generalizing index message fields with
  | nil =>
      cases h
      exact fun p => Nat.le_refl _
  | cons spec rest ih =>
      simp only [bindSpecs, bind_eq_ok, pure_eq_ok, Prod.exists, Prod.mk.injEq] at h
      obtain ⟨first, next, hfirst, others, last, hothers, _, rfl⟩ := h
      exact (bindSpec_spec hfirst).1.trans (ih hothers)

/-- A member has as many wire values as it was counted to have. -/
theorem length_bindSpec {dynamicCount : Option Nat} {spec : BridgeMemberSpec} {count : Nat}
    (hcount : bindingCount members spec = .ok count)
    (h : bindSpec members dynamicCount spec message = .ok (fields, message'))
    (hallocated : message'.Allocated members) :
    (count ≠ kDynamicBindingCount → dynamicCount = none → fields.length = count) ∧
      (count = kDynamicBindingCount → ∀ k, dynamicCount = some k → fields.length = k) := by
  unfold bindSpec at h
  unfold bindingCount at hcount
  by_cases hexpr : spec.expression = ""
  · rw [if_neg (not_not_intro hexpr)] at h
    rw [if_pos hexpr] at hcount
    simp only [bind_eq_ok, pure_eq_ok, Prod.exists, Prod.mk.injEq] at h hcount
    obtain ⟨path, hpath, bindings, grown, hcollect, rfl, rfl⟩ := h
    obtain ⟨path', hpath', hcount⟩ := hcount
    obtain rfl : path = path' := Except.ok.inj (hpath.symm.trans hpath')
    rw [List.length_map]
    constructor
    · rintro hfixed rfl
      exact length_bindings_fixed hcount hfixed hcollect hallocated
    · rintro rfl k rfl
      exact length_bindings_dynamic hcount hcollect hallocated
  · rw [if_pos hexpr] at h
    rw [if_neg hexpr] at hcount
    cases h
    cases hcount
    exact ⟨fun _ _ => rfl, fun heq => absurd heq (by decide)⟩

theorem layoutFrom_dynamicSpec {index : Nat} {specs : List BridgeMemberSpec}
    {start layout : Layout} (h : layoutFrom members index specs start = .ok layout) {i v : Nat}
    (hdynamic : layout.dynamicSpec = some (i, v)) :
    start.dynamicSpec = some (i, v) ∨ index ≤ i := by
  induction specs generalizing index start with
  | nil =>
      cases h
      exact Or.inl hdynamic
  | cons spec rest ih =>
      simp only [layoutFrom, bind_eq_ok] at h
      obtain ⟨count, _, h⟩ := h
      split at h
      · simp only [bind_eq_ok] at h
        obtain ⟨_, _, h⟩ := h
        rcases ih h with hstart | hle
        · simp only [Option.some.injEq, Prod.mk.injEq] at hstart
          exact Or.inr hstart.1.le
        · exact Or.inr (by omega)
      · rcases ih h with hstart | hle
        · exact Or.inl hstart
        · exact Or.inr (by omega)

/-- The bytes of the open-ended member, when it is met between two layouts. -/
def openBytes (start layout : Layout) (dynamicCount : Option Nat) : Nat :=
  match start.dynamicSpec, layout.dynamicSpec with
  | none, some (_, valueSize) => dynamicCount.getD 0 * valueSize
  | _, _ => 0

/-- **The wire values take up what the layout has counted**, up to the overflow of the count. -/
theorem bindSpecs_totalWireSize {index : Nat} {specs : List BridgeMemberSpec}
    {start layout : Layout} {dynamicCount : Option Nat}
    (hlayout : layoutFrom members index specs start = .ok layout)
    (hdynamic : layout.dynamicSpec.isSome → dynamicCount ≠ none)
    (hstart : ∀ i v, start.dynamicSpec = some (i, v) → i < index)
    (hbytes : start.fixedBytes < 2 ^ 64)
    (h : bindSpecs members (layout.countAt dynamicCount) index specs message =
      .ok (fields, message')) (hallocated : message'.Allocated members) :
    ∃ fixed, layout.fixedBytes = (start.fixedBytes + fixed) % 2 ^ 64 ∧
      totalWireSize (fields.map WireField.spec) =
        fixed + openBytes start layout dynamicCount := by
  induction specs generalizing index start message fields with
  | nil =>
      cases h
      cases hlayout
      refine ⟨0, (Nat.mod_eq_of_lt hbytes).symm, ?_⟩
      unfold openBytes
      split
      · rename_i hnone hsome
        rw [hnone] at hsome
        cases hsome
      · rfl
  | cons spec rest ih =>
      simp only [layoutFrom, bind_eq_ok] at hlayout
      obtain ⟨count, hcount, hlayout⟩ := hlayout
      simp only [bindSpecs, bind_eq_ok, pure_eq_ok, Prod.exists, Prod.mk.injEq] at h
      obtain ⟨first, next, hfirst, others, last, hothers, rfl, rfl⟩ := h
      have hlength := length_bindSpec hcount hfirst ((bindSpecs_grows hothers).allocated hallocated)
      have hsize := (bindSpec_spec hfirst).2
      rw [List.map_append, totalWireSize_append, hsize]
      -- The one open-ended member counts as often as the payload has room; the others are fixed.
      split at hlayout
      · rename_i hmarker
        simp only [bind_eq_ok, require_eq_ok] at hlayout
        obtain ⟨_, hnone, hlayout⟩ := hlayout
        have hspec : layout.dynamicSpec = some (index, wireSize spec) :=
          (layoutFrom_spec hlayout).1 rfl
        obtain ⟨k, rfl⟩ := Option.ne_none_iff_exists'.mp (hdynamic (by rw [hspec]; rfl))
        have hk : first.length = k := by
          refine hlength.2 hmarker k ?_
          rw [Layout.countAt, hspec]
          exact if_pos rfl
        obtain ⟨fixed, hfixed, htotal⟩ := ih hlayout (by
          intro i v hi
          simp only [Option.some.injEq, Prod.mk.injEq] at hi
          omega) hbytes hothers
        refine ⟨fixed, hfixed, ?_⟩
        have hopen : openBytes start layout (some k) = k * wireSize spec := by
          rw [openBytes, Option.isNone_iff_eq_none.mp hnone, hspec]
          rfl
        have hrest : openBytes { start with dynamicSpec := some (index, wireSize spec) } layout
            (some k) = 0 := by
          rw [openBytes]
        rw [htotal, hopen, hrest, hk]
        omega
      · rename_i hfinite
        have hcountAt : layout.countAt dynamicCount index = none := by
          unfold Layout.countAt
          split
          · rename_i i v hi
            have hne : i ≠ index := by
              rcases layoutFrom_dynamicSpec hlayout hi with hbefore | hafter
              · exact (hstart i v hbefore).ne
              · omega
            exact if_neg hne
          · rfl
        have hk : first.length = count := hlength.1 hfinite hcountAt
        obtain ⟨fixed, hfixed, htotal⟩ := ih hlayout (fun i v hi =>
          Nat.lt_succ_of_lt (hstart i v hi)) (Nat.mod_lt _ (by positivity)) hothers
        refine ⟨count * wireSize spec + fixed, ?_, ?_⟩
        · rw [hfixed]
          dsimp only
          rw [Nat.mod_add_mod, Nat.add_assoc]
        · rw [htotal, hk, Nat.add_assoc]
          rfl

end

theorem wireSize_le (spec : BridgeMemberSpec) : wireSize spec ≤ 8 := by
  unfold wireSize
  split
  · rename_i type htype
    obtain ⟨before, after, hlist, _⟩ := List.lookup_eq_some_iff.mp htype
    have hall : ∀ entry ∈ typeInfo, entry.2.size ≤ 8 := by decide
    exact hall (spec.valueType, type) (hlist ▸ List.mem_append_right _ List.mem_cons_self)
  · exact Nat.zero_le 8

theorem totalWireSize_le (specs : List BridgeMemberSpec) :
    totalWireSize specs ≤ specs.length * 8 := by
  refine (List.sum_le_card_nsmul _ 8 ?_).trans_eq ?_
  · intro size hsize
    obtain ⟨spec, _, rfl⟩ := List.mem_map.mp hsize
    exact wireSize_le spec
  · rw [List.length_map, smul_eq_mul]

/-- The bindings of the wire values are a vector, of optional pairs of pointers, and so are not
longer than memory. -/
def FitsVector (fields : List WireField) : Prop := 24 * fields.length < 2 ^ 63

theorem totalWireSize_bindPayload {members : List MessageMember} {payload : Bytes}
    {specs : List BridgeMemberSpec} {fields : List WireField} {message : MessageInstance}
    (h : bindPayload members payload specs = .ok (fields, message))
    (hallocated : message.Allocated members) (hfits : FitsVector fields) :
    totalWireSize (fields.map WireField.spec) = payload.length := by
  simp only [bindPayload, bind_eq_ok] at h
  obtain ⟨layout, hlayout, dynamicCount, hcount, hbind⟩ := h
  obtain ⟨fixed, hfixed, htotal⟩ := bindSpecs_totalWireSize hlayout (dynamicCount_isSome hcount)
    (fun i v hi => by cases hi) (by decide) hbind hallocated
  have hbound : fixed < 2 ^ 64 := by
    have hle := totalWireSize_le (fields.map WireField.spec)
    rw [List.length_map] at hle
    unfold FitsVector at hfits
    omega
  have hbytes : layout.fixedBytes = fixed := by
    rw [hfixed, Nat.zero_add, Nat.mod_eq_of_lt hbound]
  rw [htotal]
  unfold Layout.dynamicCount at hcount
  unfold openBytes
  split at hcount
  · rename_i i valueSize hspec
    simp only [bind_eq_ok, require_eq_ok, decide_eq_true_eq, Bool.and_eq_true, pure_eq_ok]
      at hcount
    obtain ⟨_, hle, _, ⟨_, hmod⟩, rfl⟩ := hcount
    -- The bytes behind the fixed ones are a multiple of the open-ended width.
    have hrest : (payload.length - layout.fixedBytes) / valueSize * valueSize =
        payload.length - layout.fixedBytes := Nat.div_mul_cancel (Nat.dvd_of_mod_eq_zero hmod)
    rw [hspec]
    dsimp only [Option.getD_some]
    rw [hrest, hbytes]
    omega
  · rename_i hspec
    simp only [bind_eq_ok, require_eq_ok, decide_eq_true_eq] at hcount
    obtain ⟨_, hlength, _⟩ := hcount
    rw [hspec]
    dsimp only
    omega

/-- **Counting agrees with collecting.** A path with a finite count selects that many different
leaves, and an open-ended one as many as it is given. So the members of a payload that were bound
take up the whole payload, and decoding it fails only for a member of an unknown type. -/
theorem selectionCount_agrees (members : List MessageMember) :
    (∀ path n message bindings message', selectionCountForPath path members = .ok n →
      n ≠ kDynamicBindingCount →
      collectMutableLeafBindings none path members [] message = .ok (bindings, message') →
      message'.Allocated members →
      bindings.length = n ∧ (bindings.map fun binding => binding.pointer.path).Nodup) ∧
    (∀ path k message bindings message',
      selectionCountForPath path members = .ok kDynamicBindingCount →
      collectMutableLeafBindings (some k) path members [] message = .ok (bindings, message') →
      message'.Allocated members →
      bindings.length = k ∧ (bindings.map fun binding => binding.pointer.path).Nodup) ∧
    ∀ (payload : Bytes) specs fields message,
      bindPayload members payload specs = .ok (fields, message) →
      message.Allocated members → FitsVector fields →
      totalWireSize (fields.map WireField.spec) = payload.length ∧
        ((∃ values, decodeStructPayload payload (fields.map WireField.spec) = .ok values) ↔
          ∀ field ∈ fields, (scalarType? field.spec.valueType).isSome) := by
  refine ⟨?_, ?_, ?_⟩
  · intro path n message bindings message' hcount hfixed hcollect hallocated
    exact ⟨length_bindings_fixed hcount hfixed hcollect hallocated,
      bindings_nodup hcount (fun heq => absurd heq hfixed) hcollect⟩
  · intro path k message bindings message' hcount hcollect hallocated
    exact ⟨length_bindings_dynamic hcount hcollect hallocated,
      bindings_nodup hcount (fun _ => Option.some_ne_none k) hcollect⟩
  · intro payload specs fields message hbind hallocated hfits
    have hsize := totalWireSize_bindPayload hbind hallocated hfits
    refine ⟨hsize, ?_⟩
    constructor
    · rintro ⟨values, hvalues⟩ field hfield
      exact unpackValues_known hvalues _ (List.mem_map_of_mem hfield)
    · intro hknown
      obtain ⟨values, hvalues, _⟩ := unpackValues_sized
        (List.forall_mem_map.mpr hknown) [] hsize.symm
      exact ⟨values, hvalues⟩

/-- The data of `std_msgs/msg/UInt8MultiArray`. -/
def octets : List MessageMember := [.mk "data" (.scalar (.integer uint8)) (.sequence 0 none) true none]

theorem octets_holds {message : MessageInstance} {names : List String} {object : Position}
    (h : message.Holds names octets [] object) :
    ∃ i < message.arrays.length [.field "data"], object = [.field "data", .item i] := by
  cases names with
  | nil => exact h.elim
  | cons name rest =>
      obtain ⟨member, element, hfind, helement, hrest⟩ := h
      have hmember := List.mem_singleton.mp (List.mem_of_find?_eq_some hfind)
      have hname : name = "data" := by
        have hp := List.find?_some hfind
        rw [hmember] at hp
        exact (of_decide_eq_true hp).symm
      rw [hmember, hname] at helement
      obtain ⟨i, hi, rfl⟩ := helement
      have hnil : rest = [] := by
        by_contra hne
        rw [if_neg hne, hmember] at hrest
        obtain ⟨_, rest, rfl⟩ := List.exists_cons_of_ne_nil hne
        obtain ⟨_, _, hnone, _⟩ := hrest
        cases hnone
      rw [if_pos hnil] at hrest
      exact ⟨i, hi, hrest⟩

/-- The number of an octet's position, counted from one. -/
def octetNumber : Position → Nat
  | [_, .item i] => i + 1
  | _ => 0

theorem octets_allocated {message : MessageInstance}
    (h : message.arrays.length [.field "data"] < 2 ^ 63) : message.Allocated octets := by
  intro names
  refine ⟨octetNumber, ?_, ?_⟩
  · intro p hp q hq heq
    obtain ⟨i, _, rfl⟩ := octets_holds hp
    obtain ⟨j, _, rfl⟩ := octets_holds hq
    obtain rfl : i = j := Nat.succ.inj heq
    rfl
  · intro object hobject
    obtain ⟨i, hi, rfl⟩ := octets_holds hobject
    simp only [octetNumber]
    omega

/-- Two octets, by a slice and by the length of a payload. -/
theorem selectionCount_agrees_octets :
    (∃ message bindings, collectMutableLeafBindings none
        [⟨"data", .slice none (some 2) 1⟩] octets [] (.initialized octets) =
          .ok (bindings, message) ∧ bindings.length = 2) ∧
    (∃ message bindings, collectMutableLeafBindings (some 2) [⟨"data", .absent⟩] octets []
        (.initialized octets) = .ok (bindings, message) ∧ bindings.length = 2) ∧
    ∃ fields message, bindPayload octets [7, 8] [⟨"data", "uint8", ""⟩] =
        .ok (fields, message) ∧ totalWireSize (fields.map WireField.spec) = 2 := by
  obtain ⟨hfixed, hdynamic, hpayload⟩ := selectionCount_agrees octets
  refine ⟨?_, ?_, ?_⟩
  · exact ⟨_, _, rfl, (hfixed [⟨"data", .slice none (some 2) 1⟩] 2 (.initialized octets) _ _ rfl
      (by decide) rfl (octets_allocated (by decide))).1⟩
  · exact ⟨_, _, rfl, (hdynamic [⟨"data", .absent⟩] 2 (.initialized octets) _ _ rfl rfl
      (octets_allocated (by decide))).1⟩
  · have hrun : (bindPayload octets [7, 8] [⟨"data", "uint8", ""⟩]).toOption.any
        (fun bound => bound.1.length == 2 && bound.2.arrays.length [.field "data"] == 2) = true := by
      decide +kernel
    obtain ⟨⟨fields, message⟩, hbind, hbound⟩ := exists_ok_of_any hrun
    simp only [Bool.and_eq_true, beq_iff_eq] at hbound
    have hallocated : message.Allocated octets := octets_allocated (by omega)
    have hfits : FitsVector fields := by
      unfold FitsVector
      omega
    exact ⟨fields, message, hbind, (hpayload _ _ _ _ hbind hallocated hfits).1⟩

end UavBluetooth.Bridge
