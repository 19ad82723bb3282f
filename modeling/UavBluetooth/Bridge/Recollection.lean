import UavBluetooth.Bridge.SelectionCount

set_option autoImplicit false

/-! # Collecting leaves a second time

`encode_payload` collects the leaves of a member from a message, and `decode_payload` counts and
collects them again from a new message that it grows for the purpose. Both follow the same path:
the count is the number of leaves collected (`selectionCount_of_const`), and the new message is
given the same leaves (`collectMutableLeafBindings_follows`).

The decoder refuses an open-ended vector below an array, and below an empty slice it counts what
the encoder never looks at; `plain` leaves out the first, and the second where the count fails.
-/

namespace UavBluetooth.Bridge

open Config Fallible Relocation

/-! ## The fields of a schema -/

def Step.isItem : Step → Bool
  | .field _ => false
  | .item _ => true

/-- The field that a position is of, by itself or by an element. -/
def fieldAt : Position → List MessageMember → Option MessageMember
  | [], _ => none
  | .item _ :: rest, members => fieldAt rest members
  | .field name :: rest, members =>
      match members.find? (·.name = name) with
      | none => none
      | some member =>
          if rest.all Step.isItem then some member else fieldAt rest (member.nested.getD [])

/-- A value of a message type: its leaves have the types of their fields, and no vector exceeds
its bound. -/
structure MessageInstance.Conforms (message : MessageInstance) (members : List MessageMember) :
    Prop where
  typed : ∀ position v member, message.leaves position = some v →
    fieldAt position members = some member → member.type = .scalar v.type
  bounded : ∀ position name member initial bound,
    fieldAt (position ++ [.field name]) members = some member →
    member.shape = .sequence initial (some bound) →
    message.arrays.length (position ++ [.field name]) ≤ bound

/-- The field that a path ends in. -/
def leafMember : List PathSegment → List MessageMember → Option MessageMember
  | [], _ => none
  | segment :: rest, members =>
      match members.find? (·.name = segment.name) with
      | none => none
      | some member =>
          if rest.isEmpty then some member else leafMember rest (member.nested.getD [])

/-! ## Paths -/

def Shape.isSequence : Shape → Bool
  | .sequence _ _ => true
  | _ => false

/-- The selector leaves it to the array where the selection ends. -/
def Selector.openEnded : Selector → Bool
  | .absent => true
  | .slice _ none _ => true
  | _ => false

/-- The selector picks something without regard to the size of an array. -/
def Selector.picks : Selector → Bool
  | .absent => true
  | .index _ => true
  | .slice start (some stop) _ => start.getD 0 < stop
  | .slice _ none _ => false

/-- The selector is a closed slice with nothing in it. -/
def Selector.picksNothing : Selector → Bool
  | .slice start (some stop) _ => stop ≤ start.getD 0
  | _ => false

/-- The decoder can count the leaves that the path has below an element. -/
def countable (rest : List PathSegment) (member : MessageMember) : Bool :=
  (getNestedMembers member >>= selectionCountForPath rest).toOption.any (· ≠ kDynamicBindingCount)

/-- The path ends in an open-ended selection of a vector. -/
def openEnded : List PathSegment → List MessageMember → Bool
  | [], _ => false
  | segment :: rest, members =>
      match members.find? (·.name = segment.name) with
      | none => false
      | some member =>
          if rest.isEmpty then segment.selector.openEnded && member.shape.isSequence
          else openEnded rest (member.nested.getD [])

/-- Before its end the path selects by indices and by closed slices, an open-ended vector at its end
has no array above it, and what is below an empty slice can be counted. -/
def plain : List PathSegment → List MessageMember → Bool
  | [], _ => true
  | segment :: rest, members =>
      match members.find? (·.name = segment.name) with
      | none => true
      | some member =>
          rest.isEmpty || (segment.selector = .absent || !openEnded rest (member.nested.getD [])) &&
            (segment.selector.picks && plain rest (member.nested.getD []) ||
              segment.selector.picksNothing && countable rest member)

/-- The address of the array that a path without selectors ends in. -/
def fieldPosition (path : List PathSegment) : Position := path.map fun segment => .field segment.name

/-! ## Collecting, segment by segment -/

section

variable (source : MessageInstance) (dynamicCount : Option Nat) (rest : List PathSegment)
  (member : MessageMember)

/-- What is collected from a field or an element that a segment has led to. -/
def constBelow (element : Position) : Except StdException (List ConstLeafBinding) :=
  if rest.isEmpty then .ok [⟨member, element⟩]
  else do collectConstLeafBindings source rest (← getNestedMembers member) element

def mutableBelow (element : Position) (message : MessageInstance) :
    Except StdException (List MutableLeafBinding × MessageInstance) :=
  if rest.isEmpty then .ok ([⟨member, message.arrays.take element⟩], message)
  else do
    collectMutableLeafBindings dynamicCount rest (← getNestedMembers member) element message

variable (segment : PathSegment) (members : List MessageMember) (position : Position)

theorem collectConstLeafBindings_cons :
    collectConstLeafBindings source (segment :: rest) members position = (do
      let member ← findMember members segment.name
      let field := position ++ [.field segment.name]
      if member.shape = .single then do
        require (segment.selector = .absent)
          (.runtimeError ("Array selector applied to non-array member: " ++ segment.name))
        constBelow source rest member field
      else do
        let indices ← selectIndicesConst member segment rest.isEmpty source field
        let (bindings, _) ← forItems (fun element (_ : Unit) => do
          require member.accessor
            (.runtimeError ("Array member lacks const accessor: " ++ segment.name))
          return (← constBelow source rest member element, ())) field indices ()
        return bindings) := rfl

theorem collectMutableLeafBindings_cons (message : MessageInstance) :
    collectMutableLeafBindings dynamicCount (segment :: rest) members position message = (do
      let member ← findMember members segment.name
      let field := position ++ [.field segment.name]
      if member.shape = .single then do
        require (segment.selector = .absent)
          (.runtimeError ("Array selector applied to non-array member: " ++ segment.name))
        mutableBelow dynamicCount rest member field message
      else do
        let (indices, message) ←
          selectIndicesMutable member segment rest.isEmpty field dynamicCount message
        forItems (fun element message => do
          require member.accessor
            (.runtimeError ("Array member lacks mutable accessor: " ++ segment.name))
          mutableBelow dynamicCount rest member element message) field indices message) := rfl

end

theorem forItems_groups {β : Type} {body : Position → Unit → Except StdException (List β × Unit)}
    {field : Position} {indices : List Nat} {bindings : List β} {u : Unit}
    (h : forItems body field indices () = .ok (bindings, u)) :
    ∃ groups, List.Forall₂ (fun index group =>
        body (field ++ [.item index]) () = .ok (group, ())) indices groups ∧
      bindings = groups.flatten := by
  induction indices generalizing bindings with
  | nil =>
      cases h
      exact ⟨[], .nil, rfl⟩
  | cons index rest ih =>
      simp only [forItems, bind_eq_ok, pure_eq_ok, Prod.exists, Prod.mk.injEq] at h
      obtain ⟨first, _, hfirst, others, _, hothers, rfl, _⟩ := h
      obtain ⟨groups, hgroups, rfl⟩ := ih hothers
      exact ⟨first :: groups, .cons hfirst hgroups, rfl⟩

section

variable {source : MessageInstance} {dynamicCount : Option Nat} {path rest : List PathSegment}
  {segment : PathSegment} {member : MessageMember} {members root : List MessageMember}
  {position : Position} {bindings : List ConstLeafBinding}

/-- **What a collection from a message has met**: a field, or the elements of an array. -/
theorem collectConst_cases
    (h : collectConstLeafBindings source (segment :: rest) members position = .ok bindings) :
    ∃ member, findMember members segment.name = .ok member ∧
      ((member.shape = .single ∧ segment.selector = .absent ∧
          constBelow source rest member (position ++ [.field segment.name]) = .ok bindings) ∨
        (member.shape ≠ .single ∧ ∃ indices groups,
          selectIndicesConst member segment rest.isEmpty source
            (position ++ [.field segment.name]) = .ok indices ∧
          List.Forall₂ (fun index group => member.accessor = true ∧
            constBelow source rest member
              (position ++ [.field segment.name] ++ [.item index]) = .ok group) indices groups ∧
          bindings = groups.flatten)) := by
  rw [collectConstLeafBindings_cons] at h
  simp only [bind_eq_ok] at h
  obtain ⟨member, hfind, h⟩ := h
  refine ⟨member, hfind, ?_⟩
  by_cases hshape : member.shape = .single
  · rw [if_pos hshape] at h
    simp only [bind_eq_ok, require_eq_ok, decide_eq_true_eq] at h
    obtain ⟨_, hselector, h⟩ := h
    exact Or.inl ⟨hshape, hselector, h⟩
  · rw [if_neg hshape] at h
    simp only [bind_eq_ok, pure_eq_ok, Prod.exists] at h
    obtain ⟨indices, hindices, collected, u, hitems, rfl⟩ := h
    obtain ⟨groups, hgroups, hflatten⟩ := forItems_groups hitems
    refine Or.inr ⟨hshape, indices, groups, hindices, hgroups.imp ?_, hflatten⟩
    intro index group hgroup
    simp only [bind_eq_ok, require_eq_ok, pure_eq_ok, Prod.mk.injEq, and_true] at hgroup
    obtain ⟨_, haccessor, below, hbelow, rfl⟩ := hgroup
    exact ⟨haccessor, hbelow⟩

/-- Below a field or an element a path ends, or it goes on in the nested message. -/
theorem constBelow_cases {element : Position}
    (h : constBelow source rest member element = .ok bindings) :
    (rest = [] ∧ bindings = [⟨member, element⟩]) ∨
      (rest ≠ [] ∧ getNestedMembers member = .ok (member.nested.getD []) ∧
        collectConstLeafBindings source rest (member.nested.getD []) element = .ok bindings) := by
  unfold constBelow at h
  split at h
  · rename_i hend
    cases h
    exact Or.inl ⟨List.isEmpty_iff.mp hend, rfl⟩
  · rename_i hmore
    simp only [bind_eq_ok] at h
    obtain ⟨nested, hnested, h⟩ := h
    refine Or.inr ⟨fun hnil => hmore (List.isEmpty_iff.mpr hnil), ?_⟩
    rw [getNestedMembers_eq_ok hnested]
    exact ⟨hnested, h⟩

/-! ## The field of a leaf -/

/-- The nested message at a position of the root has these members. -/
def Opens (root : List MessageMember) (position : Position) (members : List MessageMember) : Prop :=
  ∀ name suffix,
    fieldAt (position ++ .field name :: suffix) root = fieldAt (.field name :: suffix) members

theorem opens_root (root : List MessageMember) : Opens root [] root := fun _ _ => rfl

theorem Opens.fieldAt (h : Opens root position members)
    (hfind : members.find? (·.name = segment.name) = some member) (items : Position)
    (hitems : items.all Step.isItem = true) :
    fieldAt (position ++ [.field segment.name] ++ items) root = some member := by
  rw [List.append_assoc, List.singleton_append, h segment.name items, Bridge.fieldAt, hfind]
  exact if_pos hitems

theorem fieldAt_items {items : Position} (hitems : items.all Step.isItem = true) (rest : Position)
    (members : List MessageMember) : fieldAt (items ++ rest) members = fieldAt rest members := by
  induction items with
  | nil => rfl
  | cons step items ih =>
      rw [List.all_cons, Bool.and_eq_true] at hitems
      cases step with
      | field name => cases hitems.1
      | item index =>
          rw [List.cons_append, fieldAt]
          exact ih hitems.2

/-- Below an element of a field lies its nested message. -/
theorem Opens.nested (h : Opens root position members)
    (hfind : members.find? (·.name = segment.name) = some member) {items : Position}
    (hitems : items.all Step.isItem = true) :
    Opens root (position ++ [.field segment.name] ++ items) (member.nested.getD []) := by
  intro name suffix
  have hfield : ¬(items ++ Step.field name :: suffix).all Step.isItem = true := by
    simp [Step.isItem]
  calc Bridge.fieldAt (position ++ [.field segment.name] ++ items ++ .field name :: suffix) root
      = Bridge.fieldAt (position ++ .field segment.name :: (items ++ .field name :: suffix)) root := by
        simp only [List.append_assoc, List.cons_append, List.nil_append]
    _ = Bridge.fieldAt (.field segment.name :: (items ++ .field name :: suffix)) members :=
        h segment.name _
    _ = Bridge.fieldAt (items ++ .field name :: suffix) (member.nested.getD []) := by
        rw [Bridge.fieldAt, hfind]
        exact if_neg hfield
    _ = Bridge.fieldAt (.field name :: suffix) (member.nested.getD []) := fieldAt_items hitems _ _

/-- A leaf is of the field that the path ends in. -/
theorem collectConst_leaf (hopens : Opens root position members)
    (h : collectConstLeafBindings source path members position = .ok bindings) :
    ∀ binding ∈ bindings, leafMember path members = some binding.member ∧
      fieldAt binding.position root = some binding.member := by
  induction path generalizing members position bindings with
  | nil => cases h
  | cons segment rest ih =>
      obtain ⟨member, hfind, hcases⟩ := collectConst_cases h
      have hmember := findMember_eq_ok hfind
      have hbelow : ∀ (items : Position) (group : List ConstLeafBinding),
          items.all Step.isItem = true →
          constBelow source rest member (position ++ [.field segment.name] ++ items) = .ok group →
          ∀ binding ∈ group, leafMember (segment :: rest) members = some binding.member ∧
            fieldAt binding.position root = some binding.member := by
        intro items group hitems hgroup binding hbinding
        rw [leafMember, hmember]
        dsimp only
        rcases constBelow_cases hgroup with ⟨rfl, rfl⟩ | ⟨hne, _, hcollect⟩
        · rw [List.mem_singleton.mp hbinding]
          exact ⟨rfl, hopens.fieldAt hmember items hitems⟩
        · rw [if_neg (fun hnil => hne (List.isEmpty_iff.mp hnil))]
          exact ih (hopens.nested hmember hitems) hcollect binding hbinding
      rcases hcases with ⟨_, _, hfield⟩ | ⟨_, indices, groups, _, hgroups, rfl⟩
      · refine hbelow [] bindings rfl ?_
        rwa [List.append_nil]
      · intro binding hbinding
        obtain ⟨group, hgroup, hmem⟩ := List.mem_flatten.mp hbinding
        obtain ⟨index, _, _, hcollect⟩ := exists_of_forall₂ hgroups hgroup
        exact hbelow [.item index] group rfl hcollect binding hmem

end

/-! ## Counting what was collected -/

section

variable {source : MessageInstance} {path rest : List PathSegment} {segment : PathSegment}
  {member : MessageMember} {members : List MessageMember} {position field : Position}
  {bindings : List ConstLeafBinding} {indices : List Nat} {isLast : Bool}

/-- The decoder counts the indices that the encoder has selected, except where the payload is to
say how many there are. -/
theorem selectedCount_of_const (hshape : member.shape ≠ .single)
    (hlast : isLast = false → segment.selector.openEnded = false)
    (h : selectIndicesConst member segment isLast source field = .ok indices) :
    selectedCount member segment isLast = .ok
      (if segment.selector.openEnded && member.shape.isSequence then none
        else some indices.length) := by
  cases hkind : member.shape with
  | single => exact absurd hkind hshape
  | fixed size =>
      cases hsel : segment.selector with
      | absent =>
          simp only [selectIndicesConst, hsel, bind_eq_ok, pure_eq_ok, arraySize, hkind] at h
          obtain ⟨_, _, rfl⟩ := h
          simp [selectedCount, hsel, hkind, Selector.openEnded, Shape.isSequence]
      | index n =>
          simp only [selectIndicesConst, hsel, bind_eq_ok, pure_eq_ok] at h
          obtain ⟨_, _, rfl⟩ := h
          simp [selectedCount, hsel, Selector.openEnded]
      | slice start stop step =>
          simp only [selectIndicesConst, hsel, bind_eq_ok, pure_eq_ok, arraySize, hkind,
            require_eq_ok, Bool.and_eq_true, decide_eq_true_eq] at h
          obtain ⟨_, ⟨hstart, hstop⟩, rfl⟩ := h
          cases stop with
          | some stop =>
              simp only [selectedCount, hsel, hkind, bind_eq_ok, require_eq_ok, decide_eq_true_eq]
              refine ⟨(), hstop, ?_⟩
              simp [Selector.openEnded, length_indicesFrom]
          | none =>
              have hisLast : isLast = true := by
                cases isLast with
                | true => rfl
                | false => simp [hsel, Selector.openEnded] at hlast
              simp only [selectedCount, hsel, hkind, bind_eq_ok, require_eq_ok, decide_eq_true_eq]
              refine ⟨(), hisLast, (), hstart, ?_⟩
              simp [Selector.openEnded, Shape.isSequence, length_indicesFrom]
  | sequence initial bound =>
      cases hsel : segment.selector with
      | absent => simp [selectedCount, hsel, hkind, Selector.openEnded, Shape.isSequence]
      | index n =>
          simp only [selectIndicesConst, hsel, bind_eq_ok, pure_eq_ok] at h
          obtain ⟨_, _, rfl⟩ := h
          simp [selectedCount, hsel, Selector.openEnded]
      | slice start stop step =>
          simp only [selectIndicesConst, hsel, bind_eq_ok, pure_eq_ok] at h
          obtain ⟨_, _, rfl⟩ := h
          cases stop with
          | some stop => simp [selectedCount, hsel, hkind, Selector.openEnded, length_indicesFrom]
          | none =>
              have hisLast : isLast = true := by
                cases isLast with
                | true => rfl
                | false => simp [hsel, Selector.openEnded] at hlast
              simp [selectedCount, hsel, hkind, hisLast, require, Selector.openEnded,
                Shape.isSequence]

/-- In the middle of a path a selector that picks has picked an index. -/
theorem indices_ne_nil (hpicks : segment.selector.picks = true)
    (h : selectIndicesConst member segment false source field = .ok indices) :
    segment.selector.openEnded = false ∧ indices ≠ [] := by
  cases hsel : segment.selector with
  | absent =>
      simp only [selectIndicesConst, hsel, bind_eq_ok, require_eq_ok] at h
      obtain ⟨_, hlast, _⟩ := h
      cases hlast
  | index n =>
      simp only [selectIndicesConst, hsel, bind_eq_ok, pure_eq_ok] at h
      obtain ⟨_, _, rfl⟩ := h
      exact ⟨rfl, List.cons_ne_nil n []⟩
  | slice start stop step =>
      cases stop with
      | none => simp [hsel, Selector.picks] at hpicks
      | some stop =>
          simp only [selectIndicesConst, hsel, bind_eq_ok, pure_eq_ok, Option.getD_some] at h
          obtain ⟨_, _, rfl⟩ := h
          refine ⟨rfl, fun hnil => ?_⟩
          have hlength := congrArg List.length hnil
          rw [length_indicesFrom, List.length_nil] at hlength
          have hlt : start.getD 0 < stop := by simpa [hsel, Selector.picks] using hpicks
          have hpos : ¬stop ≤ start.getD 0 := by omega
          rw [countRange, if_neg hpos, Nat.add_comm] at hlength
          exact Nat.succ_ne_zero _ hlength

/-- An empty slice has picked nothing. -/
theorem indices_eq_nil (hnothing : segment.selector.picksNothing = true)
    (h : selectIndicesConst member segment isLast source field = .ok indices) :
    segment.selector.openEnded = false ∧ indices = [] := by
  cases hsel : segment.selector with
  | absent => simp [hsel, Selector.picksNothing] at hnothing
  | index n => simp [hsel, Selector.picksNothing] at hnothing
  | slice start stop step =>
      cases stop with
      | none => simp [hsel, Selector.picksNothing] at hnothing
      | some stop =>
          simp only [selectIndicesConst, hsel, bind_eq_ok, pure_eq_ok, Option.getD_some] at h
          obtain ⟨_, _, rfl⟩ := h
          have hle : stop ≤ start.getD 0 := by simpa [hsel, Selector.picksNothing] using hnothing
          refine ⟨rfl, List.eq_nil_of_length_eq_zero ?_⟩
          rw [length_indicesFrom, countRange, if_pos hle]

/-- What `plain` says of a path that goes on. -/
theorem plain_cons (hfind : members.find? (·.name = segment.name) = some member)
    (hrest : rest ≠ []) (h : plain (segment :: rest) members = true) :
    (segment.selector ≠ .absent → openEnded rest (member.nested.getD []) = false) ∧
      (segment.selector.picks = true ∧ plain rest (member.nested.getD []) = true ∨
        segment.selector.picksNothing = true ∧ countable rest member = true) := by
  rw [plain, hfind] at h
  have hmore : rest.isEmpty = false := by simpa using hrest
  simp only [hmore, Bool.false_or, Bool.and_eq_true, Bool.or_eq_true, decide_eq_true_eq,
    Bool.not_eq_true'] at h
  exact ⟨fun hne => h.1.resolve_left hne, h.2⟩

theorem plain_field (hfind : members.find? (·.name = segment.name) = some member)
    (hrest : rest ≠ []) (hselector : segment.selector = .absent)
    (h : plain (segment :: rest) members = true) : plain rest (member.nested.getD []) = true := by
  obtain ⟨_, ⟨_, hbelow⟩ | ⟨hnothing, _⟩⟩ := plain_cons hfind hrest h
  · exact hbelow
  · rw [hselector] at hnothing
    cases hnothing

theorem openEnded_cons (hfind : members.find? (·.name = segment.name) = some member)
    (hrest : rest ≠ []) :
    openEnded (segment :: rest) members = openEnded rest (member.nested.getD []) := by
  have hmore : rest.isEmpty = false := by simpa using hrest
  simp [openEnded, hfind, hmore]

theorem openEnded_last (hfind : members.find? (·.name = segment.name) = some member) :
    openEnded [segment] members = (segment.selector.openEnded && member.shape.isSequence) := by
  simp [openEnded, hfind]

/-- The groups of equal length take up a multiple of it. -/
theorem length_flatten_of_eq {β : Type} {groups : List (List β)} {n : Nat}
    (h : ∀ group ∈ groups, group.length = n) : groups.flatten.length = groups.length * n := by
  rw [List.length_flatten, List.map_congr_left h, List.map_const', List.sum_replicate, smul_eq_mul]

/-- **The decoder counts what the encoder collects**, unless that is for the payload to say. -/
theorem selectionCount_of_const (hplain : plain path members = true)
    (h : collectConstLeafBindings source path members position = .ok bindings)
    (hfits : bindings.length < kDynamicBindingCount) :
    selectionCountForPath path members = .ok
      (if openEnded path members then kDynamicBindingCount else bindings.length) := by
  induction path generalizing members position bindings with
  | nil => cases h
  | cons segment rest ih =>
      obtain ⟨member, hfind, hcases⟩ := collectConst_cases h
      have hmember := findMember_eq_ok hfind
      simp only [selectionCountForPath, bind_eq_ok]
      refine ⟨member, hfind, ?_⟩
      rcases hcases with ⟨hshape, hselector, hfield⟩ | ⟨hshape, indices, groups, hindices, hgroups, rfl⟩
      · -- A single field is one leaf, or the nested message is counted.
        rw [if_pos hshape]
        simp only [bind_eq_ok, require_eq_ok, decide_eq_true_eq]
        refine ⟨(), hselector, ?_⟩
        rcases constBelow_cases hfield with ⟨rfl, rfl⟩ | ⟨hne, hnested, hcollect⟩
        · simp [openEnded, hmember, hshape, Shape.isSequence]
        · rw [if_neg (by simpa using hne)]
          rw [openEnded_cons hmember hne]
          exact bind_eq_ok.mpr
            ⟨_, hnested, ih (plain_field hmember hne hselector hplain) hcollect hfits⟩
      · rw [if_neg hshape]
        simp only [bind_eq_ok, require_eq_ok]
        have hlengths := hgroups.length_eq
        by_cases hrest : rest = []
        · -- At the end of the path every index is one leaf.
          subst hrest
          have hones : ∀ group ∈ groups, group.length = 1 := by
            intro group hgroup
            obtain ⟨_, _, _, hcollect⟩ := exists_of_forall₂ hgroups hgroup
            rcases constBelow_cases hcollect with ⟨_, rfl⟩ | ⟨hne, _⟩
            · rfl
            · exact absurd rfl hne
          have hcount := selectedCount_of_const hshape (fun hlast => by cases hlast) hindices
          refine ⟨(), rfl, _, hcount, ?_⟩
          rw [openEnded_last hmember, length_flatten_of_eq hones]
          cases hopen : segment.selector.openEnded && member.shape.isSequence with
          | true => rfl
          | false => simp [hlengths]
        · have hmore : rest.isEmpty = false := by simpa using hrest
          rw [hmore] at hindices
          obtain ⟨hclosed, hbelow⟩ := plain_cons hmember hrest hplain
          have hselector : segment.selector.openEnded = false :=
            hbelow.elim (fun h => (indices_ne_nil h.1 hindices).1)
              fun h => (indices_eq_nil h.1 hindices).1
          have habsent : segment.selector ≠ .absent := by
            intro heq
            rw [heq] at hselector
            cases hselector
          have hopen := hclosed habsent
          have hcount := selectedCount_of_const hshape (fun _ => hselector) hindices
          rw [hselector, Bool.false_and, if_neg Bool.false_ne_true] at hcount
          rw [openEnded_cons hmember hrest, hopen, hmore]
          refine ⟨(), by simp [habsent], _, hcount, ?_⟩
          dsimp only
          rw [if_neg Bool.false_ne_true, if_neg Bool.false_ne_true]
          simp only [bind_eq_ok, require_eq_ok, decide_eq_true_eq, pure_eq_ok]
          rcases hbelow with ⟨hpicks, hplain'⟩ | ⟨hnothing, hcountable⟩
          · -- The selector has picked an index: there is an element to read the count off.
            have hne := (indices_ne_nil hpicks hindices).2
            have hnested : ∀ group ∈ groups, getNestedMembers member = .ok (member.nested.getD []) ∧
                selectionCountForPath rest (member.nested.getD []) = .ok group.length := by
              intro group hgroup
              obtain ⟨_, _, _, hcollect⟩ := exists_of_forall₂ hgroups hgroup
              rcases constBelow_cases hcollect with ⟨hnil, _⟩ | ⟨_, hmembers, hcollect⟩
              · exact absurd hnil hrest
              · have hle : group.length ≤ groups.flatten.length :=
                  (List.sublist_flatten_of_mem hgroup).length_le
                have hgroupCount := ih hplain' hcollect (by omega)
                rw [hopen, if_neg Bool.false_ne_true] at hgroupCount
                exact ⟨hmembers, hgroupCount⟩
            obtain ⟨group, hgroup⟩ : ∃ group, group ∈ groups := by
              refine List.exists_mem_of_ne_nil _ (fun hnil => hne ?_)
              rw [hnil] at hlengths
              exact List.length_eq_zero_iff.mp hlengths
            obtain ⟨hmembers, hfirst⟩ := hnested group hgroup
            have hsame : ∀ other ∈ groups, other.length = group.length := fun other hother =>
              Except.ok.inj ((hnested other hother).2.symm.trans hfirst)
            have htotal := length_flatten_of_eq hsame
            have hle : group.length ≤ groups.flatten.length :=
              (List.sublist_flatten_of_mem hgroup).length_le
            refine ⟨_, hmembers, group.length, hfirst, (), by omega, ?_⟩
            rw [hlengths, ← htotal]
            exact Nat.mod_eq_of_lt (lt_trans hfits (by decide))
          · -- Nothing has been picked: the count below is taken and comes to nothing.
            have hnil := (indices_eq_nil hnothing hindices).2
            rw [hnil, List.length_nil] at hlengths
            rw [hnil, List.eq_nil_of_length_eq_zero hlengths.symm]
            obtain ⟨n, hn, hclosedCount⟩ := exists_ok_of_any hcountable
            obtain ⟨nested, hmembers, hn⟩ := bind_eq_ok.mp hn
            exact ⟨nested, hmembers, n, hn, (), by simpa using hclosedCount, by simp⟩

end

/-! ## Collecting from the new message -/

/-- What collecting from a new message does to it: nothing is written, and its vectors grow, but
not beyond the vectors of the source. -/
structure Regrown (source before after : MessageInstance) : Prop where
  leaves : after.leaves = before.leaves
  grows : before.Grows after
  within : ∀ p, after.arrays.length p ≤ max (before.arrays.length p) (source.arrays.length p)

theorem Regrown.refl (source message : MessageInstance) : Regrown source message message :=
  ⟨rfl, fun _ => Nat.le_refl _, fun _ => Nat.le_max_left _ _⟩

theorem Regrown.trans {source before next after : MessageInstance} (h : Regrown source before next)
    (h' : Regrown source next after) : Regrown source before after := by
  refine ⟨h'.leaves.trans h.leaves, h.grows.trans h'.grows, fun p => ?_⟩
  have hfirst := h.within p
  have hsecond := h'.within p
  omega

/-- The leaves of a message and those of another that have the same members and positions. -/
def SameLeaves (bindings : List ConstLeafBinding) (collected : List MutableLeafBinding) : Prop :=
  List.Forall₂ (fun binding found =>
    found.member = binding.member ∧ found.pointer.path = binding.position) bindings collected

section

variable {source : MessageInstance} {segment : PathSegment} {member : MessageMember}
  {field : Position} {indices : List Nat} {isLast : Bool}

/-- A new message has room for what its source has. -/
theorem ensureSize_follows (dest : MessageInstance) {required : Nat} (hshape : member.shape ≠ .single)
    (hbound : ∀ initial bound, member.shape = .sequence initial (some bound) →
      source.arrays.length field ≤ bound)
    (hsize : required ≤ arraySize member source field) :
    ∃ after, ensureSize member segment field required dest = .ok after ∧
      Regrown source dest after ∧ required ≤ arraySize member after field := by
  by_cases hle : required ≤ arraySize member dest field
  · exact ⟨dest, if_pos hle, .refl source dest, hle⟩
  · cases hkind : member.shape with
    | single => exact absurd hkind hshape
    | fixed size =>
        rw [arraySize_of_fixed hkind] at hle hsize
        exact absurd hsize hle
    | sequence initial bound =>
        simp only [arraySize, hkind] at hle hsize
        have hfits : bound.all (required ≤ ·) = true := by
          cases bound with
          | none => rfl
          | some bound => exact decide_eq_true (hsize.trans (hbound initial bound hkind))
        refine ⟨{ dest with arrays := dest.arrays.resize field required }, ?_, ?_, ?_⟩
        · simp only [ensureSize, arraySize, hkind]
          rw [if_neg hle, if_pos hfits]
        · refine ⟨rfl, fun p => ?_, fun p => ?_⟩
          · by_cases hp : p = field
            · subst hp
              simp only [Store.resize, Function.update_self]
              omega
            · simp only [Store.resize, Function.update_of_ne hp, Nat.le_refl]
          · by_cases hp : p = field
            · subst hp
              simp only [Store.resize, Function.update_self]
              omega
            · simp only [Store.resize, Function.update_of_ne hp, Nat.le_max_left]
        · simp [arraySize, hkind, Store.resize]

/-- **Selecting from a new message** gives the indices that were selected from its source. -/
theorem selectIndicesMutable_follows (dest : MessageInstance) {dynamicCount : Option Nat}
    (hshape : member.shape ≠ .single)
    (hbound : ∀ initial bound, member.shape = .sequence initial (some bound) →
      source.arrays.length field ≤ bound)
    (hlast : isLast = false → segment.selector.openEnded = false)
    (hopen : (segment.selector.openEnded && member.shape.isSequence) = true →
      dynamicCount = some indices.length)
    (hclosed : segment.selector.openEnded = true → member.shape.isSequence = false →
      dynamicCount = none)
    (h : selectIndicesConst member segment isLast source field = .ok indices) :
    ∃ after, selectIndicesMutable member segment isLast field dynamicCount dest =
        .ok (indices, after) ∧ Regrown source dest after ∧
      (∀ i ∈ indices, i < arraySize member after field) ∧
      (segment.selector = .absent → arraySize member source field ≤ arraySize member after field) := by
  have hensure : ∀ required, required ≤ arraySize member source field →
      ∃ after, ensureSize member segment field required dest = .ok after ∧
        Regrown source dest after ∧ required ≤ arraySize member after field :=
    fun required => ensureSize_follows dest hshape hbound
  cases hsel : segment.selector with
  | index n =>
      simp only [selectIndicesConst, hsel, bind_eq_ok, require_eq_ok, decide_eq_true_eq,
        pure_eq_ok] at h
      obtain ⟨_, hn, rfl⟩ := h
      obtain ⟨after, hafter, hfollows, hsize⟩ := hensure (n + 1) hn
      refine ⟨after, ?_, hfollows, fun i hi => ?_, fun habsent => by cases habsent⟩
      · simp only [selectIndicesMutable, hsel, bind_eq_ok, pure_eq_ok]
        exact ⟨after, hafter, rfl⟩
      · rw [List.mem_singleton.mp hi]
        exact hsize
  | slice start stop step =>
      simp only [selectIndicesConst, hsel, bind_eq_ok, require_eq_ok, Bool.and_eq_true,
        decide_eq_true_eq, pure_eq_ok] at h
      obtain ⟨_, ⟨hstart, hstop⟩, rfl⟩ := h
      cases stop with
      | some stop =>
          obtain ⟨after, hafter, hfollows, hsize⟩ := hensure stop hstop
          refine ⟨after, ?_, hfollows, fun i hi => ?_, fun habsent => by cases habsent⟩
          · simp only [selectIndicesMutable, hsel, bind_eq_ok, pure_eq_ok]
            exact ⟨after, hafter, rfl⟩
          · exact Nat.lt_of_lt_of_le (lt_of_mem_indicesFrom hi) hsize
      | none =>
          simp only [Option.getD_none] at hopen ⊢
          cases hkind : member.shape with
          | single => exact absurd hkind hshape
          | fixed size =>
              -- The size of a fixed array is the same in both messages.
              have hcount : dynamicCount = none :=
                hclosed (by rw [hsel]; rfl) (by rw [hkind]; rfl)
              have hisLast : isLast = true := by
                cases isLast with
                | true => rfl
                | false => simp [hsel, Selector.openEnded] at hlast
              refine ⟨dest, ?_, .refl source dest, fun i hi => ?_, fun habsent => by cases habsent⟩
              · simp only [selectIndicesMutable, hsel, hcount, bind_eq_ok, require_eq_ok,
                  pure_eq_ok, arraySize_of_fixed hkind]
                exact ⟨(), hisLast, trivial⟩
              · rw [arraySize_of_fixed hkind] at hi ⊢
                exact lt_of_mem_indicesFrom hi
          | sequence initial bound =>
              have hcount := hopen (by rw [hsel, hkind]; rfl)
              rw [length_indicesFrom] at hcount
              -- The last of the selected indices is one of the source.
              have hrequired : requiredSize (start.getD 0)
                  (countRange (start.getD 0) (arraySize member source field) step) step ≤
                    arraySize member source field := by
                unfold requiredSize
                split
                · exact hstart
                · rename_i hpos
                  refine @lt_of_mem_indicesFrom (start.getD 0) _ _ step ?_
                  exact List.mem_map.mpr ⟨_, List.mem_range.mpr (Nat.sub_one_lt hpos), rfl⟩
              obtain ⟨after, hafter, hfollows, hsize⟩ := hensure _ hrequired
              refine ⟨after, ?_, hfollows, fun i hi => ?_, fun habsent => by cases habsent⟩
              · simp only [selectIndicesMutable, hsel, hcount, bind_eq_ok, pure_eq_ok]
                exact ⟨after, hafter, rfl⟩
              · obtain ⟨item, hitem, rfl⟩ := List.mem_map.mp hi
                have hlt := List.mem_range.mp hitem
                have hmul : item * (step : Nat) ≤
                    (countRange (start.getD 0) (arraySize member source field) step - 1) * step :=
                  Nat.mul_le_mul_right _ (by omega)
                unfold requiredSize at hsize
                rw [if_neg (by omega)] at hsize
                omega
  | absent =>
      simp only [selectIndicesConst, hsel, bind_eq_ok, require_eq_ok, pure_eq_ok] at h
      obtain ⟨_, hisLast, rfl⟩ := h
      cases hkind : member.shape with
      | single => exact absurd hkind hshape
      | fixed size =>
          have hcount : dynamicCount = none := hclosed (by rw [hsel]; rfl) (by rw [hkind]; rfl)
          refine ⟨dest, ?_, .refl source dest, fun i hi => ?_, fun _ => ?_⟩
          · simp only [selectIndicesMutable, hsel, hcount, bind_eq_ok, require_eq_ok, pure_eq_ok,
              arraySize_of_fixed hkind]
            exact ⟨(), hisLast, trivial⟩
          · rw [arraySize_of_fixed hkind] at hi ⊢
            exact List.mem_range.mp hi
          · rw [arraySize_of_fixed hkind, arraySize_of_fixed hkind]
      | sequence initial bound =>
          have hcount := hopen (by rw [hsel, hkind]; rfl)
          rw [List.length_range] at hcount
          obtain ⟨after, hafter, hfollows, hsize⟩ := hensure _ (Nat.le_refl _)
          refine ⟨after, ?_, hfollows, fun i hi => ?_, fun _ => hsize⟩
          · simp only [selectIndicesMutable, hsel, hcount, bind_eq_ok, require_eq_ok, pure_eq_ok]
            exact ⟨(), hisLast, after, hafter, rfl⟩
          · exact Nat.lt_of_lt_of_le (List.mem_range.mp hi) hsize

end

theorem SameLeaves.append {first others : List ConstLeafBinding}
    {found rest : List MutableLeafBinding} (h : SameLeaves first found)
    (h' : SameLeaves others rest) : SameLeaves (first ++ others) (found ++ rest) :=
  List.rel_append h h'

/-- The elements of an array one after another. What is there for an element stays there. -/
theorem forItems_collects {source base dest : MessageInstance} {field : Position}
    (body : Position → MessageInstance →
      Except StdException (List MutableLeafBinding × MessageInstance))
    (Held : MessageInstance → Position → Prop)
    (hheld : ∀ {before after p}, before.Grows after → Held before p → Held after p)
    {indices : List Nat} {groups : List (List ConstLeafBinding)}
    (hbody : List.Forall₂ (fun index group => ∀ before, base.Grows before →
      ∃ collected after, body (field ++ [.item index]) before = .ok (collected, after) ∧
        SameLeaves group collected ∧ Regrown source before after ∧
        ∀ binding ∈ group, Held after binding.position) indices groups)
    (hbase : base.Grows dest) :
    ∃ collected after, forItems body field indices dest = .ok (collected, after) ∧
      SameLeaves groups.flatten collected ∧ Regrown source dest after ∧
      ∀ binding ∈ groups.flatten, Held after binding.position := by
  induction hbody generalizing dest with
  | nil => exact ⟨[], dest, rfl, .nil, .refl source dest, fun binding hmem => by cases hmem⟩
  | @cons index group indices groups hfirst _ ih =>
      obtain ⟨found, next, hbody, hsame, hfollows, hgroup⟩ := hfirst dest hbase
      obtain ⟨others, after, hitems, hsame', hfollows', hrest⟩ := ih (hbase.trans hfollows.grows)
      refine ⟨found ++ others, after, ?_, hsame.append hsame', hfollows.trans hfollows', ?_⟩
      · simp only [forItems, bind_eq_ok, pure_eq_ok, Prod.exists]
        exact ⟨found, next, hbody, others, after, hitems, rfl⟩
      · intro binding hbinding
        rw [List.flatten_cons] at hbinding
        rcases List.mem_append.mp hbinding with hmem | hmem
        · exact hheld hfollows'.grows (hgroup binding hmem)
        · exact hrest binding hmem

/-- What collecting a path from a new message yields, next to the leaves of the source. -/
structure Collected (source : MessageInstance) (path : List PathSegment)
    (members : List MessageMember) (position : Position) (bindings : List ConstLeafBinding)
    (collected : List MutableLeafBinding) (before after : MessageInstance) : Prop where
  same : SameLeaves bindings collected
  follows : Regrown source before after
  holds : ∀ binding ∈ bindings,
    after.Holds (path.map PathSegment.name) members position binding.position
  whole : openEnded path members = true → (path.all (·.selector = .absent)) = true →
    source.arrays.length (position ++ fieldPosition path) ≤
      after.arrays.length (position ++ fieldPosition path)

/-- **Collecting from a new message follows the source.** -/
theorem collectMutableLeafBindings_follows {source : MessageInstance}
    {path : List PathSegment} {members root : List MessageMember} {position : Position}
    {bindings : List ConstLeafBinding} {dynamicCount : Option Nat}
    (hopens : Opens root position members) (hconforms : source.Conforms root)
    (hplain : plain path members = true)
    (hdynamic : dynamicCount = if openEnded path members then some bindings.length else none)
    (h : collectConstLeafBindings source path members position = .ok bindings)
    (dest : MessageInstance) :
    ∃ collected after,
      collectMutableLeafBindings dynamicCount path members position dest = .ok (collected, after) ∧
        Collected source path members position bindings collected dest after := by
  induction path generalizing members position bindings dest with
  | nil => cases h
  | cons segment rest ih =>
      obtain ⟨member, hfind, hcases⟩ := collectConst_cases h
      have hmember := findMember_eq_ok hfind
      -- Below an element the path ends in a leaf or goes on in the nested message.
      have hbelow : ∀ (items : Position) (group : List ConstLeafBinding) (before : MessageInstance),
          items.all Step.isItem = true →
          (rest ≠ [] → plain rest (member.nested.getD []) = true ∧
            dynamicCount = if openEnded rest (member.nested.getD []) then some group.length
              else none) →
          constBelow source rest member (position ++ [.field segment.name] ++ items) = .ok group →
          ∃ collected after, mutableBelow dynamicCount rest member
              (position ++ [.field segment.name] ++ items) before = .ok (collected, after) ∧
            SameLeaves group collected ∧ Regrown source before after ∧
            (∀ binding ∈ group, ∀ element, element = position ++ [.field segment.name] ++ items →
              if rest.map PathSegment.name = [] then binding.position = element
              else after.Holds (rest.map PathSegment.name) (member.nested.getD []) element
                binding.position) ∧
            (rest ≠ [] → openEnded rest (member.nested.getD []) = true →
              (rest.all (·.selector = .absent)) = true →
              source.arrays.length
                  (position ++ [.field segment.name] ++ items ++ fieldPosition rest) ≤
                after.arrays.length
                  (position ++ [.field segment.name] ++ items ++ fieldPosition rest)) := by
        intro items group before hitems hnested hgroup
        rcases constBelow_cases hgroup with ⟨rfl, rfl⟩ | ⟨hne, hmembers, hcollect⟩
        · refine ⟨_, before, rfl, .cons ⟨rfl, rfl⟩ .nil, .refl source before, ?_,
            fun hne => absurd rfl hne⟩
          rintro binding hbinding element rfl
          rw [List.mem_singleton.mp hbinding, List.map_nil, if_pos rfl]
        · obtain ⟨hplain', hcount⟩ := hnested hne
          obtain ⟨collected, after, hafter, hcollected⟩ :=
            ih (hopens.nested hmember hitems) hplain' hcount hcollect before
          refine ⟨collected, after, ?_, hcollected.same, hcollected.follows, ?_,
            fun _ => hcollected.whole⟩
          · rw [mutableBelow, if_neg (fun hnil => hne (List.isEmpty_iff.mp hnil))]
            exact bind_eq_ok.mpr ⟨_, hmembers, hafter⟩
          · rintro binding hbinding element rfl
            rw [if_neg (fun hnil => hne (List.map_eq_nil_iff.mp hnil))]
            exact hcollected.holds binding hbinding
      rw [collectMutableLeafBindings_cons]
      simp only [bind_eq_ok]
      rcases hcases with ⟨hshape, hselector, hfield⟩ | ⟨hshape, indices, groups, hindices, hgroups, rfl⟩
      · obtain ⟨collected, after, hafter, hsame, hfollows, hheld, hwhole⟩ :=
          hbelow [] bindings dest rfl (fun hne => ⟨plain_field hmember hne hselector hplain, by
            rw [hdynamic, openEnded_cons hmember hne]⟩) (by rwa [List.append_nil])
        rw [List.append_nil] at hafter
        refine ⟨collected, after, ⟨member, hfind, ?_⟩, hsame, hfollows, ?_, ?_⟩
        · rw [if_pos hshape]
          simp only [bind_eq_ok, require_eq_ok, decide_eq_true_eq]
          exact ⟨(), hselector, hafter⟩
        · intro binding hbinding
          refine ⟨member, position ++ [.field segment.name], hmember, ?_, ?_⟩
          · rw [MessageInstance.HasElement, if_pos hshape]
          · exact hheld binding hbinding _ (List.append_nil _).symm
        · intro hopen habsent
          rw [List.all_cons, Bool.and_eq_true] at habsent
          by_cases hne : rest = []
          · subst hne
            rw [openEnded_last hmember, hshape] at hopen
            simp [Shape.isSequence] at hopen
          · rw [openEnded_cons hmember hne] at hopen
            have hle := hwhole hne hopen habsent.2
            simpa only [fieldPosition, List.map_cons, List.append_nil, List.append_assoc,
              List.singleton_append] using hle
      · have hbound : ∀ initial bound, member.shape = .sequence initial (some bound) →
            source.arrays.length (position ++ [.field segment.name]) ≤ bound := by
          intro initial bound hsequence
          refine hconforms.bounded position segment.name member initial bound ?_ hsequence
          have hat := hopens.fieldAt hmember [] rfl
          rwa [List.append_nil] at hat
        have hlength : rest = [] → groups.flatten.length = indices.length := by
          rintro rfl
          rw [length_flatten_of_eq (n := 1), hgroups.length_eq, Nat.mul_one]
          intro group hgroup
          obtain ⟨_, _, _, hcollect⟩ := exists_of_forall₂ hgroups hgroup
          rcases constBelow_cases hcollect with ⟨_, rfl⟩ | ⟨hne, _⟩
          · rfl
          · exact absurd rfl hne
        -- In the middle of a path the count is not used.
        have hmiddle : rest ≠ [] → segment.selector.openEnded = false ∧
            (plain rest (member.nested.getD []) = true ∨ indices = []) ∧
            openEnded rest (member.nested.getD []) = false := by
          intro hne
          obtain ⟨hclosed, hbelow'⟩ := plain_cons hmember hne hplain
          have hmore : rest.isEmpty = false := by simpa using hne
          rw [hmore] at hindices
          have hpicked : segment.selector.openEnded = false ∧
              (plain rest (member.nested.getD []) = true ∨ indices = []) :=
            hbelow'.elim (fun h => ⟨(indices_ne_nil h.1 hindices).1, Or.inl h.2⟩)
              fun h => (indices_eq_nil h.1 hindices).imp_right Or.inr
          refine ⟨hpicked.1, hpicked.2, hclosed fun heq => ?_⟩
          rw [heq] at hpicked
          cases hpicked.1
        have hinner : rest.isEmpty = false → segment.selector.openEnded = false :=
          fun hmore => (hmiddle (by simpa using hmore)).1
        have hcount : (segment.selector.openEnded && member.shape.isSequence) = true →
            dynamicCount = some indices.length := by
          intro hopen
          by_cases hne : rest = []
          · subst hne
            rw [hdynamic, openEnded_last hmember, if_pos hopen, hlength rfl]
          · rw [(hmiddle hne).1] at hopen
            cases hopen
        have hfixed : segment.selector.openEnded = true → member.shape.isSequence = false →
            dynamicCount = none := by
          intro hopen hfixed
          by_cases hne : rest = []
          · subst hne
            rw [hdynamic, openEnded_last hmember, hfixed, Bool.and_false, if_neg Bool.false_ne_true]
          · rw [(hmiddle hne).1] at hopen
            cases hopen
        obtain ⟨grown, hselect, hgrown, hsizes, hkept⟩ :=
          selectIndicesMutable_follows dest hshape hbound hinner hcount hfixed hindices
        -- The array has its elements from here on: what follows only grows.
        obtain ⟨collected, after, hitems, hsame, hfollows, hheld⟩ := @forItems_collects source
          grown grown (position ++ [.field segment.name]) (fun element message => do
            require member.accessor
              (.runtimeError ("Array member lacks mutable accessor: " ++ segment.name))
            mutableBelow dynamicCount rest member element message)
          (fun after leaf =>
            after.Holds (segment.name :: rest.map PathSegment.name) members position leaf)
          (fun hgrows hholds => hgrows.holds hholds) indices groups (by
          refine List.forall₂_iff_get.mpr ⟨hgroups.length_eq, fun k hk hk' before hbefore => ?_⟩
          obtain ⟨haccessor, hcollect⟩ := (List.forall₂_iff_get.mp hgroups).2 k hk hk'
          obtain ⟨collected, after, hafter, hsame, hfollows, hheld, _⟩ :=
            hbelow [.item (indices.get ⟨k, hk⟩)] _ before rfl (fun hne => by
              obtain ⟨_, hplain', hopen⟩ := hmiddle hne
              refine ⟨hplain'.resolve_right fun hnil => ?_, ?_⟩
              · rw [hnil] at hk
                cases hk
              · rw [hdynamic, openEnded_cons hmember hne, hopen, if_neg Bool.false_ne_true,
                  if_neg Bool.false_ne_true]) hcollect
          refine ⟨collected, after, bind_eq_ok.mpr ⟨(), ?_, hafter⟩, hsame, hfollows, ?_⟩
          · rw [require_eq_ok]
            exact haccessor
          · intro binding hbinding
            refine ⟨member, _, hmember, ?_, hheld binding hbinding _ rfl⟩
            rw [MessageInstance.HasElement, if_neg hshape]
            refine ⟨_, ?_, rfl⟩
            exact Nat.lt_of_lt_of_le (hsizes _ (List.get_mem indices ⟨k, hk⟩))
              ((hbefore.trans hfollows.grows).arraySize_le member _))
          (fun p => Nat.le_refl _)
        refine ⟨collected, after, ⟨member, hfind, ?_⟩, hsame, hgrown.trans hfollows, hheld, ?_⟩
        · rw [if_neg hshape]
          simp only [bind_eq_ok, Prod.exists]
          exact ⟨indices, grown, hselect, hitems⟩
        · intro hopen habsent
          rw [List.all_cons, Bool.and_eq_true, decide_eq_true_eq] at habsent
          by_cases hne : rest = []
          · subst hne
            have hle := (hkept habsent.1).trans (hfollows.grows.arraySize_le member _)
            rw [openEnded_last hmember, Bool.and_eq_true] at hopen
            cases hkind : member.shape with
            | single => exact absurd hkind hshape
            | fixed size =>
                rw [hkind] at hopen
                cases hopen.2
            | sequence initial bound =>
                rw [arraySize, arraySize, hkind] at hle
                exact hle
          · obtain ⟨hselector, _⟩ := hmiddle hne
            rw [habsent.1] at hselector
            cases hselector

end UavBluetooth.Bridge
