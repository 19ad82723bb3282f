import UavBluetooth.Bridge.GenericMessageBridge
import UavBluetooth.Bridge.Validation

set_option autoImplicit false

/-! # The bindings of a payload

`decode_payload` collects all bindings before it writes the first value, and a collection may
grow a vector around a leaf that is bound already. What a member asks of the vectors is read off
its path here, without a message; `decodePayload_live_iff` says when all writes find their leaf.
-/

namespace UavBluetooth.Bridge

open Config Fallible Relocation Yaml

/-! ## What a path asks for -/

/-- The length that a selector needs. -/
def neededLength (selector : Selector) (dynamicCount : Option Nat) : Nat :=
  match selector, dynamicCount with
  | .index n, _ => n + 1
  | .slice _ (some stop) _, _ => stop
  | .slice start none step, some count => requiredSize (start.getD 0) count step
  | .slice _ none _, none => 0
  | .absent, some count => count
  | .absent, none => 0

/-- The indices that a selector picks from an array, of which the size matters to an open-ended
selector without a count. -/
def pickedIndices (selector : Selector) (dynamicCount : Option Nat) (size : Nat) : List Nat :=
  match selector, dynamicCount with
  | .index n, _ => [n]
  | .slice start (some stop) step, _ =>
      indicesFrom (start.getD 0) (countRange (start.getD 0) stop step) step
  | .slice start none step, some count => indicesFrom (start.getD 0) count step
  | .slice start none step, none =>
      indicesFrom (start.getD 0) (countRange (start.getD 0) size step) step
  | .absent, some count => List.range count
  | .absent, none => List.range size

/-- The size of an array that cannot grow. -/
def Shape.fixedSize : Shape → Nat
  | .fixed size => size
  | _ => 0

/-- The length that is asked of a vector. -/
def growth (member : MessageMember) (field : Position) (n : Nat) : List (Request Step) :=
  match member.shape with
  | .sequence _ _ => [.reserve field n]
  | _ => []

/-- What a member path asks of the vectors of a message, and the leaves that it selects. -/
def requests (dynamicCount : Option Nat) :
    List PathSegment → List MessageMember → Position → List (Request Step)
  | [], _, _ => []
  | segment :: rest, members, position =>
      match members.find? (·.name = segment.name) with
      | none => []
      | some member =>
          let field := position ++ [.field segment.name]
          let below := fun (element : Position) =>
            if rest.isEmpty then [.take element]
            else requests dynamicCount rest (member.nested.getD []) element
          if member.shape = .single then below field
          else
            growth member field (neededLength segment.selector dynamicCount) ++
              (pickedIndices segment.selector dynamicCount member.shape.fixedSize).flatMap
                fun index => below (field ++ [.item index])

/-! ## A path by itself -/

/-- The address that a request is about. -/
def address : Request Step → Position
  | .reserve array _ => array
  | .take path => path

theorem indicesFrom_nodup (start count : Nat) (step : ℕ+) : (indicesFrom start count step).Nodup := by
  unfold indicesFrom
  refine List.Nodup.map ?_ List.nodup_range
  intro a b hab
  have hmul : a * (step : Nat) = b * step := Nat.add_left_cancel hab
  exact Nat.eq_of_mul_eq_mul_right step.pos hmul

theorem pickedIndices_nodup (selector : Selector) (dynamicCount : Option Nat) (size : Nat) :
    (pickedIndices selector dynamicCount size).Nodup := by
  unfold pickedIndices
  split
  · exact List.nodup_singleton _
  · exact indicesFrom_nodup _ _ _
  · exact indicesFrom_nodup _ _ _
  · exact indicesFrom_nodup _ _ _
  · exact List.nodup_range
  · exact List.nodup_range

theorem address_growth {member : MessageMember} {field : Position} {n : Nat}
    {request : Request Step} (h : request ∈ growth member field n) :
    request = .reserve field n := by
  unfold growth at h
  split at h
  · exact List.mem_singleton.mp h
  · cases h

section

variable {dynamicCount : Option Nat} {path : List PathSegment} {members : List MessageMember}
  {position : Position}

/-- Everything that a path asks for lies below its start. -/
theorem requests_below {request : Request Step}
    (h : request ∈ requests dynamicCount path members position) :
    position <+: address request := by
  induction path generalizing members position with
  | nil => cases h
  | cons segment rest ih =>
      rw [requests] at h
      split at h
      · cases h
      · rename_i member _
        have hfield : position <+: position ++ [Step.field segment.name] := List.prefix_append _ _
        -- An element is below the field, and what is asked for is below the element.
        have hbelow : ∀ element, position <+: element →
            request ∈ (if rest.isEmpty then [.take element]
              else requests dynamicCount rest (member.nested.getD []) element) →
            position <+: address request := by
          intro element helement hmem
          split at hmem
          · rw [List.mem_singleton.mp hmem]
            exact helement
          · exact helement.trans (ih hmem)
        dsimp only at h
        split at h
        · exact hbelow _ hfield h
        · rcases List.mem_append.mp h with hgrowth | hitems
          · rw [address_growth hgrowth]
            exact hfield
          · obtain ⟨index, _, hmem⟩ := List.mem_flatMap.mp hitems
            exact hbelow _ (hfield.trans (List.prefix_append _ _)) hmem

/-- Two elements of one array lie apart. -/
theorem eq_of_prefix_items {field path : Position} {i j : Nat}
    (hi : field ++ [Step.item i] <+: path) (hj : field ++ [Step.item j] <+: path) : i = j := by
  have hlength : (field ++ [Step.item i]).length = (field ++ [Step.item j]).length := by
    rw [List.length_append, List.length_append]
    rfl
  have heq := (List.prefix_of_prefix_length_le hi hj hlength.le).eq_of_length hlength
  simpa using heq

/-- **A path does not break its own bindings.** A vector is asked for its length once, before
the elements below it are visited. -/
theorem requests_tidy : Tidy (requests dynamicCount path members position) := by
  induction path generalizing members position with
  | nil => exact List.Pairwise.nil
  | cons segment rest ih =>
      rw [requests]
      split
      · exact List.Pairwise.nil
      · rename_i member _
        have hbelow : ∀ element : Position, Tidy (if rest.isEmpty then [.take element]
            else requests dynamicCount rest (member.nested.getD []) element) := by
          intro element
          split
          · exact List.pairwise_singleton _ _
          · exact ih
        have haddress : ∀ (element : Position) (request : Request Step),
            request ∈ (if rest.isEmpty then [.take element]
              else requests dynamicCount rest (member.nested.getD []) element) →
            element <+: address request := by
          intro element request hmem
          split at hmem
          · rw [List.mem_singleton.mp hmem]
            exact List.prefix_refl element
          · exact requests_below hmem
        dsimp only
        split
        · exact hbelow _
        · refine List.pairwise_append.mpr ⟨?_, ?_, ?_⟩
          · unfold growth
            split
            · exact List.pairwise_singleton _ _
            · exact List.Pairwise.nil
          · refine List.pairwise_flatMap.mpr ⟨fun index _ => hbelow _, ?_⟩
            refine (pickedIndices_nodup segment.selector dynamicCount _).imp ?_
            intro i j hne first hfirst second hsecond
            -- A vector below one element is not around a leaf below another.
            cases first with
            | reserve array n => exact trivial
            | take leaf =>
                cases second with
                | take path => exact trivial
                | reserve array n =>
                    intro hprefix
                    exact hne (eq_of_prefix_items (haddress _ _ hfirst)
                      ((haddress _ _ hsecond).trans hprefix))
          · intro first hfirst second _
            rw [address_growth hfirst]
            exact trivial

end

/-! ## Collecting follows the requests -/

theorem arraySize_of_fixed {member : MessageMember} {size : Nat} (h : member.shape = .fixed size)
    (message : MessageInstance) (field : Position) : arraySize member message field = size := by
  rw [arraySize, h]

section

variable {member : MessageMember} {segment : PathSegment} {isLast : Bool} {field : Position}
  {dynamicCount : Option Nat} {message message' : MessageInstance}

theorem ensureSize_run {required : Nat} (hshape : member.shape ≠ .single)
    (h : ensureSize member segment field required message = .ok message') :
    run message.arrays (growth member field required) = (message'.arrays, []) := by
  unfold ensureSize at h
  unfold growth
  cases hkind : member.shape with
  | single => exact absurd hkind hshape
  | fixed size =>
      rw [arraySize_of_fixed hkind] at h
      split at h
      · cases h
        rfl
      · rw [hkind] at h
        cases h
  | sequence initial bound =>
      have hsize : arraySize member message field = message.arrays.length field := by
        rw [arraySize, hkind]
      rw [hsize] at h
      split at h
      · rename_i hle
        cases h
        rw [run, Store.reserve_of_le hle]
        rfl
      · rename_i hlt
        rw [hkind] at h
        dsimp only at h
        split at h
        · cases h
          rw [run, Store.reserve_of_lt (Nat.lt_of_not_le hlt)]
          rfl
        · cases h

theorem growth_zero (member : MessageMember) (field : Position) (arrays : Store Step) :
    run arrays (growth member field 0) = (arrays, []) := by
  unfold growth
  split
  · rw [run, Store.reserve_of_le (Nat.zero_le _)]
    rfl
  · rfl

/-- What is left to the size of the array when there is no count. -/
theorem size_of_selectedCount {count : Option Nat} (hshape : member.shape ≠ .single)
    (hcount : selectedCount member segment isLast = .ok count)
    (hopen : segment.selector = .absent ∨ ∃ start step, segment.selector = .slice start none step)
    (hnone : count ≠ none) : arraySize member message field = member.shape.fixedSize := by
  cases hkind : member.shape with
  | single => exact absurd hkind hshape
  | fixed size => exact arraySize_of_fixed hkind message field
  | sequence initial bound =>
      exfalso
      rcases hopen with hsel | ⟨start, step, hsel⟩
      · simp only [selectedCount, hsel, hkind, Except.ok.injEq] at hcount
        exact hnone hcount.symm
      · simp only [selectedCount, hsel, hkind, bind_eq_ok, pure_eq_ok] at hcount
        obtain ⟨_, _, hcount⟩ := hcount
        exact hnone hcount.symm

/-- An open-ended selection in the middle of a path has no selector. -/
theorem selector_of_selectedCount_none (h : selectedCount member segment false = .ok none) :
    segment.selector = .absent := by
  unfold selectedCount at h
  split at h
  · cases h
  · simp only [bind_eq_ok, pure_eq_ok, reduceCtorEq, and_false, exists_false] at h
  · cases h
  · simp only [bind_eq_ok, require_eq_ok, Bool.false_eq_true, false_and, exists_false] at h
  · cases h
  · assumption

/-- Selecting from a destination picks the indices of the selector and grows the vector as far
as the selector needs. -/
theorem selectIndicesMutable_run {count : Option Nat} {indices : List Nat}
    (hshape : member.shape ≠ .single)
    (hcount : selectedCount member segment isLast = .ok count)
    (hdynamic : count = none → dynamicCount ≠ none)
    (h : selectIndicesMutable member segment isLast field dynamicCount message =
      .ok (indices, message')) :
    indices = pickedIndices segment.selector dynamicCount member.shape.fixedSize ∧
      run message.arrays (growth member field (neededLength segment.selector dynamicCount)) =
        (message'.arrays, []) := by
  unfold selectIndicesMutable at h
  split at h
  · rename_i n hsel
    simp only [bind_eq_ok, pure_eq_ok, Prod.mk.injEq] at h
    obtain ⟨_, hensure, rfl, rfl⟩ := h
    rw [hsel]
    exact ⟨rfl, ensureSize_run hshape hensure⟩
  · rename_i start stop step hsel
    simp only [bind_eq_ok, pure_eq_ok, Prod.mk.injEq] at h
    obtain ⟨_, hensure, rfl, rfl⟩ := h
    rw [hsel]
    exact ⟨rfl, ensureSize_run hshape hensure⟩
  · rename_i start step count' hsel
    simp only [bind_eq_ok, pure_eq_ok, Prod.mk.injEq] at h
    obtain ⟨_, hensure, rfl, rfl⟩ := h
    rw [hsel]
    exact ⟨rfl, ensureSize_run hshape hensure⟩
  · rename_i start step hsel
    simp only [bind_eq_ok, pure_eq_ok, Prod.mk.injEq] at h
    obtain ⟨_, _, rfl, rfl⟩ := h
    have hsize := @size_of_selectedCount member segment isLast field message count hshape hcount
      (Or.inr ⟨start, step, hsel⟩) fun hnone => hdynamic hnone rfl
    rw [hsel, hsize]
    exact ⟨rfl, growth_zero member field message.arrays⟩
  · rename_i dynamic _ _ hsel
    simp only [bind_eq_ok] at h
    obtain ⟨_, _, h⟩ := h
    cases dynamic with
    | some count' =>
        dsimp only at h
        simp only [bind_eq_ok, pure_eq_ok, Prod.mk.injEq] at h
        obtain ⟨_, hensure, rfl, rfl⟩ := h
        rw [hsel]
        exact ⟨rfl, ensureSize_run hshape hensure⟩
    | none =>
        dsimp only at h
        simp only [pure_eq_ok, Prod.mk.injEq] at h
        obtain ⟨rfl, rfl⟩ := h
        have hsize := @size_of_selectedCount member segment isLast field message count hshape
          hcount (Or.inl hsel) fun hnone => hdynamic hnone rfl
        rw [hsel, hsize]
        exact ⟨rfl, growth_zero member field message.arrays⟩

end

/-- The pointers of a list of bindings. -/
def pointers (bindings : List MutableLeafBinding) : List (Pointer Step) :=
  bindings.map MutableLeafBinding.pointer

theorem forItems_run {body : Position → MessageInstance →
      Except StdException (List MutableLeafBinding × MessageInstance)}
    {asked : Position → List (Request Step)}
    (hbody : ∀ element message bindings message', body element message = .ok (bindings, message') →
      run message.arrays (asked element) = (message'.arrays, pointers bindings))
    {field : Position} {indices : List Nat} {message message' : MessageInstance}
    {bindings : List MutableLeafBinding}
    (h : forItems body field indices message = .ok (bindings, message')) :
    run message.arrays (indices.flatMap fun index => asked (field ++ [.item index])) =
      (message'.arrays, pointers bindings) := by
  induction indices generalizing message bindings with
  | nil =>
      cases h
      rfl
  | cons index rest ih =>
      simp only [forItems, bind_eq_ok, pure_eq_ok, Prod.exists, Prod.mk.injEq] at h
      obtain ⟨first, next, hfirst, others, last, hothers, rfl, rfl⟩ := h
      have hhead := hbody _ _ _ _ hfirst
      have htail := ih hothers
      rw [List.flatMap_cons, run_append, hhead, htail]
      simp only [pointers, List.map_append]

theorem findMember_eq_ok {members : List MessageMember} {name : String} {member : MessageMember}
    (h : findMember members name = .ok member) :
    members.find? (·.name = name) = some member := by
  unfold findMember at h
  split at h
  · rename_i found hfound
    cases h
    exact hfound
  · cases h

theorem getNestedMembers_eq_ok {member : MessageMember} {nested : List MessageMember}
    (h : getNestedMembers member = .ok nested) : member.nested.getD [] = nested := by
  simp only [getNestedMembers, bind_eq_ok] at h
  obtain ⟨_, _, h⟩ := h
  split at h
  · rename_i found hfound
    cases h
    rw [hfound]
    rfl
  · cases h

/-- **Collecting a path follows its requests**: the vectors grow as asked, and the bindings are
the pointers taken. -/
theorem collectMutableLeafBindings_run {dynamicCount : Option Nat} {path : List PathSegment}
    {members : List MessageMember} {position : Position} {message message' : MessageInstance}
    {bindings : List MutableLeafBinding} {count : Nat}
    (hcount : selectionCountForPath path members = .ok count)
    (hdynamic : count = kDynamicBindingCount → dynamicCount ≠ none)
    (h : collectMutableLeafBindings dynamicCount path members position message =
      .ok (bindings, message')) :
    run message.arrays (requests dynamicCount path members position) =
      (message'.arrays, pointers bindings) := by
  induction path generalizing members position message message' bindings count with
  | nil => cases h
  | cons segment rest ih =>
      simp only [collectMutableLeafBindings, bind_eq_ok] at h
      obtain ⟨member, hfind, h⟩ := h
      simp only [selectionCountForPath, bind_eq_ok] at hcount
      obtain ⟨member', hfind', hcount⟩ := hcount
      have hsame : member' = member := by
        rw [hfind] at hfind'
        cases hfind'
        rfl
      subst hsame
      -- Below an element, the path ends in a leaf or goes on in a nested message.
      have hbelow : ∀ nestedCount, (rest.isEmpty = false → ∀ nested,
            getNestedMembers member' = .ok nested →
            selectionCountForPath rest nested = .ok nestedCount ∧
              (nestedCount = kDynamicBindingCount → dynamicCount ≠ none)) →
          ∀ (element : Position) (message : MessageInstance)
            (bindings : List MutableLeafBinding) (message' : MessageInstance),
          (if rest.isEmpty then .ok ([⟨member', message.arrays.take element⟩], message)
            else do
              collectMutableLeafBindings dynamicCount rest (← getNestedMembers member') element
                message) = (.ok (bindings, message') : Except StdException _) →
          run message.arrays (if rest.isEmpty then [.take element]
            else requests dynamicCount rest (member'.nested.getD []) element) =
              (message'.arrays, pointers bindings) := by
        intro nestedCount hnested element message bindings message' hcollect
        split at hcollect
        · rename_i hrest
          cases hcollect
          rw [if_pos hrest]
          rfl
        · rename_i hrest
          have hmore : rest.isEmpty = false := by simpa using hrest
          simp only [bind_eq_ok] at hcollect
          obtain ⟨nested, hmembers, hcollect⟩ := hcollect
          obtain ⟨hn, hd⟩ := hnested hmore nested hmembers
          simp only [if_neg hrest]
          rw [getNestedMembers_eq_ok hmembers]
          exact ih hn hd hcollect
      rw [requests, findMember_eq_ok hfind]
      dsimp only
      by_cases hshape : member'.shape = .single
      · rw [if_pos hshape] at h hcount ⊢
        simp only [bind_eq_ok] at h hcount
        obtain ⟨_, _, h⟩ := h
        obtain ⟨_, _, hcount⟩ := hcount
        refine hbelow count ?_ _ _ _ _ h
        intro hmore nested hmembers
        rw [if_neg (by simp [hmore])] at hcount
        simp only [bind_eq_ok] at hcount
        obtain ⟨nested', hmembers', hcount⟩ := hcount
        rw [hmembers] at hmembers'
        cases hmembers'
        exact ⟨hcount, hdynamic⟩
      · rw [if_neg hshape] at h hcount ⊢
        simp only [bind_eq_ok, Prod.exists] at h hcount
        obtain ⟨indices, grown, hselect, hitems⟩ := h
        obtain ⟨_, hlast, selected, hselected, hcount⟩ := hcount
        have hopen : selected = none → dynamicCount ≠ none := by
          rintro rfl
          dsimp only at hcount
          rw [pure_eq_ok] at hcount
          exact hdynamic hcount.symm
        obtain ⟨hindices, hgrow⟩ :=
          selectIndicesMutable_run hshape hselected hopen hselect
        have hnested : rest.isEmpty = false → ∃ nestedCount, ∀ nested,
            getNestedMembers member' = .ok nested →
            selectionCountForPath rest nested = .ok nestedCount ∧
              nestedCount ≠ kDynamicBindingCount := by
          intro hmore
          cases selected with
          | none =>
              rw [hmore] at hlast hselected
              exact absurd (selector_of_selectedCount_none hselected) (by simpa using hlast)
          | some selected =>
              dsimp only at hcount
              rw [if_neg (by simp [hmore])] at hcount
              simp only [bind_eq_ok, require_eq_ok, decide_eq_true_eq] at hcount
              obtain ⟨nested, hmembers, nestedCount, hn, _, hne, _⟩ := hcount
              refine ⟨nestedCount, fun nested' hmembers' => ?_⟩
              rw [hmembers] at hmembers'
              cases hmembers'
              exact ⟨hn, hne⟩
        obtain ⟨nestedCount, hnested⟩ : ∃ nestedCount, rest.isEmpty = false → ∀ nested,
            getNestedMembers member' = .ok nested →
              selectionCountForPath rest nested = .ok nestedCount ∧
                (nestedCount = kDynamicBindingCount → dynamicCount ≠ none) := by
          cases hmore : rest.isEmpty with
          | true => exact ⟨0, fun h => Bool.noConfusion h⟩
          | false =>
              obtain ⟨nestedCount, hall⟩ := hnested hmore
              refine ⟨nestedCount, fun _ nested hmembers => ?_⟩
              obtain ⟨hn, hne⟩ := hall nested hmembers
              exact ⟨hn, fun h => absurd h hne⟩
        have hitem : ∀ (element : Position) (message : MessageInstance)
            (bindings : List MutableLeafBinding) (message' : MessageInstance),
            (do
              require member'.accessor
                (.runtimeError ("Array member lacks mutable accessor: " ++ segment.name))
              if rest.isEmpty then .ok ([⟨member', message.arrays.take element⟩], message)
              else do
                collectMutableLeafBindings dynamicCount rest (← getNestedMembers member')
                  element message) = (.ok (bindings, message') : Except StdException _) →
            run message.arrays (if rest.isEmpty then [.take element]
              else requests dynamicCount rest (member'.nested.getD []) element) =
                (message'.arrays, pointers bindings) := by
          intro element message bindings message' hbody
          simp only [bind_eq_ok] at hbody
          obtain ⟨_, _, hbody⟩ := hbody
          exact hbelow nestedCount hnested _ _ _ _ hbody
        rw [run_append, hgrow, ← hindices, forItems_run hitem hitems, List.nil_append]

/-! ## Member after member -/

/-- What one member asks for. The value of an expression has no leaf. -/
def specRequests (members : List MessageMember) (dynamicCount : Option Nat)
    (spec : BridgeMemberSpec) : List (Request Step) :=
  if spec.expression ≠ "" then []
  else
    match parseMemberPath spec.target with
    | .ok path => requests dynamicCount path members []
    | .error _ => []

/-- What the members ask for, one after another. -/
def selections (members : List MessageMember) (countAt : Nat → Option Nat) :
    Nat → List BridgeMemberSpec → List (List (Request Step))
  | _, [] => []
  | index, spec :: rest =>
      specRequests members (countAt index) spec :: selections members countAt (index + 1) rest

theorem specRequests_tidy (members : List MessageMember) (dynamicCount : Option Nat)
    (spec : BridgeMemberSpec) : Tidy (specRequests members dynamicCount spec) := by
  unfold specRequests
  split
  · exact List.Pairwise.nil
  · split
    · exact requests_tidy
    · exact List.Pairwise.nil

theorem selections_tidy (members : List MessageMember) (countAt : Nat → Option Nat) (index : Nat)
    (specs : List BridgeMemberSpec) :
    ∀ batch ∈ selections members countAt index specs, Tidy batch := by
  induction specs generalizing index with
  | nil =>
      intro batch hmem
      cases hmem
  | cons spec rest ih =>
      intro batch hmem
      rcases List.mem_cons.mp hmem with rfl | hmem
      · exact specRequests_tidy members _ spec
      · exact ih (index + 1) batch hmem

/-- Each member has its count, and an open-ended one has a count from the payload. -/
def Counted (members : List MessageMember) (countAt : Nat → Option Nat) :
    Nat → List BridgeMemberSpec → Prop
  | _, [] => True
  | index, spec :: rest =>
      (∃ count, bindingCount members spec = .ok count ∧
        (count = kDynamicBindingCount → countAt index ≠ none)) ∧
      Counted members countAt (index + 1) rest

/-- The leaves of a list of wire values. -/
def leafBindings (fields : List WireField) : List MutableLeafBinding :=
  fields.filterMap WireField.binding

theorem leafBindings_append (fields others : List WireField) :
    leafBindings (fields ++ others) = leafBindings fields ++ leafBindings others :=
  List.filterMap_append

theorem bindSpec_run {members : List MessageMember} {dynamicCount : Option Nat}
    {spec : BridgeMemberSpec} {message message' : MessageInstance} {fields : List WireField}
    {count : Nat} (hcount : bindingCount members spec = .ok count)
    (hdynamic : count = kDynamicBindingCount → dynamicCount ≠ none)
    (h : bindSpec members dynamicCount spec message = .ok (fields, message')) :
    run message.arrays (specRequests members dynamicCount spec) =
      (message'.arrays, pointers (leafBindings fields)) := by
  unfold bindSpec at h
  unfold specRequests
  by_cases hexpr : spec.expression = ""
  · rw [if_neg (not_not_intro hexpr)] at h ⊢
    rw [bindingCount, if_pos hexpr] at hcount
    simp only [bind_eq_ok, pure_eq_ok, Prod.exists, Prod.mk.injEq] at h hcount
    obtain ⟨path, hpath, bindings, grown, hcollect, rfl, rfl⟩ := h
    obtain ⟨path', hpath', hcount⟩ := hcount
    rw [hpath] at hpath'
    cases hpath'
    rw [hpath]
    have hleaves : leafBindings (bindings.map fun binding => ⟨spec, some binding⟩) = bindings := by
      rw [leafBindings, List.filterMap_map]
      exact List.filterMap_some
    rw [hleaves]
    exact collectMutableLeafBindings_run hcount hdynamic hcollect
  · rw [if_pos hexpr] at h ⊢
    cases h
    rfl

theorem bindSpecs_run {members : List MessageMember} {countAt : Nat → Option Nat} {index : Nat}
    {specs : List BridgeMemberSpec} {message message' : MessageInstance}
    {fields : List WireField} (hcounted : Counted members countAt index specs)
    (h : bindSpecs members countAt index specs message = .ok (fields, message')) :
    run message.arrays (selections members countAt index specs).flatten =
      (message'.arrays, pointers (leafBindings fields)) := by
  induction specs generalizing index message fields with
  | nil =>
      cases h
      rfl
  | cons spec rest ih =>
      obtain ⟨⟨count, hcount, hdynamic⟩, hrest⟩ := hcounted
      simp only [bindSpecs, bind_eq_ok, pure_eq_ok, Prod.exists, Prod.mk.injEq] at h
      obtain ⟨first, next, hfirst, others, last, hothers, rfl, rfl⟩ := h
      rw [selections, List.flatten_cons, run_append, bindSpec_run hcount hdynamic hfirst,
        ih hrest hothers, leafBindings_append]
      simp only [pointers, List.map_append]

/-! ## The length of the payload -/

theorem layoutFrom_spec {members : List MessageMember} {index : Nat}
    {specs : List BridgeMemberSpec} {start layout : Layout}
    (h : layoutFrom members index specs start = .ok layout) :
    (start.dynamicSpec.isSome → layout.dynamicSpec = start.dynamicSpec) ∧
      ∀ dynamicCount, (layout.dynamicSpec.isSome → dynamicCount ≠ none) →
        Counted members (layout.countAt dynamicCount) index specs := by
  induction specs generalizing index start with
  | nil =>
      cases h
      exact ⟨fun _ => rfl, fun _ _ => trivial⟩
  | cons spec rest ih =>
      simp only [layoutFrom, bind_eq_ok] at h
      obtain ⟨count, hcount, h⟩ := h
      split at h
      · simp only [bind_eq_ok, require_eq_ok] at h
        obtain ⟨_, hnone, h⟩ := h
        obtain ⟨hkeep, hrest⟩ := ih h
        have hdynamic : layout.dynamicSpec = some (index, wireSize spec) := hkeep rfl
        refine ⟨?_, fun dynamicCount hsome => ⟨⟨count, hcount, fun _ => ?_⟩,
          hrest dynamicCount hsome⟩⟩
        · intro hstart
          cases hspec : start.dynamicSpec with
          | none =>
              rw [hspec] at hstart
              cases hstart
          | some first =>
              rw [hspec] at hnone
              cases hnone
        · rw [Layout.countAt, hdynamic]
          simpa using hsome (by rw [hdynamic]; rfl)
      · rename_i hfinite
        obtain ⟨hkeep, hrest⟩ := ih h
        exact ⟨hkeep, fun dynamicCount hsome =>
          ⟨⟨count, hcount, fun heq => absurd heq hfinite⟩, hrest dynamicCount hsome⟩⟩

theorem dynamicCount_isSome {layout : Layout} {payloadSize : Nat} {dynamicCount : Option Nat}
    (h : layout.dynamicCount payloadSize = .ok dynamicCount)
    (hdynamic : layout.dynamicSpec.isSome) : dynamicCount ≠ none := by
  unfold Layout.dynamicCount at h
  split at h
  · simp only [bind_eq_ok, pure_eq_ok] at h
    obtain ⟨_, _, _, _, rfl⟩ := h
    exact Option.some_ne_none _
  · rename_i hnone
    rw [hnone] at hdynamic
    cases hdynamic

/-- What the members ask for when a payload is mapped onto a message. -/
def payloadSelections (members : List MessageMember) (payload : Bytes)
    (specs : List BridgeMemberSpec) : Except StdException (List (List (Request Step))) := do
  let layout ← layoutFrom members 0 specs {}
  let dynamicCount ← layout.dynamicCount payload.length
  return selections members (layout.countAt dynamicCount) 0 specs

theorem initialized_wellTimed (members : List MessageMember) :
    (MessageInstance.initialized members).arrays.WellTimed :=
  Store.initial_wellTimed _

theorem bindPayload_live_iff {members : List MessageMember} {payload : Bytes}
    {specs : List BridgeMemberSpec} {fields : List WireField} {message : MessageInstance}
    (h : bindPayload members payload specs = .ok (fields, message)) :
    ∃ batches, payloadSelections members payload specs = .ok batches ∧
      ((∀ binding ∈ leafBindings fields, message.arrays.Live binding.pointer) ↔
        Settled (fun position => initialLength position members) [] batches) := by
  simp only [bindPayload, bind_eq_ok] at h
  obtain ⟨layout, hlayout, dynamicCount, hdynamic, hbind⟩ := h
  refine ⟨selections members (layout.countAt dynamicCount) 0 specs, ?_, ?_⟩
  · rw [payloadSelections, hlayout]
    simp only [bind_eq_ok, pure_eq_ok]
    exact ⟨layout, rfl, dynamicCount, hdynamic, rfl⟩
  · have hcounted := (layoutFrom_spec hlayout).2 dynamicCount (dynamicCount_isSome hdynamic)
    have hrun := bindSpecs_run hcounted hbind
    have hlive := run_live_iff (initialized_wellTimed members) [] (by simp)
      (selections members (layout.countAt dynamicCount) 0 specs).flatten
    rw [hrun, List.nil_append] at hlive
    rw [← steady_flatten_iff (selections_tidy members _ 0 specs)]
    refine Iff.trans ?_ hlive
    simp only [pointers, List.forall_mem_map]

/-! ## The writes -/

theorem unpackValues_length {payload : Bytes} {off : Nat} {specs : List BridgeMemberSpec}
    {values : List ScalarValue} (h : unpackValues payload off specs = .ok values) :
    values.length = specs.length := by
  induction specs generalizing off values with
  | nil =>
      cases h
      rfl
  | cons spec rest ih =>
      simp only [unpackValues, bind_eq_ok, pure_eq_ok] at h
      obtain ⟨v, _, others, hothers, rfl⟩ := h
      rw [List.length_cons, List.length_cons, ih hothers]

/-- Each leaf is written once, and writing leaves the arrays alone. -/
theorem writeFields_spec {float : FloatOps} {fields : List WireField} {values : List ScalarValue}
    {message result : MessageInstance} {writes : List Write}
    (hlength : values.length = fields.length)
    (h : writeFields float fields values message = .ok (writes, result)) :
    writes.map Write.binding = leafBindings fields ∧
      ∀ write ∈ writes, write.message.arrays = message.arrays := by
  induction fields generalizing values message writes result with
  | nil =>
      cases values with
      | nil =>
          cases h
          exact ⟨rfl, fun write hmem => by cases hmem⟩
      | cons v values => cases hlength
  | cons field fields ih =>
      cases values with
      | nil => cases hlength
      | cons v values =>
          have hrest : values.length = fields.length := Nat.succ.inj hlength
          rw [writeFields] at h
          cases hbinding : field.binding with
          | none =>
              rw [hbinding] at h
              obtain ⟨hmap, harrays⟩ := ih hrest h
              refine ⟨?_, harrays⟩
              rw [hmap, leafBindings, leafBindings, List.filterMap_cons_none hbinding]
          | some binding =>
              rw [hbinding] at h
              simp only [bind_eq_ok, pure_eq_ok, Prod.exists, Prod.mk.injEq] at h
              obtain ⟨stored, _, others, last, hothers, rfl, rfl⟩ := h
              obtain ⟨hmap, harrays⟩ := ih hrest hothers
              refine ⟨?_, ?_⟩
              · rw [List.map_cons, hmap, leafBindings, leafBindings,
                  List.filterMap_cons_some hbinding]
              · intro write hmem
                rcases List.mem_cons.mp hmem with rfl | hmem
                · rfl
                · exact harrays write hmem

/-- No member asks a vector to be longer than it was at first, and than any member before asked,
when a member before has selected a leaf inside it. -/
def SelectionsSettle (members : List MessageMember) (payload : Bytes)
    (specs : List BridgeMemberSpec) : Prop :=
  ∀ batches, payloadSelections members payload specs = .ok batches →
    Settled (fun position => initialLength position members) [] batches

/-- **When every write finds its leaf.** For any schema, members, payload and expressions with
which decoding succeeds. -/
theorem decodePayload_live_iff (float : FloatOps) (eval : Evaluators)
    (members : List MessageMember) (payload : Bytes) (specs : List BridgeMemberSpec)
    (format : PayloadFormat) (assignments : List BridgeAssignmentSpec) (decoded : Decoded)
    (h : decodePayload float eval members payload specs format assignments = .ok decoded) :
    (∀ write ∈ decoded.writes, write.message.arrays.Live write.binding.pointer) ↔
      format = .ros2 ∨ SelectionsSettle members payload specs := by
  unfold decodePayload at h
  split at h
  · rename_i hcopied
    cases h
    refine iff_of_true (fun write hmem => by cases hmem) ?_
    refine hcopied.imp_right ?_
    rintro rfl batches hbatches
    simp only [payloadSelections, layoutFrom, bind_eq_ok, pure_eq_ok] at hbatches
    obtain ⟨_, _, _, _, rfl⟩ := hbatches
    intro earlier batch later heq
    simp only [selections, List.nil_eq, List.append_eq_nil_iff, reduceCtorEq, and_false] at heq
  · rename_i hmapped
    simp only [bind_eq_ok, pure_eq_ok, Prod.exists] at h
    obtain ⟨fields, bound, hbind, values, hvalues, writes, written, hwrites, _, _, rfl⟩ := h
    obtain ⟨batches, hbatches, hiff⟩ := bindPayload_live_iff hbind
    have hlength : values.length = fields.length := by
      rw [unpackValues_length hvalues, List.length_map]
    obtain ⟨hmap, harrays⟩ := writeFields_spec hlength hwrites
    have hformat : format ≠ .ros2 := fun hros2 => hmapped (Or.inl hros2)
    have hsettle : SelectionsSettle members payload specs ↔
        Settled (fun position => initialLength position members) [] batches := by
      constructor
      · exact fun hall => hall batches hbatches
      · intro hone batches' hbatches'
        rw [hbatches] at hbatches'
        cases hbatches'
        exact hone
    rw [or_iff_right hformat, hsettle, ← hiff, ← hmap, List.forall_mem_map]
    constructor
    · intro hlive write hmem
      rw [← harrays write hmem]
      exact hlive write hmem
    · intro hlive write hmem
      rw [harrays write hmem]
      exact hlive write hmem

/-- The positions of `geometry_msgs/msg/PoseArray`. -/
def poseArray : List MessageMember :=
  let coordinate := fun (name : String) => MessageMember.mk name (.scalar .float64) .single false none
  let point := [coordinate "x", coordinate "y", coordinate "z"]
  let pose := [MessageMember.mk "position" .message .single false (some point)]
  [.mk "poses" .message (.sequence 0 none) true (some pose)]

def poseDocument (first second : String) : Node :=
  let member := fun (target : String) =>
    Node.map [(.scalar "target", .scalar target), (.scalar "type", .scalar "float64")]
  topicsDocument [.map [(.scalar "export_topic", .scalar "/poses"),
    (.scalar "message_type", .scalar "geometry_msgs/msg/PoseArray"),
    (.scalar "members_encode", .sequence [member first, member second])]]

/-- Conversions of zeros, which is all that is received below. -/
def zeroFloats : FloatOps := ⟨fun _ => 0, fun _ => 0, fun _ => 0, fun _ => 0, fun _ => some 0⟩

def noExpressions : Evaluators :=
  ⟨fun _ _ => .error (.runtimeError "no expression"), fun _ _ => .error (.runtimeError "no expression")⟩

/-- Sixteen zero bytes are decoded by the topics of a document. -/
def decodeZeros (topic : SharedTopicConfig) : Except StdException Decoded :=
  decodePayload zeroFloats noExpressions poseArray (List.replicate 16 0) topic.memberSpecs
    topic.payloadFormat topic.decodeAssignments

def writesLive (decoded : Decoded) : Bool :=
  decoded.writes.all fun write => write.message.arrays.Live write.binding.pointer

/-- The larger index first: both writes find their leaf. -/
theorem decodePayload_live_iff_descending :
    ∃ specs decoded, specs.map BridgeMemberSpec.target =
        ["poses[1].position.x", "poses[0].position.x"] ∧
      decodePayload zeroFloats noExpressions poseArray (List.replicate 16 0) specs .struct [] =
        .ok decoded ∧ decoded.writes.length = 2 ∧
      SelectionsSettle poseArray (List.replicate 16 0) specs := by
  let specs : List BridgeMemberSpec :=
    [⟨"poses[1].position.x", "float64", ""⟩, ⟨"poses[0].position.x", "float64", ""⟩]
  have hrun : (decodePayload zeroFloats noExpressions poseArray (List.replicate 16 0) specs .struct
      []).toOption.any (fun decoded => decoded.writes.length == 2 && writesLive decoded) = true := by
    decide +kernel
  obtain ⟨decoded, hdecoded, hwrites⟩ := exists_ok_of_any hrun
  simp only [Bool.and_eq_true, beq_iff_eq, writesLive, List.all_eq_true, decide_eq_true_eq] at hwrites
  have hsettle := (decodePayload_live_iff _ _ _ _ _ _ _ _ hdecoded).mp hwrites.2
  exact ⟨specs, decoded, rfl, hdecoded, hwrites.1, hsettle.resolve_left (by decide)⟩

/-- The smaller index first: collecting the second pose moves the first, and the first value is
written to where it was. -/
theorem decodePayload_stale :
    ¬ ∀ (regexMatch : String → String → Bool) (doc : Node) (hostname pattern : String)
      (cfg : NodeConfig), parseNodeConfig regexMatch doc hostname pattern = .ok cfg →
        ∀ topic ∈ cfg.sharedTopics, ∀ (float : FloatOps) (eval : Evaluators)
          (members : List MessageMember) (payload : Bytes) (decoded : Decoded),
          decodePayload float eval members payload topic.memberSpecs topic.payloadFormat
            topic.decodeAssignments = .ok decoded →
          ∀ write ∈ decoded.writes, write.message.arrays.Live write.binding.pointer := by
  intro hclaim
  have hrun : (loadOn (poseDocument "poses[0].position.x" "poses[1].position.x")).toOption.any
      (fun cfg => cfg.sharedTopics.any fun topic =>
        (decodeZeros topic).toOption.any fun decoded => !writesLive decoded) = true := by
    decide +kernel
  obtain ⟨cfg, hcfg, htopics⟩ := exists_ok_of_any hrun
  obtain ⟨topic, htopic, hdecode⟩ := List.any_eq_true.mp htopics
  obtain ⟨decoded, hdecoded, hstale⟩ := exists_ok_of_any hdecode
  have hlive : writesLive decoded = true := by
    simp only [writesLive, List.all_eq_true, decide_eq_true_eq]
    exact hclaim _ _ _ _ cfg hcfg topic htopic _ _ _ _ decoded hdecoded
  rw [hlive] at hstale
  cases hstale

end UavBluetooth.Bridge
