import UavBluetooth.Bridge.Recollection

set_option autoImplicit false

/-! # Round trips of messages

A payload that `encode_payload` makes of a message is decoded to a message with the same leaves
(`decodePayload_encodePayload`): the layout of the members accepts its length, the leaves of the
encoder are bound again, and each wire value gives its leaf the value that it was made from. A
new message has the default lengths of its vectors, which nothing shortens.
-/

namespace UavBluetooth.Bridge

open Config Fallible Relocation

/-! ## The values of leaves -/

/-- The wire type takes every value of the leaf. -/
def carries : RosType → ScalarType → Bool
  | .scalar .bool, .bool => true
  | .scalar .bool, .integer _ => true
  | .scalar (.integer _), .integer _ => true
  | .scalar .float32, .float32 => true
  | .scalar .float32, .float64 => true
  | .scalar .float64, .float64 => true
  | _, _ => false

/-- The value of the leaf at a position. -/
def MessageInstance.leafAt (message : MessageInstance) (members : List MessageMember)
    (position : Position) : ScalarValue :=
  match (fieldAt position members).map MessageMember.type with
  | some (.scalar type) => message.read type position
  | _ => .bool false

section

variable {float : FloatOps} {message : MessageInstance} {members : List MessageMember}
  {spec : BridgeMemberSpec} {binding : ConstLeafBinding} {member : MessageMember}
  {position : Position} {type wire : ScalarType} {v : ScalarValue}

theorem MessageInstance.leafAt_eq (hfield : fieldAt position members = some member)
    (htype : member.type = .scalar type) :
    message.leafAt members position = message.read type position := by
  simp [MessageInstance.leafAt, hfield, htype]

/-- A leaf has a value of its type, also when it was not written. -/
theorem MessageInstance.Conforms.type_read (h : message.Conforms members)
    (hfield : fieldAt position members = some member) (htype : member.type = .scalar type) :
    (message.read type position).type = type := by
  unfold MessageInstance.read
  cases hleaf : message.leaves position with
  | none => exact type.type_ofBytes _
  | some v =>
      have hv := h.typed position v member hleaf hfield
      rw [htype] at hv
      exact (RosType.scalar.inj hv).symm

theorem readInteger_scalar (htype : member.type = .scalar type) :
    readInteger message member position =
      .ok (coerceIncomingInteger (message.read type position)) := by
  simp only [readInteger, leafType, htype]
  rfl

theorem readNumeric_scalar (htype : member.type = .scalar type) :
    readNumeric float message member position =
      .ok (coerceIncoming float (message.read type position)) := by
  simp only [readNumeric, leafType, htype]
  rfl

/-- What is made of the value of a leaf for the wire. -/
def encodeValue (float : FloatOps) (spec : BridgeMemberSpec) (x : ScalarValue) :
    Except StdException ScalarValue :=
  match coerceIncomingInteger x with
  | some n => coerceOutgoingInteger float n spec
  | none => coerceOutgoing float (coerceIncoming float x) spec

theorem encodeLeaf_scalar (htype : binding.member.type = .scalar type) :
    encodeLeaf float message spec binding =
      encodeValue float spec (message.read type binding.position) := by
  unfold encodeLeaf encodeValue
  rw [readInteger_scalar htype, readNumeric_scalar htype]
  cases coerceIncomingInteger (message.read type binding.position) <;> rfl

theorem encodeValue_coerced {x : ScalarValue} (h : encodeValue float spec x = .ok v) :
    Coerced float v spec := by
  unfold encodeValue at h
  split at h
  · exact Or.inr ⟨_, h⟩
  · exact Or.inl ⟨_, h⟩

/-- **A leaf survives the wire**, if narrowing a widened float gives the float back. -/
theorem decodeLeaf_encodeValue (hfloat : ∀ bits, float.narrow (float.widen bits) = bits)
    {x : ScalarValue} (htype : member.type = .scalar x.type)
    (hwire : scalarType? spec.valueType = some wire) (hcarries : carries member.type wire = true)
    (h : encodeValue float spec x = .ok v) : decodeLeaf float member v = .ok x := by
  rw [htype] at hcarries
  cases x with
  | bool b =>
      rw [ScalarValue.type] at htype hcarries
      have hwrite : ∀ n : Int, n = (if b = true then 1 else 0) →
          writeInteger float member n = .ok (.bool b) := by
        rintro n rfl
        simp only [writeInteger, leafType, htype]
        cases b <;> rfl
      cases wire with
      | bool =>
          simp only [encodeValue, coerceIncomingInteger, coerceOutgoingInteger, hwire] at h
          cases h
          cases b <;> exact hwrite _ rfl
      | integer wire =>
          simp only [encodeValue, coerceIncomingInteger] at h
          obtain ⟨_, rfl⟩ := (coerceOutgoingInteger_eq hwire).mp h
          exact hwrite _ rfl
      | float32 | float64 => cases hcarries
  | integer type n hrange =>
      rw [ScalarValue.type] at htype hcarries
      cases wire with
      | integer wire =>
          simp only [encodeValue, coerceIncomingInteger] at h
          obtain ⟨_, rfl⟩ := (coerceOutgoingInteger_eq hwire).mp h
          simp only [decodeLeaf, coerceIncomingInteger, writeInteger, leafType, htype]
          exact narrow_eq_ok.mpr ⟨hrange, rfl⟩
      | bool | float32 | float64 => cases hcarries
  | float bits =>
      rw [ScalarValue.type] at htype hcarries
      have hwrite : ∀ d, d = float.widen bits → writeNumeric float member d = .ok (.float bits) := by
        rintro d rfl
        simp only [writeNumeric, leafType, htype]
        exact congrArg (fun b => Except.ok (ScalarValue.float b)) (hfloat bits)
      cases wire with
      | float32 =>
          simp only [encodeValue, coerceIncomingInteger, coerceOutgoing, hwire, coerceIncoming,
            hfloat] at h
          cases h
          exact hwrite _ rfl
      | float64 =>
          simp only [encodeValue, coerceIncomingInteger, coerceOutgoing, hwire, coerceIncoming] at h
          cases h
          exact hwrite _ rfl
      | bool | integer _ => cases hcarries
  | double bits =>
      rw [ScalarValue.type] at htype hcarries
      cases wire with
      | float64 =>
          simp only [encodeValue, coerceIncomingInteger, coerceOutgoing, hwire, coerceIncoming] at h
          cases h
          simp only [decodeLeaf, coerceIncomingInteger, coerceIncoming, writeNumeric, leafType, htype]
          rfl
      | bool | integer _ | float32 => cases hcarries

end

/-- Writing values that decode to what a function says of their leaves. -/
theorem writeFields_restores {float : FloatOps} {leaf : Position → ScalarValue}
    {fields : List WireField} {values : List ScalarValue}
    (h : List.Forall₂ (fun field v => ∃ binding, field.binding = some binding ∧
      decodeLeaf float binding.member v = .ok (leaf binding.pointer.path)) fields values)
    (message : MessageInstance) :
    ∃ writes result, writeFields float fields values message = .ok (writes, result) ∧
      result.arrays = message.arrays ∧
      (∀ p, message.leaves p = some (leaf p) → result.leaves p = some (leaf p)) ∧
      ∀ field ∈ fields, ∀ binding, field.binding = some binding →
        result.leaves binding.pointer.path = some (leaf binding.pointer.path) := by
  induction h generalizing message with
  | nil => exact ⟨[], message, rfl, rfl, fun p hp => hp, fun field hmem => by cases hmem⟩
  | @cons field v fields values hfield _ ih =>
      obtain ⟨binding, hbinding, hdecode⟩ := hfield
      obtain ⟨writes, result, hwrites, harrays, hkept, hrest⟩ :=
        ih (message.write binding.pointer.path (leaf binding.pointer.path))
      -- A later write to the same leaf writes the same value.
      have hwritten : result.leaves binding.pointer.path = some (leaf binding.pointer.path) := by
        refine hkept _ ?_
        rw [MessageInstance.write]
        exact Function.update_self _ _ _
      refine ⟨⟨binding, message⟩ :: writes, result, ?_, harrays, fun p hp => ?_, ?_⟩
      · rw [writeFields, hbinding]
        simp only [bind_eq_ok, pure_eq_ok, Prod.exists]
        exact ⟨_, hdecode, writes, result, hwrites, rfl⟩
      · by_cases hsame : p = binding.pointer.path
        · rw [hsame, hwritten]
        · refine hkept p ?_
          rw [MessageInstance.write]
          exact (Function.update_of_ne hsame _ _).trans hp
      · intro other hother found hfound
        rcases List.mem_cons.mp hother with rfl | hother
        · rw [hbinding] at hfound
          cases hfound
          exact hwritten
        · exact hrest other hother found hfound

/-! ## Member by member -/

/-- The member gives a leaf of the message, as it is, to the wire. -/
def direct (members : List MessageMember) (spec : BridgeMemberSpec) : Bool :=
  spec.expression = "" &&
    match parseMemberPath spec.target with
    | .error _ => true
    | .ok path =>
        match leafMember path members, scalarType? spec.valueType with
        | some leaf, some wire => carries leaf.type wire
        | _, _ => false

/-- The member selects a vector up to its end. -/
def openSpec (members : List MessageMember) (spec : BridgeMemberSpec) : Bool :=
  match parseMemberPath spec.target with
  | .error _ => false
  | .ok path => openEnded path members

def plainSpec (members : List MessageMember) (spec : BridgeMemberSpec) : Bool :=
  match parseMemberPath spec.target with
  | .error _ => true
  | .ok path => plain path members

/-- What a member has selected from a message, with the values for the wire. -/
structure Selection where
  spec : BridgeMemberSpec
  path : List PathSegment
  bindings : List ConstLeafBinding
  values : List ScalarValue

structure Selection.Encoded (float : FloatOps) (members : List MessageMember)
    (message : MessageInstance) (s : Selection) : Prop where
  path : parseMemberPath s.spec.target = .ok s.path
  bindings : collectConstLeafBindings message s.path members [] = .ok s.bindings
  values : List.Forall₂ (fun binding v => encodeLeaf float message s.spec binding = .ok v)
    s.bindings s.values

/-- The values of the selection, each with its specification. -/
def Selection.wires (s : Selection) : List (ScalarValue × BridgeMemberSpec) :=
  s.values.map fun v => (v, s.spec)

/-- The bytes that the selection takes up. -/
def Selection.bytes (s : Selection) : Nat := s.bindings.length * wireSize s.spec

section

variable {float : FloatOps} {eval : Evaluators} {members : List MessageMember}
  {message : MessageInstance} {spec : BridgeMemberSpec}

theorem encodeSpec_direct {wires : List (ScalarValue × BridgeMemberSpec)}
    (hexpr : spec.expression = "") (h : encodeSpec float eval members message spec = .ok wires) :
    ∃ s : Selection, s.spec = spec ∧ s.Encoded float members message ∧ wires = s.wires := by
  rw [encodeSpec, if_neg (not_not_intro hexpr)] at h
  simp only [bind_eq_ok] at h
  obtain ⟨path, hpath, bindings, hbindings, hwires⟩ := h
  rw [mapM_eq_ok] at hwires
  simp only [bind_eq_ok, pure_eq_ok] at hwires
  have hvalues : ∃ values, List.Forall₂ (fun binding v =>
      encodeLeaf float message spec binding = .ok v) bindings values ∧
        wires = values.map fun v => (v, spec) := by
    clear hbindings
    induction hwires with
    | nil => exact ⟨[], .nil, rfl⟩
    | cons hwire _ ih =>
        obtain ⟨v, hv, rfl⟩ := hwire
        obtain ⟨values, hvalues, rfl⟩ := ih
        exact ⟨v :: values, .cons hv hvalues, rfl⟩
  obtain ⟨values, hvalues, rfl⟩ := hvalues
  exact ⟨⟨spec, path, bindings, values⟩, rfl, ⟨hpath, hbindings, hvalues⟩, rfl⟩

/-- **What an encoded payload is made of.** -/
theorem encodeFields_direct {specs : List BridgeMemberSpec} {payload : Bytes}
    (hexpr : ∀ spec ∈ specs, spec.expression = "")
    (h : encodeFields float eval members message specs = .ok payload) :
    ∃ selections : List Selection, selections.map Selection.spec = specs ∧
      (∀ s ∈ selections, s.Encoded float members message) ∧
      encodeStructPayload ((selections.flatMap Selection.wires).map Prod.fst)
        ((selections.flatMap Selection.wires).map Prod.snd) = .ok payload := by
  simp only [encodeFields, bind_eq_ok] at h
  obtain ⟨groups, hgroups, h⟩ := h
  rw [mapM_eq_ok] at hgroups
  have hselections : ∃ selections : List Selection, selections.map Selection.spec = specs ∧
      (∀ s ∈ selections, s.Encoded float members message) ∧
      groups.flatten = selections.flatMap Selection.wires := by
    clear h
    induction hgroups with
    | nil => exact ⟨[], rfl, (fun s hs => by cases hs), rfl⟩
    | @cons spec wires specs groups hwires _ ih =>
        obtain ⟨s, rfl, hs, rfl⟩ := encodeSpec_direct (hexpr spec List.mem_cons_self) hwires
        obtain ⟨rest, rfl, hrest, hflatten⟩ :=
          ih (fun spec hspec => hexpr spec (List.mem_cons_of_mem _ hspec))
        refine ⟨s :: rest, rfl, List.forall_mem_cons.mpr ⟨hs, hrest⟩, ?_⟩
        rw [List.flatten_cons, List.flatMap_cons, hflatten]
  obtain ⟨selections, hspecs, hencoded, hflatten⟩ := hselections
  rw [hflatten] at h
  exact ⟨selections, hspecs, hencoded, h⟩

variable {s : Selection} {selections : List Selection}

/-- The member of an encoded selection and the wire type that takes its leaves. -/
theorem Selection.Encoded.carried (h : s.Encoded float members message)
    (hdirect : direct members s.spec = true) :
    ∃ leaf wire, leafMember s.path members = some leaf ∧
      scalarType? s.spec.valueType = some wire ∧ carries leaf.type wire = true := by
  unfold direct at hdirect
  rw [h.path] at hdirect
  simp only [Bool.and_eq_true] at hdirect
  obtain ⟨_, hcarries⟩ := hdirect
  split at hcarries
  · rename_i leaf wire hleaf hwire
    exact ⟨leaf, wire, hleaf, hwire, hcarries⟩
  · cases hcarries

theorem carries_scalar {type : RosType} {wire : ScalarType} (h : carries type wire = true) :
    ∃ scalar, type = .scalar scalar := by
  cases type with
  | scalar scalar => exact ⟨scalar, rfl⟩
  | text => cases h
  | message => cases h

/-- Each wire value is for the specification and gives its leaf back. -/
theorem Selection.Encoded.restores (h : s.Encoded float members message)
    (hfloat : ∀ bits, float.narrow (float.widen bits) = bits)
    (hconforms : message.Conforms members) (hdirect : direct members s.spec = true) :
    List.Forall₂ (fun binding v => Typed v s.spec ∧
      decodeLeaf float binding.member v = .ok (message.leafAt members binding.position))
      s.bindings s.values := by
  obtain ⟨leaf, wire, hleaf, hwire, hcarries⟩ := h.carried hdirect
  obtain ⟨type, htype⟩ := carries_scalar hcarries
  have hleaves := collectConst_leaf (opens_root members) h.bindings
  refine List.forall₂_iff_get.mpr ⟨h.values.length_eq, fun k hk hk' => ?_⟩
  have hv := (List.forall₂_iff_get.mp h.values).2 k hk hk'
  obtain ⟨hmember, hfield⟩ := hleaves _ (List.get_mem s.bindings ⟨k, hk⟩)
  rw [hleaf] at hmember
  have hsame := Option.some.inj hmember
  rw [hsame] at htype hcarries
  rw [encodeLeaf_scalar htype] at hv
  refine ⟨(encodeValue_coerced hv).typed, ?_⟩
  rw [message.leafAt_eq hfield htype]
  exact decodeLeaf_encodeValue hfloat
    (by rw [hconforms.type_read hfield htype]; exact htype) hwire hcarries hv

end

/-! ## The layout of an encoded payload -/

/-- The selection is of a vector up to its end. -/
def isOpen (members : List MessageMember) (s : Selection) : Bool := openEnded s.path members

/-- Where the open-ended member is, and the width of its values. -/
def openAt (members : List MessageMember) : Nat → List Selection → Option (Nat × Nat)
  | _, [] => none
  | index, s :: rest =>
      if isOpen members s then some (index, wireSize s.spec) else openAt members (index + 1) rest

/-- The bytes of the members of known count. -/
def fixedBytes (members : List MessageMember) : List Selection → Nat
  | [] => 0
  | s :: rest => (if isOpen members s then 0 else s.bytes) + fixedBytes members rest

/-- The number of leaves of the open-ended member. -/
def openLength (members : List MessageMember) (selections : List Selection) : Option Nat :=
  (selections.find? (isOpen members)).map fun s => s.bindings.length

section

variable {float : FloatOps} {members : List MessageMember} {message : MessageInstance}
  {s : Selection} {selections : List Selection}

theorem openAt_ge {index i width : Nat} (h : openAt members index selections = some (i, width)) :
    index ≤ i := by
  induction selections generalizing index with
  | nil => cases h
  | cons s rest ih =>
      rw [openAt] at h
      split at h
      · cases h
        exact Nat.le_refl _
      · have hle := ih h
        omega

/-- Behind an open-ended member there is none. -/
theorem closed_of_countP (hs : isOpen members s = true)
    (h : (s :: selections).countP (isOpen members) ≤ 1) :
    ∀ other ∈ selections, isOpen members other = false := by
  rw [List.countP_cons_of_pos hs] at h
  have hnone := List.countP_eq_zero.mp (by omega : selections.countP (isOpen members) = 0)
  exact fun other hother => by simpa using hnone other hother

theorem closed_facts (h : ∀ s ∈ selections, isOpen members s = false) (index : Nat) :
    openAt members index selections = none ∧ openLength members selections = none ∧
      fixedBytes members selections = (selections.map Selection.bytes).sum := by
  induction selections generalizing index with
  | nil => exact ⟨rfl, rfl, rfl⟩
  | cons s rest ih =>
      obtain ⟨hs, hrest⟩ := List.forall_mem_cons.mp h
      obtain ⟨hat, hlength, hbytes⟩ := ih hrest (index + 1)
      refine ⟨?_, ?_, ?_⟩
      · rw [openAt, hs, if_neg Bool.false_ne_true, hat]
      · rw [openLength, List.find?_cons_of_neg (by simp [hs])]
        exact hlength
      · rw [fixedBytes, hs, if_neg Bool.false_ne_true, hbytes, List.map_cons, List.sum_cons]

theorem Selection.Encoded.count (h : s.Encoded float members message)
    (hexpr : s.spec.expression = "") (hplain : plain s.path members = true)
    (hfits : s.bindings.length < kDynamicBindingCount) :
    bindingCount members s.spec = .ok
      (if isOpen members s then kDynamicBindingCount else s.bindings.length) := by
  rw [bindingCount, if_pos hexpr]
  exact bind_eq_ok.mpr ⟨s.path, h.path, selectionCount_of_const hplain h.bindings hfits⟩

/-- **The layout counts the encoded members.** -/
theorem layoutFrom_encoded
    (hcount : ∀ s ∈ selections, bindingCount members s.spec = .ok
      (if isOpen members s then kDynamicBindingCount else s.bindings.length))
    (hfits : ∀ s ∈ selections, s.bindings.length < kDynamicBindingCount)
    (hopen : selections.countP (isOpen members) ≤ 1) (index : Nat) (start : Layout)
    (hstart : start.dynamicSpec.isSome → ∀ s ∈ selections, isOpen members s = false)
    (hbytes : start.fixedBytes + fixedBytes members selections < 2 ^ 64) :
    layoutFrom members index (selections.map Selection.spec) start = .ok
      ⟨start.fixedBytes + fixedBytes members selections,
        start.dynamicSpec.or (openAt members index selections)⟩ := by
  induction selections generalizing index start with
  | nil =>
      rw [List.map_nil, layoutFrom, openAt, Option.or_none]
      rfl
  | cons s rest ih =>
      obtain ⟨hs, hrest⟩ := List.forall_mem_cons.mp hcount
      obtain ⟨hsmall, hsmalls⟩ := List.forall_mem_cons.mp hfits
      rw [List.map_cons, layoutFrom]
      refine bind_eq_ok.mpr ⟨_, hs, ?_⟩
      cases hkind : isOpen members s with
      | true =>
          have hclosed := closed_of_countP hkind hopen
          have hnone : start.dynamicSpec = none := by
            cases hspec : start.dynamicSpec with
            | none => rfl
            | some first =>
                have hfalse := hstart (by rw [hspec]; rfl) s List.mem_cons_self
                rw [hkind] at hfalse
                cases hfalse
          simp only [fixedBytes, hkind, if_true, Nat.zero_add] at hbytes
          simp only [fixedBytes, openAt, hkind, if_true, Nat.zero_add, hnone, Option.none_or,
            bind_eq_ok, require_eq_ok]
          have hlayout := ih hrest hsmalls (by
            rw [List.countP_eq_zero.mpr (fun other hother => by simp [hclosed other hother])]
            omega) (index + 1) { start with dynamicSpec := some (index, wireSize s.spec) }
            (fun _ => hclosed) hbytes
          exact ⟨(), rfl, hlayout⟩
      | false =>
          rw [fixedBytes, hkind, if_neg Bool.false_ne_true] at hbytes ⊢
          rw [if_neg Bool.false_ne_true, openAt, hkind, if_neg Bool.false_ne_true,
            if_neg hsmall.ne]
          have hstep : (start.fixedBytes + s.bindings.length * wireSize s.spec) % 2 ^ 64 =
              start.fixedBytes + s.bytes := by
            refine Nat.mod_eq_of_lt ?_
            rw [Selection.bytes] at hbytes
            omega
          rw [hstep, ← Nat.add_assoc]
          rw [List.countP_cons_of_neg (by simp [hkind])] at hopen
          exact ih hrest hsmalls hopen (index + 1)
            { start with fixedBytes := start.fixedBytes + s.bytes }
            (fun hsome other hother => hstart hsome other (List.mem_cons_of_mem _ hother))
            (by dsimp only; omega)

/-- The bytes are those of the members of known count and of the open-ended one. -/
theorem sum_bytes (hopen : selections.countP (isOpen members) ≤ 1) (index : Nat) :
    (openAt members index selections = none ∧ openLength members selections = none ∧
        (selections.map Selection.bytes).sum = fixedBytes members selections) ∨
      ∃ s ∈ selections, ∃ i, openAt members index selections = some (i, wireSize s.spec) ∧
        openLength members selections = some s.bindings.length ∧
        (selections.map Selection.bytes).sum = fixedBytes members selections + s.bytes := by
  induction selections generalizing index with
  | nil => exact Or.inl ⟨rfl, rfl, rfl⟩
  | cons s rest ih =>
      rw [List.map_cons, List.sum_cons]
      cases hkind : isOpen members s with
      | true =>
          obtain ⟨_, _, hbytes⟩ := closed_facts (closed_of_countP hkind hopen) (index + 1)
          refine Or.inr ⟨s, List.mem_cons_self, index, ?_, ?_, ?_⟩
          · rw [openAt, hkind, if_pos rfl]
          · rw [openLength, List.find?_cons_of_pos hkind, Option.map_some]
          · rw [fixedBytes, hkind, if_pos rfl, hbytes]
            omega
      | false =>
          rw [List.countP_cons_of_neg (by simp [hkind])] at hopen
          have hat : openAt members index (s :: rest) = openAt members (index + 1) rest := by
            rw [openAt, hkind, if_neg Bool.false_ne_true]
          have hlength : openLength members (s :: rest) = openLength members rest := by
            rw [openLength, List.find?_cons_of_neg (by simp [hkind]), openLength]
          have hfixed : fixedBytes members (s :: rest) = s.bytes + fixedBytes members rest := by
            rw [fixedBytes, hkind, if_neg Bool.false_ne_true]
          rw [hat, hlength, hfixed]
          rcases ih hopen (index + 1) with ⟨hnone, hnone', hsum⟩ | ⟨o, ho, i, hsome, hsome', hsum⟩
          · exact Or.inl ⟨hnone, hnone', by rw [hsum]⟩
          · exact Or.inr ⟨o, List.mem_cons_of_mem _ ho, i, hsome, hsome', by omega⟩

/-- The payload has room for the leaves that the source has. -/
theorem dynamicCount_encoded (hopen : selections.countP (isOpen members) ≤ 1)
    (hwire : ∀ s ∈ selections, wireSize s.spec ≠ 0) :
    Layout.dynamicCount ⟨fixedBytes members selections, openAt members 0 selections⟩
      (selections.map Selection.bytes).sum = .ok (openLength members selections) := by
  unfold Layout.dynamicCount
  rcases sum_bytes hopen 0 with ⟨hat, hlength, hsum⟩ | ⟨s, hs, i, hat, hlength, hsum⟩
  · rw [hsum, hlength]
    simp only [hat, bind_eq_ok, require_eq_ok, decide_eq_true_eq, pure_eq_ok]
    exact ⟨(), trivial, trivial⟩
  · have hpos := hwire s hs
    rw [hsum, hlength]
    simp only [hat, bind_eq_ok, require_eq_ok, decide_eq_true_eq, Bool.and_eq_true, pure_eq_ok,
      Nat.add_sub_cancel_left, Selection.bytes, Nat.mul_mod_left, and_true, Option.some.injEq]
    exact ⟨(), decide_eq_true (Nat.le_add_right _ _), (), hpos,
      Nat.mul_div_cancel s.bindings.length (Nat.pos_of_ne_zero hpos)⟩

/-- Each member is collected with the number of leaves that the source has. -/
theorem countAt_encoded (hopen : selections.countP (isOpen members) ≤ 1) (index fixed : Nat) {i : Nat}
    (hs : selections[i]? = some s) :
    Layout.countAt ⟨fixed, openAt members index selections⟩ (openLength members selections)
      (index + i) = if isOpen members s then some s.bindings.length else none := by
  induction selections generalizing index i with
  | nil => cases hs
  | cons first rest ih =>
      cases hkind : isOpen members first with
      | true =>
          have hclosed := closed_of_countP hkind hopen
          rw [openLength, List.find?_cons_of_pos hkind, openAt, hkind, if_pos rfl]
          cases i with
          | zero =>
              obtain rfl : first = s := by simpa using hs
              rw [hkind, if_pos rfl, Layout.countAt]
              exact if_pos rfl
          | succ i =>
              rw [hclosed s (List.mem_of_getElem? (by simpa using hs)), if_neg Bool.false_ne_true,
                Layout.countAt]
              exact if_neg (by omega)
      | false =>
          rw [List.countP_cons_of_neg (by simp [hkind])] at hopen
          rw [openLength, List.find?_cons_of_neg (by simp [hkind]), openAt, hkind,
            if_neg Bool.false_ne_true]
          cases i with
          | zero =>
              obtain rfl : first = s := by simpa using hs
              rw [hkind, if_neg Bool.false_ne_true, Layout.countAt]
              dsimp only
              split
              · rename_i i width hat
                have hge := openAt_ge hat
                exact if_neg (by omega)
              · rfl
          | succ i =>
              have hrest := ih hopen (index + 1) (i := i) (by simpa using hs)
              rw [← hrest, openLength]
              congr 1
              omega

end

/-! ## Binding the members again -/

/-- What the decoder has bound for the selections of the encoder. -/
structure Rebound (float : FloatOps) (members : List MessageMember) (message : MessageInstance)
    (selections : List Selection) (fields : List WireField) (before after : MessageInstance) :
    Prop where
  follows : Regrown message before after
  values : List.Forall₂ (fun (field : WireField) (wire : ScalarValue × BridgeMemberSpec) =>
    field.spec = wire.2 ∧ ∃ binding, field.binding = some binding ∧
      decodeLeaf float binding.member wire.1 =
        .ok (message.leafAt members binding.pointer.path)) fields (selections.flatMap Selection.wires)
  found : ∀ s ∈ selections, ∀ binding ∈ s.bindings, ∃ field ∈ fields, ∃ bound : MutableLeafBinding,
    field.binding = some bound ∧ bound.pointer.path = binding.position
  holds : ∀ s ∈ selections, ∀ binding ∈ s.bindings,
    after.Holds (s.path.map PathSegment.name) members [] binding.position
  whole : ∀ s ∈ selections, isOpen members s = true → (s.path.all (·.selector = .absent)) = true →
    message.arrays.length (fieldPosition s.path) ≤ after.arrays.length (fieldPosition s.path)

section

variable {float : FloatOps} {members : List MessageMember} {message : MessageInstance}
  {s : Selection} {selections : List Selection}

/-- One member. -/
theorem bindSpec_encoded (h : s.Encoded float members message)
    (hfloat : ∀ bits, float.narrow (float.widen bits) = bits)
    (hconforms : message.Conforms members) (hdirect : direct members s.spec = true)
    (hplain : plain s.path members = true) (dest : MessageInstance) :
    ∃ fields after, bindSpec members
        (if isOpen members s then some s.bindings.length else none) s.spec dest =
          .ok (fields, after) ∧ Rebound float members message [s] fields dest after := by
  obtain ⟨collected, after, hcollect, hcollected⟩ := collectMutableLeafBindings_follows
    (opens_root members) hconforms hplain rfl h.bindings dest
  have hexpr : s.spec.expression = "" := by
    unfold direct at hdirect
    simp only [Bool.and_eq_true, decide_eq_true_eq] at hdirect
    exact hdirect.1
  refine ⟨collected.map fun binding => ⟨s.spec, some binding⟩, after, ?_, hcollected.follows,
    ?_, ?_, ?_, ?_⟩
  · rw [bindSpec, if_neg (not_not_intro hexpr)]
    simp only [bind_eq_ok, pure_eq_ok, Prod.exists]
    exact ⟨s.path, h.path, collected, after, hcollect, rfl⟩
  · rw [List.flatMap_singleton, Selection.wires, List.forall₂_map_left_iff,
      List.forall₂_map_right_iff]
    refine forall₂_of_common ?_ hcollected.same (h.restores hfloat hconforms hdirect)
    rintro binding found v ⟨hmember, hposition⟩ ⟨_, hdecode⟩
    refine ⟨rfl, found, rfl, ?_⟩
    rw [hmember, hposition]
    exact hdecode
  · intro other hother binding hbinding
    rw [List.mem_singleton.mp hother] at hbinding
    obtain ⟨k, hk, rfl⟩ := List.mem_iff_getElem.mp hbinding
    have hlength := hcollected.same.length_eq
    obtain ⟨_, hposition⟩ := (List.forall₂_iff_get.mp hcollected.same).2 k hk (hlength ▸ hk)
    exact ⟨_, List.mem_map_of_mem (List.get_mem collected ⟨k, hlength ▸ hk⟩), _, rfl, hposition⟩
  · intro other hother binding hbinding
    rw [List.mem_singleton.mp hother] at hbinding ⊢
    exact hcollected.holds binding hbinding
  · intro other hother hopen habsent
    rw [List.mem_singleton.mp hother] at hopen habsent ⊢
    exact hcollected.whole hopen habsent

/-- What is bound for one member stays bound when others follow. -/
theorem Rebound.cons {fields others : List WireField} {dest next after : MessageInstance}
    (h : Rebound float members message [s] fields dest next)
    (h' : Rebound float members message selections others next after) :
    Rebound float members message (s :: selections) (fields ++ others) dest after := by
  refine ⟨h.follows.trans h'.follows, ?_, ?_, ?_, ?_⟩
  · rw [List.flatMap_cons]
    refine List.rel_append ?_ h'.values
    simpa only [List.flatMap_singleton] using h.values
  · intro other hother binding hbinding
    rcases List.mem_cons.mp hother with rfl | hother
    · obtain ⟨field, hfield, hbound⟩ := h.found other List.mem_cons_self binding hbinding
      exact ⟨field, List.mem_append_left _ hfield, hbound⟩
    · obtain ⟨field, hfield, hbound⟩ := h'.found other hother binding hbinding
      exact ⟨field, List.mem_append_right _ hfield, hbound⟩
  · intro other hother binding hbinding
    rcases List.mem_cons.mp hother with rfl | hother
    · exact h'.follows.grows.holds (h.holds other List.mem_cons_self binding hbinding)
    · exact h'.holds other hother binding hbinding
  · intro other hother hopen habsent
    rcases List.mem_cons.mp hother with rfl | hother
    · exact (h.whole other List.mem_cons_self hopen habsent).trans (h'.follows.grows _)
    · exact h'.whole other hother hopen habsent

/-- **The decoder binds the leaves of the encoder.** -/
theorem bindSpecs_encoded (hencoded : ∀ s ∈ selections, s.Encoded float members message)
    (hfloat : ∀ bits, float.narrow (float.widen bits) = bits)
    (hconforms : message.Conforms members)
    (hdirect : ∀ s ∈ selections, direct members s.spec = true)
    (hplain : ∀ s ∈ selections, plain s.path members = true) {countAt : Nat → Option Nat}
    (index : Nat) (hcount : ∀ i s, selections[i]? = some s →
      countAt (index + i) = if isOpen members s then some s.bindings.length else none)
    (dest : MessageInstance) :
    ∃ fields after, bindSpecs members countAt index (selections.map Selection.spec) dest =
        .ok (fields, after) ∧ Rebound float members message selections fields dest after := by
  induction selections generalizing index dest with
  | nil =>
      refine ⟨[], dest, rfl, .refl message dest, .nil, ?_, ?_, ?_⟩ <;>
        · intro s hs
          cases hs
  | cons s rest ih =>
      obtain ⟨hs, hrest⟩ := List.forall_mem_cons.mp hencoded
      obtain ⟨hd, hdirects⟩ := List.forall_mem_cons.mp hdirect
      obtain ⟨hp, hplains⟩ := List.forall_mem_cons.mp hplain
      obtain ⟨fields, next, hfirst, hbound⟩ := bindSpec_encoded hs hfloat hconforms hd hp dest
      obtain ⟨others, after, hothers, hbounds⟩ := ih hrest hdirects hplains (index + 1)
        (fun i s hi => by
          rw [Nat.add_assoc, Nat.add_comm 1 i]
          exact hcount (i + 1) s (by simpa using hi)) next
      refine ⟨fields ++ others, after, ?_, hbound.cons hbounds⟩
      rw [List.map_cons, bindSpecs]
      simp only [bind_eq_ok, pure_eq_ok, Prod.exists]
      have hat := hcount 0 s rfl
      rw [Nat.add_zero] at hat
      rw [hat]
      exact ⟨fields, next, hfirst, others, after, hothers, rfl⟩

end

/-! ## The round trip -/

/-- The decoded message has the leaves that the members select from the message, with their
values there, and the vectors that are selected as a whole have these lengths. -/
structure Restores (members : List MessageMember) (specs : List BridgeMemberSpec)
    (message result : MessageInstance) (length : Position → Nat) : Prop where
  leaves : ∀ spec ∈ specs, ∀ path bindings, parseMemberPath spec.target = .ok path →
    collectConstLeafBindings message path members [] = .ok bindings → ∀ binding ∈ bindings,
      result.Holds (path.map PathSegment.name) members [] binding.position ∧
        ∀ type, binding.member.type = .scalar type →
          result.read type binding.position = message.read type binding.position
  lengths : ∀ spec ∈ specs, ∀ path, parseMemberPath spec.target = .ok path →
    openEnded path members = true → (path.all (·.selector = .absent)) = true →
      result.arrays.length (fieldPosition path) = length (fieldPosition path)

/-- The length of a vector that a new message has been grown to for its source. -/
def grownLength (members : List MessageMember) (message : MessageInstance) (p : Position) : Nat :=
  max (initialLength p members) (message.arrays.length p)

/-- Decoding accepts the payload and restores the message that it was encoded from. -/
def RoundTrips (float : FloatOps) (eval : Evaluators) (members : List MessageMember)
    (payload : Bytes) (specs : List BridgeMemberSpec) (message : MessageInstance)
    (length : Position → Nat) : Prop :=
  ∃ decoded, decodePayload float eval members payload specs .struct [] = .ok decoded ∧
    (specs ≠ [] → ∃ result, decoded.message = .message result ∧
      Restores members specs message result length)

section

variable {float : FloatOps} {eval : Evaluators} {members : List MessageMember}
  {message : MessageInstance} {selections : List Selection}

theorem typed_wires (hencoded : ∀ s ∈ selections, s.Encoded float members message)
    (hfloat : ∀ bits, float.narrow (float.widen bits) = bits)
    (hconforms : message.Conforms members)
    (hdirect : ∀ s ∈ selections, direct members s.spec = true) :
    List.Forall₂ Typed ((selections.flatMap Selection.wires).map Prod.fst)
      ((selections.flatMap Selection.wires).map Prod.snd) := by
  rw [List.forall₂_map_left_iff, List.forall₂_map_right_iff, List.forall₂_same]
  intro wire hwire
  obtain ⟨s, hs, hmem⟩ := List.mem_flatMap.mp hwire
  obtain ⟨v, hv, rfl⟩ := List.mem_map.mp hmem
  obtain ⟨_, _, htyped, _⟩ := exists_of_forall₂
    ((hencoded s hs).restores hfloat hconforms (hdirect s hs)) hv
  exact htyped

theorem totalWireSize_wires (hencoded : ∀ s ∈ selections, s.Encoded float members message) :
    totalWireSize ((selections.flatMap Selection.wires).map Prod.snd) =
      (selections.map Selection.bytes).sum := by
  induction selections with
  | nil => rfl
  | cons s rest ih =>
      obtain ⟨hs, hrest⟩ := List.forall_mem_cons.mp hencoded
      have hspecs : s.wires.map Prod.snd = List.replicate s.values.length s.spec := by
        rw [Selection.wires, List.map_map]
        exact List.map_const'
      rw [List.flatMap_cons, List.map_append, totalWireSize_append, ih hrest, List.map_cons,
        List.sum_cons, hspecs, Selection.bytes, hs.values.length_eq, totalWireSize,
        List.map_replicate, List.sum_replicate, smul_eq_mul]

/-- **The mapping of an encoded payload**: its length is accepted, and the leaves of the encoder
are bound. -/
theorem bindPayload_encoded {payload : Bytes}
    (hencoded : ∀ s ∈ selections, s.Encoded float members message)
    (hfloat : ∀ bits, float.narrow (float.widen bits) = bits)
    (hconforms : message.Conforms members)
    (hdirect : ∀ s ∈ selections, direct members s.spec = true)
    (hplain : ∀ s ∈ selections, plain s.path members = true)
    (hopen : selections.countP (isOpen members) ≤ 1)
    (hlength : payload.length = (selections.map Selection.bytes).sum)
    (hfits : payload.length < 2 ^ 63) :
    ∃ fields after, bindPayload members payload (selections.map Selection.spec) =
        .ok (fields, after) ∧
      Rebound float members message selections fields (.initialized members) after := by
  have hwire : ∀ s ∈ selections, wireSize s.spec ≠ 0 := by
    intro s hs
    obtain ⟨_, wire, _, hwire, _⟩ := (hencoded s hs).carried (hdirect s hs)
    rw [wireSize_of_scalarType? hwire]
    exact wire.size_pos.ne'
  have hsmall : ∀ s ∈ selections, s.bindings.length < kDynamicBindingCount := by
    intro s hs
    have hle : s.bytes ≤ (selections.map Selection.bytes).sum :=
      List.le_sum_of_mem (List.mem_map_of_mem hs)
    have hmul : s.bindings.length ≤ s.bytes :=
      Nat.le_mul_of_pos_right _ (Nat.pos_of_ne_zero (hwire s hs))
    unfold kDynamicBindingCount
    omega
  have hexpr : ∀ s ∈ selections, s.spec.expression = "" := by
    intro s hs
    have hd := hdirect s hs
    unfold direct at hd
    simp only [Bool.and_eq_true, decide_eq_true_eq] at hd
    exact hd.1
  have hfixed : fixedBytes members selections ≤ (selections.map Selection.bytes).sum := by
    rcases sum_bytes hopen 0 with ⟨_, _, hsum⟩ | ⟨_, _, _, _, _, hsum⟩ <;> omega
  have hlayout := layoutFrom_encoded
    (fun s hs => (hencoded s hs).count (hexpr s hs) (hplain s hs) (hsmall s hs)) hsmall hopen 0 {}
    (fun h => by cases h) (by dsimp only; omega)
  simp only [Nat.zero_add, Option.none_or] at hlayout
  obtain ⟨fields, after, hbind, hrebound⟩ := bindSpecs_encoded hencoded hfloat hconforms hdirect
    hplain 0 (fun i s hs => countAt_encoded hopen 0 (fixedBytes members selections) hs)
    (.initialized members)
  refine ⟨fields, after, ?_, hrebound⟩
  simp only [bindPayload, bind_eq_ok]
  refine ⟨_, hlayout, openLength members selections, ?_, hbind⟩
  rw [hlength]
  exact dynamicCount_encoded hopen hwire

end

/-- **Round trip.** For any schema and any value of it, members that give leaves to wire types
that take them, with plain paths and at most one open-ended vector, are decoded from the payload
that they are encoded to: every selected leaf has its value, and a vector selected as a whole has
its length unless a new message starts with a longer one. -/
theorem decodePayload_encodePayload (float : FloatOps) (eval : Evaluators)
    (members : List MessageMember) (deserialize : Bytes → Except StdException MessageInstance)
    (serialized payload : Bytes) (specs : List BridgeMemberSpec) (message : MessageInstance)
    (hfloat : ∀ bits, float.narrow (float.widen bits) = bits)
    (hdirect : ∀ spec ∈ specs, direct members spec = true)
    (hopen : specs.countP (openSpec members) ≤ 1)
    (hplain : ∀ spec ∈ specs, plainSpec members spec = true)
    (hmessage : deserialize serialized = .ok message) (hconforms : message.Conforms members)
    (hencode : encodePayload float eval members deserialize serialized specs .struct = .ok payload)
    (hfits : payload.length < 2 ^ 63) :
    RoundTrips float eval members payload specs message (grownLength members message) := by
  -- Without members the serialized message is the payload.
  by_cases hnil : specs = []
  · exact ⟨⟨.bytes payload, []⟩, if_pos (Or.inr hnil), fun hne => absurd hnil hne⟩
  have hmapped : ¬(PayloadFormat.struct = .ros2 ∨ specs = []) := by
    rintro (h | h)
    · cases h
    · exact hnil h
  rw [encodePayload, if_neg hmapped] at hencode
  obtain ⟨message', hmessage', hencode⟩ := bind_eq_ok.mp hencode
  obtain rfl : message = message' := Except.ok.inj (hmessage.symm.trans hmessage')
  obtain ⟨selections, rfl, hencoded, hpayload⟩ := encodeFields_direct (fun spec hspec => by
    have hd := hdirect spec hspec
    unfold direct at hd
    simp only [Bool.and_eq_true, decide_eq_true_eq] at hd
    exact hd.1) hencode
  have hdirects : ∀ s ∈ selections, direct members s.spec = true :=
    fun s hs => hdirect _ (List.mem_map_of_mem hs)
  have hplains : ∀ s ∈ selections, plain s.path members = true := by
    intro s hs
    have hp := hplain _ (List.mem_map_of_mem hs)
    rwa [plainSpec, (hencoded s hs).path] at hp
  have hopens : selections.countP (isOpen members) ≤ 1 := by
    rw [List.countP_map] at hopen
    refine le_trans (le_of_eq (List.countP_congr fun s hs => ?_)) hopen
    rw [Function.comp_apply, openSpec, (hencoded s hs).path, isOpen]
  -- The bytes are those of the wire values, which are read back.
  have htyped := typed_wires hencoded hfloat hconforms hdirects
  have hbytes : payload = ((selections.flatMap Selection.wires).map Prod.fst).flatMap
      ScalarValue.toBytes :=
    Except.ok.inj (hpayload.symm.trans (encodeStructPayload_typed htyped))
  have hlength : payload.length = (selections.map Selection.bytes).sum := by
    rw [hbytes, length_flatMap_toBytes htyped, totalWireSize_wires hencoded]
  obtain ⟨fields, after, hbind, hrebound⟩ := bindPayload_encoded hencoded hfloat hconforms hdirects
    hplains hopens hlength hfits
  have hspecs : fields.map WireField.spec = (selections.flatMap Selection.wires).map Prod.snd := by
    rw [← List.forall₂_eq_eq_eq, List.forall₂_map_left_iff, List.forall₂_map_right_iff]
    exact hrebound.values.imp fun _ _ h => h.1
  have hvalues : decodeStructPayload payload (fields.map WireField.spec) =
      .ok ((selections.flatMap Selection.wires).map Prod.fst) := by
    rw [hbytes, hspecs]
    exact decodeStructPayload_typed htyped
  obtain ⟨writes, result, hwrites, harrays, _, hwritten⟩ :=
    writeFields_restores (List.forall₂_map_right_iff.mpr (hrebound.values.imp fun _ _ h => h.2)) after
  -- Writing leaves the arrays alone.
  have hgrows : after.Grows result := fun p => by rw [harrays]
  refine ⟨⟨.message result, writes⟩, ?_, fun _ => ⟨result, rfl, ?_, ?_⟩⟩
  · rw [decodePayload, if_neg hmapped]
    simp only [bind_eq_ok, pure_eq_ok, Prod.exists]
    exact ⟨fields, after, hbind, _, hvalues, writes, result, hwrites, result, rfl, rfl⟩
  · intro spec hspec path bindings hpath hbindings binding hbinding
    obtain ⟨s, hs, rfl⟩ := List.mem_map.mp hspec
    obtain rfl : s.path = path := Except.ok.inj ((hencoded s hs).path.symm.trans hpath)
    obtain rfl : s.bindings = bindings :=
      Except.ok.inj ((hencoded s hs).bindings.symm.trans hbindings)
    refine ⟨hgrows.holds (hrebound.holds s hs binding hbinding), fun type htype => ?_⟩
    obtain ⟨field, hfield, bound, hbound, hposition⟩ := hrebound.found s hs binding hbinding
    have hleaf := hwritten field hfield bound hbound
    obtain ⟨_, hat⟩ := collectConst_leaf (opens_root members) hbindings binding hbinding
    rw [hposition, message.leafAt_eq hat htype] at hleaf
    rw [MessageInstance.read, hleaf, Option.getD_some]
  · intro spec hspec path hpath hopen habsent
    obtain ⟨s, hs, rfl⟩ := List.mem_map.mp hspec
    obtain rfl : s.path = path := Except.ok.inj ((hencoded s hs).path.symm.trans hpath)
    rw [harrays]
    refine Nat.le_antisymm (hrebound.follows.within _) (Nat.max_le.mpr ⟨?_, ?_⟩)
    · exact hrebound.follows.grows (fieldPosition s.path)
    · exact hrebound.whole s hs hopen habsent

/-! ## Two messages -/

/-- A message of which some vectors and leaves are given. -/
def messageOf (lengths : List (Position × Nat)) (leaves : List (Position × ScalarValue)) :
    MessageInstance :=
  ⟨.initial fun p => (lengths.lookup p).getD 0, fun p => leaves.lookup p⟩

theorem messageOf_conforms {members : List MessageMember} {lengths : List (Position × Nat)}
    {leaves : List (Position × ScalarValue)}
    (hleaves : ∀ leaf ∈ leaves, (fieldAt leaf.1 members).map MessageMember.type =
      some (.scalar leaf.2.type))
    (hlengths : ∀ vector ∈ lengths, (fieldAt vector.1 members).map MessageMember.shape =
      some (.sequence 0 none) ∨ (fieldAt vector.1 members).map MessageMember.shape =
      some (.sequence 3 none)) :
    (messageOf lengths leaves).Conforms members := by
  constructor
  · intro position v member hleaf hfield
    obtain ⟨before, after, hlist, _⟩ := List.lookup_eq_some_iff.mp hleaf
    have htype := hleaves (position, v) (hlist ▸ List.mem_append_right _ List.mem_cons_self)
    rw [hfield] at htype
    exact Option.some.inj htype
  · intro position name member initial bound hfield hshape
    show ((lengths.lookup (position ++ [.field name])).getD 0) ≤ bound
    cases hlookup : lengths.lookup (position ++ [.field name]) with
    | none => exact Nat.zero_le bound
    | some n =>
        obtain ⟨before, after, hlist, _⟩ := List.lookup_eq_some_iff.mp hlookup
        have hunbounded := hlengths (position ++ [.field name], n)
          (hlist ▸ List.mem_append_right _ List.mem_cons_self)
        rw [hfield, Option.map_some, hshape] at hunbounded
        rcases hunbounded with h | h <;> cases h

/-- The conversions of zero and one; the others are not made below. -/
def unitFloats : FloatOps where
  widen bits := if bits = 0x3f800000 then 0x3ff0000000000000 else bits.toUInt64
  narrow bits := if bits = 0x3ff0000000000000 then 0x3f800000 else bits.toUInt32
  toDouble n := if n = 1 then 0x3ff0000000000000 else 0
  toFloat n := if n = 1 then 0x3f800000 else 0
  round bits := if bits = 0x3ff0000000000000 then some 1 else some 0

theorem narrow_widen_unit (bits : UInt32) : unitFloats.narrow (unitFloats.widen bits) = bits := by
  simp only [unitFloats]
  by_cases hone : bits = 0x3f800000
  · rw [if_pos hone, if_pos rfl, hone]
  · rw [if_neg hone, if_neg, UInt32.toUInt32_toUInt64]
    intro heq
    have hnat := congrArg UInt64.toNat heq
    have hlt := bits.toNat_lt
    simp only [UInt32.toNat_toUInt64] at hnat
    rw [hnat] at hlt
    exact absurd hlt (by decide)

/-- A boolean, an integer, two floats and octets. -/
def statusSchema : List MessageMember :=
  [.mk "ready" (.scalar .bool) .single false none,
   .mk "level" (.scalar (.integer int16)) .single false none,
   .mk "gains" (.scalar .float32) (.fixed 2) true none,
   .mk "data" (.scalar (.integer uint8)) (.sequence 0 none) true none]

def statusMessage : MessageInstance :=
  messageOf [([.field "data"], 2)]
    [([.field "ready"], .bool true), ([.field "level"], .integer int16 (-5) (by decide)),
     ([.field "gains", .item 0], .float 0x3f800000),
     ([.field "data", .item 1], .integer uint8 7 (by decide))]

def statusSpecs : List BridgeMemberSpec :=
  [⟨"ready", "uint8", ""⟩, ⟨"level", "int32", ""⟩, ⟨"gains[0:2]", "float64", ""⟩,
   ⟨"data", "uint8", ""⟩]

theorem decodePayload_encodePayload_status :
    ∃ payload, encodePayload unitFloats noExpressions statusSchema (fun _ => .ok statusMessage) []
        statusSpecs .struct = .ok payload ∧ payload.length = 23 ∧
      RoundTrips unitFloats noExpressions statusSchema payload statusSpecs statusMessage
        (grownLength statusSchema statusMessage) := by
  have hrun : (encodePayload unitFloats noExpressions statusSchema (fun _ => .ok statusMessage) []
      statusSpecs .struct).toOption.any (fun payload => payload.length == 23) = true := by
    decide +kernel
  obtain ⟨payload, hencode, hlength⟩ := exists_ok_of_any hrun
  have hlength : payload.length = 23 := beq_iff_eq.mp hlength
  have hconforms : statusMessage.Conforms statusSchema :=
    messageOf_conforms (by decide +kernel) (by decide +kernel)
  exact ⟨payload, hencode, hlength, decodePayload_encodePayload unitFloats noExpressions
    statusSchema (fun _ => .ok statusMessage) [] payload statusSpecs statusMessage
    narrow_widen_unit (by decide +kernel) (by decide +kernel) (by decide +kernel) rfl hconforms
    hencode (by omega)⟩

/-- A vector of messages with a vector, a number and an array. -/
def trackSchema : List MessageMember :=
  [.mk "tracks" .message (.sequence 0 none) true (some
    [.mk "data" (.scalar (.integer uint8)) (.sequence 0 none) true none,
     .mk "x" (.scalar (.integer uint8)) .single false none,
     .mk "grid" (.scalar (.integer uint8)) (.fixed 3) true none])]

/-- One track with one octet. -/
def trackMessage : MessageInstance :=
  messageOf [([.field "tracks"], 1), ([.field "tracks", .item 0, .field "data"], 1)] []

/-- A vector that a new message has three elements of. -/
def sampleSchema : List MessageMember :=
  [.mk "samples" (.scalar (.integer uint8)) (.sequence 3 none) true none]

def sampleMessage : MessageInstance := messageOf [([.field "samples"], 1)] []

/-- The length of a vector of a message that is not mere bytes. -/
def SerializedMessage.lengthAt (p : Position) : SerializedMessage → Nat
  | .bytes _ => 0
  | .message result => result.arrays.length p

theorem not_roundTrips_of_error {payload : Bytes} {spec : BridgeMemberSpec}
    (h : (decodePayload unitFloats noExpressions trackSchema payload [spec] .struct
      []).toOption.isNone = true) (length : Position → Nat) :
    ¬RoundTrips unitFloats noExpressions trackSchema payload [spec] trackMessage length := by
  rintro ⟨decoded, hdecoded, _⟩
  rw [hdecoded] at h
  cases h

/-- An open-ended vector below an array, an open-ended slice above a field and a slice below an
empty one are encoded and not decoded; a vector keeps the length that it starts with. -/
theorem roundTrip_fails :
    (∀ target ∈ ["tracks[0].data", "tracks[:].x", "tracks[0:0].grid[0:9]"],
      direct trackSchema ⟨target, "uint8", ""⟩ = true ∧ trackMessage.Conforms trackSchema ∧
      ∃ payload, encodePayload unitFloats noExpressions trackSchema (fun _ => .ok trackMessage) []
          [⟨target, "uint8", ""⟩] .struct = .ok payload ∧ payload.length < 2 ^ 63 ∧
        ∀ length, ¬RoundTrips unitFloats noExpressions trackSchema payload
          [⟨target, "uint8", ""⟩] trackMessage length) ∧
    direct sampleSchema ⟨"samples", "uint8", ""⟩ = true ∧ sampleMessage.Conforms sampleSchema ∧
    ∃ payload, encodePayload unitFloats noExpressions sampleSchema (fun _ => .ok sampleMessage) []
        [⟨"samples", "uint8", ""⟩] .struct = .ok payload ∧ payload.length < 2 ^ 63 ∧
      ¬RoundTrips unitFloats noExpressions sampleSchema payload [⟨"samples", "uint8", ""⟩]
        sampleMessage sampleMessage.arrays.length := by
  have hencoded : ∀ target : String, (encodePayload unitFloats noExpressions trackSchema
        (fun _ => .ok trackMessage) [] [⟨target, "uint8", ""⟩] .struct).toOption.any
        (fun payload => payload.length ≤ 1 && (decodePayload unitFloats noExpressions trackSchema
          payload [⟨target, "uint8", ""⟩] .struct []).toOption.isNone) = true →
      ∃ payload, encodePayload unitFloats noExpressions trackSchema (fun _ => .ok trackMessage) []
          [⟨target, "uint8", ""⟩] .struct = .ok payload ∧ payload.length < 2 ^ 63 ∧
        ∀ length, ¬RoundTrips unitFloats noExpressions trackSchema payload
          [⟨target, "uint8", ""⟩] trackMessage length := by
    intro target hrun
    obtain ⟨payload, hencode, hpayload⟩ := exists_ok_of_any hrun
    rw [Bool.and_eq_true, decide_eq_true_eq] at hpayload
    exact ⟨payload, hencode, by omega, not_roundTrips_of_error hpayload.2⟩
  have htrack : trackMessage.Conforms trackSchema :=
    messageOf_conforms (by decide +kernel) (by decide +kernel)
  have hsample : sampleMessage.Conforms sampleSchema :=
    messageOf_conforms (by decide +kernel) (by decide +kernel)
  refine ⟨?_, by decide +kernel, hsample, ?_⟩
  · simp only [List.forall_mem_cons, List.not_mem_nil, false_implies, implies_true, and_true]
    exact ⟨⟨by decide +kernel, htrack, hencoded _ (by decide +kernel)⟩,
      ⟨by decide +kernel, htrack, hencoded _ (by decide +kernel)⟩,
      ⟨by decide +kernel, htrack, hencoded _ (by decide +kernel)⟩⟩
  · have hrun : (encodePayload unitFloats noExpressions sampleSchema (fun _ => .ok sampleMessage) []
        [⟨"samples", "uint8", ""⟩] .struct).toOption.any (fun payload => payload.length == 1 &&
          (decodePayload unitFloats noExpressions sampleSchema payload [⟨"samples", "uint8", ""⟩]
            .struct []).toOption.any fun decoded =>
              decoded.message.lengthAt [.field "samples"] == 3) = true := by
      decide +kernel
    obtain ⟨payload, hencode, hpayload⟩ := exists_ok_of_any hrun
    rw [Bool.and_eq_true, beq_iff_eq] at hpayload
    refine ⟨payload, hencode, by omega, ?_⟩
    rintro ⟨decoded, hdecoded, hrestores⟩
    obtain ⟨result, hresult, hrestores⟩ := hrestores (List.cons_ne_nil _ _)
    obtain ⟨decoded', hdecoded', hthree⟩ := exists_ok_of_any hpayload.2
    obtain rfl : decoded = decoded' := Except.ok.inj (hdecoded.symm.trans hdecoded')
    rw [hresult, SerializedMessage.lengthAt, beq_iff_eq] at hthree
    have hone : result.arrays.length [.field "samples"] = 1 :=
      hrestores.lengths _ List.mem_cons_self [⟨"samples", .absent⟩] (by decide +kernel)
        (by decide +kernel) (by decide +kernel)
    omega

end UavBluetooth.Bridge
