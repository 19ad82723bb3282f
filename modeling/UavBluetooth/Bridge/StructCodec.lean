import UavBluetooth.Bridge.PayloadCodec

set_option autoImplicit false

/-! # Round trips of struct payloads

Values of the wire types of their members take exactly the bytes that the members ask for and are
read back unchanged. A payload of that size is written again from its values as it was, except
that a boolean is written as zero or one.
-/

namespace UavBluetooth.Bridge

open Config Fallible LittleEndian

/-- The unframed size of a payload, from the widths of its members. -/
def totalWireSize (specs : List BridgeMemberSpec) : Nat := (specs.map wireSize).sum

/-! ## One scalar -/

/-- The type of the alternative that a value holds. -/
def ScalarValue.type : ScalarValue → ScalarType
  | .bool _ => .bool
  | .integer type _ _ => .integer type
  | .float _ => .float32
  | .double _ => .float64

/-- The value is of the wire type of its member. -/
def Typed (v : ScalarValue) (spec : BridgeMemberSpec) : Prop :=
  scalarType? spec.valueType = some v.type

/-- The bytes of a field with every true boolean written as one. -/
def ScalarType.normalize : ScalarType → Bytes → Bytes
  | .bool, field => field.map fun b => if b = 0 then 0 else 1
  | _, field => field

theorem ScalarType.size_pos (type : ScalarType) : 0 < type.size := by
  cases type with
  | integer type => exact type.size_pos
  | _ => simp [ScalarType.size]

@[simp] theorem ScalarValue.length_toBytes (v : ScalarValue) : v.toBytes.length = v.type.size := by
  cases v with
  | bool v => rfl
  | integer type v h => exact type.length_toBytes v
  | float bits => exact length_bytes _ _
  | double bits => exact length_bytes _ _

@[simp] theorem ScalarType.type_ofBytes (type : ScalarType) (field : Bytes) :
    (type.ofBytes field).type = type := by
  cases type <;> rfl

theorem ScalarType.ofBytes_toBytes (v : ScalarValue) : v.type.ofBytes v.toBytes = v := by
  cases v with
  | bool v => cases v <;> decide
  | integer type v h =>
      have hv := type.ofBytes_toBytes h
      simp only [ScalarValue.type, ScalarType.ofBytes, ScalarValue.toBytes, hv]
  | float bits =>
      have hvalue : value (bytes 4 bits.toNat) = bits.toNat := by
        rw [value_bytes]
        exact Nat.mod_eq_of_lt bits.toNat_lt
      simp only [ScalarValue.type, ScalarType.ofBytes, ScalarValue.toBytes, hvalue,
        UInt32.ofNat_toNat]
  | double bits =>
      have hvalue : value (bytes 8 bits.toNat) = bits.toNat := by
        rw [value_bytes]
        exact Nat.mod_eq_of_lt bits.toNat_lt
      simp only [ScalarValue.type, ScalarType.ofBytes, ScalarValue.toBytes, hvalue,
        UInt64.ofNat_toNat]

/-- A list of known length survives the number it is read as. -/
theorem bytes_value_of_length {width : Nat} {l : Bytes} (h : l.length = width) :
    bytes width (value l) = l := by
  rw [← h, bytes_value]

theorem ScalarType.toBytes_ofBytes (type : ScalarType) {field : Bytes}
    (h : field.length = type.size) : (type.ofBytes field).toBytes = type.normalize field := by
  cases type with
  | bool =>
      obtain ⟨b, rfl⟩ := List.length_eq_one_iff.mp h
      have hb : value [b] = 0 ↔ b = 0 := by
        rw [← UInt8.toNat_inj]
        simp [value]
      simp only [ScalarType.ofBytes, ScalarValue.toBytes, ScalarType.normalize, List.map_cons,
        List.map_nil, ne_eq, hb]
      split <;> simp_all
  | integer type => exact type.toBytes_ofBytes h
  | float32 =>
      have hbound : value field < 2 ^ 32 := by
        have hvalue := value_lt field
        rw [h] at hvalue
        exact hvalue
      rw [ScalarType.ofBytes, ScalarValue.toBytes, UInt32.toNat_ofNat_of_lt' hbound]
      exact bytes_value_of_length h
  | float64 =>
      have hbound : value field < 2 ^ 64 := by
        have hvalue := value_lt field
        rw [h] at hvalue
        exact hvalue
      rw [ScalarType.ofBytes, ScalarValue.toBytes, UInt64.toNat_ofNat_of_lt' hbound]
      exact bytes_value_of_length h

/-! ## One member -/

theorem wireSize_of_scalarType? {spec : BridgeMemberSpec} {type : ScalarType}
    (h : scalarType? spec.valueType = some type) : wireSize spec = type.size := by
  rw [wireSize, h]

/-- A value of the member's type fills the field. -/
theorem packValue_typed {v : ScalarValue} {spec : BridgeMemberSpec} (h : Typed v spec) :
    packValue v spec = .ok v.toBytes := by
  have hsize : wireSize spec = v.toBytes.length := by
    rw [wireSize_of_scalarType? h, v.length_toBytes]
  have hpos : wireSize spec ≠ 0 := by
    rw [wireSize_of_scalarType? h]
    exact v.type.size_pos.ne'
  rw [packValue, require, decide_eq_true hpos, if_pos rfl]
  have hfield : (v.toBytes ++ List.replicate (wireSize spec) 0).take (wireSize spec) = v.toBytes := by
    rw [hsize, List.take_left]
  exact congrArg Except.ok hfield

theorem unpackValue_at {spec : BridgeMemberSpec} {type : ScalarType}
    (h : scalarType? spec.valueType = some type) (done rest : Bytes) {field : Bytes}
    (hfield : field.length = type.size) :
    unpackValue (done ++ (field ++ rest)) done.length spec = .ok (type.ofBytes field) := by
  have hfits : done.length + type.size ≤ (done ++ (field ++ rest)).length := by
    simp only [List.length_append]
    omega
  simp only [unpackValue, h]
  rw [if_pos hfits, List.drop_left, ← hfield, List.take_left]

/-! ## A list of members -/

theorem totalWireSize_cons (spec : BridgeMemberSpec) (specs : List BridgeMemberSpec) :
    totalWireSize (spec :: specs) = wireSize spec + totalWireSize specs := by
  rw [totalWireSize, List.map_cons, List.sum_cons, totalWireSize]

theorem packValues_typed {values : List ScalarValue} {specs : List BridgeMemberSpec}
    (h : List.Forall₂ Typed values specs) :
    packValues values specs = .ok (values.flatMap ScalarValue.toBytes) := by
  induction h with
  | nil => rfl
  | cons hv _ ih =>
      rw [packValues, packValue_typed hv, ih]
      rfl

theorem encodeStructPayload_typed {values : List ScalarValue} {specs : List BridgeMemberSpec}
    (h : List.Forall₂ Typed values specs) :
    encodeStructPayload values specs = .ok (values.flatMap ScalarValue.toBytes) := by
  have hlength : values.length = specs.length := h.length_eq
  rw [encodeStructPayload, require, decide_eq_true hlength, if_pos rfl]
  exact packValues_typed h

theorem length_flatMap_toBytes {values : List ScalarValue} {specs : List BridgeMemberSpec}
    (h : List.Forall₂ Typed values specs) :
    (values.flatMap ScalarValue.toBytes).length = totalWireSize specs := by
  induction h with
  | nil => rfl
  | cons hv _ ih =>
      rw [List.flatMap_cons, List.length_append, ih, totalWireSize_cons, ScalarValue.length_toBytes,
        wireSize_of_scalarType? hv]

theorem unpackValues_typed {values : List ScalarValue} {specs : List BridgeMemberSpec}
    (h : List.Forall₂ Typed values specs) (done : Bytes) :
    unpackValues (done ++ values.flatMap ScalarValue.toBytes) done.length specs = .ok values := by
  induction h generalizing done with
  | nil => rfl
  | @cons v spec values specs hv _ ih =>
      have hlength : done.length + wireSize spec = (done ++ v.toBytes).length := by
        rw [List.length_append, v.length_toBytes, wireSize_of_scalarType? hv]
      rw [List.flatMap_cons, unpackValues,
        unpackValue_at hv done _ v.length_toBytes, ScalarType.ofBytes_toBytes, hlength,
        ← List.append_assoc]
      have hrest := ih (done ++ v.toBytes)
      rw [hrest]
      rfl

theorem decodeStructPayload_typed {values : List ScalarValue} {specs : List BridgeMemberSpec}
    (h : List.Forall₂ Typed values specs) :
    decodeStructPayload (values.flatMap ScalarValue.toBytes) specs = .ok values :=
  unpackValues_typed h []

/-- The payload with every true boolean written as one. -/
def normalizePayload : List BridgeMemberSpec → Bytes → Bytes
  | [], payload => payload
  | spec :: specs, payload =>
      let field := payload.take (wireSize spec)
      let rest := payload.drop (wireSize spec)
      (match scalarType? spec.valueType with
        | some type => type.normalize field
        | none => field) ++ normalizePayload specs rest

/-- Any payload of the right size has a value for each member, and these are written as the
payload with its booleans normalised. -/
theorem unpackValues_sized {specs : List BridgeMemberSpec}
    (hknown : ∀ spec ∈ specs, (scalarType? spec.valueType).isSome) (done : Bytes) {payload : Bytes}
    (hlength : payload.length = totalWireSize specs) :
    ∃ values, unpackValues (done ++ payload) done.length specs = .ok values ∧
      List.Forall₂ Typed values specs ∧
      values.flatMap ScalarValue.toBytes = normalizePayload specs payload := by
  induction specs generalizing done payload with
  | nil =>
      obtain rfl : payload = [] := List.length_eq_zero_iff.mp hlength
      exact ⟨[], rfl, .nil, rfl⟩
  | cons spec specs ih =>
      obtain ⟨type, htype⟩ := Option.isSome_iff_exists.mp (hknown spec List.mem_cons_self)
      have hsize := wireSize_of_scalarType? htype
      rw [totalWireSize_cons] at hlength
      have hfield : (payload.take (wireSize spec)).length = type.size := by
        rw [List.length_take, hsize]
        omega
      have hdrop : (payload.drop (wireSize spec)).length = totalWireSize specs := by
        rw [List.length_drop]
        omega
      have hsplit : done ++ payload =
          done ++ (payload.take (wireSize spec) ++ payload.drop (wireSize spec)) := by
        rw [List.take_append_drop]
      have hoffset : done.length + wireSize spec =
          (done ++ payload.take (wireSize spec)).length := by
        rw [List.length_append, hfield, hsize]
      obtain ⟨values, hvalues, htyped, hbytes⟩ :=
        ih (fun s hs => hknown s (List.mem_cons_of_mem _ hs))
          (done ++ payload.take (wireSize spec)) hdrop
      refine ⟨type.ofBytes (payload.take (wireSize spec)) :: values, ?_, ?_, ?_⟩
      · rw [unpackValues, hsplit, unpackValue_at htype done _ hfield, hoffset, ← List.append_assoc,
          hvalues]
        rfl
      · refine .cons ?_ htyped
        rw [Typed, ScalarType.type_ofBytes, htype]
      · rw [List.flatMap_cons, hbytes, type.toBytes_ofBytes hfield, normalizePayload, htype]

theorem unpackValues_known {payload : Bytes} {off : Nat} {specs : List BridgeMemberSpec}
    {values : List ScalarValue} (h : unpackValues payload off specs = .ok values) :
    ∀ spec ∈ specs, (scalarType? spec.valueType).isSome := by
  induction specs generalizing off values with
  | nil =>
      intro spec hspec
      cases hspec
  | cons spec specs ih =>
      rw [unpackValues] at h
      obtain ⟨v, hv, hrest⟩ := bind_eq_ok.mp h
      obtain ⟨values, hvalues, _⟩ := bind_eq_ok.mp hrest
      intro s hs
      rcases List.mem_cons.mp hs with rfl | hs
      · cases htype : scalarType? s.valueType with
        | some type => rfl
        | none => simp [unpackValue, htype] at hv
      · exact ih hvalues s hs

/-! ## Conversions -/

section

variable {float : FloatOps} {spec : BridgeMemberSpec} {v : ScalarValue}

theorem narrow_eq_ok {message : String} {type : IntegerType} {n : Int} :
    narrow message type n = .ok v ↔ ∃ h : type.InRange n, v = .integer type n h := by
  unfold narrow
  split
  · rename_i h
    constructor
    · intro hv
      cases hv
      exact ⟨h, rfl⟩
    · rintro ⟨_, rfl⟩
      rfl
  · rename_i h
    constructor
    · intro hv
      cases hv
    · rintro ⟨h', _⟩
      exact absurd h' h

theorem coerceOutgoing_typed {d : UInt64} (h : coerceOutgoing float d spec = .ok v) :
    Typed v spec := by
  unfold coerceOutgoing at h
  unfold Typed
  split at h
  · cases h
  · rename_i htype
    cases h
    exact htype
  · rename_i type htype
    split at h
    · cases h
    · obtain ⟨_, rfl⟩ := narrow_eq_ok.mp h
      exact htype
  · rename_i htype
    cases h
    exact htype
  · rename_i htype
    cases h
    exact htype

/-- The integer as the member's type has it. -/
theorem coerceOutgoingInteger_eq {n : Int} {type : IntegerType}
    (htype : scalarType? spec.valueType = some (.integer type)) :
    coerceOutgoingInteger float n spec = .ok v ↔ ∃ h : type.InRange n, v = .integer type n h := by
  rw [coerceOutgoingInteger, htype]
  exact narrow_eq_ok

theorem coerceOutgoingInteger_typed {n : Int} (h : coerceOutgoingInteger float n spec = .ok v) :
    Typed v spec := by
  cases htype : scalarType? spec.valueType with
  | none => simp [coerceOutgoingInteger, htype] at h
  | some type =>
      cases type with
      | integer type =>
          obtain ⟨_, rfl⟩ := (coerceOutgoingInteger_eq htype).mp h
          exact htype
      | bool | float32 | float64 =>
          simp only [coerceOutgoingInteger, htype] at h
          cases h
          exact htype

end

/-! ## The codec -/

/-- The value was made for the member from a floating or from an exact value. -/
def Coerced (float : FloatOps) (v : ScalarValue) (spec : BridgeMemberSpec) : Prop :=
  (∃ d, coerceOutgoing float d spec = .ok v) ∨ ∃ n, coerceOutgoingInteger float n spec = .ok v

theorem Coerced.typed {float : FloatOps} {v : ScalarValue} {spec : BridgeMemberSpec}
    (h : Coerced float v spec) : Typed v spec := by
  rcases h with ⟨d, h⟩ | ⟨n, h⟩
  · exact coerceOutgoing_typed h
  · exact coerceOutgoingInteger_typed h

/-- **The struct codec loses nothing.** Values made for the members take exactly the bytes of the
members and are read back, and so are the integers that they were made from. A payload of that
size has values just when every member has a known type, and these are written as the payload
with its booleans normalised. An integer type takes just the integers in its range. -/
theorem structPayload_roundTrip (float : FloatOps) (specs : List BridgeMemberSpec) :
    (∀ values, List.Forall₂ (Coerced float) values specs →
      ∃ payload, encodeStructPayload values specs = .ok payload ∧
        payload.length = totalWireSize specs ∧
        ∃ decoded, decodeStructPayload payload specs = .ok decoded ∧ decoded = values ∧
          ∀ (i : Nat) spec v type n, specs[i]? = some spec → values[i]? = some v →
            scalarType? spec.valueType = some (.integer type) →
            coerceOutgoingInteger float n spec = .ok v →
            decoded[i]?.bind coerceIncomingInteger = some n) ∧
    (∀ payload : Bytes, payload.length = totalWireSize specs →
      ((∃ values, decodeStructPayload payload specs = .ok values) ↔
        ∀ spec ∈ specs, (scalarType? spec.valueType).isSome) ∧
      ∀ values, decodeStructPayload payload specs = .ok values →
        encodeStructPayload values specs = .ok (normalizePayload specs payload)) ∧
    ∀ (spec : BridgeMemberSpec) type n, scalarType? spec.valueType = some (.integer type) →
      ((∃ v, coerceOutgoingInteger float n spec = .ok v) ↔ type.InRange n) := by
  refine ⟨?_, ?_, ?_⟩
  · intro values hvalues
    have htyped : List.Forall₂ Typed values specs := hvalues.imp fun _ _ h => h.typed
    refine ⟨_, encodeStructPayload_typed htyped, length_flatMap_toBytes htyped, values,
      decodeStructPayload_typed htyped, rfl, ?_⟩
    intro i spec v type n _ hv htype hcoerce
    obtain ⟨_, rfl⟩ := (coerceOutgoingInteger_eq htype).mp hcoerce
    rw [hv]
    rfl
  · intro payload hlength
    constructor
    · constructor
      · rintro ⟨values, hvalues⟩
        exact unpackValues_known hvalues
      · intro hknown
        obtain ⟨values, hvalues, _⟩ := unpackValues_sized hknown [] hlength
        exact ⟨values, hvalues⟩
    · intro values hvalues
      obtain ⟨values', hvalues', htyped, hbytes⟩ :=
        unpackValues_sized (unpackValues_known hvalues) [] hlength
      have hsame : values = values' := Except.ok.inj (hvalues.symm.trans hvalues')
      rw [hsame, encodeStructPayload_typed htyped, hbytes]
  · intro spec type n htype
    constructor
    · rintro ⟨v, hv⟩
      obtain ⟨h, _⟩ := (coerceOutgoingInteger_eq htype).mp hv
      exact h
    · intro h
      exact ⟨_, (coerceOutgoingInteger_eq htype).mpr ⟨h, rfl⟩⟩

/-- The least 16-bit integer and a byte that is a boolean. -/
theorem structPayload_roundTrip_least :
    (∃ payload, encodeStructPayload [.integer int16 (-32768) (by decide), .bool true]
        [⟨"x", "int16", ""⟩, ⟨"ready", "bool", ""⟩] = .ok payload ∧ payload.length = 3) ∧
    encodeStructPayload [.integer int16 (-32768) (by decide), .bool true]
        [⟨"x", "int16", ""⟩, ⟨"ready", "bool", ""⟩] = .ok [0, 128, 1] ∧
    normalizePayload [⟨"x", "int16", ""⟩, ⟨"ready", "bool", ""⟩] [0, 128, 7] = [0, 128, 1] := by
  -- no value here is converted to or from a float
  let float : FloatOps := ⟨fun _ => 0, fun _ => 0, fun _ => 0, fun _ => 0, fun _ => none⟩
  obtain ⟨hencode, hdecode, _⟩ :=
    structPayload_roundTrip float [⟨"x", "int16", ""⟩, ⟨"ready", "bool", ""⟩]
  refine ⟨?_, ?_, by decide⟩
  · obtain ⟨payload, hpayload, hlength, _⟩ := hencode
      [.integer int16 (-32768) (by decide), .bool true]
      (.cons (Or.inr ⟨-32768, rfl⟩) (.cons (Or.inr ⟨1, rfl⟩) .nil))
    exact ⟨payload, hpayload, hlength⟩
  · exact (hdecode [0, 128, 7] rfl).2 _ (by decide +kernel)

end UavBluetooth.Bridge
