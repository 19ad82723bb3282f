import UavBluetooth.Bridge.MemberPath
import UavBluetooth.Config.Models
import UavBluetooth.Lib.LittleEndian

set_option autoImplicit false

/-! # Scalars on the wire

`payload_codec.cpp`: the typed scalars of a compact payload, their little-endian bytes, and the
conversions from and to ROS values. A float is its bit pattern, and what the processor does to
convert one is a parameter.
-/

namespace UavBluetooth.Bridge

open Config Fallible LittleEndian

/-! ## Types and values -/

/-- The scalar types of the wire, which are also those of the supported ROS fields. -/
inductive ScalarType where
  | bool
  | integer (type : IntegerType)
  | float32
  | float64
  deriving DecidableEq

def int8 : IntegerType := ⟨true, 1, by decide⟩
def uint8 : IntegerType := ⟨false, 1, by decide⟩
def int16 : IntegerType := ⟨true, 2, by decide⟩
def uint16 : IntegerType := ⟨false, 2, by decide⟩
def int32 : IntegerType := ⟨true, 4, by decide⟩
def uint32 : IntegerType := ⟨false, 4, by decide⟩
def int64 : IntegerType := ⟨true, 8, by decide⟩
def uint64 : IntegerType := ⟨false, 8, by decide⟩

def ScalarType.size : ScalarType → Nat
  | .bool => 1
  | .integer type => type.size
  | .float32 => 4
  | .float64 => 8

/-- The wire types by name. -/
def typeInfo : List (String × ScalarType) :=
  [("bool", .bool), ("int8", .integer int8), ("uint8", .integer uint8),
   ("int16", .integer int16), ("uint16", .integer uint16), ("int32", .integer int32),
   ("uint32", .integer uint32), ("int64", .integer int64), ("uint64", .integer uint64),
   ("float32", .float32), ("float64", .float64)]

def scalarType? (valueType : String) : Option ScalarType := typeInfo.lookup valueType

/-- A typed scalar value that can be packed in a payload. -/
inductive ScalarValue where
  | bool (v : Bool)
  | integer (type : IntegerType) (v : Int) (h : type.InRange v)
  | float (bits : UInt32)
  | double (bits : UInt64)
  deriving DecidableEq

/-- The conversions between floats, doubles and 128-bit integers. -/
structure FloatOps where
  widen : UInt32 → UInt64
  narrow : UInt64 → UInt32
  toDouble : Int → UInt64
  toFloat : Int → UInt32
  /-- `std::round`, of a finite value. -/
  round : UInt64 → Option Int

/-- Neither a positive nor a negative zero. -/
def nonzero (bits : UInt64) : Bool := bits.toNat % 2 ^ 63 ≠ 0

/-- The packed size of a member, or zero for an unknown type. -/
def wireSize (spec : BridgeMemberSpec) : Nat :=
  match scalarType? spec.valueType with
  | some type => type.size
  | none => 0

/-! ## Payloads -/

def ScalarValue.toBytes : ScalarValue → Bytes
  | .bool v => [if v then 1 else 0]
  | .integer type v _ => type.toBytes v
  | .float bits => bytes 4 bits.toNat
  | .double bits => bytes 8 bits.toNat

/-- The scalar of some type in as many bytes as the type has. -/
def ScalarType.ofBytes : ScalarType → Bytes → ScalarValue
  | .bool, l => .bool (value l ≠ 0)
  | .integer type, l => .integer type (type.ofBytes l) (type.wrap_inRange _)
  | .float32, l => .float (UInt32.ofNat (value l))
  | .float64, l => .double (UInt64.ofNat (value l))

/-- The bytes of one value, in a field as wide as the type of its member. -/
def packValue (v : ScalarValue) (spec : BridgeMemberSpec) : Except StdException Bytes := do
  require (wireSize spec ≠ 0) (.runtimeError ("Unknown value type: " ++ spec.valueType))
  return (v.toBytes ++ List.replicate (wireSize spec) 0).take (wireSize spec)

def unpackValue (buf : Bytes) (off : Nat) (spec : BridgeMemberSpec) :
    Except StdException ScalarValue :=
  match scalarType? spec.valueType with
  | none => .error (.runtimeError ("Unknown value type: " ++ spec.valueType))
  | some type =>
      if off + type.size ≤ buf.length then
        .ok (type.ofBytes ((buf.drop off).take type.size))
      else .error (.runtimeError ("Payload too short while decoding " ++ spec.valueType))

/-- The fields of a payload, one after another. -/
def packValues : List ScalarValue → List BridgeMemberSpec → Except StdException Bytes
  | v :: values, spec :: specs => do
      let field ← packValue v spec
      let rest ← packValues values specs
      return field ++ rest
  | _, _ => .ok []

def encodeStructPayload (values : List ScalarValue) (specs : List BridgeMemberSpec) :
    Except StdException Bytes := do
  require (values.length = specs.length)
    (.runtimeError "Value count does not match member spec count")
  packValues values specs

/-- The values of a payload from an offset on. -/
def unpackValues (payload : Bytes) : Nat → List BridgeMemberSpec →
    Except StdException (List ScalarValue)
  | _, [] => .ok []
  | off, spec :: specs => do
      let v ← unpackValue payload off spec
      let values ← unpackValues payload (off + wireSize spec) specs
      return v :: values

def decodeStructPayload (payload : Bytes) (specs : List BridgeMemberSpec) :
    Except StdException (List ScalarValue) :=
  unpackValues payload 0 specs

/-! ## Conversions -/

variable (float : FloatOps)

/-- Narrow an integer to a type that has it. -/
def narrow (message : String) (type : IntegerType) (v : Int) : Except StdException ScalarValue :=
  if h : type.InRange v then .ok (.integer type v h) else .error (.runtimeError message)

/-- Convert a floating ROS value to the configured wire type. -/
def coerceOutgoing (v : UInt64) (spec : BridgeMemberSpec) : Except StdException ScalarValue :=
  match scalarType? spec.valueType with
  | none => .error (.runtimeError ("Unknown value type for coercion: " ++ spec.valueType))
  | some .bool => .ok (.bool (nonzero v))
  | some (.integer type) =>
      match float.round v with
      | none =>
          .error (.runtimeError (spec.valueType ++ " cannot encode a non-finite value"))
      | some n => narrow (spec.valueType ++ " value is outside its integer range") type n
  | some .float32 => .ok (.float (float.narrow v))
  | some .float64 => .ok (.double v)

/-- Convert an exact ROS integer to the configured wire type. -/
def coerceOutgoingInteger (v : Int) (spec : BridgeMemberSpec) :
    Except StdException ScalarValue :=
  match scalarType? spec.valueType with
  | none => .error (.runtimeError ("Unknown value type for integer coercion: " ++ spec.valueType))
  | some .bool => .ok (.bool (v ≠ 0))
  | some (.integer type) =>
      narrow (spec.valueType ++ " value is outside its integer range") type v
  | some .float32 => .ok (.float (float.toFloat v))
  | some .float64 => .ok (.double (float.toDouble v))

/-- Any decoded scalar as a double. -/
def coerceIncoming : ScalarValue → UInt64
  | .bool v => float.toDouble (if v then 1 else 0)
  | .integer _ v _ => float.toDouble v
  | .float bits => float.widen bits
  | .double bits => bits

/-- An exact value for integer wire types, or none for floating types. -/
def coerceIncomingInteger : ScalarValue → Option Int
  | .bool v => some (if v then 1 else 0)
  | .integer _ v _ => some v
  | .float _ => none
  | .double _ => none

end UavBluetooth.Bridge
