import Mathlib.Tactic

set_option autoImplicit false

/-! # The configuration model

The records the loader hands to the bridges (`config_models.hpp`), with the fields that the
modelled functions read. Strings that the loader restricts to a few spellings (the transport
and the mode of a bridge, the payload format) are enumerations here.
-/

namespace UavBluetooth

/-- A byte string. -/
abbrev Bytes := List UInt8

instance : LawfulBEq Bytes := inferInstance

/-- A point of the steady clock, in nanoseconds since its epoch. -/
abbrev Time := Nat

def seconds (n : Nat) : Time := n * 1000000000

def milliseconds (n : Nat) : Time := n * 1000000

namespace Config

/-- Reconstruct one ROS field from decoded wire values. -/
structure BridgeAssignmentSpec where
  target : String
  expression : String
  deriving DecidableEq, Repr

/-- One wire value. `target` names the encoded value and `valueType` its wire type. With no
expression, `target` is also the ROS field path for direct copying. -/
structure BridgeMemberSpec where
  target : String
  valueType : String
  expression : String
  deriving DecidableEq, Repr

inductive Transport where
  | gatt
  | advertisement
  | mesh
  deriving DecidableEq, Repr

/-- The transport's spelling in the configuration file and in map keys. -/
def Transport.name : Transport → String
  | .gatt => "gatt"
  | .advertisement => "advertisement"
  | .mesh => "mesh"

inductive Mode where
  | «export»
  | «import»
  | both
  deriving DecidableEq, Repr

inductive PayloadFormat where
  | struct
  | raw
  | ros2
  deriving DecidableEq, Repr

def PayloadFormat.name : PayloadFormat → String
  | .struct => "struct"
  | .raw => "raw"
  | .ros2 => "ros2"

/-- One shared-topic bridge. -/
structure SharedTopicConfig where
  name : String := ""
  mode : Mode := .both
  /-- The digest of the bridge name in hexadecimal. -/
  bridgeKey : String := ""
  bridgeName : String := ""
  bridgeTopicPath : String := ""
  exportTopic : String := ""
  importTopicSuffix : String := ""
  messageType : String := ""
  rateHz : ℚ := 0
  payloadFormat : PayloadFormat := .struct
  memberSpecs : List BridgeMemberSpec := []
  decodeAssignments : List BridgeAssignmentSpec := []
  transport : Transport := .gatt
  channelId : UInt16 := 0
  advertisementBare : Bool := false
  meshDestination : UInt16 := 0xc000
  meshSwarmReliable : Bool := false
  meshAppKeyIndex : UInt16 := 0
  meshElementIndex : UInt8 := 0
  meshForceSegmented : Bool := true
  meshVendorOpcode : UInt8 := 0xc1
  meshCompanyId : UInt16 := 0x05f1
  deriving DecidableEq, Repr

/-- The fields of `NodeConfig` that the swarm coordinator reads. -/
structure SwarmConfig where
  peerWhitelist : List String := []
  meshProvisionerPreference : String := "ordered"
  meshSwarmId : UInt16 := 1
  meshSwarmParticipating : Bool := true
  meshSwarmProvisionerTimeout : Time := seconds 20
  meshSwarmAppKeyIndex : UInt16 := 0
  meshCompanyId : UInt16 := 0x05f1
  deriving DecidableEq, Repr

end Config

end UavBluetooth
