import UavBluetooth.Config.Models

set_option autoImplicit false

/-! # Reliable Mesh frames

The on-air format of `service_node_mesh.cpp`: three vendor bytes, a kind, the sequence, the
swarm, and in data frames the channel and the encoded value. The bridge frame that
`TransportBridgeManager` builds (`bridgePayload`) loses its magic and version on the air and
gets them back on receive (`decodedFrame`).
-/

namespace UavBluetooth.Mesh

open Config

def meshVendorPrefixBytes : Nat := 3
def bridgeFramePrefixBytes : Nat := 5
def reliableDataHeaderBytes : Nat := 10
def reliableAckHeaderBytes : Nat := 8

def reliableData : UInt8 := 0xd1
def reliableDataNoTurn : UInt8 := 0xd4
def reliableAck : UInt8 := 0xd2
def reliableReceiptQuery : UInt8 := 0xd3

def receiptQueryPeriod : Time := seconds 2
def meshQueueRetryDelay : Time := milliseconds 250
def meshTurnRecovery : Time := seconds 12
def maxPendingMeshSamples : Nat := 32
def maxQueuedMeshAcks : Nat := 128

/-! ## Bytes and 16-bit fields -/

def byteAt (data : Bytes) (i : Nat) : UInt8 := data.getD i 0

/-- The little-endian field at `i`. -/
def u16At (data : Bytes) (i : Nat) : UInt16 :=
  (byteAt data i).toUInt16 ||| ((byteAt data (i + 1)).toUInt16 <<< 8)

def u16Bytes (value : UInt16) : Bytes := [value.toUInt8, (value >>> 8).toUInt8]

/-- The two bytes of a 16-bit value give the value back. -/
theorem u16_of_bytes (v : UInt16) :
    v.toUInt8.toUInt16 ||| ((v >>> 8).toUInt8.toUInt16 <<< 8) = v := by
  apply UInt16.toNat_inj.mp
  have hv : v.toNat < 65536 := v.toNat_lt
  have h8 : UInt16.toNat 8 % 16 = 8 := rfl
  have hhigh : v.toNat / 256 % 256 * 256 % 65536 = v.toNat / 256 * 256 := by omega
  simp only [UInt16.toNat_or, UInt8.toNat_toUInt16, UInt16.toNat_toUInt8,
    UInt16.toNat_shiftLeft, UInt16.toNat_shiftRight, h8, Nat.shiftRight_eq_div_pow,
    Nat.shiftLeft_eq, Nat.reducePow, hhigh]
  have hor := Nat.shiftLeft_add_eq_or_of_lt (show v.toNat % 256 < 2 ^ 8 by omega)
    (v.toNat / 256)
  rw [Nat.shiftLeft_eq] at hor
  rw [Nat.or_comm, ← hor]
  omega

/-! ## Frames -/

def meshReliableSequence (data : Bytes) : UInt16 := u16At data 4

def meshReliableSwarmId (data : Bytes) : UInt16 := u16At data 6

/-- The kind of a frame. -/
def frameKind (data : Bytes) : UInt8 := byteAt data 3

/-- The vendor opcode of a frame, as the receipt key holds it. -/
def vendorOpcode (data : Bytes) : UInt32 :=
  (byteAt data 0).toUInt32 ||| ((byteAt data 1).toUInt32 <<< 8) |||
    ((byteAt data 2).toUInt32 <<< 16)

/-- The channel field of a data frame. -/
def frameChannel (data : Bytes) : UInt16 := u16At data 8

/-- `frame[3] = kind`. -/
def withKind (kind : UInt8) (data : Bytes) : Bytes := data.set 3 kind

/-- What `TransportBridgeManager::dispatch` hands to the Mesh sender: the vendor prefix, the
magic, the version and the channel before the encoded value. -/
def bridgePayload (bridge : SharedTopicConfig) (body : Bytes) : Bytes :=
  [bridge.meshVendorOpcode] ++ u16Bytes bridge.meshCompanyId ++ [0x4d, 0x42, 1] ++
    u16Bytes bridge.channelId ++ body

def makeMeshReliableData (payload : Bytes) (sequence swarmId : UInt16) : Bytes :=
  payload.take meshVendorPrefixBytes ++ [reliableDataNoTurn] ++ u16Bytes sequence ++
    u16Bytes swarmId ++ [byteAt payload 6, byteAt payload 7] ++
    payload.drop (meshVendorPrefixBytes + bridgeFramePrefixBytes)

/-- The acknowledgement of a data frame or a receipt query. -/
def acknowledgementOf (data : Bytes) : Bytes :=
  data.take meshVendorPrefixBytes ++ [reliableAck] ++ u16Bytes (meshReliableSequence data) ++
    u16Bytes (meshReliableSwarmId data)

/-- The receipt query for an outstanding data frame. -/
def receiptQueryOf (data : Bytes) : Bytes :=
  withKind reliableReceiptQuery (data.take reliableAckHeaderBytes)

def isMeshReliableFrame (data : Bytes) : Bool :=
  decide (reliableAckHeaderBytes ≤ data.length) &&
    (frameKind data == reliableData || frameKind data == reliableDataNoTurn ||
      frameKind data == reliableAck || frameKind data == reliableReceiptQuery)

/-- A complete data frame of either kind. -/
def isDataFrame (data : Bytes) : Bool :=
  (frameKind data == reliableData || frameKind data == reliableDataNoTurn) &&
    decide (reliableDataHeaderBytes ≤ data.length)

/-- The receiver's reconstruction of the bridge frame. -/
def decodedFrame (data : Bytes) : Bytes :=
  data.take meshVendorPrefixBytes ++ [0x4d, 0x42, 1, byteAt data 8, byteAt data 9] ++
    data.drop reliableDataHeaderBytes

/-! ## Frames of bridge payloads -/

@[simp] theorem meshReliableSequence_make (payload : Bytes) (sequence swarmId : UInt16)
    (h : 3 ≤ payload.length) :
    meshReliableSequence (makeMeshReliableData payload sequence swarmId) = sequence := by
  match payload, h with
  | _ :: _ :: _ :: _, _ => exact u16_of_bytes sequence

@[simp] theorem meshReliableSwarmId_make (payload : Bytes) (sequence swarmId : UInt16)
    (h : 3 ≤ payload.length) :
    meshReliableSwarmId (makeMeshReliableData payload sequence swarmId) = swarmId := by
  match payload, h with
  | _ :: _ :: _ :: _, _ => exact u16_of_bytes swarmId

theorem byteAt_withKind (kind : UInt8) (data : Bytes) {i : Nat} (h : i ≠ 3) :
    byteAt (withKind kind data) i = byteAt data i := by
  simp [byteAt, withKind, List.getD_eq_getElem?_getD, Ne.symm h]

theorem frameKind_withKind (kind : UInt8) {data : Bytes} (h : 3 < data.length) :
    frameKind (withKind kind data) = kind := by
  simp [frameKind, byteAt, withKind, List.getD_eq_getElem?_getD, h]

@[simp] theorem length_withKind (kind : UInt8) (data : Bytes) :
    (withKind kind data).length = data.length := by
  simp [withKind]

@[simp] theorem meshReliableSequence_withKind (kind : UInt8) (data : Bytes) :
    meshReliableSequence (withKind kind data) = meshReliableSequence data := by
  simp [meshReliableSequence, u16At, byteAt_withKind]

@[simp] theorem meshReliableSwarmId_withKind (kind : UInt8) (data : Bytes) :
    meshReliableSwarmId (withKind kind data) = meshReliableSwarmId data := by
  simp [meshReliableSwarmId, u16At, byteAt_withKind]

@[simp] theorem vendorOpcode_withKind (kind : UInt8) (data : Bytes) :
    vendorOpcode (withKind kind data) = vendorOpcode data := by
  simp [vendorOpcode, byteAt_withKind]

@[simp] theorem decodedFrame_withKind (kind : UInt8) (data : Bytes) :
    decodedFrame (withKind kind data) = decodedFrame data := by
  have htake : (withKind kind data).take 3 = data.take 3 := by
    rw [withKind, List.take_set]
    exact List.set_eq_of_length_le (by simp)
  have hdrop : (withKind kind data).drop 10 = data.drop 10 := by
    simp [withKind, List.drop_set]
  simp [decodedFrame, meshVendorPrefixBytes, reliableDataHeaderBytes, htake, hdrop,
    byteAt_withKind]

/-- **The receiver hands the sender's bridge frame to its own bridge.** -/
theorem decodedFrame_make (bridge : SharedTopicConfig) (body : Bytes)
    (sequence swarmId : UInt16) :
    decodedFrame (makeMeshReliableData (bridgePayload bridge body) sequence swarmId) =
      bridgePayload bridge body := rfl

/-- The value is a bridge frame of its channel. -/
def Framed (bridge : SharedTopicConfig) (payload : Bytes) : Prop :=
  ∃ body, payload = bridgePayload bridge body

/-! ## Addresses -/

/-- Insert into an ascending list without repetition. -/
def insertAddress (address : UInt16) : List UInt16 → List UInt16
  | [] => [address]
  | a :: as =>
      if address < a then address :: a :: as
      else if address = a then a :: as
      else a :: insertAddress address as

/-- `std::sort` followed by `std::unique` and `erase`. -/
def sortedUnique (addresses : List UInt16) : List UInt16 :=
  addresses.foldr insertAddress []

/-- The members of a turn ring in address order. -/
def meshTurnMembers (localAddress : UInt16) (peers : List UInt16) : List UInt16 :=
  sortedUnique (peers ++ [localAddress])

@[simp] theorem mem_insertAddress {address b : UInt16} {as : List UInt16} :
    b ∈ insertAddress address as ↔ b = address ∨ b ∈ as := by
  induction as with
  | nil => simp [insertAddress]
  | cons a as ih =>
      unfold insertAddress
      split
      · simp
      · split
        · rename_i heq
          simp [heq]
        · simp only [List.mem_cons, ih]
          tauto

@[simp] theorem mem_sortedUnique {b : UInt16} {as : List UInt16} :
    b ∈ sortedUnique as ↔ b ∈ as := by
  induction as with
  | nil => simp [sortedUnique]
  | cons a as ih =>
      have : sortedUnique (a :: as) = insertAddress a (sortedUnique as) := rfl
      rw [this, mem_insertAddress, ih, List.mem_cons]

end UavBluetooth.Mesh
