import UavBluetooth.Mesh.Wire

set_option autoImplicit false

/-! # The reliability state of a node

The members of `ServiceNode` behind `mesh_reliable_mutex_` (`service_node.hpp`), with their
record types. An absent entry of `peers` or `turns` stands for the default one, as `operator[]`
makes it.
-/

namespace UavBluetooth.Mesh

open Config

/-- A daemon transfer with the attachment that created it. -/
structure SendHandle where
  transfer : UInt64
  attachment : UInt64
  deriving DecidableEq, Repr

structure MeshReliableTarget where
  attempts : Nat := 0
  transfer : Option SendHandle := none
  retryAt : Time
  receiptQueryAt : Time
  transferCheckAt : Time
  deriving DecidableEq, Repr

structure MeshReliablePending where
  channelKey : UInt64
  data : Bytes
  awaiting : Std.ExtTreeMap UInt16 MeshReliableTarget := ∅
  primaryTransfer : Option SendHandle := none
  appKeyIndex : UInt16
  elementIndex : UInt8
  /-- The one receiver of the hand-off copy; 0 for none. -/
  turnSuccessor : UInt16 := 0
  forceSegmented : Bool := true
  nativeCompletionReleasesChannel : Bool := false
  blocksChannel : Bool := true
  created : Time

/-- The handles of a sample's targets, in address order. -/
def targetTransfers (sample : MeshReliablePending) : List SendHandle :=
  sample.awaiting.toList.filterMap (·.2.transfer)

structure MeshReliableSeen where
  last : Time
  delivered : Bool := false
  deriving DecidableEq, Repr

structure MeshReliableAck where
  destination : UInt16
  appKeyIndex : UInt16
  data : Bytes
  deriving DecidableEq, Repr

structure MeshReliablePeerState where
  transportBusyUntil : Time := 0
  consecutiveExpiries : Nat := 0
  retryAfter : Time := 0
  deriving DecidableEq, Repr

structure MeshReliableTurn where
  members : List UInt16 := []
  initialized : Bool := false
  permitted : Bool := false
  reclaimAt : Time := 0
  deriving DecidableEq, Repr

/-- The receipt identity. -/
structure MeshReliableSeenKey where
  source : UInt16
  keyIndex : UInt16
  swarmId : UInt16
  vendorOpcode : UInt32
  sequence : UInt16
  deriving DecidableEq, Repr

/-- The lexicographic order of the tuple. -/
def MeshReliableSeenKey.cmp : MeshReliableSeenKey → MeshReliableSeenKey → Ordering :=
  compareLex (compareOn (·.source)) <|
    compareLex (compareOn (·.keyIndex)) <|
      compareLex (compareOn (·.swarmId)) <|
        compareLex (compareOn (·.vendorOpcode)) (compareOn (·.sequence))

instance : Ord MeshReliableSeenKey := ⟨MeshReliableSeenKey.cmp⟩

instance : Std.TransOrd MeshReliableSeenKey := by
  show Std.TransCmp MeshReliableSeenKey.cmp
  unfold MeshReliableSeenKey.cmp
  infer_instance

instance : Std.LawfulEqOrd MeshReliableSeenKey where
  eq_of_compare := by
    intro a b h
    have h' : MeshReliableSeenKey.cmp a b = .eq := h
    simp only [MeshReliableSeenKey.cmp, compareLex, compareOn, Ordering.then_eq_eq,
      Std.LawfulEqCmp.compare_eq_iff_eq] at h'
    cases a
    cases b
    simp_all

structure MeshReliable where
  pending : Std.ExtTreeMap UInt16 MeshReliablePending := ∅
  latest : Std.ExtTreeMap UInt64 (SharedTopicConfig × Bytes) := ∅
  seen : Std.ExtTreeMap MeshReliableSeenKey MeshReliableSeen := ∅
  acks : List MeshReliableAck := []
  transferCancellations : List SendHandle := []
  peers : Std.ExtTreeMap UInt16 MeshReliablePeerState := ∅
  turns : Std.ExtTreeMap UInt64 MeshReliableTurn := ∅
  nextProbeAt : Time := 0
  probeCursor : Nat := 0
  nextSequence : UInt32 := 0

/-- `mesh_reliable_peers_[peer]`. -/
def MeshReliable.peer (r : MeshReliable) (address : UInt16) : MeshReliablePeerState :=
  r.peers[address]?.getD {}

/-- `mesh_reliable_turns_[channel_key]`. -/
def MeshReliable.turn (r : MeshReliable) (channelKey : UInt64) : MeshReliableTurn :=
  r.turns[channelKey]?.getD {}

/-- The key under which a node keeps the state of one bridge channel. -/
def channelKeyOf (elementIndex : UInt8) (appKeyIndex channel : UInt16) : UInt64 :=
  (elementIndex.toUInt64 <<< 32) ||| (appKeyIndex.toUInt64 <<< 16) ||| channel.toUInt64

def channelKey (bridge : SharedTopicConfig) : UInt64 :=
  channelKeyOf bridge.meshElementIndex bridge.meshAppKeyIndex bridge.channelId

/-- A message from `Element1.MessageReceived`. -/
structure ReceivedMessage where
  elementIndex : UInt8 := 0
  source : UInt16
  destination : UInt16
  keyIndex : UInt16
  data : Bytes
  deriving DecidableEq, Repr

/-- The receipt identity of a received data frame or query. -/
def ReceivedMessage.seenKey (m : ReceivedMessage) : MeshReliableSeenKey where
  source := m.source
  keyIndex := m.keyIndex
  swarmId := meshReliableSwarmId m.data
  vendorOpcode := vendorOpcode m.data
  sequence := meshReliableSequence m.data

/-- The channel key under which a receiver keeps the turn. -/
def ReceivedMessage.channelKey (m : ReceivedMessage) : UInt64 :=
  channelKeyOf m.elementIndex m.keyIndex (frameChannel m.data)

end UavBluetooth.Mesh
