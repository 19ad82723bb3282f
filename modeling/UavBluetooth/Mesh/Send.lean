import UavBluetooth.Mesh.State

set_option autoImplicit false

/-! # Sending a bridge payload

The critical sections of `send_mesh_bridge_payload_impl`, as functions of the reliability
state: gating, arbitration of the turn, admission of a sample, and the roll-back when the
daemon took no copy of it.
-/

namespace UavBluetooth.Mesh

open Config

/-- One call of `send_mesh_bridge_payload_impl`. -/
structure Send where
  bridge : SharedTopicConfig
  payload : Bytes
  /-- Resumed by maintenance, or fresh from the bridge. -/
  resumed : Bool
  deriving DecidableEq, Repr

def Send.key (send : Send) : UInt64 := channelKey send.bridge

/-- `store_latest_locked`: a resumed value does not replace a newer one. -/
def storeLatest (send : Send) (r : MeshReliable) : MeshReliable :=
  { r with
    latest :=
      if send.resumed then r.latest.insertIfNew send.key (send.bridge, send.payload)
      else r.latest.insert send.key (send.bridge, send.payload) }

/-- A fresh value takes the channel's waiting place before it is sent. -/
def dropLatest (send : Send) (r : MeshReliable) : MeshReliable :=
  { r with latest := r.latest.erase send.key }

/-- The payload starts with a vendor prefix and a bridge frame. -/
def validPayload (payload : Bytes) : Bool :=
  decide (meshVendorPrefixBytes + bridgeFramePrefixBytes ≤ payload.length) &&
    byteAt payload 3 == 0x4d && byteAt payload 4 == 0x42 && byteAt payload 5 == 1

/-! ## Arbitration -/

/-- What the arbitration decides about the sample to be sent. -/
structure Admission where
  sequence : UInt16
  targets : List UInt16
  /-- The receiver of the hand-off copy; 0 for none. -/
  successor : UInt16 := 0
  consumesTurn : Bool := false
  deriving DecidableEq, Repr

/-- The first probe candidate, from the cursor on, whose backoff is over, with the cursor
behind it. -/
def probeCandidate (now : Time) (peer : UInt16 → MeshReliablePeerState)
    (candidates : List UInt16) (cursor : Nat) : Option (UInt16 × Nat) :=
  (List.range candidates.length).findSome? fun offset =>
    let index := (cursor + offset) % candidates.length
    let address := candidates.getD index 0
    if now < (peer address).retryAfter then none else some (address, index + 1)

/-- The targets of the fan-out: the live members and at most one due probe. -/
def chooseTargets (now : Time) (members probes : List UInt16) (r : MeshReliable) :
    List UInt16 × MeshReliable :=
  if probes ≠ [] ∧ r.nextProbeAt ≤ now then
    match probeCandidate now r.peer probes r.probeCursor with
    | some (address, cursor) =>
        (sortedUnique (members ++ [address]),
          { r with probeCursor := cursor, nextProbeAt := now + seconds 10 })
    | none => (sortedUnique members, r)
  else (sortedUnique members, r)

/-- `do sequence = ++next; while (pending.contains(sequence))`. After `fuel` tries without a free
sequence there is no result: with 65536 of them every sequence has been tried, and the loop of
the source does not end. -/
def nextFreeSequence (pending : Std.ExtTreeMap UInt16 MeshReliablePending) :
    Nat → UInt32 → Option UInt32
  | 0, _ => none
  | fuel + 1, next =>
      if (next + 1).toUInt16 ∈ pending then nextFreeSequence pending fuel (next + 1)
      else some (next + 1)

/-- The number of sequences. -/
def sequenceCount : Nat := 65536

/-- The member after `address` in the ring. -/
def ringSuccessor (members : List UInt16) (address : UInt16) : UInt16 :=
  match (members.dropWhile (· ≠ address)).drop 1 with
  | next :: _ => next
  | [] => members.headD 0

/-- The turn as arbitration finds it: made on first use, refreshed with the membership, and
recovered by the lowest member after the deadline. -/
def refreshTurn (now : Time) (localAddress : UInt16) (members : List UInt16)
    (turn : MeshReliableTurn) : MeshReliableTurn :=
  let lowest : Bool := members.head? == some localAddress
  let turn :=
    if turn.initialized then { turn with members := members }
    else { members := members, initialized := true, permitted := lowest
           reclaimAt := now + meshTurnRecovery }
  if !turn.permitted && lowest && decide (turn.reclaimAt ≤ now) then
    { turn with permitted := true }
  else turn

/-- The turn part of the arbitration, after `sequence` was allocated. Without the turn the value
goes back to its waiting place and there is no admission. -/
def arbitrateTurn (now : Time) (send : Send) (addresses members targets : List UInt16)
    (sequence : UInt16) (r : MeshReliable) : MeshReliable × Option Admission :=
  match members, addresses with
  | _ :: _, localAddress :: _ =>
      let ring := meshTurnMembers localAddress members
      let turn := refreshTurn now localAddress ring (r.turn send.key)
      let r := { r with turns := r.turns.insert send.key turn }
      if turn.permitted then
        (r, some { sequence := sequence, targets := targets
                   successor := ringSuccessor ring localAddress, consumesTurn := true })
      else (storeLatest send r, none)
  | _, _ => (r, some { sequence := sequence, targets := targets })

/-- The critical section that chooses targets, sequence and turn. Without targets the value goes
back to its waiting place. -/
def arbitrate (now : Time) (send : Send) (addresses members probes : List UInt16)
    (r : MeshReliable) : Option (MeshReliable × Option Admission) :=
  let (targets, r) := chooseTargets now members probes r
  if targets = [] then some (storeLatest send r, none)
  else
    (nextFreeSequence r.pending sequenceCount r.nextSequence).map fun next =>
      arbitrateTurn now send addresses members targets next.toUInt16
        { r with nextSequence := next }

/-! ## Admission -/

/-- The oldest pending sample, the first of equals. -/
def oldestSample : List (UInt16 × MeshReliablePending) → Option (UInt16 × MeshReliablePending)
  | [] => none
  | item :: rest =>
      match oldestSample rest with
      | none => some item
      | some other => if other.2.created < item.2.created then some other else some item

/-- Make room in the full queue. -/
def evictOldest (r : MeshReliable) : MeshReliable :=
  if r.pending.size < maxPendingMeshSamples then r
  else
    match oldestSample r.pending.toList with
    | none => r
    | some (sequence, sample) =>
        { r with
          transferCancellations := r.transferCancellations ++
            sample.primaryTransfer.toList ++ targetTransfers sample
          pending := r.pending.erase sequence }

/-- The sequence that admission evicts, if it does. -/
def evicted (r : MeshReliable) : Option UInt16 :=
  if r.pending.size < maxPendingMeshSamples then none
  else (oldestSample r.pending.toList).map (·.1)

def freshTarget (now : Time) : MeshReliableTarget where
  retryAt := now + seconds 5
  receiptQueryAt := now + receiptQueryPeriod
  transferCheckAt := now

/-- The sample that admission enters. -/
def newSample (now : Time) (send : Send) (adm : Admission) (data : Bytes) :
    MeshReliablePending where
  channelKey := send.key
  data := data
  awaiting := adm.targets.foldl
    (fun awaiting peer => awaiting.insertIfNew peer (freshTarget now)) ∅
  appKeyIndex := send.bridge.meshAppKeyIndex
  elementIndex := send.bridge.meshElementIndex
  turnSuccessor := adm.successor
  forceSegmented := send.bridge.meshForceSegmented
  nativeCompletionReleasesChannel := adm.targets.length == 1
  created := now

/-- The critical section that enters the sample. -/
def admitSample (now : Time) (send : Send) (adm : Admission) (data : Bytes)
    (r : MeshReliable) : MeshReliable :=
  let r := evictOldest r
  { r with pending := r.pending.insertIfNew adm.sequence (newSample now send adm data) }

/-- The critical section that gives the turn away. -/
def consumeTurn (now : Time) (key : UInt64) (r : MeshReliable) : MeshReliable :=
  { r with
    turns := r.turns.insert key
      { r.turn key with permitted := false, reclaimAt := now + meshTurnRecovery } }

/-- The first transmission to one target. -/
def fanOutFrame (adm : Admission) (data : Bytes) (destination : UInt16) : Bytes :=
  withKind (if destination = adm.successor then reliableData else reliableDataNoTurn) data

/-- The critical section after the daemon took no copy: the sample is withdrawn, its value
waits again, and the turn stays here. -/
def rollBack (send : Send) (adm : Admission) (r : MeshReliable) : MeshReliable :=
  let r := storeLatest send { r with pending := r.pending.erase adm.sequence }
  if adm.consumesTurn then
    { r with turns := r.turns.insert send.key { r.turn send.key with permitted := true } }
  else r

end UavBluetooth.Mesh
