import UavBluetooth.Mesh.State

set_option autoImplicit false

/-! # Receiving reliable frames

The critical sections of `publish_mesh_message`: an acknowledgement ends the wait for its
sender, a receipt query is answered from the receipts, and a data frame is decoded unless its
receipt is already there.
-/

namespace UavBluetooth.Mesh

/-- An acknowledgement that belongs to the sample: same AppKey, vendor prefix and swarm. -/
def ackMatches (m : ReceivedMessage) (sample : MeshReliablePending) : Bool :=
  sample.appKeyIndex == m.keyIndex &&
    m.data.take meshVendorPrefixBytes == sample.data.take meshVendorPrefixBytes &&
    meshReliableSwarmId m.data == meshReliableSwarmId sample.data

/-- The critical section for an acknowledgement. -/
def receiveAck (m : ReceivedMessage) (r : MeshReliable) : MeshReliable :=
  let sequence := meshReliableSequence m.data
  match r.pending[sequence]? with
  | none => r
  | some sample =>
      if ackMatches m sample then
        let r := { r with peers := r.peers.insert m.source {} }
        match sample.awaiting[m.source]? with
        | none => r
        | some target =>
            { r with
              transferCancellations := r.transferCancellations ++ target.transfer.toList
              pending := r.pending.insert sequence
                { sample with awaiting := sample.awaiting.erase m.source } }
      else r

/-- The sequence and the target that an acknowledgement releases. -/
def ackReleases (m : ReceivedMessage) (r : MeshReliable) : Bool :=
  match r.pending[meshReliableSequence m.data]? with
  | none => false
  | some sample => ackMatches m sample && sample.awaiting.contains m.source

/-- Queue an acknowledgement, unless the queue is full or holds it already. -/
def queueAck (m : ReceivedMessage) (r : MeshReliable) : MeshReliable :=
  let ack : MeshReliableAck := ⟨m.source, m.keyIndex, acknowledgementOf m.data⟩
  if maxQueuedMeshAcks ≤ r.acks.length then r
  else if ack ∈ r.acks then r
  else { r with acks := r.acks ++ [ack] }

/-- The critical section for a receipt query. -/
def receiveQuery (m : ReceivedMessage) (r : MeshReliable) : MeshReliable :=
  match r.seen[m.seenKey]? with
  | some seen => if seen.delivered then queueAck m r else r
  | none => r

/-- The first critical section for a data frame: whether it is to be decoded. -/
def receiveData (now : Time) (m : ReceivedMessage) (r : MeshReliable) : MeshReliable × Bool :=
  match r.seen[m.seenKey]? with
  | some seen => (if seen.delivered then queueAck m r else r, false)
  | none => ({ r with seen := r.seen.insert m.seenKey { last := now } }, true)

/-- The turn that a published data frame sets at its receiver. -/
def handedTurn (now : Time) (localAddress : UInt16) (members : List UInt16)
    (m : ReceivedMessage) : MeshReliableTurn where
  members := meshTurnMembers localAddress members
  initialized := true
  permitted := frameKind m.data == reliableData
  reclaimAt := now + meshTurnRecovery

/-- The second critical section for a data frame, after the bridge has decoded and published it
or not. `localAddress` is 0 when the node does not know its address or keeps no turn. -/
def finishData (now : Time) (delivered : Bool) (localAddress : UInt16) (members : List UInt16)
    (m : ReceivedMessage) (r : MeshReliable) : MeshReliable :=
  match r.seen[m.seenKey]? with
  | none => r
  | some seen =>
      if delivered then
        let r := queueAck m
          { r with seen := r.seen.insert m.seenKey { seen with delivered := true, last := now } }
        if localAddress = 0 then r
        else
          { r with
            turns := r.turns.insert m.channelKey (handedTurn now localAddress members m) }
      else { r with seen := r.seen.erase m.seenKey }

end UavBluetooth.Mesh
