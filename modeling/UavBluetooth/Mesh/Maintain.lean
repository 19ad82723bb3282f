import UavBluetooth.Mesh.State

set_option autoImplicit false

/-! # Transfer bookkeeping and periodic maintenance

The critical sections of `remember_mesh_transfer`, `clear_mesh_reliable_state` and
`maintain_mesh_reliable`, as functions of the reliability state. The maintenance sweep visits
every pending sample in the order of its sequence: it drops finished and expired samples,
folds a waiting value into an outstanding one, and schedules queries and repairs.
-/

namespace UavBluetooth.Mesh

open Config

/-! ## Transfers -/

/-- The critical section of `remember_mesh_transfer`. -/
def rememberMeshTransfer (sequence destination : UInt16) (handle : SendHandle) (now : Time)
    (r : MeshReliable) : MeshReliable :=
  match r.pending[sequence]? with
  | some sample =>
      match sample.awaiting[destination]? with
      | some target =>
          let target := { target with
            transfer := some handle, transferCheckAt := now + milliseconds 100 }
          let sample := { sample with
            awaiting := sample.awaiting.insert destination target, blocksChannel := true }
          { r with pending := r.pending.insert sequence sample }
      | none =>
          let sample := { sample with primaryTransfer := some handle }
          { r with pending := r.pending.insert sequence sample }
  | none => { r with transferCancellations := r.transferCancellations ++ [handle] }

/-- The critical section of `clear_mesh_reliable_state`. -/
def clearMeshReliableState (preserveLatest : Bool) (r : MeshReliable) : MeshReliable where
  transferCancellations := r.transferCancellations ++
    r.pending.toList.flatMap fun (_, sample) =>
      sample.primaryTransfer.toList ++ targetTransfers sample
  latest := if preserveLatest then r.latest else ∅
  nextSequence := r.nextSequence

/-! ## The sweep -/

structure Outbound where
  destination : UInt16
  appKeyIndex : UInt16
  elementIndex : UInt8
  segmented : Bool
  acknowledgement : Bool
  data : Bytes
  transfer : Option SendHandle := none
  deriving DecidableEq, Repr

structure TransferCheck where
  sequence : UInt16
  destination : UInt16
  handle : SendHandle
  deriving DecidableEq, Repr

/-- The local variables of the loop over one sample's targets. -/
structure TargetSweep where
  awaiting : Std.ExtTreeMap UInt16 MeshReliableTarget
  outbound : List Outbound
  checks : List TransferCheck
  scheduledRepairs : List UInt16

/-- The frame that repairs `data` at `peer`: only the successor's copy hands the turn on. -/
def repairFrame (sample : MeshReliablePending) (peer : UInt16) : Bytes :=
  withKind (if peer = sample.turnSuccessor then reliableData else reliableDataNoTurn)
    sample.data

/-- The transfer of a target that is to be checked now. -/
def dueCheck (now : Time) (sample : MeshReliablePending) (target : MeshReliableTarget) :
    Option SendHandle :=
  target.transfer.filter fun _ =>
    sample.nativeCompletionReleasesChannel && decide (target.transferCheckAt ≤ now)

/-- The target with the time of its next check. -/
def afterCheck (now : Time) (sample : MeshReliablePending) (target : MeshReliableTarget) :
    MeshReliableTarget :=
  if (dueCheck now sample target).isSome then
    { target with transferCheckAt := now + milliseconds 100 }
  else target

/-- One iteration of the loop over a sample's targets. Six outgoing frames end the loop. -/
def sweepTarget (now : Time) (peers : UInt16 → MeshReliablePeerState) (sequence : UInt16)
    (sample : MeshReliablePending) (acc : TargetSweep)
    (item : UInt16 × MeshReliableTarget) : TargetSweep :=
  if 6 ≤ acc.outbound.length then acc
  else
    let peer := item.1
    let target := afterCheck now sample item.2
    let checks := acc.checks ++ (dueCheck now sample item.2).toList.map (⟨sequence, peer, ·⟩)
    if target.receiptQueryAt ≤ now ∧ now < target.retryAt then
      { acc with
        checks := checks
        outbound := acc.outbound ++ [{
          destination := peer, appKeyIndex := sample.appKeyIndex
          elementIndex := sample.elementIndex, segmented := false, acknowledgement := false
          data := receiptQueryOf sample.data, transfer := target.transfer }]
        awaiting := acc.awaiting.insert peer
          { target with receiptQueryAt := now + receiptQueryPeriod } }
    else if now < target.retryAt ∨ 3 ≤ target.attempts ∨ peer ∈ acc.scheduledRepairs ∨
        now < (peers peer).retryAfter then
      { acc with checks := checks, awaiting := acc.awaiting.insert peer target }
    else
      { checks := checks
        outbound := acc.outbound ++ [{
          destination := peer, appKeyIndex := sample.appKeyIndex
          elementIndex := sample.elementIndex, segmented := sample.forceSegmented
          acknowledgement := false, data := repairFrame sample peer }]
        scheduledRepairs := acc.scheduledRepairs ++ [peer]
        awaiting := acc.awaiting.insert peer
          { target with
            attempts := target.attempts + 1
            receiptQueryAt := now + receiptQueryPeriod
            retryAt := now + seconds (4 * (target.attempts + 2)) } }

/-- What became of a sample in a sweep. -/
inductive SweepEvent where
  | finished (sequence : UInt16)
  | expired (sequence : UInt16)
  | folded (sequence : UInt16) (channelKey : UInt64) (payload : Bytes)
  deriving DecidableEq, Repr

/-- The local variables of the loop over the pending samples. -/
structure Sweep where
  pending : Std.ExtTreeMap UInt16 MeshReliablePending
  latest : Std.ExtTreeMap UInt64 (SharedTopicConfig × Bytes)
  transferCancellations : List SendHandle
  peers : Std.ExtTreeMap UInt16 MeshReliablePeerState
  outbound : List Outbound
  checks : List TransferCheck := []
  scheduledRepairs : List UInt16 := []
  events : List SweepEvent := []

/-- An expiry backs the peer off for up to 30 seconds. -/
def penalize (now : Time) (peers : Std.ExtTreeMap UInt16 MeshReliablePeerState)
    (peer : UInt16) : Std.ExtTreeMap UInt16 MeshReliablePeerState :=
  let state := peers[peer]?.getD {}
  let expiries := min (state.consecutiveExpiries + 1) 6
  peers.insert peer { state with
    consecutiveExpiries := expiries, retryAfter := now + seconds (min (5 * expiries) 30) }

/-- The waiting value of the channel repairs the outstanding receipt identity. -/
def foldLatest (latest : Std.ExtTreeMap UInt64 (SharedTopicConfig × Bytes))
    (sequence : UInt16) (sample : MeshReliablePending) : MeshReliablePending :=
  match latest[sample.channelKey]? with
  | some (_, payload) =>
      { sample with
        data := makeMeshReliableData payload sequence (meshReliableSwarmId sample.data) }
  | none => sample

/-- The targets of one sample, swept. -/
def sweepTargets (now : Time) (sequence : UInt16) (sample : MeshReliablePending)
    (acc : Sweep) : TargetSweep :=
  sample.awaiting.toList.foldl
    (sweepTarget now (fun peer => acc.peers[peer]?.getD {}) sequence sample)
    { awaiting := sample.awaiting, outbound := acc.outbound, checks := acc.checks
      scheduledRepairs := acc.scheduledRepairs }

/-- One iteration of the loop over the pending samples. -/
def sweepSample (now : Time) (acc : Sweep) (item : UInt16 × MeshReliablePending) : Sweep :=
  let sequence := item.1
  let sample := item.2
  if sample.awaiting.isEmpty then
    { acc with
      transferCancellations := acc.transferCancellations ++ sample.primaryTransfer.toList
      pending := acc.pending.erase sequence
      events := acc.events ++ [.finished sequence] }
  else if seconds 30 < now - sample.created then
    { acc with
      transferCancellations := acc.transferCancellations ++ targetTransfers sample ++
        sample.primaryTransfer.toList
      peers := (sample.awaiting.toList.map (·.1)).foldl (penalize now) acc.peers
      pending := acc.pending.erase sequence
      events := acc.events ++ [.expired sequence] }
  else
    let folded := foldLatest acc.latest sequence sample
    let swept := sweepTargets now sequence folded acc
    { acc with
      pending := acc.pending.insert sequence { folded with awaiting := swept.awaiting }
      latest := acc.latest.erase sample.channelKey
      outbound := swept.outbound
      checks := swept.checks
      scheduledRepairs := swept.scheduledRepairs
      events := acc.events ++
        (acc.latest[sample.channelKey]?).toList.map
          fun value => .folded sequence sample.channelKey value.2 }

/-- Whether a transfer on the channel still awaits completion. -/
def channelBusy (pending : Std.ExtTreeMap UInt16 MeshReliablePending) (key : UInt64) : Bool :=
  pending.toList.any fun item => item.2.channelKey == key && item.2.blocksChannel

/-- A receipt is kept for 90 seconds. -/
def receiptAged (now : Time) (seen : MeshReliableSeen) : Bool :=
  decide (seconds 90 < now - seen.last)

def ackOutbound (ack : MeshReliableAck) : Outbound where
  destination := ack.destination
  appKeyIndex := ack.appKeyIndex
  elementIndex := 0
  segmented := false
  acknowledgement := true
  data := ack.data

/-- The loop over the pending samples, after the receipts are aged and up to four
acknowledgements are taken. -/
def sweepLoop (now : Time) (r : MeshReliable) : Sweep :=
  r.pending.toList.foldl (sweepSample now)
    { pending := r.pending, latest := r.latest
      transferCancellations := r.transferCancellations, peers := r.peers
      outbound := (r.acks.take 4).map ackOutbound }

/-- The state after the big critical section of `maintain_mesh_reliable`. -/
def sweepState (now : Time) (r : MeshReliable) : MeshReliable :=
  let loop := sweepLoop now r
  { r with
    seen := r.seen.filter fun _ seen => !receiptAged now seen
    acks := r.acks.drop 4
    pending := loop.pending
    transferCancellations := loop.transferCancellations
    peers := loop.peers
    latest := loop.latest.filter fun key _ => channelBusy loop.pending key }

/-- The waiting values that the sweep moves out to be sent. -/
def sweepReady (now : Time) (r : MeshReliable) : List (SharedTopicConfig × Bytes) :=
  let loop := sweepLoop now r
  (loop.latest.toList.filter fun item => !channelBusy loop.pending item.1).map (·.2)

/-- The receipts that the sweep forgets. -/
def sweepAged (now : Time) (r : MeshReliable) : List MeshReliableSeenKey :=
  (r.seen.toList.filter fun item => receiptAged now item.2).map (·.1)

/-- The critical section after a transfer is found complete: it no longer blocks its
channel. -/
def transferCompleted (check : TransferCheck) (r : MeshReliable) : MeshReliable :=
  match r.pending[check.sequence]? with
  | none => r
  | some sample =>
      match sample.awaiting[check.destination]? with
      | none => r
      | some target =>
          if target.transfer = some check.handle then
            let target := { target with transfer := none }
            let sample := { sample with
              awaiting := sample.awaiting.insert check.destination target
              blocksChannel := false }
            { r with pending := r.pending.insert check.sequence sample }
          else r

/-- `transport_busy_until` of a peer. -/
def deferPeer (destination : UInt16) (retryAt : Time) (r : MeshReliable) : MeshReliable :=
  { r with
    peers := r.peers.insert destination
      { r.peer destination with transportBusyUntil := retryAt } }

/-- Change the timing of one outstanding target, if it is still there. -/
def retryTarget (sequence destination : UInt16) (f : MeshReliableTarget → MeshReliableTarget)
    (r : MeshReliable) : MeshReliable :=
  match r.pending[sequence]? with
  | none => r
  | some sample =>
      match sample.awaiting[destination]? with
      | none => r
      | some target =>
          { r with
            pending := r.pending.insert sequence
              { sample with awaiting := sample.awaiting.insert destination (f target) } }

/-- The critical section after the daemon was busy with a query, a repair or a receipt: the
attempt does not count. -/
def outboundBusy (item : Outbound) (now : Time) (r : MeshReliable) : MeshReliable :=
  let retryAt := now + meshQueueRetryDelay
  retryTarget (meshReliableSequence item.data) item.destination
    (fun target => { target with attempts := target.attempts - 1, retryAt := retryAt })
    (deferPeer item.destination retryAt r)

/-- The critical section after an acknowledgement could not be sent. -/
def requeueAck (item : Outbound) (r : MeshReliable) : MeshReliable :=
  if r.acks.length < maxQueuedMeshAcks then
    { r with acks := ⟨item.destination, item.appKeyIndex, item.data⟩ :: r.acks }
  else r

end UavBluetooth.Mesh
