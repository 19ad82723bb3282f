import UavBluetooth.Lib.Run
import UavBluetooth.Mesh.Maintain
import UavBluetooth.Mesh.Send
import UavBluetooth.Mesh.Receive

set_option autoImplicit false

/-! # One node

The executor thread of a node and its D-Bus receive thread, one critical section of
`mesh_reliable_mutex_` or one daemon call at a time.

`config_apply_mutex_` admits one of submission, maintenance and reconfiguration at a time, so
the executor is a stack of tasks (`Station.todo`): a task does its stretch of code and pushes
what follows. The receive thread handles one message at a time (`Station.decoding`); its
critical sections fall anywhere between the executor's.

What the daemon and the swarm coordinator answer is an input of each step (`Answer`, `View`).
-/

namespace UavBluetooth.Mesh

open Config

/-! ## Inputs and outputs -/

/-- What the executor reads from the daemon's status and from the swarm coordinator. -/
structure View where
  attached : Bool := true
  addresses : List UInt16 := []
  /-- Not configured to set up the local radio, or its settings are confirmed. -/
  radioReady : Bool := true
  participating : Bool := true
  applicationReady : Bool := true
  members : List UInt16 := []
  probes : List UInt16 := []
  swarmId : UInt16 := 0

/-- The daemon's answer to `try_send`, `send`, `send_pending` or `cancel_send`. -/
inductive Answer where
  /-- No daemon call in this step, or a call that returned nothing. -/
  | ok
  | handle (h : SendHandle)
  | busy
  | pending (pending : Bool)
  /-- The call threw; `sent` if the daemon had taken the frame all the same, as after a
  timeout. -/
  | error (sent : Bool)
  deriving DecidableEq, Repr

/-- A frame on its way from the daemon to the air. -/
structure Frame where
  destination : UInt16
  keyIndex : UInt16
  data : Bytes
  deriving DecidableEq, Repr

inductive Event where
  /-- `send_mesh_bridge_payload` was called. -/
  | submitted (key : UInt64) (payload : Bytes)
  /-- `send_mesh_bridge_payload_impl` returned, or an exception left it. -/
  | returned (send : Send)
  | threw (send : Send)
  /-- A sample was entered, or took over the channel's waiting value. -/
  | admitted (key : UInt64) (sequence : UInt16) (payload : Bytes)
  | folded (key : UInt64) (sequence : UInt16) (payload : Bytes)
  /-- A sample left the pending map. -/
  | finished (sequence : UInt16)
  | expired (sequence : UInt16)
  | evicted (sequence : UInt16)
  | rolledBack (sequence : UInt16)
  | cleared (preserveLatest : Bool)
  | transmitted (frame : Frame)
  /-- The daemon accepted a value of the channel. -/
  | accepted (key : UInt64) (payload : Bytes)
  /-- `try_send` returned a handle for a data frame. -/
  | issued (handle : SendHandle)
  /-- `remember_mesh_transfer` returned. -/
  | remembered (handle : SendHandle)
  /-- `cancel_send` returned, or `send_pending` returned false. -/
  | released (handle : SendHandle)
  /-- An acknowledgement ended the wait for `target`. -/
  | acked (sequence target : UInt16)
  /-- The receipt of a data frame was entered, its decoding accepted or refused, and the
  receipt forgotten. -/
  | opened (key : MeshReliableSeenKey)
  | published (message : ReceivedMessage)
  | refused (message : ReceivedMessage)
  | aged (key : MeshReliableSeenKey)
  /-- A frame of another protocol went to the bridges. -/
  | passed (message : ReceivedMessage)
  deriving DecidableEq, Repr

/-! ## The executor -/

inductive Task where
  | maintain
  | clear (preserveLatest : Bool)
  | flush
  | cancel (batch : List SendHandle)
  | requeue (batch : List SendHandle)
  | sweep
  | check (check : TransferCheck)
  | completed (check : TransferCheck)
  | outbound (item : Outbound)
  | transmit (item : Outbound)
  | outboundBusy (item : Outbound)
  | requeueAck (item : Outbound)
  | remember (sequence destination : UInt16) (handle : SendHandle)
  | enter (send : Send)
  | gate (send : Send)
  | claim (send : Send) (addresses : List UInt16)
  | occupied (send : Send) (addresses : List UInt16)
  | arbitrate (send : Send) (addresses : List UInt16)
  | admission (send : Send) (adm : Admission)
  | consume (send : Send)
  | fanOut (send : Send) (adm : Admission) (data : Bytes) (remaining : List UInt16)
      (admitted : Bool)
  | deferred (sequence destination : UInt16) (busy : Bool)
  | plain (send : Send)
  | install (meshApp coordinator : Bool)

/-- A received data frame on its way through the bridge, with the bridge's verdict. -/
structure Decoding where
  message : ReceivedMessage
  delivered : Option Bool := none

structure Station where
  reliable : MeshReliable := {}
  resetRequested : Bool := false
  /-- `mesh_app_` and `mesh_swarm_coordinator_` exist. -/
  meshApp : Bool := true
  coordinator : Bool := true
  todo : List Task := []
  decoding : Option Decoding := none

def Station.push (s : Station) (tasks : List Task) : Station :=
  { s with todo := tasks ++ s.todo }

def Station.withReliable (s : Station) (r : MeshReliable) : Station :=
  { s with reliable := r }

/-- The condition under which a value is sent rather than kept for later. -/
def sendReady (coordinator : Bool) (view : View) : Bool :=
  view.attached && view.radioReady &&
    (!coordinator || (view.participating && view.applicationReady))

/-- A data frame of either kind. -/
def carriesData (data : Bytes) : Bool :=
  frameKind data == reliableData || frameKind data == reliableDataNoTurn

def Outbound.frame (item : Outbound) : Frame := ⟨item.destination, item.appKeyIndex, item.data⟩

/-- The channel of the value that a data frame carries. -/
def Outbound.channelKey (item : Outbound) : UInt64 :=
  channelKeyOf item.elementIndex item.appKeyIndex (frameChannel item.data)

/-- The daemon has one element: a call for another one throws before anything is sent. -/
def answerPossible (elementIndex : UInt8) (answer : Answer) : Bool :=
  elementIndex == 0 || answer == .error false

/-- The events of the sweep, in the order of its loops. -/
def sweepEvents (now : Time) (r : MeshReliable) : List Event :=
  (sweepAged now r).map .aged ++
    (sweepLoop now r).events.map fun
      | .finished sequence => .finished sequence
      | .expired sequence => .expired sequence
      | .folded sequence key payload => .folded key sequence payload

/-- What follows the sweep: transfer checks, cancellations, frames, resumed sends. -/
def sweepTasks (now : Time) (r : MeshReliable) : List Task :=
  (sweepLoop now r).checks.map .check ++ [.flush] ++
    (sweepLoop now r).outbound.map .outbound ++
    (sweepReady now r).map fun value => .enter ⟨value.1, value.2, true⟩

/-- One stretch of the executor: `s` is the node with the task taken off its stack. -/
def execTask (now : Time) (view : View) (answer : Answer) (s : Station) :
    Task → Option (Station × List Event)
  -- maintain_mesh_reliable
  | .maintain =>
      if s.resetRequested then
        some ({ s with resetRequested := false }.push [.clear true, .flush, .sweep], [])
      else some (s.push [.sweep], [])
  | .clear preserveLatest =>
      some (s.withReliable (clearMeshReliableState preserveLatest s.reliable),
        [.cleared preserveLatest])
  | .flush =>
      let batch := s.reliable.transferCancellations
      let s := s.withReliable { s.reliable with transferCancellations := [] }
      if s.meshApp then some (s.push [.cancel batch], []) else some (s, [])
  | .cancel [] => some (s, [])
  | .cancel (handle :: batch) =>
      match answer with
      | .ok => some (s.push [.cancel batch], [.released handle])
      | .error _ => some (s.push [.requeue (handle :: batch)], [])
      | _ => none
  | .requeue batch =>
      some (s.withReliable { s.reliable with
        transferCancellations := s.reliable.transferCancellations ++ batch }, [])
  | .sweep =>
      some ((s.withReliable (sweepState now s.reliable)).push (sweepTasks now s.reliable),
        sweepEvents now s.reliable)
  | .check check =>
      match answer with
      | .pending true => some (s, [])
      | .pending false => some (s.push [.completed check], [.released check.handle])
      | .error _ => some (s, [])
      | _ => none
  | .completed check => some (s.withReliable (transferCompleted check s.reliable), [])
  | .outbound item =>
      match item.transfer with
      | some handle =>
          if frameKind item.data = reliableReceiptQuery then
            match answer with
            | .pending true => some (s, [])
            | .pending false => some (s.push [.transmit item], [.released handle])
            | .error _ => some (s, [])
            | _ => none
          else some (s.push [.transmit item], [])
      | none => some (s.push [.transmit item], [])
  | .transmit item =>
      if !answerPossible item.elementIndex answer then none
      else
        match answer with
        | .handle handle =>
            if carriesData item.data then
              some (s.push [.remember (meshReliableSequence item.data) item.destination handle],
                [.transmitted item.frame, .issued handle,
                  .accepted item.channelKey (decodedFrame item.data)])
            else some (s, [.transmitted item.frame])
        | .busy => some (s.push [.outboundBusy item], [])
        | .error sent =>
            some (if item.acknowledgement then s.push [.requeueAck item] else s,
              if sent then [.transmitted item.frame] else [])
        | _ => none
  | .outboundBusy item => some (s.withReliable (Mesh.outboundBusy item now s.reliable), [])
  | .requeueAck item => some (s.withReliable (Mesh.requeueAck item s.reliable), [])
  | .remember sequence destination handle =>
      if handle.transfer = 0 then some (s, [])
      else
        some (s.withReliable
          (rememberMeshTransfer sequence destination handle now s.reliable),
          [.remembered handle])
  -- send_mesh_bridge_payload_impl
  | .enter send =>
      if !s.meshApp then some (s, [.threw send])
      else if s.resetRequested then
        some ({ s with resetRequested := false }.push [.clear true, .flush, .gate send], [])
      else some (s.push [.gate send], [])
  | .gate send =>
      if sendReady s.coordinator view then some (s.push [.claim send view.addresses], [])
      else some (s.withReliable (storeLatest send s.reliable), [.returned send])
  | .claim send addresses =>
      if send.resumed && s.reliable.latest.contains send.key then some (s, [.returned send])
      else
        let s := if send.resumed then s else s.withReliable (dropLatest send s.reliable)
        if send.bridge.meshSwarmReliable && s.coordinator then
          if validPayload send.payload then some (s.push [.occupied send addresses], [])
          else some (s, [.threw send])
        else some (s.push [.plain send], [])
  | .occupied send addresses =>
      if channelBusy s.reliable.pending send.key then
        some (s.withReliable (storeLatest send s.reliable), [.returned send])
      else some (s.push [.arbitrate send addresses], [])
  | .arbitrate send addresses =>
      match Mesh.arbitrate now send addresses view.members view.probes s.reliable with
      | none => none
      | some (r, none) => some (s.withReliable r, [.returned send])
      | some (r, some adm) => some ((s.withReliable r).push [.admission send adm], [])
  | .admission send adm =>
      let data := makeMeshReliableData send.payload adm.sequence view.swarmId
      some ((s.withReliable (admitSample now send adm data s.reliable)).push
          ((if adm.consumesTurn then [.consume send] else []) ++
            [.fanOut send adm data adm.targets false]),
        ((evicted s.reliable).toList.map .evicted) ++
          [.admitted send.key adm.sequence send.payload])
  | .consume send => some (s.withReliable (consumeTurn now send.key s.reliable), [])
  | .fanOut send adm data (destination :: remaining) admitted =>
      let frame : Frame := ⟨destination, send.bridge.meshAppKeyIndex, fanOutFrame adm data destination⟩
      if !answerPossible send.bridge.meshElementIndex answer then none
      else
        match answer with
        | .handle handle =>
            some (s.push [.remember adm.sequence destination handle,
                .fanOut send adm data remaining true],
              [.transmitted frame, .issued handle, .accepted send.key send.payload])
        | .busy =>
            some (s.push [.deferred adm.sequence destination true,
              .fanOut send adm data remaining admitted], [])
        | .error sent =>
            some (s.push [.deferred adm.sequence destination false,
                .fanOut send adm data remaining admitted],
              if sent then [.transmitted frame] else [])
        | _ => none
  | .fanOut send adm _ [] admitted =>
      if admitted then some (s, [.returned send])
      else
        some (s.withReliable (rollBack send adm s.reliable),
          [.rolledBack adm.sequence, .returned send])
  | .deferred sequence destination busy =>
      let retryAt := now + meshQueueRetryDelay
      let r := if busy then deferPeer destination retryAt s.reliable else s.reliable
      some (s.withReliable
        (retryTarget sequence destination (fun target => { target with retryAt := retryAt }) r),
        [])
  | .plain send =>
      if !answerPossible send.bridge.meshElementIndex answer then none
      else
        match answer with
        | .ok =>
            some (s, [.transmitted ⟨send.bridge.meshDestination, send.bridge.meshAppKeyIndex,
              send.payload⟩, .accepted send.key send.payload, .returned send])
        | .error sent =>
            some (s, (if sent then [.transmitted ⟨send.bridge.meshDestination,
              send.bridge.meshAppKeyIndex, send.payload⟩] else []) ++ [.threw send])
        | _ => none
  -- configure_mesh
  | .install meshApp coordinator =>
      some ({ s with meshApp := meshApp, coordinator := coordinator }, [])

/-! ## The receive thread -/

/-- The policy decisions about a received message. -/
structure Admittance where
  localSource : Bool := false
  frameAllowed : Bool := true
  swarmAllowed : Bool := true

/-- The first critical section for a received message. -/
def Station.receive (now : Time) (policy : Admittance) (m : ReceivedMessage) (s : Station) :
    Station × List Event :=
  if policy.localSource then (s, [])
  else if isMeshReliableFrame m.data then
    if frameKind m.data = reliableAck ∧ policy.frameAllowed = true ∧
        m.data.length = reliableAckHeaderBytes then
      (s.withReliable (receiveAck m s.reliable),
        if ackReleases m s.reliable then [.acked (meshReliableSequence m.data) m.source] else [])
    else if policy.frameAllowed = true ∧ frameKind m.data = reliableReceiptQuery ∧
        m.data.length = reliableAckHeaderBytes then
      (s.withReliable (receiveQuery m s.reliable), [])
    else if policy.frameAllowed = true ∧ isDataFrame m.data = true then
      let (r, decode) := receiveData now m s.reliable
      if decode then
        ({ s with reliable := r, decoding := some { message := m } }, [.opened m.seenKey])
      else (s.withReliable r, [])
    else (s, [])
  else if policy.swarmAllowed then (s, [.passed m])
  else (s, [])

/-! ## Steps of a node -/

inductive Action where
  /-- The bridge hands over an encoded value. -/
  | submit (bridge : SharedTopicConfig) (body : Bytes)
  /-- The 20 ms timer, while the node is attached. -/
  | tick
  | exec (view : View) (answer : Answer)
  | receive (policy : Admittance) (message : ReceivedMessage)
  /-- `handle_mesh` returns. -/
  | decode (delivered : Bool)
  | finish (view : View)
  /-- The daemon assigned a new token. -/
  | requestReset
  /-- `configure_mesh`. -/
  | reconfigure (meshApp coordinator : Bool)

/-- One step of a node: the node afterwards and what an observer sees. -/
def Station.step (now : Time) (s : Station) : Action → Option (Station × List Event)
  | .submit bridge body =>
      match s.todo with
      | [] =>
          some (s.push [.enter ⟨bridge, bridgePayload bridge body, false⟩],
            [.submitted (channelKey bridge) (bridgePayload bridge body)])
      | _ :: _ => none
  | .tick =>
      match s.todo with
      | [] => if s.meshApp then some (s.push [.maintain], []) else none
      | _ :: _ => none
  | .exec view answer =>
      match s.todo with
      | [] => none
      | task :: todo => execTask now view answer { s with todo := todo } task
  | .receive policy message =>
      match s.decoding with
      | none => some (s.receive now policy message)
      | some _ => none
  | .decode delivered =>
      match s.decoding with
      | some ⟨message, none⟩ =>
          some ({ s with decoding := some ⟨message, some delivered⟩ },
            [if delivered then .published message else .refused message])
      | _ => none
  | .finish view =>
      match s.decoding with
      | some ⟨message, some delivered⟩ =>
          let localAddress :=
            if delivered && s.coordinator && s.meshApp then view.addresses.headD 0 else 0
          some ({ s with
            reliable := finishData now delivered localAddress view.members message s.reliable
            decoding := none }, [])
      | _ => none
  | .requestReset => some ({ s with resetRequested := true }, [])
  | .reconfigure meshApp coordinator =>
      match s.todo with
      | [] => some (s.push [.clear false, .flush, .install meshApp coordinator], [])
      | _ :: _ => none

/-! ## A node on its own -/

/-- A node, the time, and the record of what happened there, newest first. -/
structure Node where
  now : Time := 0
  station : Station := {}
  log : List Event := []

inductive NodeAction where
  | advance (duration : Time)
  | act (action : Action)

/-- A step of a node in an arbitrary environment: any message may arrive. -/
def Node.step (n : Node) : NodeAction → Option Node
  | .advance duration => some { n with now := n.now + duration }
  | .act action =>
      (n.station.step n.now action).map fun (station, events) =>
        { n with station := station, log := events.reverse ++ n.log }

/-- A freshly constructed node. -/
def Node.Initial (n : Node) : Prop :=
  ∃ meshApp coordinator nextSequence,
    n.station = { meshApp := meshApp, coordinator := coordinator
                  reliable := { nextSequence := nextSequence } } ∧ n.log = []

end UavBluetooth.Mesh
