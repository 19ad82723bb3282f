import UavBluetooth.Config.Models
import UavBluetooth.Lib.LittleEndian
import UavBluetooth.Peer.DeviceReset

set_option autoImplicit false

/-! # Time bridges

Both UAVs of a link exchange their clocks: the peer notifies its time, this node writes it back,
and the same in the other direction. A `PeerTimeBridge` records which halves of that handshake
have been seen, and the session how long it has been waiting for them (`bridgeWaitStarted`).

The node keeps one session and one bridge for each peer; `PeerLink` is that pair, with what
`reconcile_peers` has under way for the peer. Here are the handlers of notifications, writebacks
and failed subscriptions, and `update_peer_time_bridge`.
-/

namespace UavBluetooth.Peer

open Config Util

def kRemoteGattSnapshotFallbackDelay : ℚ := 2
def kRemoteGattSnapshotRetryInterval : ℚ := 2
def kPeerNotifyRetryBackoff : ℚ := 1
def kPeerNotifyHandshakeTimeout : ℚ := 10
def kPeerInitNotifyFailureResetWindow : ℚ := 45

inductive BridgeStatus where
  | unset
  | subscribing
  | notifyFailed
  | ready
  deriving DecidableEq, Repr

structure PeerTimeBridge where
  characteristicPath : String := ""
  writebackDescriptorPath : String := ""
  lastActivity : ℚ := 0
  lastTimeValueNs : Nat := 0
  lastRtt : ℚ := 0
  timeNotificationReceived : Bool := false
  timeWritebackReceived : Bool := false
  status : BridgeStatus := .unset
  detail : String := ""
  servicesWaitGrace : ℚ := 0
  pairingFailures : Nat := 0

/-- The fields of `NodeConfig` that the handshake depends on. -/
structure LinkConfig extends SessionConfig where
  autoTrust : Bool := true
  sharedTopics : List SharedTopicConfig := []

/-! ## The bridge -/

namespace PeerTimeBridge

variable (b : PeerTimeBridge)

def handshakeComplete : Bool := b.timeNotificationReceived && b.timeWritebackReceived

def setStatus (status : BridgeStatus) (detail : String) : PeerTimeBridge :=
  { b with status := status, detail := detail }

/-- The bridge after a notification of the peer's time. -/
def notified (value : Nat) (now : ℚ) : PeerTimeBridge :=
  let b := { b with lastActivity := now, lastTimeValueNs := value, timeNotificationReceived := true }
  if b.timeWritebackReceived then b.setStatus .ready "time notification"
  else b.setStatus .subscribing "time notification received, awaiting writeback"

/-- The bridge after the peer has written this node's time back. -/
def writtenBack (echoed received : Nat) (now : ℚ) : PeerTimeBridge :=
  let b := { b with
    lastActivity := now
    lastRtt := max 0 ((received - echoed : ℚ) / 10 ^ 9)
    timeWritebackReceived := true }
  if b.timeNotificationReceived then b.setStatus .ready "time writeback"
  else b.setStatus .subscribing "peer time writeback received, awaiting notifications"

end PeerTimeBridge

/-! ## The session -/

namespace PeerConnectionSession

variable (s : PeerConnectionSession)

/-- `begin_bridge_wait` -/
def beginBridgeWait (now : ℚ) : PeerConnectionSession :=
  if s.bridgeWaitStarted ≤ 0 then { s with bridgeWaitStarted := now } else s

/-- What the wait is for. -/
def awaitBridge (reason detail : String) : PeerConnectionSession :=
  { s with bridgeWaitReason := reason, phase := .connectedUnready, detail := detail }

/-- A complete handshake ends the wait. -/
def noteHealthy : PeerConnectionSession :=
  { s.clearInitNotifyFailures.clearBridgeWait with timeBridgeHealthyThisConnection := true }

def notified (b : PeerTimeBridge) (now : ℚ) : PeerConnectionSession :=
  if b.timeWritebackReceived then s.noteHealthy
  else
    (s.beginBridgeWait now).awaitBridge "writeback"
      "time notification received, awaiting writeback"

def writtenBack (b : PeerTimeBridge) (now : ℚ) : PeerConnectionSession :=
  if b.timeNotificationReceived then s.noteHealthy
  else
    (s.beginBridgeWait now).awaitBridge "notify"
      "peer time writeback received, awaiting notifications"

/-! ### Failed subscriptions -/

/-- The texts of BlueZ that name a security failure. -/
def securityFailure (detail : String) : Bool :=
  ["authentication", "not authorized", "not permitted", "notauthorized", "notpermitted"].any
    fun text => decide (text.toList <:+: (lowerTrimCopy detail).toList)

def countNotifyFailure (path : String) (now : ℚ) : PeerConnectionSession :=
  { s with
    notifyFailureCount :=
      if s.lastNotifyFailureCharacteristicPath = path then s.notifyFailureCount + 1 else 1
    lastNotifyFailure := now
    lastNotifyFailureCharacteristicPath := path }

def countInitNotifyFailure (now : ℚ) : PeerConnectionSession :=
  { s with
    timeBridgeInitNotifyFailureCount :=
      if 0 < s.timeBridgeInitNotifyFailure ∧
          now - s.timeBridgeInitNotifyFailure ≤ kPeerInitNotifyFailureResetWindow then
        s.timeBridgeInitNotifyFailureCount + 1
      else 1
    timeBridgeInitNotifyFailure := now }

/-- Security failures before the first handshake; three of them within the window reset a
bonded device. -/
def noteInitNotifyFailure (detail : String) (bonded : Bool) (now : ℚ) : PeerConnectionSession :=
  if s.timeBridgeHealthyThisConnection = false ∧ securityFailure detail then
    let s := s.countInitNotifyFailure now
    if bonded ∧ 3 ≤ s.timeBridgeInitNotifyFailureCount then
      s.requestDeviceReset now
        "bonded peer repeatedly rejected time notifications, resetting peer device state" true
    else s
  else s

def noteNotifyFailure (path detail : String) (bonded : Bool) (now : ℚ) : PeerConnectionSession :=
  (((s.countNotifyFailure path now).beginBridgeWait now).awaitBridge "notify"
    "failed to enable peer time notifications").noteInitNotifyFailure detail bonded now

/-! ### The update of the bridge -/

/-- A handshake that the update finds complete. -/
def completeHandshake : PeerConnectionSession :=
  { ((s.clearDeviceReset true).noteHealthy).clearRemoteGatt with
    servicesResolvedSince := s.servicesResolvedSince
    phase := .ready
    detail := "peer time bridge active" }

/-- A failure of another characteristic no longer counts. -/
def forgetNotifyFailure (path : String) : PeerConnectionSession :=
  if s.lastNotifyFailureCharacteristicPath ≠ "" ∧ s.lastNotifyFailureCharacteristicPath ≠ path then
    s.clearNotifyFailures
  else s

/-- The peer's GATT objects are not in the cache. -/
def missRemoteGatt (now : ℚ) (attempted : Bool) : PeerConnectionSession :=
  ({ s with
    remoteGattMissingSince := if s.remoteGattMissingSince ≤ 0 then now else s.remoteGattMissingSince
    remoteGattMissingChecks := s.remoteGattMissingChecks + 1 }.beginBridgeWait now).awaitBridge
      "gatt-cache" (if attempted then "waiting for remote GATT objects after fallback snapshot"
        else "waiting for remote GATT objects")

/-- The peer has GATT objects, but no time characteristic among them. -/
def missCharacteristic (now : ℚ) : PeerConnectionSession :=
  (s.clearRemoteGatt.beginBridgeWait now).awaitBridge "gatt-layout"
    "peer time characteristic not available"

/-- The link or its services are gone. -/
def detach (detail : String) : PeerConnectionSession :=
  s.clearRemoteGatt.clearBridgeWait.clearServiceRetry.setPhase .connectedUnready detail

/-- A rediscovery of services under a bridge. -/
def rediscover (now : ℚ) : PeerConnectionSession :=
  (s.noteRegression now).clearRemoteGatt.clearServiceRetry

end PeerConnectionSession

/-! ## The link -/

/-- What BlueZ's objects say of the peer's GATT server. -/
structure RemoteGatt where
  characteristicPath : String := ""
  anyCharacteristics : Bool := false
  notifying : Bool := false
  writebackPath : String := ""
  deriving DecidableEq, Repr

/-- Where `reconcile_peers` is in its work on the peer. -/
inductive Stage where
  /-- Before the runtime of a peer that is not to be bridged is cleared. -/
  | clear
  /-- Before the whitelist is enforced. -/
  | admitPeer
  | serve
  /-- A reset has been started and the runtime is to be cleared. -/
  | clearForReset
  | recordReset
  | update
  /-- A snapshot of the peer's GATT objects is being fetched; before, there was `gatt`. -/
  | refresh (gatt : RemoteGatt) (now : ℚ)
  | missing (anyCharacteristics attempted : Bool) (now : ℚ)
  | detach (detail : String)
  /-- `StartNotify` on a characteristic. -/
  | start (path : String)
  | recheck
  /-- The deadline of the handshake has passed. -/
  | recover (missingWriteback : Bool)
  deriving DecidableEq, Repr

/-- A pass over the peer: its device record, the time, and whether it can be bridged. -/
structure Pass where
  device : Option DeviceState
  now : ℚ
  functional : Bool
  stage : Stage
  deriving DecidableEq, Repr

structure PeerLink where
  config : LinkConfig
  session : Option PeerConnectionSession := none
  bridge : Option PeerTimeBridge := none
  /-- `peer_runtime_clear_in_progress_` has the peer. -/
  clearing : Bool := false
  pass : Option Pass := none

namespace PeerLink

variable (l : PeerLink)

def modify (f : PeerConnectionSession → PeerConnectionSession) : PeerLink :=
  { l with session := l.session.map f }

def setSession (s : PeerConnectionSession) : PeerLink := { l with session := some s }

def setBridge (b : PeerTimeBridge) : PeerLink := { l with bridge := some b }

def removeTimeBridge : PeerLink := { l with bridge := none }

/-- Go on with a pass at a stage. -/
def goTo (p : Pass) (stage : Stage) : PeerLink := { l with pass := some { p with stage := stage } }

/-- The pass is done with the peer. -/
def finish : PeerLink := { l with pass := none }

/-- `clear_peer_runtime` up to where it releases the lock. -/
def clearRuntime : PeerLink := if l.clearing then l else { l with clearing := true, bridge := none }

/-- A rediscovery of the services leaves a bridge of this kind alone. -/
def preserves (device : DeviceState) (kind : PeerTimeBridge → Bool) : Bool :=
  device.connected && !device.servicesResolved && l.bridge.any kind &&
    l.session.any fun s => s.desired && !s.repairRequested && !s.repairInProgress

/-- `should_preserve_ready_bridge_during_expected_services_rediscovery` -/
def preservesReadyBridge (device : DeviceState) : Bool :=
  l.preserves device fun b => b.status == .ready && b.handshakeComplete

/-- `should_preserve_peer_bridge_runtime_during_expected_services_rediscovery` -/
def preservesBridgeRuntime (device : DeviceState) : Bool :=
  l.preserves device fun b => (b.status == .ready && b.handshakeComplete) ||
    (b.status == .subscribing && b.characteristicPath != "")

/-- `has_ready_peer_time_bridge` -/
def hasReadyBridge : Bool := l.bridge.any (·.status == .ready)

/-- `device_can_host_peer_bridge` -/
def canHostBridge (device : DeviceState) : Bool :=
  device.hasRequiredPairing l.config.toSessionConfig && device.connected &&
    (device.servicesResolved || l.preservesBridgeRuntime device)

/-- `healthy_peer_time_bridge_last_activity_monotonic` -/
def healthyActivity (maxInactivity now : ℚ) : ℚ :=
  match l.bridge with
  | some b =>
      if 0 < maxInactivity ∧ b.status = .ready ∧ b.handshakeComplete ∧ 0 < b.lastActivity ∧
          now - b.lastActivity ≤ maxInactivity then b.lastActivity else 0
  | none => 0

/-! ### Handlers -/

/-- `on_notification`, for a characteristic of the peer. -/
def onNotification (path : String) (data : List UInt8) (device : Option DeviceState) (now : ℚ) :
    PeerLink :=
  if device.any l.canHostBridge = false then l.clearRuntime
  else
    match l.bridge with
    | none => l
    | some b =>
        if b.characteristicPath ≠ path ∨ data.length < 8 then l
        else
          (l.setBridge (b.notified (LittleEndian.value (data.take 8)) now)).modify
            fun s => s.notified b now

/-- `handle_time_writeback`, from the peer. -/
def handleTimeWriteback (payload : List UInt8) (device : Option DeviceState) (receivedTimeNs : Nat)
    (now : ℚ) : PeerLink :=
  if payload.length < 8 then l
  else if device.any l.canHostBridge = false then l.clearRuntime
  else
    match l.bridge with
    | none => l
    | some b =>
        let echoed := LittleEndian.value (payload.take 8)
        if echoed = 0 ∨ receivedTimeNs < echoed then l
        else
          (l.setBridge (b.writtenBack echoed receivedTimeNs now)).modify fun s => s.writtenBack b now

/-- What `on_gatt_event` notes of a failed subscription. Its synchronisation with the device
record and the clearing of the runtime are steps of their own. -/
def onNotifyFailed (path detail : String) (bonded : Bool) (now : ℚ) : PeerLink :=
  if l.bridge.any (·.characteristicPath == path) && !l.clearing then
    l.modify fun s => s.noteNotifyFailure path detail bonded now
  else l

/-! ### `update_peer_time_bridge` -/

/-- The time characteristic is there and notifies. -/
def updateNotifying (p : Pass) (s : PeerConnectionSession) (b : PeerTimeBridge) (now : ℚ) :
    PeerLink :=
  if b.handshakeComplete then
    ((l.setBridge (b.setStatus .ready "peer time bridge active")).setSession
      s.completeHandshake).goTo p .recheck
  else
    let detail := if b.timeNotificationReceived then "awaiting peer time writeback"
      else "awaiting peer time notifications"
    ((l.setBridge (b.setStatus .subscribing detail)).setSession
      ((s.clearRemoteGatt.clearServiceRetry.clearNotifyFailures.beginBridgeWait now).awaitBridge
        "notify" detail)).goTo p .recheck

/-- The bridge that goes on with a characteristic: the old one, unless it had another one. -/
def adoptBridge (path : String) : PeerTimeBridge :=
  match l.bridge with
  | none => { characteristicPath := path }
  | some b =>
      if b.characteristicPath ≠ "" ∧ b.characteristicPath ≠ path then { characteristicPath := path }
      else { b with characteristicPath := path }

/-- The subscription has failed a moment ago. -/
def backsOff (s : PeerConnectionSession) (path : String) (now : ℚ) : Bool :=
  decide (s.lastNotifyFailureCharacteristicPath = path ∧ 0 < s.lastNotifyFailure ∧
    now - s.lastNotifyFailure < kPeerNotifyRetryBackoff)

/-- The time characteristic is there and is to be subscribed to. -/
def updateSubscription (p : Pass) (s : PeerConnectionSession) (gatt : RemoteGatt) (now clock : ℚ) :
    PeerLink :=
  let s := (s.clearRemoteGatt.clearServiceRetry).forgetNotifyFailure gatt.characteristicPath
  let b := l.adoptBridge gatt.characteristicPath
  if backsOff s gatt.characteristicPath now then
    ((l.setBridge (b.setStatus .notifyFailed "waiting to retry peer time notifications")).setSession
      ((s.beginBridgeWait s.lastNotifyFailure).awaitBridge "notify"
        "waiting to retry peer time notifications")).goTo p .recheck
  else
    let b := { b with writebackDescriptorPath := gatt.writebackPath }
    if b.status = .subscribing then
      let awaitingWriteback := b.timeNotificationReceived && !b.timeWritebackReceived
      ((l.setBridge b).setSession ((s.beginBridgeWait clock).awaitBridge
        (if awaitingWriteback then "writeback" else "notify")
        (if awaitingWriteback then "awaiting peer time writeback"
          else "awaiting peer time notifications"))).goTo p .recheck
    else
      let b := { b with
        status := .subscribing
        detail := "enabling peer time notifications"
        servicesWaitGrace := s.servicesWaitGrace
        pairingFailures := s.pairingFailures }
      ((l.setBridge b).setSession s).goTo p (.start gatt.characteristicPath)

/-- The update of a peer whose objects are known. -/
def updateBridge (p : Pass) (s : PeerConnectionSession) (gatt : RemoteGatt) (attempted : Bool)
    (now clock : ℚ) : PeerLink :=
  if gatt.characteristicPath = "" then
    l.removeTimeBridge.goTo p (.missing gatt.anyCharacteristics attempted now)
  else
    match l.bridge with
    | some b =>
        if b.characteristicPath = gatt.characteristicPath ∧ gatt.notifying then
          l.updateNotifying p s b now
        else l.updateSubscription p s gatt now clock
    | none => l.updateSubscription p s gatt now clock

/-- The cache has nothing of the peer although its services are resolved. -/
def wantsSnapshot (s : PeerConnectionSession) (gatt : RemoteGatt) (now : ℚ) : Bool :=
  decide (gatt.characteristicPath = "" ∧ gatt.anyCharacteristics = false ∧
    0 < s.servicesResolvedSince ∧
    kRemoteGattSnapshotFallbackDelay ≤ now - s.servicesResolvedSince ∧
    (s.lastServiceRetry ≤ 0 ∨ kRemoteGattSnapshotRetryInterval ≤ now - s.lastServiceRetry))

/-- The update while BlueZ rediscovers the services of a peer with a bridge. -/
def updateRediscovery (p : Pass) (s : PeerConnectionSession) (now : ℚ) : PeerLink :=
  let s := s.rediscover now
  if l.bridge.any fun b => b.status == .ready && b.handshakeComplete then
    (l.setSession (s.clearBridgeWait.setPhase .ready
      "peer time bridge active during expected services rediscovery")).goTo p .recheck
  else
    (l.setSession ((s.beginBridgeWait now).awaitBridge "notify"
      (if l.bridge.any fun b => b.detail != "" then
        (l.bridge.elim "" (·.detail)) ++ " during expected services rediscovery"
      else "awaiting peer time notifications during expected services rediscovery"))).goTo p .recheck

/-- The first part of the update, up to where it fetches a snapshot. -/
def updateTimeBridge (p : Pass) (device : DeviceState) (s : PeerConnectionSession)
    (gatt : RemoteGatt) (now : ℚ) : PeerLink :=
  if device.connected = false then l.removeTimeBridge.goTo p (.detach "awaiting connection")
  else if device.servicesResolved = false then
    if l.preservesBridgeRuntime device then l.updateRediscovery p s now
    else l.removeTimeBridge.goTo p (.detach "connected, waiting for services")
  else if wantsSnapshot s gatt now then
    (l.setSession { s with lastServiceRetry := now }).goTo p (.refresh gatt now)
  else l.updateBridge p s gatt false now now

/-- The answer to `StartNotify`. -/
def noteNotifyStart (p : Pass) (s : PeerConnectionSession) (path : String) (started : Bool)
    (clock : ℚ) : PeerLink :=
  if started then
    (l.setSession ((s.clearNotifyFailures.beginBridgeWait clock).awaitBridge "notify"
      "awaiting peer time notifications")).goTo p .recheck
  else
    let l := l.setSession ((s.beginBridgeWait clock).awaitBridge "notify"
      "failed to enable peer time notifications")
    match l.bridge with
    | some b =>
        if b.characteristicPath = path then
          (l.setBridge (b.setStatus .notifyFailed "failed to enable peer time notifications")).goTo p
            .recheck
        else l.goTo p .recheck
    | none => l.goTo p .recheck

end PeerLink

end UavBluetooth.Peer
