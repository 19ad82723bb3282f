import UavBluetooth.Peer.TimeBridge

set_option autoImplicit false

/-! # The link to a peer

The pass of `reconcile_peers` over one peer, and the runs of a peer's link: handlers, cache
events and passes in any order. The pass releases the lock while it waits for BlueZ; between two
of its stages anything else may happen to the link. Where the source holds on to the lock
between two stages, the runs in which nothing happens there are among those considered.
-/

namespace UavBluetooth.Peer

open Config

def kTrustCooldownMin : ℚ := 1 / 2
def kPairAfterConnectGraceMin : ℚ := 5
def kPairCooldownMin : ℚ := 10

/-- What a stage of the pass finds around the session: the time, what BlueZ and the worker
answer, and what other parts of the node decide. -/
structure Answers where
  now : ℚ
  /-- `run_peer_task_once` has started the task. -/
  taskStarted : Bool := false
  allowedByWhitelist : Bool := true
  /-- The peer's time characteristic is in the cache. -/
  peerService : Bool := false
  localOwnsPairing : Bool := true
  localOwnsConnection : Bool := true
  /-- The record has an unbonded random address, and the same peer a bonded one. -/
  bondedIdentity : Bool := false
  serverRebuild : Bool := false
  gatt : RemoteGatt := {}
  snapshotRefreshed : Bool := false
  notifyStarted : Bool := false

namespace PeerConnectionSession

variable (s : PeerConnectionSession)

/-! ## The session in the pass -/

/-- An authenticated serial session owns the link. -/
def serveSerial : PeerConnectionSession :=
  { s.clearDeviceReset true with
    pairingInProgress := false
    phase := .serialActive
    detail := "peer-initiated serial SSH session active" }

/-- A peer that has opened the link and turns out to be a service node. -/
def promote (serviceAvailable : Bool) : PeerConnectionSession :=
  if s.peerInitiated && serviceAvailable then
    { s with peerInitiated := false, detail := "peer-initiated UAV service connection" }
  else s

def servePassive (connected : Bool) : PeerConnectionSession :=
  { s.clearDeviceReset true with
    pairingInProgress := false
    phase := if connected then .passive else .idle
    detail := if connected then "peer-initiated connection"
      else "waiting for peer-initiated connection" }

def serveUnselected (config : SessionConfig) (connected : Bool) : PeerConnectionSession :=
  { s with
    forgetPending := false
    phase := if connected then .passive else .idle
    detail :=
      if connected then "peer-initiated or manually managed connection"
      else if s.peerCandidate then
        if config.autoConnectEnable then "not selected for automatic connection"
        else "automatic connection disabled"
      else if s.peerName = "" then "device does not match peer policy"
      else "not a peer candidate" }

/-- `repair_blocks_regular_actions`, or a repair is in progress. -/
def repairBlocks : Bool :=
  s.repairRequested && (!s.repairRemoveIssued || s.repairAwaitingCacheRemoval) || s.repairInProgress

def shouldAttemptTrust (device : DeviceState) (config : LinkConfig) (now retryPeriod : ℚ) : Bool :=
  config.autoTrust && s.desired && !s.repairBlocks && device.connected && !device.blocked &&
    !device.trusted && decide (0 < s.connectedSince) && !s.pairingInProgress &&
    device.hasRequiredPairing config.toSessionConfig &&
    !([Phase.connecting, .connectPending, .discovered, .disconnected, .blocked, .policyBlocked,
      .recovering, .stale].contains s.phase) &&
    decide (kTrustCooldownMin ≤ now - s.connectedSince) &&
    decide (s.lastSecurityAttempt ≤ 0 ∨
      max kTrustCooldownMin (retryPeriod / 4) ≤ now - s.lastSecurityAttempt)

def requestTrust (now : ℚ) : PeerConnectionSession :=
  { s with
    detail := if s.phase = .ready then "peer time bridge active, trust requested"
      else "trust requested"
    lastSecurityAttempt := now }

def pairingFallbackDue (now : ℚ) : Bool :=
  decide (0 < s.pairingWaitStarted ∧ 10 ≤ now - s.pairingWaitStarted)

def shouldAttemptPair (device : DeviceState) (config : LinkConfig) (now retryPeriod : ℚ) : Bool :=
  let waitStarted := if 0 < s.servicesWaitStarted then s.servicesWaitStarted else s.connectedSince
  config.autoPair && s.desired && !s.repairBlocks && !s.pairingInProgress && !device.blocked &&
    device.connected && decide (0 < s.connectedSince) &&
    !device.hasRequiredPairing config.toSessionConfig &&
    (s.pairingFallbackDue now || decide (0 < waitStarted ∧
      max kPairAfterConnectGraceMin retryPeriod ≤ now - waitStarted)) &&
    decide (s.lastSecurityAttempt ≤ 0 ∨
      max kPairCooldownMin (retryPeriod * (s.pairingFailures + 1)) ≤ now - s.lastSecurityAttempt)

def beginPairingWait (now : ℚ) : PeerConnectionSession :=
  if s.pairingWaitStarted ≤ 0 then { s with pairingWaitStarted := now } else s

def requestPair (now : ℚ) : PeerConnectionSession :=
  { s with
    phase := .securing
    detail := "pair requested"
    pairingInProgress := true
    lastSecurityAttempt := now }

def awaitPeerPairing : PeerConnectionSession :=
  { s with
    pairingInProgress := false
    phase := .securing
    detail := "waiting for peer-initiated pairing" }

def holdPairing : PeerConnectionSession :=
  { s with
    phase := if s.pairingInProgress then .securing else .connectedUnready
    detail :=
      if s.detail = "" ∨ s.detail = "connected, waiting for services" ∨
          s.detail = "connected, services resolved, awaiting peer time bridge" then
        if s.pairingInProgress then "awaiting pairing completion"
        else "connected, waiting for pairing"
      else s.detail }

/-- A connected peer without the pairing that the configuration asks for. -/
def servePairing (device : DeviceState) (config : LinkConfig) (x : Answers)
    (now retryPeriod : ℚ) : PeerConnectionSession :=
  let s := s.beginPairingWait now
  if !x.localOwnsPairing && !s.pairingFallbackDue now then s.awaitPeerPairing
  else if s.shouldAttemptPair device config now retryPeriod && x.taskStarted then s.requestPair now
  else s.holdPairing

def shouldAttemptConnect (now retryPeriod : ℚ) : Bool :=
  s.desired && !s.repairBlocks && decide (s.missingSince ≤ 0) &&
    !([Phase.ready, .connectedUnready, .securing, .blocked, .policyBlocked].contains s.phase) &&
    !(decide (0 < s.connectStarted) && [Phase.connecting, .connectPending].contains s.phase &&
      decide (now - s.connectStarted <
        max kConnectAttemptGraceMin (retryPeriod * kConnectAttemptGraceMultiplier))) &&
    decide (s.lastConnectAttempt ≤ 0 ∨ retryPeriod ≤ now - s.lastConnectAttempt)

/-- `note_local_connect_attempt` -/
def noteLocalConnectAttempt (now : ℚ) : PeerConnectionSession :=
  { s with peerInitiated := false, lastConnectAttempt := now, connectStarted := now }

/-- A selected peer without a link. -/
def serveDisconnected (x : Answers) (now retryPeriod : ℚ) : PeerConnectionSession :=
  if x.bondedIdentity then s.setPhase .idle "stale broadcast address, using bonded identity"
  else if x.localOwnsConnection = false then
    s.setPhase .discovered "waiting for peer-initiated connection"
  else if x.serverRebuild then
    s.setPhase (if 0 < s.lastConnectAttempt then .disconnected else .discovered)
      "waiting for local GATT rebuild"
  else if s.shouldAttemptConnect now retryPeriod && x.taskStarted then
    (s.noteLocalConnectAttempt now).setPhase .connecting "auto-connect requested"
  else s

/-- The deadline of a handshake that is not complete. -/
def handshakeTimedOut (bridge : Option PeerTimeBridge) (now : ℚ) : Bool :=
  decide (s.bridgeWaitReason = "notify" ∨ s.bridgeWaitReason = "writeback") &&
    decide (0 < s.bridgeWaitStarted) && !bridge.any (·.handshakeComplete) &&
    decide (kPeerNotifyHandshakeTimeout ≤ now - s.bridgeWaitStarted)

/-- The regression of a bridge that works begins at its last activity. -/
def followActivity (preserve : Bool) (healthyActivity now : ℚ) : PeerConnectionSession :=
  let since := if preserve && decide (s.serviceRegressionStarted ≤ 0) then now
    else s.serviceRegressionStarted
  { s with serviceRegressionStarted := max since healthyActivity }

end PeerConnectionSession

/-- What `recover_incomplete_time_bridge` says of a missing half. -/
def incompleteReason (missingWriteback : Bool) : String :=
  if missingWriteback then "peer time writeback missing after GATT rediscovery"
  else "peer time notifications missing after GATT rediscovery"

/-- A shared topic needs the direction that the missing half proves. -/
def directionRequired (topics : List SharedTopicConfig) (missingWriteback : Bool) : Bool :=
  topics.any fun topic =>
    topic.transport == .gatt &&
      (topic.mode == .both || topic.mode == (if missingWriteback then .export else .import))

/-- The end of `recover_incomplete_time_bridge`, for the session. -/
def PeerConnectionSession.recoverIncomplete (s : PeerConnectionSession)
    (topics : List SharedTopicConfig) (missingWriteback taskStarted : Bool) (clock : ℚ) :
    PeerConnectionSession :=
  let reason := incompleteReason missingWriteback
  if directionRequired topics missingWriteback = false then
    { s with bridgeWaitStarted := clock, phase := .connectedUnready, detail := reason }
  else if taskStarted = false then s
  else s.setPhase .disconnecting (reason ++ "; recycling one-way GATT link")

namespace PeerLink

variable (l : PeerLink)

/-! ## The pass -/

def retryPeriod : ℚ := max (1 / 2) l.config.autoConnectPeriod

/-- The pass reaches the peer. -/
def visit (s : PeerConnectionSession) (device : Option DeviceState) (serialActive : Bool) (now : ℚ) :
    PeerLink :=
  if device.isSome && serialActive then l.setSession s.serveSerial
  else
    let functional := device.any l.canHostBridge
    let stage := if s.desired && functional then Stage.admitPeer else .clear
    { l with pass := some ⟨device, now, functional, stage⟩ }

/-- The whitelist is enforced on a connected peer. -/
def admitPeer (p : Pass) (s : PeerConnectionSession) (x : Answers) : PeerLink :=
  if p.device.any (·.connected) && !x.allowedByWhitelist then
    if x.taskStarted then
      (l.setSession (s.setPhase .disconnecting "peer is outside active peer_whitelist")).finish
    else l.finish
  else l.goTo p .serve

/-- The handshake has no writeback yet, or no notification. -/
def missingWriteback : Bool :=
  l.bridge.any fun b => b.timeNotificationReceived && !b.timeWritebackReceived

/-- The texts of a link whose services BlueZ rediscovers. -/
def rediscoveryDetail (preserveRuntime preserveReady manualSecurity : Bool) : String :=
  if preserveReady then "peer time bridge active during expected services rediscovery"
  else if manualSecurity then "local time notifications active during expected services rediscovery"
  else if preserveRuntime then
    if l.bridge.any fun b => b.detail != "" then
      (l.bridge.elim "" (·.detail)) ++ " during expected services rediscovery"
    else "peer time bridge runtime active during expected services rediscovery"
  else "connected, waiting for services"

/-- A connected peer whose services are not resolved. -/
def serveUnresolved (p : Pass) (device : DeviceState) (s : PeerConnectionSession) (x : Answers) :
    PeerLink :=
  let preserveRuntime := l.preservesBridgeRuntime device
  let preserveReady := l.preservesReadyBridge device
  let manualSecurity := !l.config.autoPair && s.localTimeNotifyActiveThisConnection
  let s := s.followActivity preserveRuntime
    (if preserveReady then l.healthyActivity s.servicesWaitGrace x.now else 0) p.now
  if preserveRuntime && s.handshakeTimedOut l.bridge p.now then
    (l.setSession s).goTo p (.recover l.missingWriteback)
  else
    (l.setSession (s.setPhase (if preserveReady then .ready else .connectedUnready)
      (l.rediscoveryDetail preserveRuntime preserveReady manualSecurity))).finish

/-- A connected peer with a device record. -/
def serveConnected (p : Pass) (device : DeviceState) (s : PeerConnectionSession) (x : Answers) :
    PeerLink :=
  if s.shouldAttemptTrust device l.config p.now l.retryPeriod && x.taskStarted then
    (l.setSession (s.requestTrust p.now)).finish
  else if device.hasRequiredPairing l.config.toSessionConfig = false then
    (l.setSession (s.servePairing device l.config x p.now l.retryPeriod)).finish
  else if device.servicesResolved = false then l.serveUnresolved p device s x
  else (l.setSession s).goTo p .update

/-- A session that nothing is repaired on. -/
def serveRegular (p : Pass) (s : PeerConnectionSession) (x : Answers) : PeerLink :=
  if s.repairInProgress then (l.setSession s).finish
  else
    match p.device.filter (·.connected) with
    | some device => l.serveConnected p device s x
    | none => (l.setSession (s.serveDisconnected x p.now l.retryPeriod)).finish

/-- A session with a requested reset. -/
def serveReset (p : Pass) (s : PeerConnectionSession) (x : Answers) : PeerLink :=
  if s.repairAwaitingCacheRemoval || s.repairInProgress then (l.setSession s).finish
  else if s.repairRemoveIssued then
    l.serveRegular p (Orchestration.resumeDiscovery s p.device.isSome) x
  else if x.taskStarted then
    (l.setSession (Orchestration.beginRecovery s)).goTo p .clearForReset
  else (l.setSession s).finish

/-- A session that the pass manages. -/
def serveManaged (p : Pass) (s : PeerConnectionSession) (x : Answers) : PeerLink :=
  let s := Orchestration.keep s
  if p.device.any (·.blocked) then
    (l.setSession (if x.taskStarted then s.setPhase .discovered "unblocking desired peer"
      else s)).finish
  else if s.repairRequested then l.serveReset p s x
  else l.serveRegular p s x

def serve (p : Pass) (s : PeerConnectionSession) (x : Answers) : PeerLink :=
  let s := s.promote (p.device.any (fun d => d.connected && d.servicesResolved) && x.peerService)
  if s.peerInitiated then
    (l.setSession (s.servePassive (p.device.any (·.connected)))).finish
  else if !s.desired && !s.repairRequested && !s.repairInProgress then
    (l.setSession (s.serveUnselected l.config.toSessionConfig
      (p.device.any (·.connected)))).finish
  else l.serveManaged p s x

/-- The deadline is checked after an update. -/
def recheck (p : Pass) (s : PeerConnectionSession) : PeerLink :=
  if s.handshakeTimedOut l.bridge p.now then l.goTo p (.recover l.missingWriteback) else l.finish

/-- The next stage of the pass. -/
def continuePass (p : Pass) (s : PeerConnectionSession) (x : Answers) : PeerLink :=
  match p.stage with
  | .clear => l.clearRuntime.goTo p .admitPeer
  | .admitPeer => l.admitPeer p s x
  | .serve => l.serve p s x
  | .clearForReset => l.clearRuntime.goTo p .recordReset
  | .recordReset => (l.setSession (Orchestration.recover s p.now)).finish
  | .update => (p.device.map fun device => l.updateTimeBridge p device s x.gatt x.now).getD l.finish
  | .refresh gatt now =>
      l.updateBridge p s (if x.snapshotRefreshed then x.gatt else gatt) true now x.now
  | .missing anyCharacteristics attempted now =>
      (l.setSession (if anyCharacteristics then s.missCharacteristic now
        else s.missRemoteGatt now attempted)).goTo p .recheck
  | .detach detail => (l.setSession (s.detach detail)).goTo p .recheck
  | .start path => l.noteNotifyStart p s path x.notifyStarted x.now
  | .recheck => l.recheck p s
  | .recover missingWriteback =>
      (l.setSession (s.recoverIncomplete l.config.sharedTopics missingWriteback x.taskStarted
        x.now)).finish

end PeerLink

/-! ## Runs -/

inductive PairingEvent where
  | requestAuthorization
  /-- A request for a confirmation, a passkey or a PIN. -/
  | request (name : String)
  | cancel
  | agentRelease
  | other
  deriving DecidableEq, Repr

/-- `note_pairing_event` of a session. -/
def PeerConnectionSession.notePairingEvent (s : PeerConnectionSession) (event : PairingEvent)
    (device : DeviceState) (now : ℚ) : PeerConnectionSession :=
  let s := { s with lastSecurityAttempt := now }
  match event with
  | .requestAuthorization =>
      if s.phase = .ready ∧ s.detail = "" then { s with detail := "request_authorization" } else s
  | .request name =>
      let s := { s with pairingInProgress := true }
      if device.hasLocalSecurity then
        if s.phase ≠ .ready ∧ s.phase ≠ .connectedUnready then s.setPhase .securing name
        else if s.detail = "" then { s with detail := name }
        else s
      else if s.phase = .ready then { s with detail := name }
      else s.setPhase .securing name
  | .cancel =>
      { s with pairingInProgress := false, pairingFailures := s.pairingFailures + 1 }.setPhase
        .recovering "pairing cancelled"
  | .agentRelease => { s with pairingInProgress := false, detail := "pairing agent released" }
  | .other => s

inductive LinkAction where
  /-- A cache event, a pairing request or a new configuration synchronises the session. -/
  | sync (device : DeviceState) (peerName : String) (now : ℚ)
  /-- The cache reports the removal of the device. -/
  | deviceRemoved (now : ℚ)
  | notification (path : String) (data : List UInt8) (device : Option DeviceState) (now : ℚ)
  | writeback (payload : List UInt8) (device : Option DeviceState) (receivedTimeNs : Nat) (now : ℚ)
  | notifyFailed (path detail : String) (bonded : Bool) (now : ℚ)
  /-- `clear_peer_runtime`, and its end. -/
  | clearRuntime
  | runtimeCleared
  /-- `request_device_reset`; the handler of a failed authentication first drops
  `peer_initiated`. -/
  | requestReset (authentication : Bool) (reason : String) (resetPairingState : Bool) (now : ℚ)
  | pairResult (success : Bool) (errorDetail : String) (now : ℚ)
  | pairingEvent (event : PairingEvent) (device : DeviceState) (now : ℚ)
  /-- `get_or_create_session` for a pairing request. -/
  | meet (mac peerName : String) (now : ℚ)
  | localTimeNotify (active : Bool)
  | configure (config : LinkConfig)
  /-- `prune_sessions`; the peer may be among the current ones. -/
  | prune (current : Bool) (now ttl : ℚ)
  | visit (device : Option DeviceState) (serialActive : Bool) (now : ℚ)
  | continuePass (x : Answers)

namespace PeerLink

variable (l : PeerLink)

/-- `get_or_create_session` -/
def getOrCreateSession (mac peerName : String) (now : ℚ) : PeerConnectionSession :=
  match l.session with
  | some s => s.seen now peerName
  | none => Orchestration.createSession mac peerName now

/-- `sync_device` with what the bridge says of the link; a device that only advertises gets no
session. -/
def sync (regexMatch : String → String → Bool) (device : DeviceState) (peerName : String)
    (now : ℚ) : PeerLink :=
  let synced := fun s : PeerConnectionSession =>
    l.setSession (s.syncDevice regexMatch l.config.toSessionConfig device peerName
      (l.hasReadyBridge || l.preservesReadyBridge device) (l.preservesBridgeRuntime device) now)
  match l.session with
  | some s => synced s
  | none =>
      if device.needsForget = false ∧ (l.config.autoConnectEnable = false ∨ peerName = "") then l
      else synced (Orchestration.createSession device.mac peerName now)

def step (regexMatch : String → String → Bool) : LinkAction → Option PeerLink
  | .sync device peerName now => some (l.sync regexMatch device peerName now)
  | .deviceRemoved now => some (l.modify fun s => s.noteMissingDevice now)
  | .notification path data device now => some (l.onNotification path data device now)
  | .writeback payload device receivedTimeNs now =>
      some (l.handleTimeWriteback payload device receivedTimeNs now)
  | .notifyFailed path detail bonded now => some (l.onNotifyFailed path detail bonded now)
  | .clearRuntime => some l.clearRuntime
  | .runtimeCleared => some { l with clearing := false }
  | .requestReset authentication reason resetPairingState now =>
      some (l.modify fun s => (if authentication then s.setPeerInitiated false else s)
        |>.requestDeviceReset now reason resetPairingState)
  | .pairResult success errorDetail now =>
      some (l.modify fun s => s.notePairAttemptResult now success errorDetail l.hasReadyBridge)
  | .pairingEvent event device now =>
      some (l.setSession ((l.getOrCreateSession device.mac "" now).notePairingEvent event device now))
  | .meet mac peerName now => some (l.setSession (l.getOrCreateSession mac peerName now))
  | .localTimeNotify active =>
      some (l.modify fun s => { s with localTimeNotifyActiveThisConnection := active })
  | .configure config => some { l with config := config }
  | .prune current now ttl =>
      match l.session, l.pass with
      | some s, none =>
          some (if !current && l.bridge.isNone && decide (ttl < now - s.lastSeen) then
            { l with session := none } else l)
      | _, _ => none
  | .visit device serialActive now =>
      match l.session, l.pass with
      | some s, none => some (l.visit s device serialActive now)
      | _, _ => none
  | .continuePass x =>
      match l.session, l.pass with
      | some s, some p => some (l.continuePass p s x)
      | _, _ => none

/-- A peer that the node has not met. -/
def Initial : Prop := l.session = none ∧ l.bridge = none ∧ l.pass = none

/-! ### The situation of the handshake -/

/-- The peer is desired and no reset of it is requested or being served. -/
def steady : Bool :=
  l.session.any (fun s => s.desired && !s.repairRequested) &&
    !l.pass.any fun p => p.stage == .clearForReset || p.stage == .recordReset

/-- The handshake is complete. -/
def complete : Bool := l.bridge.any fun b => b.status == .ready && b.handshakeComplete

/-- The recovery branch of the pass runs. -/
def recovers : LinkAction → Bool
  | .continuePass _ => l.pass.any fun p =>
      match p.stage with
      | .recover _ => true
      | _ => false
  | _ => false

end PeerLink

/-- The synchronisation finds the device connected, paired as required and with its services,
and the cache has not lost it. -/
def LinkAction.keepsDevice (config : LinkConfig) : LinkAction → Bool
  | .sync device _ _ =>
      device.connected && device.hasRequiredPairing config.toSessionConfig && device.servicesResolved
  | .deviceRemoved _ => false
  | _ => true

/-- The action leaves the peer waiting for its handshake: desired, connected, paired as required
and without a requested reset, before and after; it neither completes the handshake nor recovers
the link. -/
def PeerLink.waits (regexMatch : String → String → Bool) (l : PeerLink) (a : LinkAction) : Bool :=
  l.steady && a.keepsDevice l.config && !l.recovers a &&
    (l.step regexMatch a).all fun l' => l'.steady && !l'.complete

end UavBluetooth.Peer
