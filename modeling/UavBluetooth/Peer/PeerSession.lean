import UavBluetooth.Peer.Arbitration

set_option autoImplicit false

/-! # Peer sessions

The session of a peer and what `PeerManager` does to it: requests for a reset of the peer's
BlueZ device and their end, the synchronisation with the object cache, missing devices and
pairing results. Points of the steady clock are in seconds, 0 stands for unset.

Four flags follow a reset: requested, in progress, removal issued, and awaiting the removal
from the cache (`Repair`). The lemmas at the end say what each function does to them.
-/

namespace UavBluetooth.Peer

open Util

inductive Phase where
  | idle | discovered | connectPending | connecting | connectedUnready | securing | ready
  | disconnecting | disconnected | passive | recovering | stale | blocked | policyBlocked
  | serialActive
  deriving DecidableEq, Repr

/-- The connection and security state in a BlueZ device record. -/
structure DeviceState where
  mac : String
  connected : Bool := false
  servicesResolved : Bool := false
  paired : Bool := false
  bonded : Bool := false
  trusted : Bool := false
  blocked : Bool := false
  deriving DecidableEq, Repr

/-- The fields of `NodeConfig` that the synchronisation reads. -/
structure SessionConfig extends PeerConfig where
  autoPair : Bool := true
  peerConnectionTimeout : ℚ := 10
  autoConnectPeriod : ℚ := 5

structure PeerConnectionSession where
  mac : String
  desired : Bool := false
  explicitTarget : Bool := false
  peerCandidate : Bool := false
  peerInitiated : Bool := false
  peerName : String := ""
  phase : Phase := .idle
  detail : String := ""
  firstSeen : ℚ := 0
  lastSeen : ℚ := 0
  desiredSince : ℚ := 0
  lastConnectAttempt : ℚ := 0
  connectStarted : ℚ := 0
  connectedSince : ℚ := 0
  lastSecurityAttempt : ℚ := 0
  pairingWaitStarted : ℚ := 0
  lastRepair : ℚ := 0
  repairRequestedAt : ℚ := 0
  lastServiceRetry : ℚ := 0
  missingSince : ℚ := 0
  bridgeWaitStarted : ℚ := 0
  lastNotifyFailure : ℚ := 0
  timeBridgeInitNotifyFailure : ℚ := 0
  bridgeWaitReason : String := ""
  pairingFailures : Nat := 0
  notifyFailureCount : Nat := 0
  timeBridgeInitNotifyFailureCount : Nat := 0
  pairingInProgress : Bool := false
  repairRequested : Bool := false
  pairingResetPending : Bool := false
  repairInProgress : Bool := false
  repairRemoveIssued : Bool := false
  repairAwaitingCacheRemoval : Bool := false
  forgetPending : Bool := false
  timeBridgeHealthyThisConnection : Bool := false
  localTimeNotifyActiveThisConnection : Bool := false
  repairReason : String := ""
  servicesWaitStarted : ℚ := 0
  servicesWaitGrace : ℚ := 0
  servicesResolvedSince : ℚ := 0
  serviceRegressionStarted : ℚ := 0
  lastNotifyFailureCharacteristicPath : String := ""
  remoteGattMissingSince : ℚ := 0
  remoteGattMissingChecks : Nat := 0

def kConnectAttemptGraceMin : ℚ := 15
def kConnectAttemptGraceMultiplier : ℚ := 5
def kServicesWaitGraceMin : ℚ := 15

def DeviceState.hasLocalSecurity (device : DeviceState) : Bool :=
  device.paired || device.bonded || device.trusted

def DeviceState.hasRequiredPairing (device : DeviceState) (config : SessionConfig) : Bool :=
  !config.autoPair || device.paired || device.bonded

/-- `device_needs_forget` -/
def DeviceState.needsForget (device : DeviceState) : Bool :=
  device.connected || device.servicesResolved || device.hasLocalSecurity

namespace PeerConnectionSession

variable (s : PeerConnectionSession)

/-! ## The fields that are cleared together -/

def clearBridgeWait : PeerConnectionSession :=
  { s with bridgeWaitStarted := 0, bridgeWaitReason := "" }

def clearNotifyFailures : PeerConnectionSession :=
  { s with
    lastNotifyFailure := 0
    notifyFailureCount := 0
    lastNotifyFailureCharacteristicPath := "" }

def clearInitNotifyFailures : PeerConnectionSession :=
  { s with timeBridgeInitNotifyFailure := 0, timeBridgeInitNotifyFailureCount := 0 }

def clearRemoteGatt : PeerConnectionSession :=
  { s with remoteGattMissingSince := 0, remoteGattMissingChecks := 0 }

def dropConnection : PeerConnectionSession :=
  { s with
    pairingInProgress := false
    timeBridgeHealthyThisConnection := false
    localTimeNotifyActiveThisConnection := false
    connectedSince := 0
    servicesWaitStarted := 0
    lastServiceRetry := 0
    servicesResolvedSince := 0
    serviceRegressionStarted := 0 }

/-- What is cleared with the connection, in the branches of `sync_device` without one. -/
def clearConnection : PeerConnectionSession :=
  s.clearBridgeWait.clearNotifyFailures.clearRemoteGatt.dropConnection

/-! ## The peer manager -/

def setPhase (phase : Phase) (detail : String) : PeerConnectionSession :=
  { s with phase := phase, detail := detail }

/-- The reason of the reset, or a text in its place. -/
def resetDetail (reason : String) : String :=
  if reason = "" then "resetting peer device state" else reason

/-- A further request adds what the first one did not say. -/
def adoptReason (reason : String) : PeerConnectionSession :=
  if s.repairReason = "" ∧ reason ≠ "" then { s with repairReason := reason } else s

def adoptPairingReset (resetPairingState : Bool) : PeerConnectionSession :=
  if resetPairingState then { s with pairingResetPending := true } else s

def adoptDetail : PeerConnectionSession :=
  if s.detail = "" then { s with detail := resetDetail s.repairReason } else s

/-- The flags and texts of a new request. -/
def armReset (now : ℚ) (reason : String) (resetPairingState : Bool) : PeerConnectionSession :=
  { s with
    repairRequested := true
    pairingResetPending := resetPairingState
    repairInProgress := false
    repairRemoveIssued := false
    repairAwaitingCacheRemoval := false
    repairRequestedAt := now
    repairReason := reason
    servicesWaitStarted := 0
    serviceRegressionStarted := 0
    localTimeNotifyActiveThisConnection := false
    phase := .recovering
    detail := resetDetail reason }

def requestDeviceReset (now : ℚ) (reason : String) (resetPairingState : Bool) :
    PeerConnectionSession :=
  if s.repairRequested then ((s.adoptReason reason).adoptPairingReset resetPairingState).adoptDetail
  else
    s.clearBridgeWait.clearNotifyFailures.clearInitNotifyFailures.clearRemoteGatt.armReset now
      reason resetPairingState

def disarmReset (clearPairingResetPending : Bool) : PeerConnectionSession :=
  { s with
    repairRequested := false
    repairInProgress := false
    repairRemoveIssued := false
    repairAwaitingCacheRemoval := false
    repairRequestedAt := 0
    pairingResetPending := if clearPairingResetPending then false else s.pairingResetPending
    forgetPending := false
    repairReason := ""
    lastServiceRetry := 0
    servicesResolvedSince := 0
    serviceRegressionStarted := 0 }

def clearDeviceReset (clearPairingResetPending : Bool) : PeerConnectionSession :=
  s.clearNotifyFailures.clearInitNotifyFailures.clearRemoteGatt.disarmReset clearPairingResetPending

/-- The end of `note_missing_device`: the removal that the reset waits for, or another one. -/
def noteRemoval : PeerConnectionSession :=
  if s.repairRequested ∧ s.repairAwaitingCacheRemoval then
    (s.clearDeviceReset true).setPhase .stale
      (if s.repairReason = "" then "awaiting fresh discovery after security reset"
        else s.repairReason)
  else s.setPhase .stale "device missing from cache"

def markMissing (now : ℚ) : PeerConnectionSession :=
  { s with
    missingSince := if s.missingSince ≤ 0 then now else s.missingSince
    forgetPending := false }

def noteMissingDevice (now : ℚ) : PeerConnectionSession :=
  ((s.markMissing now).clearConnection).noteRemoval

/-- What a failed attempt shows; a working link stays as it is. -/
def notePairFailure (errorDetail : String) (bridgeReady : Bool) : PeerConnectionSession :=
  if bridgeReady ∨ s.phase = .ready then
    { s with detail := if errorDetail = "" then "pair failed" else "pair failed: " ++ errorDetail }
  else
    s.setPhase .connectedUnready
      (if errorDetail = "" then
        if "authentication".toList <:+: (lowerTrimCopy errorDetail).toList then
          "pair authentication failed"
        else "pair failed"
      else "pair failed: " ++ errorDetail)

def notePairSuccess (now : ℚ) : PeerConnectionSession :=
  { s with lastSecurityAttempt := now, pairingInProgress := false, pairingFailures := 0 }

def countPairFailure (now : ℚ) : PeerConnectionSession :=
  { s with
    lastSecurityAttempt := now
    pairingFailures := s.pairingFailures + 1
    pairingInProgress := false
    repairInProgress := false }

/-- `note_pair_attempt_result` of the service node. -/
def notePairAttemptResult (now : ℚ) (success : Bool) (errorDetail : String) (bridgeReady : Bool) :
    PeerConnectionSession :=
  if success then (s.notePairSuccess now).clearDeviceReset true
  else (s.countPairFailure now).notePairFailure errorDetail bridgeReady

/-- `get_or_create_session` of a session that exists. -/
def seen (now : ℚ) (peerName : String) : PeerConnectionSession :=
  { s with lastSeen := now, peerName := if peerName = "" then s.peerName else peerName }

/-! ## Synchronisation with the cache -/

/-- Who selects the peer, and since when. -/
def syncPolicy (regexMatch : String → String → Bool) (config : SessionConfig) (mac : String)
    (now : ℚ) : PeerConnectionSession :=
  let explicitTarget := whitelistContains config.peerWhitelist mac s.peerName
  let candidate := lowerTrimCopy s.peerName ≠ "" &&
    isUavHostname regexMatch (lowerTrimCopy s.peerName) config.autoConnectPattern
  let desired := config.autoConnectEnable &&
    (explicitTarget || (candidate && config.peerWhitelist.isEmpty))
  { s with
    missingSince := 0
    explicitTarget := explicitTarget
    peerCandidate := candidate
    desired := desired
    desiredSince :=
      if desired then (if !s.desired || s.desiredSince ≤ 0 then now else s.desiredSince) else 0
    forgetPending := false
    servicesWaitGrace := max kServicesWaitGraceMin config.peerConnectionTimeout }

/-- The failures of an unpaired device do not count. -/
def syncFailures (device : DeviceState) : PeerConnectionSession :=
  if !device.paired && !device.bonded then s.clearInitNotifyFailures else s

/-- A repair that nobody has requested is not in progress once the device is gone. -/
def syncIdle (device : DeviceState) : PeerConnectionSession :=
  if !device.connected && !device.hasLocalSecurity && !device.servicesResolved &&
      !s.repairRequested then
    { s with forgetPending := false, repairInProgress := false }
  else s

def syncForget (device : DeviceState) : PeerConnectionSession :=
  if device.needsForget then s else s.clearDeviceReset true

def syncPassive (config : SessionConfig) (device : DeviceState) : PeerConnectionSession :=
  if device.connected then
    s.setPhase .passive "peer-initiated or manually managed connection"
  else if s.peerCandidate then
    s.setPhase .idle (if config.autoConnectEnable then "not selected for automatic connection"
      else "automatic connection disabled")
  else
    s.setPhase .idle (if s.peerName = "" then "device does not match peer policy"
      else "not a peer candidate")

/-- A peer that is not selected. -/
def syncUnselected (config : SessionConfig) (device : DeviceState) : PeerConnectionSession :=
  (s.clearConnection.clearInitNotifyFailures.syncForget device).syncPassive config device

def awaitConnection : PeerConnectionSession :=
  if s.phase = .connecting ∨ s.phase = .connectPending then
    s.setPhase .connectPending "awaiting connection"
  else
    s.setPhase (if 0 < s.lastConnectAttempt then .disconnected else .discovered)
      "awaiting connection"

def setPeerInitiated (peerInitiated : Bool) : PeerConnectionSession :=
  { s with peerInitiated := peerInitiated }

/-- A selected peer without a link. -/
def syncDisconnected : PeerConnectionSession :=
  (s.clearConnection.setPeerInitiated false).awaitConnection

/-- The first sight of a link; one that this node has not begun is the peer's. -/
def syncInitiator (config : SessionConfig) (now : ℚ) : PeerConnectionSession :=
  let grace := max kConnectAttemptGraceMin (config.autoConnectPeriod * kConnectAttemptGraceMultiplier)
  if s.connectedSince ≤ 0 ∧ ¬(0 < s.connectStarted ∧ now - s.connectStarted < grace) then
    (s.setPeerInitiated true).clearDeviceReset true
  else s

def markConnected (now : ℚ) : PeerConnectionSession :=
  { s with connectedSince := if 0 < s.connectedSince then s.connectedSince else now }

def syncConnection (config : SessionConfig) (now : ℚ) : PeerConnectionSession :=
  (s.syncInitiator config now).markConnected now

def clearServiceRetry : PeerConnectionSession := { s with lastServiceRetry := 0 }

def awaitPairing : PeerConnectionSession :=
  if s.pairingInProgress then
    { s with
      phase := .securing
      detail := if s.detail = "" ∨ s.detail = "connected, waiting for pairing" then
        "awaiting pairing completion" else s.detail }
  else s.setPhase .connectedUnready "connected, waiting for pairing"

/-- A link without the pairing that the configuration asks for. -/
def syncUnpaired : PeerConnectionSession :=
  s.clearServiceRetry.clearBridgeWait.clearRemoteGatt.awaitPairing

/-- The rediscovery of services under a bridge that works, or is about to. -/
def noteRegression (now : ℚ) : PeerConnectionSession :=
  { s with
    serviceRegressionStarted :=
      if s.serviceRegressionStarted ≤ 0 then now else s.serviceRegressionStarted
    servicesWaitStarted := 0 }

def keepBridge : PeerConnectionSession :=
  { s with
    phase := .connectedUnready
    detail := if s.detail = "" then
      "peer time bridge active during expected services rediscovery" else s.detail }

def awaitServices (now : ℚ) : PeerConnectionSession :=
  { s with
    servicesResolvedSince := 0
    serviceRegressionStarted := 0
    servicesWaitStarted := if s.servicesWaitStarted ≤ 0 then now else s.servicesWaitStarted
    phase := .connectedUnready
    detail := "connected, waiting for services" }

/-- A link whose services BlueZ has not resolved. -/
def syncUnresolved (preserveReadyRuntime preserveActiveBridgeRuntime : Bool) (now : ℚ) :
    PeerConnectionSession :=
  if preserveReadyRuntime then
    ((s.clearServiceRetry.noteRegression now).clearBridgeWait.clearNotifyFailures.clearRemoteGatt
      ).setPhase .ready "peer time bridge active during expected services rediscovery"
  else if preserveActiveBridgeRuntime then
    (s.clearServiceRetry.noteRegression now).clearRemoteGatt.keepBridge
  else
    s.clearServiceRetry.clearBridgeWait.clearNotifyFailures.clearRemoteGatt.awaitServices now

/-- A link with its services. -/
def syncResolved (preserveReadyRuntime : Bool) (now : ℚ) : PeerConnectionSession :=
  { s with
    servicesResolvedSince := if s.servicesResolvedSince ≤ 0 then now else s.servicesResolvedSince
    serviceRegressionStarted := 0
    servicesWaitStarted := 0
    phase := if preserveReadyRuntime then .ready else .connectedUnready
    detail := if preserveReadyRuntime then "peer time bridge active"
      else "connected, services resolved, awaiting peer time bridge" }

def endPairing : PeerConnectionSession :=
  { s with pairingInProgress := false, pairingWaitStarted := 0 }

def syncPaired (device : DeviceState) (preserveReadyRuntime preserveActiveBridgeRuntime : Bool)
    (now : ℚ) : PeerConnectionSession :=
  if device.servicesResolved = false then
    s.endPairing.syncUnresolved preserveReadyRuntime preserveActiveBridgeRuntime now
  else s.endPairing.syncResolved preserveReadyRuntime now

def syncLink (config : SessionConfig) (device : DeviceState)
    (preserveReadyRuntime preserveActiveBridgeRuntime : Bool) (now : ℚ) : PeerConnectionSession :=
  if s.desired = false then s.syncUnselected config device
  else if device.blocked then s.setPhase .blocked "device is blocked by BlueZ"
  else if device.connected = false then s.syncDisconnected
  else if device.hasRequiredPairing config = false then (s.syncConnection config now).syncUnpaired
  else
    (s.syncConnection config now).syncPaired device preserveReadyRuntime
      preserveActiveBridgeRuntime now

/-- `sync_device` of a session that exists or is created. -/
def syncDevice (regexMatch : String → String → Bool) (config : SessionConfig)
    (device : DeviceState) (peerName : String)
    (preserveReadyRuntime preserveActiveBridgeRuntime : Bool) (now : ℚ) : PeerConnectionSession :=
  ((((s.seen now peerName).syncPolicy regexMatch config device.mac now).syncFailures
    device).syncIdle device).syncLink config device preserveReadyRuntime
      preserveActiveBridgeRuntime now

/-! ## The flags of a reset -/

/-- The four flags that follow a reset. -/
structure Repair where
  requested : Bool := false
  inProgress : Bool := false
  removeIssued : Bool := false
  awaiting : Bool := false
  deriving DecidableEq, Repr

def repair : Repair :=
  ⟨s.repairRequested, s.repairInProgress, s.repairRemoveIssued, s.repairAwaitingCacheRemoval⟩

/-- The flags wind down: nothing happens, progress ends, or the reset is cleared. -/
def Repair.Winds (r r' : Repair) : Prop :=
  r' = r ∨ r' = { r with inProgress := false } ∨ r' = {}

theorem Repair.Winds.trans {r r' r'' : Repair} (h : r.Winds r') (h' : r'.Winds r'') :
    r.Winds r'' := by
  rcases h with rfl | rfl | rfl
  · exact h'
  · rcases h' with rfl | rfl | rfl
    · exact Or.inr (Or.inl rfl)
    · exact Or.inr (Or.inl rfl)
    · exact Or.inr (Or.inr rfl)
  · rcases h' with rfl | rfl | rfl
    · exact Or.inr (Or.inr rfl)
    · exact Or.inr (Or.inr rfl)
    · exact Or.inr (Or.inr rfl)

section

variable {s}

@[simp] theorem repair_clearBridgeWait : s.clearBridgeWait.repair = s.repair := rfl

@[simp] theorem repair_clearNotifyFailures : s.clearNotifyFailures.repair = s.repair := rfl

@[simp] theorem repair_clearInitNotifyFailures : s.clearInitNotifyFailures.repair = s.repair := rfl

@[simp] theorem repair_clearRemoteGatt : s.clearRemoteGatt.repair = s.repair := rfl

@[simp] theorem repair_dropConnection : s.dropConnection.repair = s.repair := rfl

@[simp] theorem repair_clearConnection : s.clearConnection.repair = s.repair := by
  simp only [clearConnection, repair_dropConnection, repair_clearRemoteGatt,
    repair_clearNotifyFailures, repair_clearBridgeWait]

@[simp] theorem repair_setPhase (phase : Phase) (detail : String) :
    (s.setPhase phase detail).repair = s.repair := rfl

@[simp] theorem repair_setPeerInitiated (peerInitiated : Bool) :
    (s.setPeerInitiated peerInitiated).repair = s.repair := rfl

@[simp] theorem repair_markConnected (now : ℚ) : (s.markConnected now).repair = s.repair := rfl

@[simp] theorem repair_markMissing (now : ℚ) : (s.markMissing now).repair = s.repair := rfl

@[simp] theorem repair_clearServiceRetry : s.clearServiceRetry.repair = s.repair := rfl

@[simp] theorem repair_noteRegression (now : ℚ) : (s.noteRegression now).repair = s.repair := rfl

@[simp] theorem repair_keepBridge : s.keepBridge.repair = s.repair := rfl

@[simp] theorem repair_awaitServices (now : ℚ) : (s.awaitServices now).repair = s.repair := rfl

@[simp] theorem repair_endPairing : s.endPairing.repair = s.repair := rfl

@[simp] theorem repair_syncResolved (preserveReadyRuntime : Bool) (now : ℚ) :
    (s.syncResolved preserveReadyRuntime now).repair = s.repair := rfl

@[simp] theorem repair_seen (now : ℚ) (peerName : String) :
    (s.seen now peerName).repair = s.repair := rfl

@[simp] theorem repair_syncPolicy (regexMatch : String → String → Bool) (config : SessionConfig)
    (mac : String) (now : ℚ) : (s.syncPolicy regexMatch config mac now).repair = s.repair := rfl

theorem repair_armReset (now : ℚ) (reason : String) (resetPairingState : Bool) :
    (s.armReset now reason resetPairingState).repair = { requested := true } := rfl

@[simp] theorem repair_adoptReason (reason : String) : (s.adoptReason reason).repair = s.repair := by
  unfold adoptReason
  split <;> rfl

@[simp] theorem repair_adoptPairingReset (resetPairingState : Bool) :
    (s.adoptPairingReset resetPairingState).repair = s.repair := by
  unfold adoptPairingReset
  split <;> rfl

@[simp] theorem repair_adoptDetail : s.adoptDetail.repair = s.repair := by
  unfold adoptDetail
  split <;> rfl

theorem repair_requestDeviceReset (now : ℚ) (reason : String) (resetPairingState : Bool) :
    (s.requestDeviceReset now reason resetPairingState).repair =
      if s.repairRequested then s.repair else { requested := true } := by
  unfold requestDeviceReset
  split
  · simp
  · rw [repair_armReset]

@[simp] theorem repair_clearDeviceReset (clearPairingResetPending : Bool) :
    (s.clearDeviceReset clearPairingResetPending).repair = {} := by
  unfold clearDeviceReset
  generalize s.clearNotifyFailures.clearInitNotifyFailures.clearRemoteGatt = t
  rfl

theorem winds_noteRemoval : s.repair.Winds s.noteRemoval.repair := by
  unfold noteRemoval
  split
  · exact Or.inr (Or.inr (by simp))
  · exact Or.inl (by simp)

theorem winds_noteMissingDevice (now : ℚ) : s.repair.Winds (s.noteMissingDevice now).repair := by
  have hremoval := @winds_noteRemoval (s.markMissing now).clearConnection
  rw [repair_clearConnection, repair_markMissing] at hremoval
  exact hremoval

@[simp] theorem repair_notePairFailure (errorDetail : String) (bridgeReady : Bool) :
    (s.notePairFailure errorDetail bridgeReady).repair = s.repair := by
  unfold notePairFailure
  split <;> rfl

theorem repair_countPairFailure (now : ℚ) :
    (s.countPairFailure now).repair = { s.repair with inProgress := false } := rfl

theorem winds_notePairAttemptResult (now : ℚ) (success : Bool) (errorDetail : String)
    (bridgeReady : Bool) :
    s.repair.Winds (s.notePairAttemptResult now success errorDetail bridgeReady).repair := by
  unfold notePairAttemptResult
  split
  · exact Or.inr (Or.inr (by simp))
  · rw [repair_notePairFailure, repair_countPairFailure]
    exact Or.inr (Or.inl rfl)

@[simp] theorem repair_syncFailures (device : DeviceState) :
    (s.syncFailures device).repair = s.repair := by
  unfold syncFailures
  split <;> simp

theorem winds_syncIdle (device : DeviceState) : s.repair.Winds (s.syncIdle device).repair := by
  unfold syncIdle
  split
  · exact Or.inr (Or.inl rfl)
  · exact Or.inl rfl

@[simp] theorem repair_syncPassive (config : SessionConfig) (device : DeviceState) :
    (s.syncPassive config device).repair = s.repair := by
  unfold syncPassive
  split
  · simp
  · split <;> simp

theorem winds_syncUnselected (config : SessionConfig) (device : DeviceState) :
    s.repair.Winds (s.syncUnselected config device).repair := by
  unfold syncUnselected
  rw [repair_syncPassive]
  unfold syncForget
  split
  · exact Or.inl (by simp)
  · exact Or.inr (Or.inr (by simp))

@[simp] theorem repair_awaitConnection : s.awaitConnection.repair = s.repair := by
  unfold awaitConnection
  split <;> simp

@[simp] theorem repair_syncDisconnected : s.syncDisconnected.repair = s.repair := by
  simp [syncDisconnected]

theorem winds_syncConnection (config : SessionConfig) (now : ℚ) :
    s.repair.Winds (s.syncConnection config now).repair := by
  unfold syncConnection
  rw [repair_markConnected]
  unfold syncInitiator
  dsimp only
  split
  · exact Or.inr (Or.inr (by simp))
  · exact Or.inl rfl

@[simp] theorem repair_awaitPairing : s.awaitPairing.repair = s.repair := by
  unfold awaitPairing
  split <;> rfl

@[simp] theorem repair_syncUnpaired : s.syncUnpaired.repair = s.repair := by
  simp [syncUnpaired]

@[simp] theorem repair_syncUnresolved (preserveReadyRuntime preserveActiveBridgeRuntime : Bool)
    (now : ℚ) : (s.syncUnresolved preserveReadyRuntime preserveActiveBridgeRuntime now).repair =
      s.repair := by
  unfold syncUnresolved
  split
  · simp
  · split <;> simp

@[simp] theorem repair_syncPaired (device : DeviceState)
    (preserveReadyRuntime preserveActiveBridgeRuntime : Bool) (now : ℚ) :
    (s.syncPaired device preserveReadyRuntime preserveActiveBridgeRuntime now).repair =
      s.repair := by
  unfold syncPaired
  split <;> simp

theorem winds_syncLink (config : SessionConfig) (device : DeviceState)
    (preserveReadyRuntime preserveActiveBridgeRuntime : Bool) (now : ℚ) :
    s.repair.Winds (s.syncLink config device preserveReadyRuntime preserveActiveBridgeRuntime
      now).repair := by
  unfold syncLink
  split
  · exact winds_syncUnselected config device
  · split
    · exact Or.inl (by simp)
    · split
      · exact Or.inl repair_syncDisconnected
      · split
        · rw [repair_syncUnpaired]
          exact winds_syncConnection config now
        · rw [repair_syncPaired]
          exact winds_syncConnection config now

/-- A synchronisation winds the flags down. -/
theorem winds_syncDevice (regexMatch : String → String → Bool) (config : SessionConfig)
    (device : DeviceState) (peerName : String)
    (preserveReadyRuntime preserveActiveBridgeRuntime : Bool) (now : ℚ) :
    s.repair.Winds (s.syncDevice regexMatch config device peerName preserveReadyRuntime
      preserveActiveBridgeRuntime now).repair := by
  unfold syncDevice
  have hbefore : (((s.seen now peerName).syncPolicy regexMatch config device.mac now).syncFailures
      device).repair = s.repair := by simp
  generalize ((s.seen now peerName).syncPolicy regexMatch config device.mac now).syncFailures
    device = t at hbefore ⊢
  rw [← hbefore]
  exact (winds_syncIdle device).trans
    (winds_syncLink config device preserveReadyRuntime preserveActiveBridgeRuntime now)

end

end PeerConnectionSession

end UavBluetooth.Peer
