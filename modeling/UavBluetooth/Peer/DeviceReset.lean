import UavBluetooth.Lib.Run
import UavBluetooth.Peer.PeerSession

set_option autoImplicit false

/-! # Device resets

A session with a requested reset is served by `reconcile_peers`: it starts a task that removes
the device from BlueZ and sets the flags of the reset at once. The task runs on its own thread
and decides before each of its calls whether to go on. All peers share one worker.

The remainder of the node, which works on the other fields of the sessions, is left to the run
(`Action.write`, `Action.startOther`). `reset_progresses` says when a reset cannot hang: when
its task neither gives up nor fails while the reset is still wanted.
-/

namespace UavBluetooth.Peer

open PeerConnectionSession

/-! ## The system -/

/-- Where the reset task is: before one of its checks, or after it. -/
inductive ResetStage where
  | begin
  | disconnect
  | recheck
  | remove
  | checkRemoved
  | unblock
  deriving DecidableEq, Repr

/-- What the worker does. -/
inductive Work where
  /-- The reset task of the peer's `request`-th reset. -/
  | reset (request : Nat) (connected : Bool) (stage : ResetStage)
  | other (label : String)
  deriving DecidableEq, Repr

structure PeerTask where
  mac : String
  work : Work
  deriving DecidableEq, Repr

/-- How a call of the client ends. -/
inductive CallOutcome where
  /-- BlueZ has accepted it. -/
  | accepted
  /-- It was refused, or not made because the device is not in the cache. -/
  | notAccepted
  | threw
  deriving DecidableEq, Repr

structure Orchestration where
  sessions : Std.ExtTreeMap String PeerConnectionSession := ∅
  config : SessionConfig
  enableMesh : Bool := false
  broadcast : Bool := false
  configApplyInProgress : Bool := false
  shuttingDown : Bool := false
  peerTask : Option PeerTask := none
  /-- A pass of `reconcile_peers` is under way. -/
  passing : Bool := false
  /-- The peer of the pass and its time, while it has released the lock to clear the peer's
  runtime. -/
  clearing : Option (String × ℚ) := none
  /-- How many resets have been requested for each peer. -/
  requests : Std.ExtTreeMap String Nat := ∅
  /-- The removals that BlueZ has accepted, with the request that they were for. -/
  removals : List (String × Nat) := []

namespace Orchestration

variable (o : Orchestration)

def session (mac : String) : Option PeerConnectionSession := o.sessions[mac]?

def request (mac : String) : Nat := o.requests[mac]?.getD 0

def setSession (mac : String) (s : PeerConnectionSession) : Orchestration :=
  { o with sessions := o.sessions.insert mac s }

/-- Change a session under the lock, if there is one. -/
def modify (mac : String) (f : PeerConnectionSession → PeerConnectionSession) : Orchestration :=
  match o.session mac with
  | none => o
  | some s => o.setSession mac (f s)

/-- Number a new request. -/
def countRequest (mac : String) : Orchestration :=
  { o with requests := o.requests.insert mac (o.request mac + 1) }

/-- `request_device_reset` of a session. -/
def requestReset (mac reason : String) (resetPairingState : Bool) (now : ℚ) : Orchestration :=
  match o.session mac with
  | none => o
  | some s =>
      let o' := o.setSession mac (s.requestDeviceReset now reason resetPairingState)
      if s.repairRequested then o' else o'.countRequest mac

/-- `get_or_create_session` of a first-seen peer. -/
def createSession (mac peerName : String) (now : ℚ) : PeerConnectionSession where
  mac := mac
  firstSeen := now
  lastSeen := now
  peerName := peerName

/-- `sync_device`; it creates no session for a device that only advertises. -/
def sync (regexMatch : String → String → Bool) (device : DeviceState) (peerName : String)
    (preserveReadyRuntime preserveActiveBridgeRuntime : Bool) (now : ℚ) : Orchestration :=
  match o.session device.mac with
  | some s =>
      o.setSession device.mac (s.syncDevice regexMatch o.config device peerName preserveReadyRuntime
        preserveActiveBridgeRuntime now)
  | none =>
      if device.needsForget = false ∧ (o.config.autoConnectEnable = false ∨ peerName = "") then o
      else
        o.setSession device.mac ((createSession device.mac peerName now).syncDevice regexMatch
          o.config device peerName preserveReadyRuntime preserveActiveBridgeRuntime now)

/-! ## The pass -/

/-- `run_peer_task_once`: claim the worker, if it is free. -/
def runPeerTaskOnce (mac : String) (work : Work) : Option Orchestration :=
  if o.shuttingDown ∨ o.peerTask.isSome then none
  else some { o with peerTask := some ⟨mac, work⟩ }

/-- The flags and timers that the pass sets when it has started the reset. -/
def beginRecovery (s : PeerConnectionSession) : PeerConnectionSession :=
  { s with
    repairRemoveIssued := true
    repairAwaitingCacheRemoval := true
    repairInProgress := true }

/-- After the runtime of the peer is cleared. -/
def recover (s : PeerConnectionSession) (now : ℚ) : PeerConnectionSession :=
  { s.clearBridgeWait.clearRemoteGatt with
    phase := .recovering
    detail := resetDetail s.repairReason
    lastRepair := now
    lastConnectAttempt := 0
    connectStarted := 0
    connectedSince := 0
    lastSecurityAttempt := 0
    servicesWaitStarted := 0 }

/-- The phase of a recovered session that waits for its peer. -/
def resumeDiscovery (s : PeerConnectionSession) (device : Bool) : PeerConnectionSession :=
  if s.phase = .recovering then
    if device then s.setPhase .discovered "awaiting fresh connection after security reset"
    else s.setPhase .stale "awaiting fresh discovery after security reset"
  else s

/-- `session.forget_pending = false` -/
def keep (s : PeerConnectionSession) : PeerConnectionSession := { s with forgetPending := false }

/-- What `reconcile_peers` does for a session with a requested reset, up to where it releases
the lock. -/
def reconcileReset (mac : String) (s : PeerConnectionSession) (device : Option DeviceState)
    (now : ℚ) : Orchestration :=
  if s.repairAwaitingCacheRemoval ∨ s.repairInProgress then o
  else if s.repairRemoveIssued then o.setSession mac (resumeDiscovery s device.isSome)
  else
    match o.runPeerTaskOnce mac (.reset (o.request mac) (device.any (·.connected)) .begin) with
    | none => o
    | some started =>
        { started.setSession mac (beginRecovery s) with
          clearing := some (mac, now) }

/-- What `reconcile_peers` does for a session, from where it no longer forgets it: a blocked
device is unblocked, a requested reset is started. -/
def reconcile (mac : String) (device : Option DeviceState) (now : ℚ) : Orchestration :=
  match o.session mac with
  | none => o
  | some s =>
      if s.peerInitiated ∨ (s.desired = false ∧ s.repairRequested = false ∧
          s.repairInProgress = false) then o
      else
        let o := o.setSession mac (keep s)
        if device.any (·.blocked) then
          match o.runPeerTaskOnce mac (.other "unblock") with
          | none => o
          | some started =>
              started.setSession mac ((keep s).setPhase .discovered "unblocking desired peer")
        else if s.repairRequested then o.reconcileReset mac (keep s) device now
        else o

/-! ## The reset task -/

/-- `should_continue_repair` -/
def shouldContinueRepair (mac : String) : Bool :=
  !(o.shuttingDown || o.configApplyInProgress || o.enableMesh || o.broadcast) &&
    (o.session mac).any (·.repairRequested)

/-- One step of the reset task: a check, or a call with its outcome. -/
def resetStep (mac : String) (request : Nat) (connected : Bool) (outcome : CallOutcome) :
    ResetStage → Orchestration
  | .begin =>
      if o.shouldContinueRepair mac then
        { o with peerTask := some ⟨mac, .reset request connected
            (if connected then .disconnect else .recheck)⟩ }
      else { o with peerTask := none }
  | .disconnect =>
      if outcome = .threw then { o with peerTask := none }
      else { o with peerTask := some ⟨mac, .reset request connected .recheck⟩ }
  | .recheck =>
      if o.shouldContinueRepair mac then
        { o with peerTask := some ⟨mac, .reset request connected .remove⟩ }
      else { o with peerTask := none }
  | .remove =>
      match outcome with
      | .threw => { o with peerTask := none }
      | .notAccepted => { o with peerTask := some ⟨mac, .reset request connected .checkRemoved⟩ }
      | .accepted =>
          { o with
            peerTask := some ⟨mac, .reset request connected .checkRemoved⟩
            removals := (mac, request) :: o.removals }
  | .checkRemoved =>
      if o.shouldContinueRepair mac then
        { o with peerTask := some ⟨mac, .reset request connected .unblock⟩ }
      else { o with peerTask := none }
  | .unblock => { o with peerTask := none }

/-! ## Runs -/

inductive Action where
  | requestReset (mac reason : String) (resetPairingState : Bool) (now : ℚ)
  | clearReset (mac : String) (clearPairingResetPending : Bool)
  | sync (device : DeviceState) (peerName : String)
      (preserveReadyRuntime preserveActiveBridgeRuntime : Bool) (now : ℚ)
  | missing (mac : String) (now : ℚ)
  | pairResult (mac : String) (success : Bool) (errorDetail : String) (bridgeReady : Bool) (now : ℚ)
  | prune (mac : String)
  /-- The remainder of the node changes a session, but not the flags of its reset. -/
  | write (s : PeerConnectionSession)
  | configure (config : SessionConfig) (enableMesh broadcast : Bool)
  | configApply (inProgress : Bool)
  | shutDown
  | beginPass
  | endPass
  | reconcile (mac : String) (device : Option DeviceState) (now : ℚ)
  /-- The pass goes on after it has cleared the runtime of the peer. -/
  | cleared
  | startOther (mac label : String)
  | finishOther
  | resetTask (outcome : CallOutcome)

def step (regexMatch : String → String → Bool) : Action → Option Orchestration
  | .requestReset mac reason resetPairingState now =>
      some (o.requestReset mac reason resetPairingState now)
  | .clearReset mac clearPairingResetPending =>
      some (o.modify mac fun s => s.clearDeviceReset clearPairingResetPending)
  | .sync device peerName preserveReadyRuntime preserveActiveBridgeRuntime now =>
      some (o.sync regexMatch device peerName preserveReadyRuntime preserveActiveBridgeRuntime now)
  | .missing mac now => some (o.modify mac fun s => s.noteMissingDevice now)
  | .pairResult mac success errorDetail bridgeReady now =>
      some (o.modify mac fun s => s.notePairAttemptResult now success errorDetail bridgeReady)
  | .prune mac => some { o with sessions := o.sessions.erase mac }
  | .write s =>
      match o.session s.mac with
      | none => none
      | some old => if s.repair = old.repair then some (o.setSession s.mac s) else none
  | .configure config enableMesh broadcast =>
      some { o with config := config, enableMesh := enableMesh, broadcast := broadcast }
  | .configApply inProgress => some { o with configApplyInProgress := inProgress }
  | .shutDown => some { o with shuttingDown := true }
  | .beginPass =>
      if o.passing ∨ o.configApplyInProgress ∨ o.enableMesh ∨ o.broadcast then none
      else some { o with passing := true }
  | .endPass => if o.clearing.isSome then none else some { o with passing := false }
  | .reconcile mac device now =>
      if o.passing = false ∨ o.clearing.isSome then none else some (o.reconcile mac device now)
  | .cleared =>
      match o.clearing with
      | none => none
      | some (mac, now) => some { o.modify mac (recover · now) with clearing := none }
  | .startOther mac label => o.runPeerTaskOnce mac (.other label)
  | .finishOther =>
      match o.peerTask with
      | some ⟨_, .other _⟩ => some { o with peerTask := none }
      | _ => none
  | .resetTask outcome =>
      match o.peerTask with
      | some ⟨mac, .reset request connected stage⟩ =>
          some (o.resetStep mac request connected outcome stage)
      | _ => none

/-- A freshly started node. -/
def Initial (o : Orchestration) : Prop :=
  o.sessions = ∅ ∧ o.peerTask = none ∧ o.passing = false ∧ o.clearing = none ∧ o.requests = ∅ ∧
    o.removals = []

/-! ## Progress -/

/-- The reset is still wanted and its removal is still to come. -/
def Wanted (mac : String) (request : Nat) : Prop :=
  (o.session mac).any (·.repairAwaitingCacheRemoval) = true ∧ request = o.request mac ∧
    (mac, request) ∉ o.removals

/-- A step of a reset task that is still wanted neither gives up nor fails. -/
def Persists : Action → Prop
  | .resetTask outcome =>
      match o.peerTask with
      | some ⟨mac, .reset request _ stage⟩ =>
          o.Wanted mac request →
            match stage with
            | .begin | .recheck =>
                (o.shuttingDown || o.configApplyInProgress || o.enableMesh || o.broadcast) = false
            | .disconnect => outcome ≠ .threw
            | .remove => outcome = .accepted
            | _ => True
      | _ => True
  | _ => True

instance (mac : String) (request : Nat) : Decidable (o.Wanted mac request) :=
  inferInstanceAs (Decidable (_ ∧ _ ∧ _))

instance (a : Action) : Decidable (o.Persists a) := by
  unfold Persists
  split
  · split
    · refine @instDecidableForall _ _ inferInstance ?_
      split <;> infer_instance
    · exact inferInstanceAs (Decidable True)
  · exact inferInstanceAs (Decidable True)

/-- The flags tell the truth, and a wanted reset does not hang: `reconcile_peers` starts its
removal unless a task is at work or BlueZ has accepted the removal. -/
structure Progresses (regexMatch : String → String → Bool) : Prop where
  flags : ∀ mac s, o.session mac = some s →
    s.repairInProgress = true ∨ s.repairRemoveIssued = true ∨ s.repairAwaitingCacheRemoval = true →
      s.repairRequested = true
  backed : ∀ mac s, o.session mac = some s → s.repairAwaitingCacheRemoval = true →
    (∃ request connected stage, o.peerTask = some ⟨mac, .reset request connected stage⟩) ∨
      (mac, o.request mac) ∈ o.removals
  again : ∀ mac s device now, o.session mac = some s → s.repairRequested = true →
    s.peerInitiated = false → Option.any (·.blocked) device = false →
    o.peerTask = none → (mac, o.request mac) ∉ o.removals →
    o.passing = true → o.clearing = none → o.shuttingDown = false →
      ∃ o', o.step regexMatch (.reconcile mac device now) = some o' ∧
        o'.peerTask = some ⟨mac, .reset (o.request mac) (device.any (·.connected)) .begin⟩

/-! ### The flags -/

/-- Issued and awaited go together, progress needs both, and all three need a request. -/
structure Sound (r : Repair) : Prop where
  issued : r.removeIssued = r.awaiting
  progress : r.inProgress = true → r.awaiting = true
  requested : r.awaiting = true → r.requested = true

theorem sound_none : Sound {} := ⟨rfl, fun h => h, fun h => h⟩

theorem Sound.winds {r r' : Repair} (h : Sound r) (hwinds : r.Winds r') : Sound r' := by
  rcases hwinds with rfl | rfl | rfl
  · exact h
  · exact ⟨h.issued, fun hno => absurd hno Bool.false_ne_true, h.requested⟩
  · exact sound_none

/-- What winds down does not begin to wait. -/
theorem awaiting_of_winds {r r' : Repair} (hwinds : r.Winds r') (h : r'.awaiting = true) :
    r.awaiting = true := by
  rcases hwinds with rfl | rfl | rfl
  · exact h
  · exact h
  · cases h

variable {o}

theorem session_setSession (mac mac' : String) (s : PeerConnectionSession) :
    (o.setSession mac s).session mac' = if mac = mac' then some s else o.session mac' := by
  simp only [session, setSession, Std.ExtTreeMap.getElem?_insert, Std.LawfulEqCmp.compare_eq_iff_eq]

theorem request_countRequest {mac mac' : String} (h : mac ≠ mac') :
    (o.countRequest mac).request mac' = o.request mac' := by
  simp only [request, countRequest, Std.ExtTreeMap.getElem?_insert,
    Std.LawfulEqCmp.compare_eq_iff_eq, h, if_false]

/-- The task at work for a reset, before its removal is accepted. -/
def AtWork (o : Orchestration) (mac : String) : Prop :=
  ∃ connected stage, o.peerTask = some ⟨mac, .reset (o.request mac) connected stage⟩ ∧
    (stage = .begin ∨ stage = .disconnect ∨ stage = .recheck ∨ stage = .remove)

/-- The invariant of a session. -/
structure Kept (o : Orchestration) (mac : String) (s : PeerConnectionSession) : Prop where
  sound : Sound s.repair
  backed : s.repairAwaitingCacheRemoval = true → o.AtWork mac ∨ (mac, o.request mac) ∈ o.removals

def Orderly (o : Orchestration) : Prop := ∀ mac s, o.session mac = some s → o.Kept mac s

/-- A session changes and the reset of no other one. -/
theorem Orderly.setSession (h : o.Orderly) {mac : String} {s : PeerConnectionSession}
    (hkept : o.Kept mac s) : (o.setSession mac s).Orderly := by
  intro mac' s' hs'
  rw [session_setSession] at hs'
  split at hs'
  · rename_i hmac
    cases hs'
    subst hmac
    exact ⟨hkept.sound, hkept.backed⟩
  · have hold := h mac' s' hs'
    exact ⟨hold.sound, hold.backed⟩

theorem Kept.winds {mac : String} {s s' : PeerConnectionSession} (h : o.Kept mac s)
    (hwinds : s.repair.Winds s'.repair) : o.Kept mac s' :=
  ⟨h.sound.winds hwinds, fun hawaiting => h.backed (awaiting_of_winds hwinds hawaiting)⟩

theorem Orderly.modify (h : o.Orderly) (mac : String)
    {f : PeerConnectionSession → PeerConnectionSession}
    (hf : ∀ s : PeerConnectionSession, s.repair.Winds (f s).repair) : (o.modify mac f).Orderly := by
  unfold Orchestration.modify
  split
  · exact h
  · rename_i s hs
    exact h.setSession ((h mac s hs).winds (hf s))

theorem Orderly.sync (h : o.Orderly) (regexMatch : String → String → Bool) (device : DeviceState)
    (peerName : String) (preserveReadyRuntime preserveActiveBridgeRuntime : Bool) (now : ℚ) :
    (o.sync regexMatch device peerName preserveReadyRuntime preserveActiveBridgeRuntime
      now).Orderly := by
  unfold Orchestration.sync
  split
  · rename_i s hs
    exact h.setSession ((h _ s hs).winds (winds_syncDevice _ _ _ _ _ _ _))
  · split
    · exact h
    · refine h.setSession ?_
      have hfresh : o.Kept device.mac (createSession device.mac peerName now) :=
        ⟨sound_none, fun hno => absurd hno Bool.false_ne_true⟩
      exact hfresh.winds (winds_syncDevice _ _ _ _ _ _ _)

theorem Orderly.requestReset (h : o.Orderly) (mac reason : String) (resetPairingState : Bool)
    (now : ℚ) : (o.requestReset mac reason resetPairingState now).Orderly := by
  unfold Orchestration.requestReset
  split
  · exact h
  · rename_i s hs
    have hold := h mac s hs
    have hrepair := @repair_requestDeviceReset s now reason resetPairingState
    dsimp only
    split
    · rename_i hrequested
      rw [if_pos hrequested] at hrepair
      exact h.setSession (hold.winds (Or.inl hrepair))
    · rename_i hrequested
      rw [if_neg hrequested] at hrepair
      -- the new request is not awaited, and the others keep their numbers
      intro mac' s' hs'
      have hs'' : (o.setSession mac (s.requestDeviceReset now reason resetPairingState)).session
        mac' = some s' := hs'
      rw [session_setSession] at hs''
      split at hs''
      · cases hs''
        refine ⟨?_, fun hawaiting => ?_⟩
        · rw [hrepair]
          exact ⟨rfl, fun hno => absurd hno Bool.false_ne_true, fun hno => absurd hno Bool.false_ne_true⟩
        · have hno := congrArg Repair.awaiting hrepair
          exact absurd (hno.symm.trans hawaiting) Bool.false_ne_true
      · rename_i hmac
        have hother := h mac' s' hs''
        refine ⟨hother.sound, fun hawaiting => ?_⟩
        unfold AtWork
        rw [request_countRequest hmac]
        exact hother.backed hawaiting

theorem runPeerTaskOnce_eq_some {mac : String} {work : Work} {o' : Orchestration}
    (h : o.runPeerTaskOnce mac work = some o') :
    o.peerTask = none ∧ o' = { o with peerTask := some ⟨mac, work⟩ } := by
  unfold runPeerTaskOnce at h
  split at h
  · cases h
  · rename_i hfree
    rw [not_or, Option.not_isSome_iff_eq_none] at hfree
    exact ⟨hfree.2, (Option.some.inj h).symm⟩

/-- While no reset is at work, every awaited removal has been accepted. -/
theorem Kept.removed {mac : String} {s : PeerConnectionSession} (h : o.Kept mac s)
    (hidle : ¬o.AtWork mac) (hawaiting : s.repairAwaitingCacheRemoval = true) :
    (mac, o.request mac) ∈ o.removals :=
  (h.backed hawaiting).resolve_left hidle

theorem not_atWork_of_free (hfree : o.peerTask = none) (mac : String) : ¬o.AtWork mac := by
  rintro ⟨connected, stage, htask, _⟩
  rw [hfree] at htask
  cases htask

/-- A task that has called for its removal is not at work any more. -/
theorem not_atWork_of_stage {mac : String} {request : Nat} {connected : Bool} {stage : ResetStage}
    (htask : o.peerTask = some ⟨mac, .reset request connected stage⟩)
    (hstage : ¬(stage = .begin ∨ stage = .disconnect ∨ stage = .recheck ∨ stage = .remove))
    (mac' : String) : ¬o.AtWork mac' := by
  rintro ⟨connected', stage', htask', hstage'⟩
  rw [htask] at htask'
  cases htask'
  exact hstage hstage'

theorem not_atWork_of_other {mac label : String} (htask : o.peerTask = some ⟨mac, .other label⟩)
    (mac' : String) : ¬o.AtWork mac' := by
  rintro ⟨connected, stage, htask', _⟩
  rw [htask] at htask'
  cases htask'

/-- The worker may begin or end whatever it likes, unless a reset is at work. -/
theorem Orderly.assign (h : o.Orderly) (hidle : ∀ mac, ¬o.AtWork mac) (task : Option PeerTask) :
    ({ o with peerTask := task } : Orchestration).Orderly :=
  fun mac s hs => ⟨(h mac s hs).sound, fun hawaiting =>
    Or.inr ((h mac s hs).removed (hidle mac) hawaiting)⟩

theorem Orderly.start (h : o.Orderly) {mac : String} {work : Work} {o' : Orchestration}
    (hstart : o.runPeerTaskOnce mac work = some o') : o'.Orderly := by
  obtain ⟨hfree, rfl⟩ := runPeerTaskOnce_eq_some hstart
  exact h.assign (not_atWork_of_free hfree) _

theorem Orderly.reconcileReset (h : o.Orderly) {mac : String} {s : PeerConnectionSession}
    (hs : o.Kept mac s) (hrequested : s.repairRequested = true) (device : Option DeviceState)
    (now : ℚ) : (o.reconcileReset mac s device now).Orderly := by
  unfold Orchestration.reconcileReset
  split
  · exact h
  · split
    · refine h.setSession (hs.winds (Or.inl ?_))
      unfold resumeDiscovery
      split
      · split <;> rfl
      · rfl
    · split
      · exact h
      · rename_i started hstarted
        have hstart := h.start hstarted
        obtain ⟨_, rfl⟩ := runPeerTaskOnce_eq_some hstarted
        refine fun mac' s' hs' => ?_
        have hset := @Orderly.setSession _ hstart mac (beginRecovery s)
          ⟨⟨rfl, fun _ => rfl, fun _ => hrequested⟩,
            fun _ => Or.inl ⟨_, .begin, rfl, Or.inl rfl⟩⟩
        exact ⟨(hset mac' s' hs').sound, (hset mac' s' hs').backed⟩

theorem Orderly.reconcile (h : o.Orderly) (mac : String) (device : Option DeviceState) (now : ℚ) :
    (o.reconcile mac device now).Orderly := by
  unfold Orchestration.reconcile
  split
  · exact h
  · rename_i s hs
    have hkept : o.Kept mac (keep s) := (h mac s hs).winds (Or.inl rfl)
    split
    · exact h
    · have hset : (o.setSession mac (keep s)).Orderly := h.setSession hkept
      have hkept' : (o.setSession mac (keep s)).Kept mac (keep s) := ⟨hkept.sound, hkept.backed⟩
      dsimp only
      split
      · split
        · exact hset
        · rename_i started hstarted
          have hstart := hset.start hstarted
          obtain ⟨hfree, rfl⟩ := runPeerTaskOnce_eq_some hstarted
          refine hstart.setSession ⟨hkept.sound, fun hawaiting => Or.inr ?_⟩
          exact hkept'.removed (not_atWork_of_free hfree mac) hawaiting
      · split
        · rename_i hrequested
          exact hset.reconcileReset hkept' hrequested device now
        · exact hset

/-- The reset task takes a step that leaves it at work, or its reset need not be backed. -/
theorem Orderly.advance (h : o.Orderly) {mac : String} {request : Nat} {connected : Bool}
    {stage : ResetStage} (htask : o.peerTask = some ⟨mac, .reset request connected stage⟩)
    {task : Option PeerTask} {removals : List (String × Nat)} (hgrows : o.removals ⊆ removals)
    (hwork : o.Wanted mac request →
      (∃ stage', task = some ⟨mac, .reset request connected stage'⟩ ∧
        (stage' = .begin ∨ stage' = .disconnect ∨ stage' = .recheck ∨ stage' = .remove)) ∨
      (mac, request) ∈ removals) :
    ({ o with peerTask := task, removals := removals } : Orchestration).Orderly := by
  intro mac' s' hs'
  have hold := h mac' s' hs'
  refine ⟨hold.sound, fun hawaiting => ?_⟩
  rcases hold.backed hawaiting with ⟨connected', stage', htask', hstage'⟩ | hremoved
  · rw [htask] at htask'
    cases htask'
    by_cases hremoved : (mac, o.request mac) ∈ o.removals
    · exact Or.inr (hgrows hremoved)
    · have hwanted : o.Wanted mac (o.request mac) := by
        refine ⟨?_, rfl, hremoved⟩
        have hsession : o.session mac = some s' := hs'
        rw [hsession]
        exact hawaiting
      rcases hwork hwanted with ⟨stage'', htask'', hstage''⟩ | hremoved'
      · exact Or.inl ⟨_, stage'', htask'', hstage''⟩
      · exact Or.inr hremoved'
  · exact Or.inr (hgrows hremoved)

/-- A wanted reset goes on at its checks, unless the node is shutting down or changing roles. -/
theorem Orderly.shouldContinueRepair (h : o.Orderly) {mac : String} {request : Nat}
    (hwanted : o.Wanted mac request)
    (hopen : (o.shuttingDown || o.configApplyInProgress || o.enableMesh || o.broadcast) = false) :
    o.shouldContinueRepair mac = true := by
  unfold Orchestration.shouldContinueRepair
  rw [hopen]
  obtain ⟨s, hs, hawaiting⟩ := (Option.any_eq_true _ _).mp hwanted.1
  rw [hs]
  exact (h mac s hs).sound.requested hawaiting

theorem Orderly.resetStep (h : o.Orderly) {mac : String} {request : Nat} {connected : Bool}
    {stage : ResetStage} (htask : o.peerTask = some ⟨mac, .reset request connected stage⟩)
    {outcome : CallOutcome} (hpersists : o.Persists (.resetTask outcome)) :
    (o.resetStep mac request connected outcome stage).Orderly := by
  unfold Persists at hpersists
  rw [htask] at hpersists
  dsimp only at hpersists
  have hself : o.removals ⊆ o.removals := fun _ ha => ha
  cases stage with
  | begin =>
      unfold Orchestration.resetStep
      dsimp only
      split
      · refine h.advance htask hself fun _ => Or.inl ⟨_, rfl, ?_⟩
        cases connected
        · exact Or.inr (Or.inr (Or.inl rfl))
        · exact Or.inr (Or.inl rfl)
      · rename_i hstop
        exact h.advance htask hself fun hwanted =>
          absurd (h.shouldContinueRepair hwanted (hpersists hwanted)) hstop
  | disconnect =>
      unfold Orchestration.resetStep
      dsimp only
      split
      · rename_i hthrew
        exact h.advance htask hself fun hwanted => absurd hthrew (hpersists hwanted)
      · exact h.advance htask hself fun _ => Or.inl ⟨_, rfl, Or.inr (Or.inr (Or.inl rfl))⟩
  | recheck =>
      unfold Orchestration.resetStep
      dsimp only
      split
      · exact h.advance htask hself fun _ => Or.inl ⟨_, rfl, Or.inr (Or.inr (Or.inr rfl))⟩
      · rename_i hstop
        exact h.advance htask hself fun hwanted =>
          absurd (h.shouldContinueRepair hwanted (hpersists hwanted)) hstop
  | remove =>
      unfold Orchestration.resetStep
      cases outcome with
      | threw => exact h.advance htask hself fun hwanted => nomatch hpersists hwanted
      | notAccepted => exact h.advance htask hself fun hwanted => nomatch hpersists hwanted
      | accepted =>
          exact h.advance htask (fun _ ha => List.mem_cons_of_mem _ ha) fun _ =>
            Or.inr List.mem_cons_self
  | checkRemoved =>
      have hidle := not_atWork_of_stage htask (by decide)
      unfold Orchestration.resetStep
      dsimp only
      split
      · exact h.assign hidle _
      · exact h.assign hidle none
  | unblock =>
      have hidle := not_atWork_of_stage htask (by decide)
      exact h.assign hidle none

theorem orderly_initial (h : o.Initial) : o.Orderly := by
  intro mac s hs
  unfold session at hs
  rw [h.1, Std.ExtTreeMap.getElem?_empty] at hs
  cases hs

/-- Nothing that the sessions and their backing consist of changes. -/
theorem Orderly.same (h : o.Orderly) {o' : Orchestration} (hsessions : o'.sessions = o.sessions)
    (htask : o'.peerTask = o.peerTask) (hrequests : o'.requests = o.requests)
    (hremovals : o'.removals = o.removals) : o'.Orderly := by
  intro mac s hs
  have hold := h mac s (by rw [← hs, session, session, hsessions])
  refine ⟨hold.sound, fun hawaiting => ?_⟩
  have hbacked := hold.backed hawaiting
  unfold AtWork request at hbacked ⊢
  rw [htask, hrequests, hremovals]
  exact hbacked

theorem repair_recover (s : PeerConnectionSession) (now : ℚ) : (recover s now).repair = s.repair :=
  rfl

theorem Orderly.prune (h : o.Orderly) (mac : String) :
    ({ o with sessions := o.sessions.erase mac } : Orchestration).Orderly := by
  intro mac' s hs
  unfold session at hs
  rw [Std.ExtTreeMap.getElem?_erase] at hs
  split at hs
  · cases hs
  · exact ⟨(h mac' s hs).sound, (h mac' s hs).backed⟩

/-- Whatever the node does keeps the flags of every session in order, as long as its reset
tasks persist. -/
theorem Orderly.step (h : o.Orderly) {regexMatch : String → String → Bool} {a : Action}
    (hpersists : o.Persists a) {o' : Orchestration} (hstep : o.step regexMatch a = some o') :
    o'.Orderly := by
  unfold Orchestration.step at hstep
  cases a with
  | requestReset mac reason resetPairingState now =>
      obtain rfl := Option.some.inj hstep
      exact h.requestReset mac reason resetPairingState now
  | clearReset mac clearPairingResetPending =>
      obtain rfl := Option.some.inj hstep
      exact h.modify mac fun s => Or.inr (Or.inr (repair_clearDeviceReset _))
  | sync device peerName preserveReadyRuntime preserveActiveBridgeRuntime now =>
      obtain rfl := Option.some.inj hstep
      exact h.sync regexMatch device peerName _ _ now
  | missing mac now =>
      obtain rfl := Option.some.inj hstep
      exact h.modify mac fun s => winds_noteMissingDevice now
  | pairResult mac success errorDetail bridgeReady now =>
      obtain rfl := Option.some.inj hstep
      exact h.modify mac fun s => winds_notePairAttemptResult now success errorDetail bridgeReady
  | prune mac =>
      obtain rfl := Option.some.inj hstep
      exact h.prune mac
  | write s =>
      dsimp only at hstep
      split at hstep
      · cases hstep
      · rename_i old hold
        split at hstep
        · rename_i hrepair
          obtain rfl := Option.some.inj hstep
          exact h.setSession ((h _ old hold).winds (Or.inl hrepair))
        · cases hstep
  | configure config enableMesh broadcast =>
      obtain rfl := Option.some.inj hstep
      exact h.same rfl rfl rfl rfl
  | configApply inProgress =>
      obtain rfl := Option.some.inj hstep
      exact h.same rfl rfl rfl rfl
  | shutDown =>
      obtain rfl := Option.some.inj hstep
      exact h.same rfl rfl rfl rfl
  | beginPass =>
      obtain ⟨_, hsome⟩ := Option.ite_none_left_eq_some.mp hstep
      obtain rfl := Option.some.inj hsome
      exact h.same rfl rfl rfl rfl
  | endPass =>
      obtain ⟨_, hsome⟩ := Option.ite_none_left_eq_some.mp hstep
      obtain rfl := Option.some.inj hsome
      exact h.same rfl rfl rfl rfl
  | reconcile mac device now =>
      obtain ⟨_, hsome⟩ := Option.ite_none_left_eq_some.mp hstep
      obtain rfl := Option.some.inj hsome
      exact h.reconcile mac device now
  | cleared =>
      dsimp only at hstep
      split at hstep
      · cases hstep
      · rename_i mac now hclearing
        obtain rfl := Option.some.inj hstep
        have hmodify := h.modify mac (f := (recover · now)) fun s => Or.inl (repair_recover s now)
        exact hmodify.same rfl rfl rfl rfl
  | startOther mac label => exact h.start hstep
  | finishOther =>
      dsimp only at hstep
      split at hstep
      · rename_i mac label htask
        obtain rfl := Option.some.inj hstep
        exact h.assign (not_atWork_of_other htask) none
      · cases hstep
  | resetTask outcome =>
      dsimp only at hstep
      split at hstep
      · rename_i mac request connected stage htask
        obtain rfl := Option.some.inj hstep
        exact h.resetStep htask hpersists
      · cases hstep

/-- A pass over a session whose reset waits for nothing starts the reset. -/
theorem reconcile_starts {mac : String} {s : PeerConnectionSession} {device : Option DeviceState}
    {now : ℚ} (hs : o.session mac = some s) (hrequested : s.repairRequested = true)
    (hinitiated : s.peerInitiated = false) (hblocked : device.any (·.blocked) = false)
    (hawaiting : s.repairAwaitingCacheRemoval = false) (hprogress : s.repairInProgress = false)
    (hissued : s.repairRemoveIssued = false) (hfree : o.peerTask = none)
    (hup : o.shuttingDown = false) :
    (o.reconcile mac device now).peerTask =
      some ⟨mac, .reset (o.request mac) (device.any (·.connected)) .begin⟩ := by
  have hserved : ¬(s.peerInitiated ∨ (s.desired = false ∧ s.repairRequested = false ∧
      s.repairInProgress = false)) := by
    simp [hinitiated, hrequested]
  have hstart : (o.setSession mac (keep s)).runPeerTaskOnce mac
      (.reset (o.request mac) (device.any (·.connected)) .begin) =
      some { o.setSession mac (keep s) with
        peerTask := some ⟨mac, .reset (o.request mac) (device.any (·.connected)) .begin⟩ } := by
    unfold runPeerTaskOnce
    rw [if_neg]
    intro hbusy
    rcases hbusy with hdown | htask
    · exact absurd (hup.symm.trans hdown) Bool.false_ne_true
    · have hnone : (o.setSession mac (keep s)).peerTask = none := hfree
      rw [hnone] at htask
      cases htask
  unfold Orchestration.reconcile
  rw [hs]
  dsimp only
  rw [if_neg hserved, hblocked, if_neg Bool.false_ne_true, if_pos hrequested]
  unfold Orchestration.reconcileReset
  have hidle : ¬((keep s).repairAwaitingCacheRemoval = true ∨ (keep s).repairInProgress = true) := by
    intro hno
    rcases hno with hno | hno
    · exact absurd (hawaiting.symm.trans hno) Bool.false_ne_true
    · exact absurd (hprogress.symm.trans hno) Bool.false_ne_true
  have hnew : ¬(keep s).repairRemoveIssued = true := fun hno =>
    absurd (hissued.symm.trans hno) Bool.false_ne_true
  rw [if_neg hidle, if_neg hnew]
  have hrequest : (o.setSession mac (keep s)).request mac = o.request mac := rfl
  rw [hrequest, hstart]
  rfl

theorem Orderly.progresses (h : o.Orderly) (regexMatch : String → String → Bool) :
    o.Progresses regexMatch where
  flags mac s hs hflag := by
    have hsound := (h mac s hs).sound
    rcases hflag with hprogress | hissued | hawaiting
    · exact hsound.requested (hsound.progress hprogress)
    · exact hsound.requested (hsound.issued.symm.trans hissued)
    · exact hsound.requested hawaiting
  backed mac s hs hawaiting := by
    rcases (h mac s hs).backed hawaiting with ⟨connected, stage, htask, _⟩ | hremoved
    · exact Or.inl ⟨_, connected, stage, htask⟩
    · exact Or.inr hremoved
  again mac s device now hs hrequested hinitiated hblocked hfree hremoved hpassing hclearing hup := by
    have hkept := h mac s hs
    have hawaiting : s.repairAwaitingCacheRemoval = false := by
      by_contra hwaits
      rw [Bool.not_eq_false] at hwaits
      exact hremoved (hkept.removed (not_atWork_of_free hfree mac) hwaits)
    have hissued : s.repairRemoveIssued = false := hkept.sound.issued.trans hawaiting
    have hprogress : s.repairInProgress = false := by
      by_contra hgoes
      rw [Bool.not_eq_false] at hgoes
      exact absurd (hawaiting.symm.trans (hkept.sound.progress hgoes)) Bool.false_ne_true
    refine ⟨o.reconcile mac device now, ?_, ?_⟩
    · unfold Orchestration.step
      dsimp only
      rw [hpassing, hclearing]
      rfl
    · exact reconcile_starts hs hrequested hinitiated hblocked hawaiting hprogress hissued hfree hup

end Orchestration

open Run Orchestration

/-- **A device reset cannot hang** in a node whose reset tasks persist: the flags imply a request,
an awaited removal has its task at work or has been accepted by BlueZ, and whatever else happens
the next pass starts the removal. -/
theorem reset_progresses (regexMatch : String → String → Bool) {o : Orchestration}
    (h : ReachableUnder (fun o => Orchestration.step o regexMatch) (fun o => o.Persists)
      (fun o => o.Initial) o) : o.Progresses regexMatch := by
  have horderly : o.Orderly := h.invariant (fun _ => orderly_initial)
    fun o a o' ho hpersists hstep => ho.step hpersists hstep
  exact horderly.progresses regexMatch

def fresh : Orchestration where
  config := { autoConnectPattern := "uav" }

def pairedDevice : DeviceState := { mac := "AA:BB:CC:DD:EE:FF", paired := true }

/-- A paired peer is reset, and the pass has started its task. -/
def resetBegun : List Orchestration.Action :=
  [.sync pairedDevice "uav2" false false 1,
    .requestReset pairedDevice.mac "stale bond" true 2, .beginPass,
    .reconcile pairedDevice.mac (some pairedDevice) 3, .cleared, .endPass]

theorem fresh_initial : fresh.Initial := ⟨rfl, rfl, rfl, rfl, rfl, rfl⟩

theorem reset_progresses_to_removal :
    ∃ o : Orchestration,
      Run.exec (fun o => Orchestration.step o fun _ _ => true) fresh
        (resetBegun ++ List.replicate 5 (.resetTask .accepted)) = some o ∧
      o.removals = [(pairedDevice.mac, 1)] ∧ o.peerTask = none ∧ o.Progresses fun _ _ => true := by
  have hcomputed : (Run.allowed (fun o => Orchestration.step o fun _ _ => true)
        (fun o a => decide (o.Persists a)) fresh
        (resetBegun ++ List.replicate 5 (.resetTask .accepted)) &&
      (Run.exec (fun o => Orchestration.step o fun _ _ => true) fresh
        (resetBegun ++ List.replicate 5 (.resetTask .accepted))).any fun o =>
          decide (o.removals = [(pairedDevice.mac, 1)]) && decide (o.peerTask = none)) = true := by
    decide +kernel
  rw [Bool.and_eq_true] at hcomputed
  obtain ⟨o, ho, hend⟩ := (Option.any_eq_true _ _).mp hcomputed.2
  rw [Bool.and_eq_true, decide_eq_true_eq, decide_eq_true_eq] at hend
  exact ⟨o, ho, hend.1, hend.2, reset_progresses _
    (ReachableUnder.exec (.start fresh_initial) (guarded_of_decide hcomputed.1) ho)⟩

/-- The task gives up while a configuration is applied, and the session waits for a removal that
nobody makes. -/
theorem reset_hangs : ¬∀ o : Orchestration,
    Reachable (fun o => Orchestration.step o fun _ _ => true) (fun o => o.Initial) o →
      o.Progresses fun _ _ => true := by
  intro hclaim
  have hcomputed : ((Run.exec (fun o => Orchestration.step o fun _ _ => true) fresh
      (resetBegun ++ [.configApply true, .resetTask .accepted, .configApply false])).any fun o =>
        (o.session pairedDevice.mac).any (·.repairAwaitingCacheRemoval) &&
          decide (o.peerTask = none) && decide (o.removals = [])) = true := by
    decide +kernel
  obtain ⟨o, ho, hend⟩ := (Option.any_eq_true _ _).mp hcomputed
  rw [Bool.and_eq_true, Bool.and_eq_true, decide_eq_true_eq, decide_eq_true_eq] at hend
  obtain ⟨⟨hsession, hfree⟩, hremovals⟩ := hend
  obtain ⟨s, hs, hawaiting⟩ := (Option.any_eq_true _ _).mp hsession
  have hprogresses := hclaim o (Reachable.exec (.start fresh_initial) ho)
  rcases hprogresses.backed pairedDevice.mac s hs hawaiting with ⟨_, _, _, htask⟩ | hremoved
  · rw [hfree] at htask
    cases htask
  · rw [hremovals] at hremoved
    exact List.not_mem_nil hremoved

end UavBluetooth.Peer
