import UavBluetooth.Peer.PeerLink

set_option autoImplicit false

/-! # The time-bridge handshake

`timeBridge_handshake` says what the two halves of the handshake guarantee in every run of a
peer's link: its bridge is ready only with both, and no partial traffic moves the start of the
wait for the missing half. The lemmas before it follow the steps: what each function does to the
session's wait (`Retains`), and what each stage and handler does to the link (`Moves`,
`Carries`).
-/

namespace UavBluetooth.Peer

/-! ## The start of the wait -/

namespace PeerConnectionSession

/-- A wait that has begun goes on. -/
def Retains (s t : PeerConnectionSession) : Prop :=
  0 < s.bridgeWaitStarted → t.bridgeWaitStarted = s.bridgeWaitStarted

variable {s t u : PeerConnectionSession}

theorem retains_of_eq (h : t.bridgeWaitStarted = s.bridgeWaitStarted) : s.Retains t := fun _ => h

theorem Retains.trans (hst : s.Retains t) (htu : t.Retains u) : s.Retains u := by
  intro hs
  have ht := hst hs
  rw [htu (by rw [ht]; exact hs), ht]

section

variable (s)

@[simp] theorem wait_clearNotifyFailures :
    s.clearNotifyFailures.bridgeWaitStarted = s.bridgeWaitStarted := rfl

@[simp] theorem wait_clearInitNotifyFailures :
    s.clearInitNotifyFailures.bridgeWaitStarted = s.bridgeWaitStarted := rfl

@[simp] theorem wait_clearRemoteGatt :
    s.clearRemoteGatt.bridgeWaitStarted = s.bridgeWaitStarted := rfl

@[simp] theorem wait_clearServiceRetry :
    s.clearServiceRetry.bridgeWaitStarted = s.bridgeWaitStarted := rfl

@[simp] theorem wait_noteRegression (now : ℚ) :
    (s.noteRegression now).bridgeWaitStarted = s.bridgeWaitStarted := rfl

@[simp] theorem wait_disarmReset (clearPairingResetPending : Bool) :
    (s.disarmReset clearPairingResetPending).bridgeWaitStarted = s.bridgeWaitStarted := rfl

@[simp] theorem wait_clearDeviceReset (clearPairingResetPending : Bool) :
    (s.clearDeviceReset clearPairingResetPending).bridgeWaitStarted = s.bridgeWaitStarted := by
  simp only [clearDeviceReset, wait_disarmReset, wait_clearRemoteGatt,
    wait_clearInitNotifyFailures, wait_clearNotifyFailures]

end

theorem retains_beginBridgeWait (s : PeerConnectionSession) (now : ℚ) :
    s.Retains (s.beginBridgeWait now) := by
  intro hs
  unfold beginBridgeWait
  rw [if_neg (not_le.mpr hs)]

/-- A handler that still waits for a half. -/
theorem Retains.await (h : s.Retains t) (now : ℚ) (reason detail : String) :
    s.Retains ((t.beginBridgeWait now).awaitBridge reason detail) :=
  (h.trans (retains_beginBridgeWait t now)).trans (retains_of_eq rfl)

theorem retains_forgetNotifyFailure (s : PeerConnectionSession) (path : String) :
    s.Retains (s.forgetNotifyFailure path) := by
  unfold forgetNotifyFailure
  split <;> exact retains_of_eq rfl

theorem retains_missRemoteGatt (s : PeerConnectionSession) (now : ℚ) (attempted : Bool) :
    s.Retains (s.missRemoteGatt now attempted) := by
  apply Retains.await
  exact retains_of_eq rfl

theorem retains_missCharacteristic (s : PeerConnectionSession) (now : ℚ) :
    s.Retains (s.missCharacteristic now) := by
  apply Retains.await
  exact retains_of_eq rfl

theorem retains_promote (s : PeerConnectionSession) (serviceAvailable : Bool) :
    s.Retains (s.promote serviceAvailable) := by
  unfold promote
  split <;> exact retains_of_eq rfl

theorem retains_resumeDiscovery (s : PeerConnectionSession) (device : Bool) :
    s.Retains (Orchestration.resumeDiscovery s device) := by
  unfold Orchestration.resumeDiscovery
  split
  · split <;> exact retains_of_eq rfl
  · exact retains_of_eq rfl

theorem retains_servePairing (s : PeerConnectionSession) (device : DeviceState)
    (config : LinkConfig) (x : Answers) (now retryPeriod : ℚ) :
    s.Retains (s.servePairing device config x now retryPeriod) := by
  have hbegin : s.Retains (s.beginPairingWait now) := by
    unfold beginPairingWait
    split <;> exact retains_of_eq rfl
  apply hbegin.trans
  unfold servePairing
  dsimp only
  split
  · exact retains_of_eq rfl
  · split <;> exact retains_of_eq rfl

theorem retains_serveDisconnected (s : PeerConnectionSession) (x : Answers)
    (now retryPeriod : ℚ) : s.Retains (s.serveDisconnected x now retryPeriod) := by
  unfold serveDisconnected
  split
  · exact retains_of_eq rfl
  · split
    · exact retains_of_eq rfl
    · split
      · exact retains_of_eq rfl
      · split <;> exact retains_of_eq rfl

theorem retains_notePairAttemptResult (s : PeerConnectionSession) (now : ℚ) (success : Bool)
    (errorDetail : String) (bridgeReady : Bool) :
    s.Retains (s.notePairAttemptResult now success errorDetail bridgeReady) := by
  unfold notePairAttemptResult
  split
  · exact retains_of_eq ((s.notePairSuccess now).wait_clearDeviceReset true)
  · unfold notePairFailure
    split <;> exact retains_of_eq rfl

theorem retains_notePairingEvent (s : PeerConnectionSession) (event : PairingEvent)
    (device : DeviceState) (now : ℚ) : s.Retains (s.notePairingEvent event device now) := by
  unfold notePairingEvent
  dsimp only
  cases event with
  | requestAuthorization => dsimp only; split <;> exact retains_of_eq rfl
  | request name =>
      dsimp only
      split
      · split
        · exact retains_of_eq rfl
        · split <;> exact retains_of_eq rfl
      · split <;> exact retains_of_eq rfl
  | cancel => exact retains_of_eq rfl
  | agentRelease => exact retains_of_eq rfl
  | other => exact retains_of_eq rfl

theorem requested_requestDeviceReset (s : PeerConnectionSession) (now : ℚ) (reason : String)
    (resetPairingState : Bool) :
    (s.requestDeviceReset now reason resetPairingState).repairRequested = true := by
  have hrepair := @repair_requestDeviceReset s now reason resetPairingState
  have hrequested : (s.requestDeviceReset now reason resetPairingState).repair.requested = true := by
    rw [hrepair]
    split
    · assumption
    · rfl
  exact hrequested

/-- A failed subscription keeps the wait, or requests a reset. -/
theorem retains_noteNotifyFailure (s : PeerConnectionSession) (path detail : String) (bonded : Bool)
    (now : ℚ) : s.Retains (s.noteNotifyFailure path detail bonded now) ∨
      (s.noteNotifyFailure path detail bonded now).repairRequested = true := by
  have hnoted : s.Retains (((s.countNotifyFailure path now).beginBridgeWait now).awaitBridge "notify"
      "failed to enable peer time notifications") := by
    apply Retains.await
    exact retains_of_eq rfl
  unfold noteNotifyFailure
  generalize ((s.countNotifyFailure path now).beginBridgeWait now).awaitBridge "notify"
    "failed to enable peer time notifications" = t at hnoted
  unfold noteInitNotifyFailure
  split
  · dsimp only
    split
    · exact Or.inr (requested_requestDeviceReset _ _ _ _)
    · exact Or.inl (hnoted.trans (retains_of_eq rfl))
  · exact Or.inl hnoted

/-! ### Synchronisation -/

section

variable (s)

@[simp] theorem desired_clearBridgeWait : s.clearBridgeWait.desired = s.desired := rfl

@[simp] theorem desired_clearNotifyFailures : s.clearNotifyFailures.desired = s.desired := rfl

@[simp] theorem desired_clearInitNotifyFailures :
    s.clearInitNotifyFailures.desired = s.desired := rfl

@[simp] theorem desired_clearRemoteGatt : s.clearRemoteGatt.desired = s.desired := rfl

@[simp] theorem desired_dropConnection : s.dropConnection.desired = s.desired := rfl

@[simp] theorem desired_disarmReset (clearPairingResetPending : Bool) :
    (s.disarmReset clearPairingResetPending).desired = s.desired := rfl

theorem desired_clearConnection : s.clearConnection.desired = s.desired := by
  simp only [clearConnection, desired_dropConnection, desired_clearRemoteGatt,
    desired_clearNotifyFailures, desired_clearBridgeWait]

theorem desired_clearDeviceReset (clearPairingResetPending : Bool) :
    (s.clearDeviceReset clearPairingResetPending).desired = s.desired := by
  simp only [clearDeviceReset, desired_disarmReset, desired_clearRemoteGatt,
    desired_clearInitNotifyFailures, desired_clearNotifyFailures]

theorem desired_syncForget (device : DeviceState) : (s.syncForget device).desired = s.desired := by
  unfold syncForget
  split
  · rfl
  · exact desired_clearDeviceReset s true

theorem desired_syncPassive (config : SessionConfig) (device : DeviceState) :
    (s.syncPassive config device).desired = s.desired := by
  unfold syncPassive
  split
  · rfl
  · split <;> rfl

/-- A peer that is not selected stays unselected. -/
theorem desired_syncUnselected (config : SessionConfig) (device : DeviceState) :
    (s.syncUnselected config device).desired = s.desired := by
  rw [syncUnselected, desired_syncPassive, desired_syncForget, desired_clearInitNotifyFailures,
    desired_clearConnection]

end

theorem retains_syncConnection (s : PeerConnectionSession) (config : SessionConfig) (now : ℚ) :
    s.Retains (s.syncConnection config now) := by
  have hinitiator : s.Retains (s.syncInitiator config now) := by
    unfold syncInitiator
    dsimp only
    split <;> exact retains_of_eq rfl
  exact hinitiator.trans (retains_of_eq rfl)

/-- The synchronisation of a desired session with a link that has everything. -/
theorem retains_syncLink (s : PeerConnectionSession) (config : SessionConfig) (device : DeviceState)
    (preserveReady preserveActive : Bool) (now : ℚ) (hconnected : device.connected = true)
    (hpaired : device.hasRequiredPairing config = true) (hresolved : device.servicesResolved = true)
    (hdesired : (s.syncLink config device preserveReady preserveActive now).desired = true) :
    s.Retains (s.syncLink config device preserveReady preserveActive now) := by
  unfold syncLink at hdesired ⊢
  split
  · rename_i hno
    rw [if_pos hno, desired_syncUnselected] at hdesired
    exact absurd (hno.symm.trans hdesired) Bool.false_ne_true
  · split
    · exact retains_of_eq rfl
    · rw [if_neg (by rw [hconnected]; exact Bool.false_ne_true.symm),
        if_neg (by rw [hpaired]; exact Bool.false_ne_true.symm)]
      apply (retains_syncConnection s config now).trans
      unfold syncPaired
      rw [if_neg (by rw [hresolved]; exact Bool.false_ne_true.symm)]
      exact retains_of_eq rfl

theorem retains_syncDevice (s : PeerConnectionSession) (regexMatch : String → String → Bool)
    (config : SessionConfig) (device : DeviceState) (peerName : String)
    (preserveReady preserveActive : Bool) (now : ℚ) (hconnected : device.connected = true)
    (hpaired : device.hasRequiredPairing config = true) (hresolved : device.servicesResolved = true)
    (hdesired : (s.syncDevice regexMatch config device peerName preserveReady preserveActive
      now).desired = true) :
    s.Retains (s.syncDevice regexMatch config device peerName preserveReady preserveActive now) := by
  have hpolicy : s.Retains ((s.seen now peerName).syncPolicy regexMatch config device.mac now) :=
    retains_of_eq rfl
  have hfailures : s.Retains (((s.seen now peerName).syncPolicy regexMatch config device.mac
      now).syncFailures device) := by
    apply hpolicy.trans
    unfold syncFailures
    split <;> exact retains_of_eq rfl
  have hidle : s.Retains ((((s.seen now peerName).syncPolicy regexMatch config device.mac
      now).syncFailures device).syncIdle device) := by
    apply hfailures.trans
    unfold syncIdle
    split <;> exact retains_of_eq rfl
  exact hidle.trans (retains_syncLink _ config device preserveReady preserveActive now hconnected
    hpaired hresolved hdesired)

end PeerConnectionSession

/-! ## What a step of the link does -/

namespace PeerLink

open PeerConnectionSession

/-- A bridge is ready only with both halves of the handshake. -/
def Honest (l : PeerLink) : Prop :=
  ∀ b, l.bridge = some b → b.status = .ready → b.handshakeComplete = true

/-- Only a connected peer with its services is updated, so that the update never takes the link
for a lost one. -/
def Follows (p : Pass) : Prop :=
  match p.stage with
  | .update => p.device.any (fun d => d.connected && d.servicesResolved) = true
  | .detach _ => False
  | _ => True

structure Sound (l : PeerLink) : Prop where
  honest : l.Honest
  follows : ∀ p, l.pass = some p → Follows p

/-- What a step does that finds the session `s`: everything stays sound, and a wait that has begun
goes on unless the handshake is complete afterwards. -/
structure Moves (l : PeerLink) (s : PeerConnectionSession) (l' : PeerLink) : Prop where
  sound : l.Sound → l'.Sound
  waits : ∃ t, l'.session = some t ∧ (s.Retains t ∨ l'.complete = true)

variable {l l₁ l' : PeerLink} {s t : PeerConnectionSession} {p : Pass}

theorem honest_setBridge {b : PeerTimeBridge} (h : b.status = .ready → b.handshakeComplete = true) :
    (l.setBridge b).Honest := by
  intro b' hb'
  obtain rfl := Option.some.inj hb'
  exact h

theorem honest_removeTimeBridge : l.removeTimeBridge.Honest := fun _ hno => by cases hno

theorem Honest.clearRuntime (h : l.Honest) : l.clearRuntime.Honest := by
  unfold PeerLink.clearRuntime
  split
  · exact h
  · exact fun _ hno => by cases hno

theorem session_clearRuntime : l.clearRuntime.session = l.session := by
  unfold PeerLink.clearRuntime
  split <;> rfl

theorem Honest.finish (h : l.Honest) : l.finish.Sound := ⟨h, fun _ hno => by cases hno⟩

theorem Honest.goTo (h : l.Honest) {stage : Stage} (hstage : Follows { p with stage := stage }) :
    (l.goTo p stage).Sound := by
  refine ⟨h, fun p' hp' => ?_⟩
  obtain rfl := Option.some.inj hp'
  exact hstage

theorem moves_finish (hhonest : l.Honest → l₁.Honest) (hsession : l₁.session = some t)
    (hretains : s.Retains t) : Moves l s l₁.finish :=
  ⟨fun h => (hhonest h.honest).finish, t, hsession, Or.inl hretains⟩

theorem moves_goTo (hhonest : l.Honest → l₁.Honest) (hsession : l₁.session = some t)
    (hretains : s.Retains t) {stage : Stage} (hstage : Follows { p with stage := stage }) :
    Moves l s (l₁.goTo p stage) :=
  ⟨fun h => (hhonest h.honest).goTo hstage, t, hsession, Or.inl hretains⟩

theorem moves_setFinish (h : s.Retains t) : Moves l s (l.setSession t).finish :=
  ⟨fun hsound => Honest.finish hsound.honest, t, rfl, Or.inl h⟩

theorem moves_setGoTo (h : s.Retains t) {stage : Stage} (hstage : Follows { p with stage := stage }) :
    Moves l s ((l.setSession t).goTo p stage) :=
  ⟨fun hsound => Honest.goTo (l := l.setSession t) hsound.honest hstage, t, rfl, Or.inl h⟩

theorem moves_putGoTo {b : PeerTimeBridge} (hhonest : b.status = .ready → b.handshakeComplete = true)
    (h : s.Retains t) {stage : Stage} (hstage : Follows { p with stage := stage }) :
    Moves l s (((l.setBridge b).setSession t).goTo p stage) := by
  have hput : ((l.setBridge b).setSession t).Honest := honest_setBridge (l := l) hhonest
  exact ⟨fun _ => hput.goTo hstage, t, rfl, Or.inl h⟩

/-- A stage may change the session before it goes on. -/
theorem Moves.of_retains (h : Moves l t l') (hretains : s.Retains t) : Moves l s l' := by
  refine ⟨h.sound, ?_⟩
  obtain ⟨u, hu, hwaits | hcomplete⟩ := h.waits
  · exact ⟨u, hu, Or.inl (hretains.trans hwaits)⟩
  · exact ⟨u, hu, Or.inr hcomplete⟩

/-! ### Serving -/

theorem moves_visit (hs : l.session = some s) (device : Option DeviceState) (serialActive : Bool)
    (now : ℚ) : Moves l s (l.visit s device serialActive now) := by
  unfold visit
  split
  · have hserial : s.Retains s.serveSerial := retains_of_eq (wait_clearDeviceReset s true)
    exact ⟨fun h => ⟨h.honest, h.follows⟩, s.serveSerial, rfl, Or.inl hserial⟩
  · refine ⟨fun h => ⟨h.honest, fun p' hp' => ?_⟩, s, hs, Or.inl (retains_of_eq rfl)⟩
    obtain rfl := Option.some.inj hp'
    unfold Follows
    dsimp only
    split
    · rename_i hupdate
      split at hupdate <;> cases hupdate
    · rename_i hdetach
      split at hdetach <;> cases hdetach
    · trivial

theorem moves_admitPeer (hs : l.session = some s) (x : Answers) : Moves l s (l.admitPeer p s x) := by
  unfold admitPeer
  split
  · split
    · exact moves_setFinish (retains_of_eq rfl)
    · exact moves_finish id hs (retains_of_eq rfl)
  · exact moves_goTo id hs (retains_of_eq rfl) trivial

theorem moves_serveUnresolved (device : DeviceState) (x : Answers) :
    Moves l s (l.serveUnresolved p device s x) := by
  unfold serveUnresolved
  dsimp only
  generalize hfollow : s.followActivity _ _ _ = t
  have hretains : s.Retains t := by
    rw [← hfollow]
    exact retains_of_eq rfl
  split
  · apply moves_setGoTo hretains
    trivial
  · apply moves_setFinish
    exact hretains.trans (retains_of_eq rfl)

theorem moves_serveConnected {device : DeviceState} (hdevice : p.device = some device)
    (hconnected : device.connected = true) (x : Answers) :
    Moves l s (l.serveConnected p device s x) := by
  unfold serveConnected
  split
  · exact moves_setFinish (retains_of_eq rfl)
  · split
    · exact moves_setFinish (retains_servePairing s device l.config x p.now l.retryPeriod)
    · split
      · exact moves_serveUnresolved device x
      · rename_i hresolved
        apply moves_setGoTo (retains_of_eq rfl)
        rw [Bool.not_eq_false] at hresolved
        show p.device.any (fun d => d.connected && d.servicesResolved) = true
        rw [hdevice, Option.any_some, hconnected, hresolved]
        rfl

theorem moves_serveRegular (x : Answers) : Moves l s (l.serveRegular p s x) := by
  unfold serveRegular
  split
  · exact moves_setFinish (retains_of_eq rfl)
  · split
    · rename_i device hdevice
      obtain ⟨hrecord, hconnected⟩ := Option.filter_eq_some_iff.mp hdevice
      exact moves_serveConnected hrecord hconnected x
    · exact moves_setFinish (retains_serveDisconnected s x p.now l.retryPeriod)

theorem moves_serveReset (x : Answers) : Moves l s (l.serveReset p s x) := by
  unfold serveReset
  split
  · exact moves_setFinish (retains_of_eq rfl)
  · split
    · exact (moves_serveRegular x).of_retains (retains_resumeDiscovery s p.device.isSome)
    · split
      · apply moves_setGoTo
        · exact retains_of_eq rfl
        · trivial
      · exact moves_setFinish (retains_of_eq rfl)

theorem moves_serveManaged (x : Answers) : Moves l s (l.serveManaged p s x) := by
  have hkeep : s.Retains (Orchestration.keep s) := retains_of_eq rfl
  unfold serveManaged
  dsimp only
  split
  · apply moves_setFinish
    split <;> exact retains_of_eq rfl
  · split
    · exact (moves_serveReset x).of_retains hkeep
    · exact (moves_serveRegular x).of_retains hkeep

theorem moves_serve (x : Answers) : Moves l s (l.serve p s x) := by
  have hpromote := retains_promote s
    (p.device.any (fun d => d.connected && d.servicesResolved) && x.peerService)
  unfold serve
  dsimp only
  apply Moves.of_retains _ hpromote
  split
  · apply moves_setFinish
    exact retains_of_eq (wait_clearDeviceReset _ true)
  · split
    · exact moves_setFinish (retains_of_eq rfl)
    · exact moves_serveManaged x

/-! ### Updating -/

theorem moves_updateNotifying (b : PeerTimeBridge) (now : ℚ) :
    Moves l s (l.updateNotifying p s b now) := by
  unfold updateNotifying
  split
  · rename_i hcomplete
    have hhonest : (l.setBridge (b.setStatus .ready "peer time bridge active")).Honest :=
      honest_setBridge fun _ => hcomplete
    refine ⟨fun _ => Honest.goTo (l := (l.setBridge _).setSession _) hhonest trivial,
      s.completeHandshake, rfl, Or.inr ?_⟩
    show (BridgeStatus.ready == .ready && b.handshakeComplete) = true
    rw [hcomplete]
    rfl
  · apply moves_putGoTo
    · intro hno
      cases hno
    · apply Retains.await
      apply retains_of_eq
      rw [wait_clearNotifyFailures, wait_clearServiceRetry, wait_clearRemoteGatt]
    · trivial

theorem moves_updateSubscription (gatt : RemoteGatt) (now clock : ℚ) :
    Moves l s (l.updateSubscription p s gatt now clock) := by
  have hforget : s.Retains
      (s.clearRemoteGatt.clearServiceRetry.forgetNotifyFailure gatt.characteristicPath) := by
    have hclear : s.Retains s.clearRemoteGatt.clearServiceRetry := retains_of_eq rfl
    exact hclear.trans (retains_forgetNotifyFailure _ _)
  unfold updateSubscription
  dsimp only
  apply Moves.of_retains _ hforget
  -- The pass goes on in one of three stages, with the same session.
  generalize s.clearRemoteGatt.clearServiceRetry.forgetNotifyFailure gatt.characteristicPath = t
  split
  · apply moves_putGoTo
    · intro hno
      cases hno
    · apply Retains.await
      exact retains_of_eq rfl
    · trivial
  · split
    · rename_i hsubscribing
      apply moves_putGoTo
      · intro hready
        cases hsubscribing.symm.trans hready
      · apply Retains.await
        exact retains_of_eq rfl
      · trivial
    · apply moves_putGoTo
      · intro hno
        cases hno
      · exact retains_of_eq rfl
      · trivial

theorem moves_updateBridge (hs : l.session = some s) (gatt : RemoteGatt) (attempted : Bool)
    (now clock : ℚ) : Moves l s (l.updateBridge p s gatt attempted now clock) := by
  unfold updateBridge
  split
  · apply moves_goTo (fun _ => honest_removeTimeBridge) hs (retains_of_eq rfl)
    trivial
  · split
    · split
      · exact moves_updateNotifying _ now
      · exact moves_updateSubscription gatt now clock
    · exact moves_updateSubscription gatt now clock

/-- The update of a connected peer with its services does not end the wait. -/
theorem moves_updateTimeBridge {device : DeviceState} (hs : l.session = some s)
    (hconnected : device.connected = true) (hresolved : device.servicesResolved = true)
    (gatt : RemoteGatt) (now : ℚ) : Moves l s (l.updateTimeBridge p device s gatt now) := by
  unfold updateTimeBridge
  rw [if_neg (by rw [hconnected]; exact Bool.false_ne_true.symm),
    if_neg (by rw [hresolved]; exact Bool.false_ne_true.symm)]
  split
  · apply moves_setGoTo
    · exact retains_of_eq rfl
    · trivial
  · exact moves_updateBridge hs gatt false now now

theorem moves_noteNotifyStart (path : String) (started : Bool) (clock : ℚ) :
    Moves l s (l.noteNotifyStart p s path started clock) := by
  have hawait : s.Retains ((s.beginBridgeWait clock).awaitBridge "notify"
      "failed to enable peer time notifications") := by
    apply Retains.await
    exact retains_of_eq rfl
  unfold noteNotifyStart
  split
  · apply moves_setGoTo
    · apply Retains.await
      exact retains_of_eq rfl
    · trivial
  · dsimp only
    split
    · split
      · refine moves_goTo (fun _ => ?_) rfl hawait trivial
        apply honest_setBridge
        intro hno
        cases hno
      · exact moves_setGoTo hawait trivial
    · exact moves_setGoTo hawait trivial

theorem moves_recheck (hs : l.session = some s) : Moves l s (l.recheck p s) := by
  unfold recheck
  split
  · exact moves_goTo id hs (retains_of_eq rfl) trivial
  · exact moves_finish id hs (retains_of_eq rfl)

/-- A stage of the pass that neither records a reset nor recovers the link. -/
theorem moves_continuePass (hfollows : Follows p) (hs : l.session = some s)
    (hreset : p.stage ≠ .recordReset) (hrecover : ∀ missing, p.stage ≠ .recover missing)
    (x : Answers) : Moves l s (l.continuePass p s x) := by
  unfold Follows at hfollows
  unfold continuePass
  cases hstage : p.stage with
  | clear | clearForReset =>
      refine moves_goTo Honest.clearRuntime ?_ (retains_of_eq rfl) trivial
      rw [session_clearRuntime, hs]
  | admitPeer => exact moves_admitPeer hs x
  | serve => exact moves_serve x
  | recordReset => exact absurd hstage hreset
  | update =>
      rw [hstage] at hfollows
      obtain ⟨device, hdevice, hready⟩ := (Option.any_eq_true _ _).mp hfollows
      rw [Bool.and_eq_true] at hready
      rw [hdevice]
      exact moves_updateTimeBridge hs hready.1 hready.2 x.gatt x.now
  | refresh gatt now => exact moves_updateBridge hs _ true now x.now
  | missing anyCharacteristics attempted now =>
      apply moves_setGoTo
      · split
        · exact retains_missCharacteristic s now
        · exact retains_missRemoteGatt s now attempted
      · trivial
  | detach detail =>
      rw [hstage] at hfollows
      exact hfollows.elim
  | start path => exact moves_noteNotifyStart path x.notifyStarted x.now
  | recheck => exact moves_recheck hs
  | recover missing => exact absurd hstage (hrecover missing)

/-! ### Handlers -/

/-- What a step does, whether there is a session or not. -/
structure Carries (l l' : PeerLink) : Prop where
  sound : l.Sound → l'.Sound
  waits : ∀ s, l.session = some s →
    ∃ t, l'.session = some t ∧ (s.Retains t ∨ l'.complete = true)

theorem Moves.carries (h : Moves l s l') (hs : l.session = some s) : Carries l l' := by
  refine ⟨h.sound, fun s' hs' => ?_⟩
  obtain rfl := Option.some.inj (hs.symm.trans hs')
  exact h.waits

theorem Sound.of_same (h : l.Sound) (hbridge : l'.bridge = l.bridge) (hpass : l'.pass = l.pass) :
    l'.Sound := by
  refine ⟨?_, ?_⟩
  · unfold Honest
    rw [hbridge]
    exact h.honest
  · rw [hpass]
    exact h.follows

/-- Bridge, session and pass stay as they are. -/
theorem carries_same (hsession : l'.session = l.session) (hbridge : l'.bridge = l.bridge)
    (hpass : l'.pass = l.pass) : Carries l l' :=
  ⟨fun h => h.of_same hbridge hpass, fun s hs => ⟨s, hsession.trans hs, Or.inl (retains_of_eq rfl)⟩⟩

theorem carries_clearRuntime : Carries l l.clearRuntime := by
  refine ⟨fun h => ⟨h.honest.clearRuntime, ?_⟩, fun s hs => ⟨s, ?_, Or.inl (retains_of_eq rfl)⟩⟩
  · unfold clearRuntime
    split <;> exact h.follows
  · rw [session_clearRuntime, hs]

theorem session_modify (hs : l.session = some s)
    (f : PeerConnectionSession → PeerConnectionSession) : (l.modify f).session = some (f s) := by
  unfold modify
  rw [hs]
  rfl

/-- A half of the handshake arrives: it is complete, or the wait goes on. -/
theorem carries_half {b : PeerTimeBridge} {f : PeerConnectionSession → PeerConnectionSession}
    (hhonest : b.status = .ready → b.handshakeComplete = true)
    (hwaits : (∀ s : PeerConnectionSession, s.Retains (f s)) ∨
      (b.status = .ready ∧ b.handshakeComplete = true)) :
    Carries l ((l.setBridge b).modify f) := by
  have hput : ((l.setBridge b).modify f).Honest := honest_setBridge (l := l) hhonest
  refine ⟨fun h => ⟨hput, h.follows⟩, fun s hs => ⟨f s, session_modify hs f, ?_⟩⟩
  rcases hwaits with hretains | ⟨hready, hcomplete⟩
  · exact Or.inl (hretains s)
  · refine Or.inr ?_
    show (b.status == .ready && b.handshakeComplete) = true
    rw [hready, hcomplete]
    rfl

theorem carries_onNotification (path : String) (data : List UInt8) (device : Option DeviceState)
    (now : ℚ) : Carries l (l.onNotification path data device now) := by
  unfold onNotification
  split
  · exact carries_clearRuntime
  · split
    · exact carries_same rfl rfl rfl
    · rename_i b _
      split
      · exact carries_same rfl rfl rfl
      · unfold PeerTimeBridge.notified PeerConnectionSession.notified
        dsimp only
        cases hother : b.timeWritebackReceived with
        | false =>
            apply carries_half
            · intro hno
              cases hno
            · refine Or.inl fun s => Retains.await ?_ now _ _
              exact retains_of_eq rfl
        | true => exact carries_half (fun _ => rfl) (Or.inr ⟨rfl, rfl⟩)

theorem carries_handleTimeWriteback (payload : List UInt8) (device : Option DeviceState)
    (receivedTimeNs : Nat) (now : ℚ) :
    Carries l (l.handleTimeWriteback payload device receivedTimeNs now) := by
  unfold handleTimeWriteback
  split
  · exact carries_same rfl rfl rfl
  · split
    · exact carries_clearRuntime
    · split
      · exact carries_same rfl rfl rfl
      · rename_i b _
        dsimp only
        split
        · exact carries_same rfl rfl rfl
        · unfold PeerTimeBridge.writtenBack PeerConnectionSession.writtenBack
          dsimp only
          cases hother : b.timeNotificationReceived with
          | false =>
              apply carries_half
              · intro hno
                cases hno
              · refine Or.inl fun s => Retains.await ?_ now _ _
                exact retains_of_eq rfl
          | true => exact carries_half (fun _ => rfl) (Or.inr ⟨rfl, rfl⟩)

/-! ### All steps -/

theorem sound_continuePass (h : l.Sound) (hs : l.session = some s) (hp : l.pass = some p)
    (x : Answers) : (l.continuePass p s x).Sound := by
  by_cases hreset : p.stage = .recordReset
  · unfold continuePass
    rw [hreset]
    exact Honest.finish (l := l.setSession _) h.honest
  · by_cases hrecover : ∃ missing, p.stage = .recover missing
    · obtain ⟨missing, hmissing⟩ := hrecover
      unfold continuePass
      rw [hmissing]
      exact Honest.finish (l := l.setSession _) h.honest
    · have hmoves := moves_continuePass (h.follows p hp) hs hreset
        (fun missing hno => hrecover ⟨missing, hno⟩) x
      exact hmoves.sound h

theorem sound_sync (h : l.Sound) (regexMatch : String → String → Bool) (device : DeviceState)
    (peerName : String) (now : ℚ) : (l.sync regexMatch device peerName now).Sound := by
  unfold sync
  dsimp only
  split
  · exact h.of_same rfl rfl
  · split
    · exact h
    · exact h.of_same rfl rfl

theorem sound_onNotifyFailed (h : l.Sound) (path detail : String) (bonded : Bool) (now : ℚ) :
    (l.onNotifyFailed path detail bonded now).Sound := by
  unfold onNotifyFailed
  split
  · exact h.of_same rfl rfl
  · exact h

theorem sound_step {regexMatch : String → String → Bool} {a : LinkAction} (h : l.Sound)
    (hstep : l.step regexMatch a = some l') : l'.Sound := by
  unfold step at hstep
  cases a with
  | sync device peerName now =>
      obtain rfl := Option.some.inj hstep
      exact sound_sync h regexMatch device peerName now
  | notification path data device now =>
      obtain rfl := Option.some.inj hstep
      exact (carries_onNotification path data device now).sound h
  | writeback payload device receivedTimeNs now =>
      obtain rfl := Option.some.inj hstep
      exact (carries_handleTimeWriteback payload device receivedTimeNs now).sound h
  | notifyFailed path detail bonded now =>
      obtain rfl := Option.some.inj hstep
      exact sound_onNotifyFailed h path detail bonded now
  | clearRuntime =>
      obtain rfl := Option.some.inj hstep
      exact carries_clearRuntime.sound h
  | deviceRemoved | runtimeCleared | requestReset | pairResult | pairingEvent | meet
  | localTimeNotify | configure =>
      obtain rfl := Option.some.inj hstep
      exact h.of_same rfl rfl
  | prune current now ttl =>
      dsimp only at hstep
      split at hstep
      · obtain rfl := Option.some.inj hstep
        split
        · exact h.of_same rfl rfl
        · exact h
      · cases hstep
  | visit device serialActive now =>
      dsimp only at hstep
      split at hstep
      · rename_i hs _
        obtain rfl := Option.some.inj hstep
        exact (moves_visit hs device serialActive now).sound h
      · cases hstep
  | continuePass x =>
      dsimp only at hstep
      split at hstep
      · rename_i hs hp
        obtain rfl := Option.some.inj hstep
        exact sound_continuePass h hs hp x
      · cases hstep

/-! ### Waiting -/

theorem steady_session (h : l.steady = true) :
    ∃ s, l.session = some s ∧ s.desired = true ∧ s.repairRequested = false := by
  unfold steady at h
  rw [Bool.and_eq_true] at h
  obtain ⟨s, hs, hsteady⟩ := (Option.any_eq_true _ _).mp h.1
  rw [Bool.and_eq_true, Bool.not_eq_true'] at hsteady
  exact ⟨s, hs, hsteady⟩

theorem steady_stage (h : l.steady = true) (hp : l.pass = some p) : p.stage ≠ .recordReset := by
  intro hreset
  unfold steady at h
  rw [hp, Option.any_some, hreset, Bool.and_eq_true] at h
  cases h.2

theorem stage_of_not_recovers {x : Answers} (h : l.recovers (.continuePass x) = false)
    (hp : l.pass = some p) : ∀ missing, p.stage ≠ .recover missing := by
  intro missing hrecover
  unfold recovers at h
  dsimp only at h
  rw [hp, Option.any_some, hrecover] at h
  cases h

theorem Carries.retains (h : Carries l l') (hcomplete : l'.complete = false)
    (hs : l.session = some s) : ∃ t, l'.session = some t ∧ s.Retains t := by
  obtain ⟨t, ht, hretains | hdone⟩ := h.waits s hs
  · exact ⟨t, ht, hretains⟩
  · exact absurd (hcomplete.symm.trans hdone) Bool.false_ne_true

/-- A session that a step has changed, in a link that is still steady. -/
theorem retains_of_steady {f : PeerConnectionSession → PeerConnectionSession}
    (hs : l.session = some s) (hsteady : (l.modify f).steady = true)
    (h : s.Retains (f s) ∨ (f s).repairRequested = true) :
    ∃ t, (l.modify f).session = some t ∧ s.Retains t := by
  refine ⟨f s, session_modify hs f, ?_⟩
  obtain ⟨t, ht, _, hquiet⟩ := steady_session hsteady
  obtain rfl := Option.some.inj ((session_modify hs f).symm.trans ht)
  rcases h with hretains | hrequested
  · exact hretains
  · exact absurd (hquiet.symm.trans hrequested) Bool.false_ne_true

theorem retains_sync {regexMatch : String → String → Bool} {device : DeviceState}
    {peerName : String} {now : ℚ} (hs : l.session = some s)
    (hkeeps : (LinkAction.sync device peerName now).keepsDevice l.config = true)
    (hsteady : (l.sync regexMatch device peerName now).steady = true) :
    ∃ t, (l.sync regexMatch device peerName now).session = some t ∧ s.Retains t := by
  unfold LinkAction.keepsDevice at hkeeps
  dsimp only at hkeeps
  rw [Bool.and_eq_true, Bool.and_eq_true] at hkeeps
  obtain ⟨t, ht, hdesired, _⟩ := steady_session hsteady
  refine ⟨t, ht, ?_⟩
  unfold sync at ht
  dsimp only at ht
  rw [hs] at ht
  obtain rfl := Option.some.inj ht
  exact retains_syncDevice s regexMatch _ device peerName _ _ now hkeeps.1.1 hkeeps.1.2 hkeeps.2
    hdesired

theorem retains_getOrCreateSession (hs : l.session = some s) (mac peerName : String) (now : ℚ) :
    s.Retains (l.getOrCreateSession mac peerName now) := by
  unfold getOrCreateSession
  rw [hs]
  exact retains_of_eq rfl

/-- A step that leaves the peer waiting keeps the start of the wait. -/
theorem retains_step {regexMatch : String → String → Bool} {a : LinkAction} (h : l.Sound)
    (hs : l.session = some s) (hwaits : l.waits regexMatch a = true)
    (hstep : l.step regexMatch a = some l') : ∃ t, l'.session = some t ∧ s.Retains t := by
  unfold waits at hwaits
  rw [hstep, Option.all_some] at hwaits
  simp only [Bool.and_eq_true, Bool.not_eq_true'] at hwaits
  obtain ⟨⟨⟨hbefore, hkeeps⟩, hrecovers⟩, hafter, hcomplete⟩ := hwaits
  -- What may reset the wait is excluded: the device stays, the peer is steady before and after.
  unfold step at hstep
  cases a with
  | sync device peerName now =>
      obtain rfl := Option.some.inj hstep
      exact retains_sync hs hkeeps hafter
  | deviceRemoved now => cases hkeeps
  | notification path data device now =>
      obtain rfl := Option.some.inj hstep
      exact (carries_onNotification path data device now).retains hcomplete hs
  | writeback payload device receivedTimeNs now =>
      obtain rfl := Option.some.inj hstep
      exact (carries_handleTimeWriteback payload device receivedTimeNs now).retains hcomplete hs
  | notifyFailed path detail bonded now =>
      obtain rfl := Option.some.inj hstep
      unfold onNotifyFailed at hafter ⊢
      split
      · rename_i hour
        rw [if_pos hour] at hafter
        exact retains_of_steady hs hafter (retains_noteNotifyFailure s path detail bonded now)
      · exact ⟨s, hs, retains_of_eq rfl⟩
  | clearRuntime =>
      obtain rfl := Option.some.inj hstep
      exact carries_clearRuntime.retains hcomplete hs
  | runtimeCleared | configure config =>
      obtain rfl := Option.some.inj hstep
      exact ⟨s, hs, retains_of_eq rfl⟩
  | requestReset authentication reason resetPairingState now =>
      obtain rfl := Option.some.inj hstep
      exact retains_of_steady hs hafter
        (Or.inr (requested_requestDeviceReset _ now reason resetPairingState))
  | pairResult success errorDetail now =>
      obtain rfl := Option.some.inj hstep
      exact retains_of_steady hs hafter
        (Or.inl (retains_notePairAttemptResult s now success errorDetail _))
  | pairingEvent event device now =>
      obtain rfl := Option.some.inj hstep
      exact ⟨_, rfl, (retains_getOrCreateSession hs device.mac "" now).trans
        (retains_notePairingEvent _ event device now)⟩
  | meet mac peerName now =>
      obtain rfl := Option.some.inj hstep
      exact ⟨_, rfl, retains_getOrCreateSession hs mac peerName now⟩
  | localTimeNotify active =>
      obtain rfl := Option.some.inj hstep
      exact retains_of_steady hs hafter (Or.inl (retains_of_eq rfl))
  | prune current now ttl =>
      dsimp only at hstep
      split at hstep
      · obtain rfl := Option.some.inj hstep
        split at hafter
        · cases hafter
        · rename_i hkept
          rw [if_neg hkept]
          exact ⟨s, hs, retains_of_eq rfl⟩
      · cases hstep
  | visit device serialActive now =>
      dsimp only at hstep
      split at hstep
      · rename_i hs' _
        obtain rfl := Option.some.inj hstep
        exact ((moves_visit hs' device serialActive now).carries hs').retains hcomplete hs
      · cases hstep
  | continuePass x =>
      dsimp only at hstep
      split at hstep
      · rename_i hs' hp
        obtain rfl := Option.some.inj hstep
        have hmoves := moves_continuePass (h.follows _ hp) hs' (steady_stage hbefore hp)
          (stage_of_not_recovers hrecovers hp) x
        exact (hmoves.carries hs').retains hcomplete hs
      · cases hstep

/-- A run that leaves the peer waiting keeps the start of the wait. -/
theorem retains_run {regexMatch : String → String → Bool} {as : List LinkAction} (h : l.Sound)
    (hs : l.session = some s) (hpos : 0 < s.bridgeWaitStarted)
    (hwaits : Run.Guarded (fun l => l.step regexMatch) (fun l a => l.waits regexMatch a = true) l as)
    (hrun : Run.exec (fun l => PeerLink.step l regexMatch) l as = some l') :
    ∃ t, l'.session = some t ∧ t.bridgeWaitStarted = s.bridgeWaitStarted := by
  induction as generalizing l s with
  | nil =>
      obtain rfl := Option.some.inj hrun
      exact ⟨s, hs, rfl⟩
  | cons a as ih =>
      obtain ⟨u, hu, hrest⟩ := Option.bind_eq_some_iff.mp hrun
      obtain ⟨t, ht, hretains⟩ := retains_step h hs hwaits.1 hu
      have hkept : t.bridgeWaitStarted = s.bridgeWaitStarted := hretains hpos
      obtain ⟨t', ht', hlast⟩ := ih (sound_step h hu) ht (by rw [hkept]; exact hpos)
        (hwaits.2 u hu) hrest
      exact ⟨t', ht', hlast.trans hkept⟩

theorem sound_initial (h : l.Initial) : l.Sound := by
  refine ⟨fun b hb => ?_, fun p hp => ?_⟩
  · rw [h.2.1] at hb
    cases hb
  · rw [h.2.2] at hp
    cases hp

end PeerLink

open PeerLink

/-- **The time-bridge handshake.** In every state of a peer's link, the bridge is ready only with
both halves of the handshake. From there, in every run that leaves the peer waiting, a wait that
has begun keeps its start, and the deadline is the one of that start. -/
theorem timeBridge_handshake (regexMatch : String → String → Bool) {l : PeerLink}
    (h : Run.Reachable (fun l => PeerLink.step l regexMatch) PeerLink.Initial l) :
    (∀ b, l.bridge = some b → b.status = .ready →
      b.timeNotificationReceived = true ∧ b.timeWritebackReceived = true) ∧
    ∀ s as l', l.session = some s → 0 < s.bridgeWaitStarted →
      Run.Guarded (fun l => PeerLink.step l regexMatch) (fun l a => l.waits regexMatch a = true) l
        as →
      Run.exec (fun l => PeerLink.step l regexMatch) l as = some l' →
        ∃ s', l'.session = some s' ∧ s'.bridgeWaitStarted = s.bridgeWaitStarted ∧
          ∀ now, s'.handshakeTimedOut l'.bridge now = true ↔
            (s'.bridgeWaitReason = "notify" ∨ s'.bridgeWaitReason = "writeback") ∧
              l'.bridge.any (·.handshakeComplete) = false ∧
              kPeerNotifyHandshakeTimeout ≤ now - s.bridgeWaitStarted := by
  have hsound : l.Sound := h.invariant (fun _ => sound_initial) fun _ _ _ hl _ ht => sound_step hl ht
  constructor
  · intro b hb hready
    have hcomplete := hsound.honest b hb hready
    unfold PeerTimeBridge.handshakeComplete at hcomplete
    rwa [Bool.and_eq_true] at hcomplete
  · intro s as l' hs hpos hwaits hrun
    obtain ⟨s', hs', hkept⟩ := retains_run hsound hs hpos hwaits hrun
    refine ⟨s', hs', hkept, fun now => ?_⟩
    simp only [PeerConnectionSession.handshakeTimedOut, Bool.and_eq_true, decide_eq_true_eq,
      Bool.not_eq_true', hkept, hpos, and_true, and_assoc]

def linkedDevice : DeviceState where
  mac := "AA:BB:CC:DD:EE:FF"
  connected := true
  servicesResolved := true
  paired := true
  trusted := true

def freshLink : PeerLink where
  config := { autoConnectPattern := "uav" }

/-- A pass over a connected peer up to its update. -/
def passToUpdate (now : ℚ) : List LinkAction :=
  [.visit (some linkedDevice) false now, .continuePass { now := now },
    .continuePass { now := now, peerService := true }]

def timeGatt : RemoteGatt := { characteristicPath := "/time", anyCharacteristics := true }

/-- The node meets a connected peer and subscribes to its time. -/
def subscribed : List LinkAction :=
  [LinkAction.sync linkedDevice "uav2" 1] ++ passToUpdate 2 ++
    [LinkAction.continuePass { now := 2, gatt := timeGatt },
      .continuePass { now := 3, notifyStarted := true }, .continuePass { now := 3 }]

/-- The peer's time arrives again and again, and is not written back; the subscription fails and
is made anew. -/
def partialTraffic : List LinkAction :=
  [LinkAction.notification "/time" [1, 0, 0, 0, 0, 0, 0, 0] (some linkedDevice) 4,
    .notification "/time" [2, 0, 0, 0, 0, 0, 0, 0] (some linkedDevice) 5,
    .sync linkedDevice "uav2" 6, .notifyFailed "/time" "timeout" true 7, .clearRuntime,
    .runtimeCleared] ++ passToUpdate 9 ++
    [LinkAction.continuePass { now := 9, gatt := timeGatt },
      .continuePass { now := 9, notifyStarted := true }, .continuePass { now := 9 }]

theorem freshLink_initial : freshLink.Initial := ⟨rfl, rfl, rfl⟩

theorem timeBridge_handshake_partial :
    ∃ l l' s', Run.exec (fun l => PeerLink.step l fun _ _ => true) freshLink subscribed = some l ∧
      Run.exec (fun l => PeerLink.step l fun _ _ => true) l partialTraffic = some l' ∧
      l'.session = some s' ∧ s'.bridgeWaitStarted = 3 := by
  have hcomputed : ((Run.exec (fun l => PeerLink.step l fun _ _ => true) freshLink subscribed).any
      fun l => l.session.any (fun s => decide (s.bridgeWaitStarted = 3)) &&
        Run.allowed (fun l => PeerLink.step l fun _ _ => true)
          (fun l a => decide (l.waits (fun _ _ => true) a = true)) l partialTraffic &&
        (Run.exec (fun l => PeerLink.step l fun _ _ => true) l partialTraffic).isSome) = true := by
    decide +kernel
  obtain ⟨l, hl, hrest⟩ := (Option.any_eq_true _ _).mp hcomputed
  rw [Bool.and_eq_true, Bool.and_eq_true] at hrest
  obtain ⟨⟨hsession, hallowed⟩, hrun⟩ := hrest
  obtain ⟨s, hs, hthree⟩ := (Option.any_eq_true _ _).mp hsession
  rw [decide_eq_true_eq] at hthree
  obtain ⟨l', hl'⟩ := Option.isSome_iff_exists.mp hrun
  have hreached : Run.Reachable (fun l => PeerLink.step l fun _ _ => true) PeerLink.Initial l :=
    Run.Reachable.exec (.start freshLink_initial) hl
  obtain ⟨s', hs', hkept, _⟩ := (timeBridge_handshake (fun _ _ => true) hreached).2 s partialTraffic
    l' hs (by rw [hthree]; decide) (Run.guarded_of_decide hallowed) hl'
  exact ⟨l, l', s', hl, hl', hs', hkept.trans hthree⟩

end UavBluetooth.Peer
