import UavBluetooth.Mesh.Enrollment

set_option autoImplicit false

/-! # The stages of an enrollment

An enrollment goes from AddNode through the completion of provisioning to two configuration
steps, and `maintain_auto_enrollment` keeps it in five fields: the pending device, its address,
its deadline, the configuration stage and the time of its next step. The enrollment of
`Mesh/Enrollment.lean` is run here together with what provisioning last reported for the pending
device.

A completion that contradicts the expected address clears the device and its address but not the
stage, unlike a failure, and a completion is compared with the pending device also when there is
none. `sound_iff` says that these are the only two ways in which the stages go wrong.
-/

namespace UavBluetooth.Mesh

open Config Fallible

namespace Enrollment

/-- A D-Bus call of the remote model setup, with the node it is for. -/
inductive RemoteModelCall where
  | addAppKey (unicast : UInt16)
  | configureVendorModel (unicast : UInt16)
  deriving DecidableEq, Repr

def RemoteModelCall.unicast : RemoteModelCall → UInt16
  | .addAppKey unicast => unicast
  | .configureVendorModel unicast => unicast

/-- The call that the timers make, after a pending device may have timed out. -/
def remoteModelCall (e : Enrollment) (now : Time) : Option RemoteModelCall :=
  let e := e.expirePending now
  if e.remoteModelStage ≠ 0 ∧ e.remoteModelActionAt ≤ now then
    some (if e.remoteModelStage = 1 then .addAppKey e.pendingProvisionAddress
      else .configureVendorModel e.pendingProvisionAddress)
  else none

/-- The configuration call of a step. -/
def configures (e : Enrollment) : Action → Option RemoteModelCall
  | .timers _ =>
      match e.pass with
      | .events now [] => e.remoteModelCall now
      | _ => none
  | _ => none

/-- The device for which a step calls AddNode. -/
def startsNode (e : Enrollment) : Action → Option Bytes
  | .addNode _ =>
      match e.pass with
      | .adding _ uuid _ _ => some uuid
      | _ => none
  | _ => none

/-- The event that a step takes from the list. -/
def handles (e : Enrollment) : Action → Option Event
  | .nextEvent =>
      match e.pass with
      | .events _ (event :: _) => some event
      | _ => none
  | _ => none

/-- Whether an event says that the pending device has been provisioned. -/
def Completes (e : Enrollment) (event : Event) : Prop :=
  event.event = .addNodeComplete ∧ event.uuid = e.pendingProvisionUuid

/-- Whether a completion reports the expected address, and one element. -/
def Expected (e : Enrollment) (event : Event) : Prop :=
  event.unicast = e.pendingProvisionAddress ∧ event.count = 1

instance (e : Enrollment) (event : Event) : Decidable (e.Completes event) :=
  inferInstanceAs (Decidable (_ ∧ _))

instance (e : Enrollment) (event : Event) : Decidable (e.Expected event) :=
  inferInstanceAs (Decidable (_ ∧ _))

/-- A completion with the expected address comes when a device is pending, and one with another
address before the configuration has begun. -/
def Regular (e : Enrollment) (a : Action) : Prop :=
  ∀ event ∈ e.handles a, e.Completes event →
    if e.Expected event then e.pendingProvisionUuid ≠ "" else e.remoteModelStage = 0

instance (e : Enrollment) (a : Action) : Decidable (e.Regular a) :=
  inferInstanceAs (Decidable (∀ event ∈ e.handles a, e.Completes event →
    if e.Expected event then e.pendingProvisionUuid ≠ "" else e.remoteModelStage = 0))

/-- An enrollment with the device and the address that provisioning last reported for the
device then pending. -/
structure Tracked where
  enrollment : Enrollment
  provisioned : Option (String × UInt16) := none

namespace Tracked

def reports (t : Tracked) (a : Action) : Option (String × UInt16) :=
  ((t.enrollment.handles a).filter fun event => t.enrollment.Completes event).map
    fun event => (event.uuid, event.unicast)

def step (t : Tracked) (a : Action) : Option Tracked :=
  (t.enrollment.step a).map fun e =>
    { enrollment := e, provisioned := (t.reports a).or t.provisioned }

def start (c : MeshSwarmCoordinator) (networkIndex nextUnicast : UInt16) : Tracked where
  enrollment := Enrollment.start c networkIndex nextUnicast

/-- The stages are in order: configuration is of a pending device at the address it was
provisioned with, AddNode is called when nothing is under way, and a pending device is waited
for until a deadline or is being configured. -/
structure Sound (t : Tracked) : Prop where
  stage : t.enrollment.remoteModelStage ≠ 0 →
    t.enrollment.pendingProvisionUuid ≠ "" ∧ t.enrollment.pendingProvisionAddress ≠ 0 ∧
      t.provisioned =
        some (t.enrollment.pendingProvisionUuid, t.enrollment.pendingProvisionAddress)
  configures : ∀ (a : Action) (call : RemoteModelCall), t.enrollment.configures a = some call →
    call.unicast ≠ 0 ∧ t.provisioned = some (t.enrollment.pendingProvisionUuid, call.unicast)
  starts : ∀ (a : Action) (uuid : Bytes), t.enrollment.startsNode a = some uuid →
    t.enrollment.pendingProvisionUuid = "" ∧ t.enrollment.remoteModelStage = 0
  deadline : t.enrollment.pendingProvisionUuid ≠ "" →
    t.enrollment.pendingProvisionUntil ≠ 0 ∨ t.enrollment.remoteModelStage ≠ 0

/-! ## The invariant -/

/-- Nothing is pending where the coordinator is about to call AddNode. -/
def Free (pending : String) : Pass → Prop
  | .adding _ _ number _ => pending = "" ∧ number ≠ 0
  | .direct _ _ => pending = ""
  | _ => True

/-- Beyond the order of the stages: the deadline ends when the configuration begins, and every
pending device has an address. -/
structure Staged (t : Tracked) : Prop where
  stage : t.enrollment.remoteModelStage ≠ 0 →
    t.enrollment.pendingProvisionUuid ≠ "" ∧ t.enrollment.pendingProvisionUntil = 0 ∧
      t.provisioned =
        some (t.enrollment.pendingProvisionUuid, t.enrollment.pendingProvisionAddress)
  pending : t.enrollment.pendingProvisionUuid ≠ "" →
    t.enrollment.pendingProvisionAddress ≠ 0 ∧
      (t.enrollment.pendingProvisionUntil ≠ 0 ∨ t.enrollment.remoteModelStage ≠ 0)
  pass : Free t.enrollment.pendingProvisionUuid t.enrollment.pass

variable {t t' : Tracked}

theorem Staged.stage_eq_zero (h : t.Staged) (hnone : t.enrollment.pendingProvisionUuid = "") :
    t.enrollment.remoteModelStage = 0 := by
  by_contra hstage
  exact (h.stage hstage).1 hnone

/-- A device under configuration cannot time out. -/
theorem Staged.expirePending_eq (h : t.Staged) (hstage : t.enrollment.remoteModelStage ≠ 0)
    (now : Time) : t.enrollment.expirePending now = t.enrollment := by
  unfold Enrollment.expirePending
  rw [if_neg]
  rintro ⟨_, huntil, _⟩
  exact huntil (h.stage hstage).2.1

theorem expirePending_stage (e : Enrollment) (now : Time) :
    (e.expirePending now).remoteModelStage = e.remoteModelStage := by
  unfold Enrollment.expirePending
  split <;> rfl

theorem Staged.remoteModelCall (h : t.Staged) {now : Time} {call : RemoteModelCall}
    (hcall : t.enrollment.remoteModelCall now = some call) :
    t.enrollment.remoteModelStage ≠ 0 ∧ call.unicast = t.enrollment.pendingProvisionAddress := by
  unfold Enrollment.remoteModelCall at hcall
  dsimp only at hcall
  split at hcall
  · rename_i hdue
    have hstage : t.enrollment.remoteModelStage ≠ 0 := by
      rw [← expirePending_stage t.enrollment now]
      exact hdue.1
    rw [h.expirePending_eq hstage] at hcall
    refine ⟨hstage, ?_⟩
    rw [← Option.some.inj hcall]
    split
    · rfl
    · rfl
  · cases hcall

theorem Staged.sound (h : t.Staged) : t.Sound where
  stage := fun hstage =>
    have hpending := (h.stage hstage).1
    ⟨hpending, (h.pending hpending).1, (h.stage hstage).2.2⟩
  configures := fun a call hcall => by
    cases a with
    | timers sent =>
        unfold Enrollment.configures at hcall
        dsimp only at hcall
        split at hcall
        · obtain ⟨hstage, hunicast⟩ := h.remoteModelCall hcall
          rw [hunicast]
          exact ⟨(h.pending (h.stage hstage).1).1, (h.stage hstage).2.2⟩
        · cases hcall
    | _ => cases hcall
  starts := fun a uuid hstarts => by
    cases a with
    | addNode called =>
        unfold Enrollment.startsNode at hstarts
        dsimp only at hstarts
        split at hstarts
        · rename_i hpass
          have hfree := h.pass
          rw [hpass] at hfree
          exact ⟨hfree.1, h.stage_eq_zero hfree.1⟩
        · cases hstarts
    | _ => cases hstarts
  deadline := fun hpending => (h.pending hpending).2

theorem staged_start (c : MeshSwarmCoordinator) (networkIndex nextUnicast : UInt16) :
    (start c networkIndex nextUnicast).Staged :=
  ⟨fun hstage => (hstage rfl).elim, fun hpending => (hpending rfl).elim, trivial⟩

/-! ## One step -/

/-- What leaves the stages alone keeps the invariant. -/
theorem Staged.move (h : t.Staged) (hprovisioned : t'.provisioned = t.provisioned)
    (hstage : t'.enrollment.remoteModelStage = t.enrollment.remoteModelStage)
    (huuid : t'.enrollment.pendingProvisionUuid = t.enrollment.pendingProvisionUuid)
    (haddress : t'.enrollment.pendingProvisionAddress = t.enrollment.pendingProvisionAddress)
    (huntil : t'.enrollment.pendingProvisionUntil = t.enrollment.pendingProvisionUntil)
    (hpass : Free t.enrollment.pendingProvisionUuid t'.enrollment.pass) : t'.Staged := by
  refine ⟨?_, ?_, ?_⟩
  · rw [hstage, huuid, haddress, huntil, hprovisioned]
    exact h.stage
  · rw [hstage, huuid, haddress, huntil]
    exact h.pending
  · rw [huuid]
    exact hpass

/-- What clears the device and the stage keeps the invariant. -/
theorem staged_of_cleared (huuid : t.enrollment.pendingProvisionUuid = "")
    (hstage : t.enrollment.remoteModelStage = 0) (hpass : Free "" t.enrollment.pass) :
    t.Staged := by
  refine ⟨fun hne => (hne hstage).elim, fun hne => (hne huuid).elim, ?_⟩
  rw [huuid]
  exact hpass

theorem Staged.handleEvent (h : t.Staged) (event : Event) :
    ({ t with enrollment := t.enrollment.handleEvent event } : Tracked).Staged := by
  unfold Enrollment.handleEvent
  split
  · exact h
  · split
    · exact h.move rfl rfl rfl rfl rfl h.pass
    · exact h

theorem setAutoProvisioningUnicast_ne_zero {p p' : Provisioner} {unicast : UInt16}
    (h : p.setAutoProvisioningUnicast unicast = .ok p') : unicast ≠ 0 := by
  rintro rfl
  cases h

theorem scanCandidate_free {e : Enrollment} {event : Event} {uuid : Bytes}
    (h : e.scanCandidate event = .ok (some uuid)) : e.pendingProvisionUuid = "" := by
  unfold Enrollment.scanCandidate at h
  dsimp only at h
  split at h
  · cases h
  · rename_i hskipped
    simp only [not_or, not_not] at hskipped
    exact hskipped.2.2.1

/-- An event that completes nothing leaves what was reported. -/
theorem Staged.processOther (h : t.Staged) (now : Time) {event : Event} (rest : List Event)
    (hevent : ¬ t.enrollment.Completes event) :
    ({ t with enrollment := t.enrollment.processEvent now event rest } : Tracked).Staged := by
  unfold Enrollment.processEvent
  dsimp only
  split
  · exact staged_of_cleared rfl rfl trivial
  · rw [if_neg (show ¬ (event.event = .addNodeComplete ∧
      event.uuid = t.enrollment.pendingProvisionUuid) from hevent)]
    split
    · exact h.move rfl rfl rfl rfl rfl trivial
    · exact h.move rfl rfl rfl rfl rfl trivial
    · rename_i uuid hcandidate
      split
      · exact h.move rfl rfl rfl rfl rfl trivial
      · rename_i application hreserved
        exact h.move rfl rfl rfl rfl rfl
          ⟨scanCandidate_free hcandidate, setAutoProvisioningUnicast_ne_zero hreserved⟩

/-- What a completion does: it starts the configuration, or it clears the device and the address
but not the stage. -/
theorem processEvent_completes {e : Enrollment} {event : Event} (h : e.Completes event)
    (now : Time) (rest : List Event) :
    e.processEvent now event rest =
      if e.Expected event then
        { e with
          pass := .events now rest
          remoteModelStage := 1
          remoteModelActionAt := now + seconds 1
          pendingProvisionUntil := 0 }
      else
        { e with
          pass := .events now rest
          pendingProvisionUuid := ""
          pendingProvisionAddress := 0 } := by
  have hfailed : ¬ (event.event = .addNodeFailed ∧ event.uuid = e.pendingProvisionUuid) := by
    rintro ⟨hkind, _⟩
    rw [h.1] at hkind
    cases hkind
  unfold Enrollment.processEvent
  dsimp only
  rw [if_neg hfailed,
    if_pos (show event.event = .addNodeComplete ∧ event.uuid = e.pendingProvisionUuid from h)]
  by_cases hexpected : e.Expected event
  · rw [if_pos hexpected, if_neg fun hother => hother.elim (· hexpected.1) (· hexpected.2)]
  · rw [if_neg hexpected, if_pos (by rwa [← not_and_or])]

/-- A completion in its time starts the configuration or ends the enrollment. -/
theorem Staged.processComplete (h : t.Staged) (now : Time) {event : Event} (rest : List Event)
    (hevent : t.enrollment.Completes event)
    (hregular : if t.enrollment.Expected event then t.enrollment.pendingProvisionUuid ≠ ""
      else t.enrollment.remoteModelStage = 0) :
    Staged { enrollment := t.enrollment.processEvent now event rest
             provisioned := some (event.uuid, event.unicast) } := by
  rw [processEvent_completes hevent]
  by_cases hexpected : t.enrollment.Expected event
  · rw [if_pos hexpected] at hregular ⊢
    refine ⟨fun _ => ⟨hregular, rfl, ?_⟩, fun _ => ⟨(h.pending hregular).1, Or.inr ?_⟩, trivial⟩
    · dsimp only
      rw [hevent.2, hexpected.1]
    · exact Nat.one_ne_zero
  · -- The stage is kept, so it has to be zero already.
    rw [if_neg hexpected] at hregular ⊢
    exact staged_of_cleared rfl hregular trivial

theorem Staged.callAddNode (h : t.Staged) {now : Time} {uuid : Bytes} {number : UInt16}
    {rest : Option (List Event)} (hpass : t.enrollment.pass = .adding now uuid number rest)
    (called : Except String Unit) :
    ({ t with enrollment := t.enrollment.callAddNode now uuid number rest called }
      : Tracked).Staged := by
  have hfree := h.pass
  rw [hpass] at hfree
  have hresume : ∀ pending, Free pending (Pass.resume now rest) := by
    intro pending
    cases rest with
    | none => exact trivial
    | some rest => exact trivial
  unfold Enrollment.callAddNode
  dsimp only
  split
  · exact h.move rfl rfl rfl rfl rfl (hresume _)
  · have hstage := h.stage_eq_zero hfree.1
    have hlater : 0 < now + seconds 50 := Nat.add_pos_right now (by decide)
    exact ⟨fun hne => (hne hstage).elim, fun _ => ⟨hfree.2, Or.inl (Nat.ne_of_gt hlater)⟩,
      hresume _⟩

theorem Staged.expirePending (h : t.Staged) (now : Time)
    (hpass : ∀ pending, Free pending t.enrollment.pass) :
    ({ t with enrollment := t.enrollment.expirePending now } : Tracked).Staged := by
  by_cases hstage : t.enrollment.remoteModelStage = 0
  · unfold Enrollment.expirePending
    split
    · exact staged_of_cleared rfl hstage (hpass _)
    · exact h
  · rw [h.expirePending_eq hstage]
    exact h

theorem Staged.setUpRemoteModel (h : t.Staged) (now : Time) (sent : Except String Unit)
    (hpass : ∀ pending, Free pending t.enrollment.pass) :
    ({ t with enrollment := t.enrollment.setUpRemoteModel now sent } : Tracked).Staged := by
  unfold Enrollment.setUpRemoteModel
  split
  · rename_i hdue
    split
    · exact h.move rfl rfl rfl rfl rfl h.pass
    · split
      · -- The application key is bound: the second step is for the same device.
        exact ⟨fun _ => h.stage hdue.1,
          fun hpending => ⟨(h.pending hpending).1, Or.inr (Nat.succ_ne_zero 1)⟩, h.pass⟩
      · exact staged_of_cleared rfl rfl (hpass _)
  · exact h

theorem Staged.runTimers (h : t.Staged) (now : Time) (sent : Except String Unit)
    (hpass : ∀ pending, Free pending t.enrollment.pass) :
    ({ t with enrollment := t.enrollment.runTimers now sent } : Tracked).Staged := by
  have hexpired := h.expirePending now hpass
  have hkept : (t.enrollment.expirePending now).pass = t.enrollment.pass := by
    unfold Enrollment.expirePending
    split
    · rfl
    · rfl
  have htimed := hexpired.setUpRemoteModel now sent (by
    dsimp only
    rw [hkept]
    exact hpass)
  unfold Enrollment.runTimers
  dsimp only
  split
  · exact htimed.move rfl rfl rfl rfl rfl trivial
  · rename_i hnone
    rw [not_not] at hnone
    exact htimed.move rfl rfl rfl rfl rfl hnone

theorem Staged.tryMember (h : t.Staged) {now : Time} {number : Nat} {rest : List Nat}
    (hpass : t.enrollment.pass = .direct now (number :: rest))
    (knownNodes : Except String (List UInt16)) :
    ({ t with enrollment := t.enrollment.tryMember now number rest knownNodes }
      : Tracked).Staged := by
  have hfree := h.pass
  rw [hpass] at hfree
  unfold Enrollment.tryMember
  dsimp only
  split
  · exact h.move rfl rfl rfl rfl rfl hfree
  · split
    · exact h.move rfl rfl rfl rfl rfl trivial
    · exact h.move rfl rfl rfl rfl rfl hfree
    · split
      · exact h.move rfl rfl rfl rfl rfl trivial
      · rename_i application hreserved
        exact h.move rfl rfl rfl rfl rfl ⟨hfree, setAutoProvisioningUnicast_ne_zero hreserved⟩

/-- Any event in its time keeps the invariant. -/
theorem Staged.nextEvent (h : t.Staged) {now : Time} {event : Event} {rest : List Event}
    (hpass : t.enrollment.pass = .events now (event :: rest))
    (hregular : t.enrollment.Regular .nextEvent) :
    Staged { enrollment := t.enrollment.processEvent now event rest
             provisioned := (t.reports .nextEvent).or t.provisioned } := by
  have hhandles : t.enrollment.handles .nextEvent = some event := by
    unfold handles
    rw [hpass]
  by_cases hevent : t.enrollment.Completes event
  · have hreports : t.reports .nextEvent = some (event.uuid, event.unicast) := by
      simp [reports, hhandles, hevent]
    rw [hreports, Option.some_or]
    exact h.processComplete now rest hevent (hregular event hhandles hevent)
  · have hreports : t.reports .nextEvent = none := by
      simp [reports, hhandles, hevent]
    rw [hreports, Option.none_or]
    exact h.processOther now rest hevent

/-- The daemon, the timers and the scans keep the stages in order; only a completion out of its
time would break it. -/
theorem Staged.step (h : t.Staged) {a : Action} (hregular : t.enrollment.Regular a)
    (hstep : t.step a = some t') : t'.Staged := by
  obtain ⟨e, he, rfl⟩ := Option.map_eq_some_iff.mp hstep
  cases a with
  | beginPass now attached applicationReady =>
      unfold Enrollment.step at he
      dsimp only at he
      split at he
      · split at he
        · cases he
          exact h
        · cases he
          exact h.move rfl rfl rfl rfl rfl trivial
      · cases he
  | nextEvent =>
      unfold Enrollment.step at he
      dsimp only at he
      split at he
      · rename_i now event rest hpass
        cases he
        exact h.nextEvent hpass hregular
      · cases he
  | addNode called =>
      unfold Enrollment.step at he
      dsimp only at he
      split at he
      · rename_i hpass
        cases he
        exact h.callAddNode hpass called
      · cases he
  | timers sent =>
      unfold Enrollment.step at he
      dsimp only at he
      split at he
      · rename_i now hpass
        cases he
        refine h.runTimers now sent fun pending => ?_
        rw [hpass]
        exact trivial
      · cases he
  | nextMember knownNodes =>
      unfold Enrollment.step at he
      dsimp only at he
      split at he
      · cases he
        exact h.move rfl rfl rfl rfl rfl trivial
      · rename_i now number rest hpass
        cases he
        exact h.tryMember hpass knownNodes
      · cases he
  | addNodeReply failed =>
      unfold Enrollment.step at he
      dsimp only at he
      split at he
      -- The reply ends the wait of `add_node` and concerns no stage.
      · have hreplied : ({ t with enrollment := { t.enrollment with application :=
            { t.enrollment.application with addNodeStartPending := false } } } : Tracked).Staged :=
          h.move rfl rfl rfl rfl rfl h.pass
        cases he
        split
        · exact hreplied.handleEvent _
        · exact hreplied
      · cases he
  | requestProvData uuid count persist =>
      unfold Enrollment.step at he
      dsimp only at he
      split at he
      · cases he
        exact h.move rfl rfl rfl rfl rfl h.pass
      · cases he
  | abandon uuid =>
      cases he
      exact h.move rfl rfl rfl rfl rfl h.pass
  | callback event =>
      cases he
      exact h.handleEvent event
  | coordinate action =>
      unfold Enrollment.step at he
      obtain ⟨c, hc, rfl⟩ := Option.map_eq_some_iff.mp he
      exact h.move rfl rfl rfl rfl rfl h.pass

/-- The condition is needed: a completion out of its time leaves a stage without a device. -/
theorem unsound_of_irregular {a : Action} (hirregular : ¬ t.enrollment.Regular a) :
    ∃ t', t.step a = some t' ∧ ¬ t'.Sound := by
  simp only [Regular, not_forall] at hirregular
  obtain ⟨event, hhandles, hevent, hirregular⟩ := hirregular
  cases a with
  | nextEvent =>
      unfold handles at hhandles
      dsimp only at hhandles
      split at hhandles
      · rename_i now first rest hpass
        cases hhandles
        have hstep : t.enrollment.step .nextEvent =
            some (t.enrollment.processEvent now event rest) := by
          unfold Enrollment.step
          rw [hpass]
        refine ⟨_, Option.map_eq_some_iff.mpr ⟨_, hstep, rfl⟩, fun hsound => ?_⟩
        have hstage := hsound.stage
        dsimp only at hstage
        rw [processEvent_completes hevent] at hstage
        by_cases hexpected : t.enrollment.Expected event
        · -- Nothing is pending, and the configuration begins.
          rw [if_pos hexpected, not_not] at hirregular
          rw [if_pos hexpected] at hstage
          exact (hstage Nat.one_ne_zero).1 hirregular
        · -- The configuration goes on for a device that is no longer pending.
          rw [if_neg hexpected] at hirregular hstage
          exact (hstage hirregular).1 rfl
      · cases hhandles
  | _ => cases hhandles

/-! ## Whole runs -/

/-- **When the stages of an enrollment stay in order**: they do so in every state of a run if and
only if every completion in it comes in its time. -/
theorem sound_iff (c : MeshSwarmCoordinator) (networkIndex nextUnicast : UInt16)
    (actions : List Action) :
    Run.Guarded step (fun t a => t.enrollment.Regular a) (start c networkIndex nextUnicast)
        actions ↔
      ∀ done, done <+: actions → ∀ t,
        Run.exec step (start c networkIndex nextUnicast) done = some t → t.Sound :=
  Run.guarded_iff_prefixes (staged_start c networkIndex nextUnicast) (fun _ h => h.sound)
    (fun _ _ _ h hregular hstep => h.step hregular hstep)
    fun _ _ _ hirregular => unsound_of_irregular hirregular

def completeOfUav2 (unicast : UInt16) : Event :=
  { event := .addNodeComplete, uuid := meshBytesToHex uuidOfUav2, unicast := unicast, count := 1 }

/-- `uav2` is provisioned at its address, up to the pass in which the application key is due. -/
def firstSetUp : List Action :=
  firstAttempt ++ [.requestProvData uuidOfUav2 1 (.ok ()), .callback (completeOfUav2 2),
    .beginPass (seconds 11) true true, .nextEvent, .timers (.ok ())]

theorem sound_in_firstSetUp :
    ∃ c₀ t, MeshSwarmCoordinator.create threeMembers "uav1" none = .ok c₀ ∧
      Run.exec step (start c₀ 0 256) (firstSetUp ++ [.beginPass (seconds 12) true true]) = some t ∧
      t.enrollment.configures (.timers (.ok ())) = some (.addAppKey 2) ∧ t.Sound := by
  generalize hactions : firstSetUp ++ [.beginPass (seconds 12) true true] = actions
  have hcomputed : (MeshSwarmCoordinator.create threeMembers "uav1" none).toOption.any (fun c =>
      Run.allowed step (fun t a => decide (t.enrollment.Regular a)) (start c 0 256) actions &&
        (Run.exec step (start c 0 256) actions).any fun t =>
          t.enrollment.configures (.timers (.ok ())) == some (.addAppKey 2)) = true := by
    rw [← hactions]
    decide +kernel
  obtain ⟨c₀, hc₀, hrun⟩ := exists_ok_of_any hcomputed
  rw [Bool.and_eq_true] at hrun
  obtain ⟨t, ht, hcall⟩ := (Option.any_eq_true _ _).mp hrun.2
  exact ⟨c₀, t, hc₀, ht, eq_of_beq hcall, (sound_iff c₀ 0 256 actions).mp
    (Run.guarded_of_decide hrun.1) actions List.prefix_rfl t ht⟩

/-- A second completion reports another address, and the key is added to node zero. -/
theorem key_added_to_zero :
    ¬ ∀ (config : SwarmConfig) (hostname : String) (stored : Option (Nat × Int))
      (c₀ : MeshSwarmCoordinator) (networkIndex nextUnicast : UInt16) (t : Tracked),
      MeshSwarmCoordinator.create config hostname stored = .ok c₀ →
        Run.Reachable step (· = start c₀ networkIndex nextUnicast) t → t.Sound := by
  intro hclaim
  generalize hactions : firstSetUp ++ [.callback (completeOfUav2 3),
    .beginPass (seconds 12) true true, .nextEvent] = actions
  have hcomputed : (MeshSwarmCoordinator.create threeMembers "uav1" none).toOption.any (fun c =>
      (Run.exec step (start c 0 256) actions).any fun t =>
        t.enrollment.configures (.timers (.ok ())) == some (.addAppKey 0)) = true := by
    rw [← hactions]
    decide +kernel
  obtain ⟨c₀, hc₀, hrun⟩ := exists_ok_of_any hcomputed
  obtain ⟨t, ht, hcall⟩ := (Option.any_eq_true _ _).mp hrun
  have hsound := hclaim _ _ _ c₀ 0 256 t hc₀ (Run.Reachable.exec (.start rfl) ht)
  exact (hsound.configures _ _ (eq_of_beq hcall)).1 rfl

end Tracked

end Enrollment

end UavBluetooth.Mesh
