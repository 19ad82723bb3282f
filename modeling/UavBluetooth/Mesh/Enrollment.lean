import UavBluetooth.Lib.Run
import UavBluetooth.Mesh.AutoUuid
import UavBluetooth.Mesh.SwarmCoordinator
import UavBluetooth.Mesh.UavNumbers

set_option autoImplicit false

/-! # Automatic enrollment

`maintain_auto_enrollment` of `swarm_coordinator.cpp` and the provisioner callbacks of
`mesh_application.cpp`. The coordinator reserves an address in a single slot and then calls
AddNode; the daemon asks for the address when it gets to that point, on another thread and on
its own clock. A pass is therefore cut at the places where the daemon can come between.

`answers_own` says when every device gets its own address: when no address is reserved as long
as the daemon may still ask on behalf of a device with another number.
-/

namespace UavBluetooth.Mesh

open Config Fallible Util

namespace Enrollment

inductive EventKind where
  | scanResult
  | addNodeComplete
  | addNodeFailed
  | other (name : String)
  deriving DecidableEq, Repr

/-- A lifecycle event, with the fields that enrollment reads. -/
structure Event where
  event : EventKind
  uuid : String := ""
  data : Bytes := []
  unicast : UInt16 := 0
  count : UInt8 := 0
  deriving DecidableEq, Repr

end Enrollment

def meshBytesToHex (value : Bytes) : String :=
  String.ofList (value.flatMap fun byte : UInt8 => [hexDigit (byte >>> 4), hexDigit (byte &&& 0xf)])

/-! ## The provisioner -/

/-- What the application keeps for provisioning. -/
structure Provisioner where
  meshSwarmAutoProvisioning : Bool
  meshSwarmNetworkIndex : UInt16
  autoProvisioningUnicast : UInt16 := 0
  nextUnicast : UInt16
  unicastBlockEnd : UInt16 := 0x7fff
  addNodeStartPending : Bool := false
  deriving DecidableEq, Repr

namespace Provisioner

/-- Reserve the address for the next RequestProvData callback. -/
def setAutoProvisioningUnicast (p : Provisioner) (unicast : UInt16) : Except String Provisioner :=
  if unicast = 0 ∨ 0x7fff < unicast then
    .error "Automatic provisioning UAV number must be in 1..32767"
  else .ok { p with autoProvisioningUnicast := unicast }

/-- The RequestProvData callback: the network index and the address, or an Abort. `persist` is
the outcome of storing the next address. -/
def requestProvData (p : Provisioner) (count : UInt8) (persist : Except String Unit) :
    Provisioner × Except String (UInt16 × UInt16) :=
  if p.meshSwarmAutoProvisioning then
    if count ≠ 1 ∨ p.autoProvisioningUnicast = 0 then
      (p, .error "No unique UAV address is assigned to this provisioning request")
    else
      ({ p with autoProvisioningUnicast := 0 },
        .ok (p.meshSwarmNetworkIndex, p.autoProvisioningUnicast))
  else if count = 0 ∨ p.unicastBlockEnd < p.nextUnicast ∨
      p.unicastBlockEnd.toNat < p.nextUnicast.toNat + count.toNat - 1 then
    (p, .error "This provisioner's unicast allocation block is exhausted")
  else
    ({ p with nextUnicast := p.nextUnicast + count.toUInt16 },
      persist.map fun _ => (p.meshSwarmNetworkIndex, p.nextUnicast))

/-- `add_node` up to the asynchronous call; `called` says whether the bus took it. -/
def addNode (p : Provisioner) (uuid : Bytes) (called : Except String Unit) :
    Except String Provisioner := do
  require (uuid.length = 16) "mesh UUID must contain exactly 16 bytes"
  require (!p.addNodeStartPending) "another Mesh provisioning request is starting"
  called
  return { p with addNodeStartPending := true }

end Provisioner

/-! ## The coordinator and the daemon -/

/-- Where the coordinator's thread is in a pass. -/
inductive Enrollment.Pass where
  | idle
  | events (now : Time) (rest : List Event)
  /-- The address is reserved and AddNode not yet called; `rest` are the events that remain, if
  the device was found by a scan. -/
  | adding (now : Time) (uuid : Bytes) (number : UInt16) (rest : Option (List Event))
  | direct (now : Time) (rest : List Nat)
  deriving DecidableEq, Repr

/-- The events that remain after a scan's device; nothing after a member of the list. -/
def Enrollment.Pass.resume (now : Time) : Option (List Event) → Pass
  | some rest => .events now rest
  | none => .idle

structure Enrollment where
  coordinator : MeshSwarmCoordinator
  application : Provisioner
  pendingEvents : List Enrollment.Event := []
  pendingProvisionUuid : String := ""
  pendingProvisionAddress : UInt16 := 0
  pendingProvisionUntil : Time := 0
  remoteModelStage : Nat := 0
  remoteModelActionAt : Time := 0
  lastDirectAttempt : Std.ExtTreeMap Nat Time := ∅
  pass : Enrollment.Pass := .idle
  /-- The device of the AddNode call whose reply is awaited. -/
  called : Bytes := []
  /-- The devices for which the daemon may still ask for provisioning data. -/
  attempts : List Bytes := []
  /-- What RequestProvData has answered, and for which device. -/
  answers : List (Bytes × UInt16) := []

namespace Enrollment

def handleEvent (e : Enrollment) (event : Event) : Enrollment :=
  if event.event ≠ .scanResult ∧ event.event ≠ .addNodeComplete ∧
      event.event ≠ .addNodeFailed then e
  else if e.pendingEvents.length < 128 then
    { e with pendingEvents := e.pendingEvents ++ [event] }
  else e

/-- Whether a member with this number has this UUID; open admission takes any. -/
def expectedUuid (e : Enrollment) (number : Nat) (uuid : Bytes) : Except String Bool :=
  if e.coordinator.config.peerWhitelist = [] then .ok true
  else
    match e.coordinator.memberByNumber[number]? with
    | none => .ok false
    | some known => (meshAutoUuidFromName known).map (· == uuid)

/-- The device that a scan result makes the coordinator provision. -/
def scanCandidate (e : Enrollment) (event : Event) : Except String (Option Bytes) :=
  let c := e.coordinator
  if event.event ≠ .scanResult ∨ c.localIsActive = false ∨ e.pendingProvisionUuid ≠ "" ∨
      event.data.length < 16 then .ok none
  else
    let uuid := event.data.take 16
    let number := (meshAutoUuidNumber uuid).toNat
    if number = 0 ∨ number = c.localNumber ∨ c.peerAllowed number = false then .ok none
    else do
      let expected ← e.expectedUuid number uuid
      return if expected = false ∨ c.peerPresence.contains number then none else some uuid

/-- One round of the loop over the events. -/
def processEvent (e : Enrollment) (now : Time) (event : Event) (rest : List Event) : Enrollment :=
  let next := { e with pass := .events now rest }
  if event.event = .addNodeFailed ∧ event.uuid = e.pendingProvisionUuid then
    { next with pendingProvisionUuid := "", pendingProvisionAddress := 0, remoteModelStage := 0 }
  else if event.event = .addNodeComplete ∧ event.uuid = e.pendingProvisionUuid then
    if event.unicast ≠ e.pendingProvisionAddress ∨ event.count ≠ 1 then
      { next with pendingProvisionUuid := "", pendingProvisionAddress := 0 }
    else
      { next with
        remoteModelStage := 1
        remoteModelActionAt := now + seconds 1
        pendingProvisionUntil := 0 }
  else
    match e.scanCandidate event with
    | .error _ => { e with pass := .idle }
    | .ok none => next
    | .ok (some uuid) =>
        let number := meshAutoUuidNumber uuid
        match e.application.setAutoProvisioningUnicast number with
        | .error _ => next
        | .ok application =>
            { e with application := application, pass := .adding now uuid number (some rest) }

/-- Call AddNode for the reserved address; a failure only ends this round. -/
def callAddNode (e : Enrollment) (now : Time) (uuid : Bytes) (number : UInt16)
    (rest : Option (List Event)) (called : Except String Unit) : Enrollment :=
  let next := { e with pass := Pass.resume now rest }
  match e.application.addNode uuid called with
  | .error _ => next
  | .ok application =>
      { next with
        application := application
        called := uuid
        attempts := uuid :: e.attempts
        pendingProvisionUuid := meshBytesToHex uuid
        pendingProvisionAddress := number
        pendingProvisionUntil := now + seconds 50 }

/-- Give up an attempt without a result. -/
def expirePending (e : Enrollment) (now : Time) : Enrollment :=
  if e.pendingProvisionUuid ≠ "" ∧ e.pendingProvisionUntil ≠ 0 ∧
      e.pendingProvisionUntil ≤ now then
    { e with pendingProvisionUuid := "", pendingProvisionAddress := 0 }
  else e

/-- One step of the remote model setup; `sent` is the outcome of its D-Bus call. -/
def setUpRemoteModel (e : Enrollment) (now : Time) (sent : Except String Unit) : Enrollment :=
  if e.remoteModelStage ≠ 0 ∧ e.remoteModelActionAt ≤ now then
    match sent with
    | .error _ => { e with remoteModelActionAt := now + seconds 5 }
    | .ok () =>
        if e.remoteModelStage = 1 then
          { e with remoteModelStage := 2, remoteModelActionAt := now + seconds 2 }
        else
          { e with
            remoteModelStage := 0
            pendingProvisionUuid := ""
            pendingProvisionAddress := 0
            remoteModelActionAt := now + seconds 2 }
  else e

/-- What follows the events: the timers, and the members if nothing is pending. -/
def runTimers (e : Enrollment) (now : Time) (sent : Except String Unit) : Enrollment :=
  let e := (e.expirePending now).setUpRemoteModel now sent
  if e.pendingProvisionUuid ≠ "" then { e with pass := .idle }
  else { e with pass := .direct now e.coordinator.memberPriority }

/-- Whether a member is absent and not tried within 55 seconds. -/
def due (e : Enrollment) (now : Time) (number : Nat) : Bool :=
  let previous := e.lastDirectAttempt.getD number 0
  number != e.coordinator.localNumber && !e.coordinator.peerPresence.contains number &&
    !(previous != 0 && decide (now - previous < seconds 55))

/-- The UUID of a member that the daemon holds no device key for. -/
def directCandidate (e : Enrollment) (number : Nat) (knownNodes : Except String (List UInt16)) :
    Except String (Option Bytes) := do
  let nodes ← knownNodes
  if nodes.any (fun unicast => unicast.toNat == number) then return none
  return some (← meshAutoUuidFromName (e.coordinator.memberName number))

/-- One round of the loop over the members. -/
def tryMember (e : Enrollment) (now : Time) (number : Nat) (rest : List Nat)
    (knownNodes : Except String (List UInt16)) : Enrollment :=
  if e.due now number = false then { e with pass := .direct now rest }
  else
    let tried := { e with lastDirectAttempt := e.lastDirectAttempt.insert number now }
    match e.directCandidate number knownNodes with
    | .error _ => { tried with pass := .idle }
    | .ok none => { tried with pass := .direct now rest }
    | .ok (some uuid) =>
        match e.application.setAutoProvisioningUnicast (UInt16.ofNat number) with
        | .error _ => { tried with pass := .idle }
        | .ok application =>
            { tried with
              application := application
              pass := .adding now uuid (UInt16.ofNat number) none }

/-- RequestProvData for a device; the daemon asks once in an attempt. -/
def answer (e : Enrollment) (uuid : Bytes) (count : UInt8) (persist : Except String Unit) :
    Enrollment :=
  let result := e.application.requestProvData count persist
  { e with
    application := result.1
    attempts := e.attempts.erase uuid
    answers := e.answers ++ (result.2.toOption.map fun data => (uuid, data.2)).toList }

inductive Action where
  /-- A pass begins. -/
  | beginPass (now : Time) (attached applicationReady : Bool)
  | nextEvent
  | addNode (called : Except String Unit)
  | timers (sent : Except String Unit)
  | nextMember (knownNodes : Except String (List UInt16))
  /-- The reply to AddNode, or its timeout. -/
  | addNodeReply (failed : Bool)
  | requestProvData (uuid : Bytes) (count : UInt8) (persist : Except String Unit)
  /-- An attempt of the daemon ends before it has asked. -/
  | abandon (uuid : Bytes)
  /-- ScanResult, AddNodeComplete or AddNodeFailed, with any content. -/
  | callback (event : Event)
  /-- A heartbeat, a payload, a service call or an election. -/
  | coordinate (action : MeshSwarmCoordinator.Action)

def step (e : Enrollment) : Action → Option Enrollment
  | .beginPass now attached applicationReady =>
      match e.pass with
      | .idle =>
          if attached = false ∨ applicationReady = false then some e
          else some { e with pass := .events now e.pendingEvents, pendingEvents := [] }
      | _ => none
  | .nextEvent =>
      match e.pass with
      | .events now (event :: rest) => some (e.processEvent now event rest)
      | _ => none
  | .addNode called =>
      match e.pass with
      | .adding now uuid number rest => some (e.callAddNode now uuid number rest called)
      | _ => none
  | .timers sent =>
      match e.pass with
      | .events now [] => some (e.runTimers now sent)
      | _ => none
  | .nextMember knownNodes =>
      match e.pass with
      | .direct _ [] => some { e with pass := .idle }
      | .direct now (number :: rest) => some (e.tryMember now number rest knownNodes)
      | _ => none
  | .addNodeReply failed =>
      if e.application.addNodeStartPending then
        let e := { e with application := { e.application with addNodeStartPending := false } }
        some (if failed then
          e.handleEvent { event := .addNodeFailed, uuid := meshBytesToHex e.called } else e)
      else none
  | .requestProvData uuid count persist =>
      if uuid ∈ e.attempts then some (e.answer uuid count persist) else none
  | .abandon uuid => some { e with attempts := e.attempts.erase uuid }
  | .callback event => some (e.handleEvent event)
  | .coordinate action =>
      (e.coordinator.step action).map fun coordinator => { e with coordinator := coordinator }

/-- The coordinator is created, and nothing is under way. -/
def start (c : MeshSwarmCoordinator) (networkIndex nextUnicast : UInt16) : Enrollment where
  coordinator := c
  application :=
    { meshSwarmAutoProvisioning := true
      meshSwarmNetworkIndex := networkIndex
      nextUnicast := nextUnicast }

/-! ## Addresses of their own -/

/-- The device for which a step reserves an address. -/
def reserves (e : Enrollment) : Action → Option Bytes
  | .nextEvent =>
      match e.pass with
      | .events _ (event :: _) => (e.scanCandidate event).toOption.join
      | _ => none
  | .nextMember knownNodes =>
      match e.pass with
      | .direct now (number :: _) =>
          if e.due now number then (e.directCandidate number knownNodes).toOption.join else none
      | _ => none
  | _ => none

/-- An address is reserved only when the daemon cannot ask for another one. -/
def Uncontested (e : Enrollment) (a : Action) : Prop :=
  ∀ uuid ∈ e.reserves a, ∀ other ∈ e.attempts, meshAutoUuidNumber other = meshAutoUuidNumber uuid

instance (e : Enrollment) (a : Action) : Decidable (e.Uncontested a) :=
  inferInstanceAs (Decidable (∀ uuid ∈ e.reserves a, ∀ other ∈ e.attempts,
    meshAutoUuidNumber other = meshAutoUuidNumber uuid))

end Enrollment

/-- The automatic UUID of a name carries the name's number. -/
theorem meshAutoUuidNumber_of_uavNumber {name : String} {number : Nat} {uuid : Bytes}
    (hname : uavNumber name = .ok number) (huuid : meshAutoUuidFromName name = .ok uuid) :
    meshAutoUuidNumber uuid = UInt16.ofNat number := by
  have hsuffix := (uavNumber_eq_ok_iff.mp hname).2.1
  have hvalue := (meshAutoUuidFromName_iff.mp ⟨uuid, huuid, rfl⟩).1
  rw [suffix] at hsuffix
  rw [← hsuffix, hvalue, UInt16.ofNat_toNat]

theorem MeshSwarmCoordinator.Consistent.uavNumber_memberName {config : SwarmConfig}
    {hostname : String} {c : MeshSwarmCoordinator} (h : c.Consistent config hostname) {n : Nat}
    (hn : n ∈ c.memberPriority) : uavNumber (c.memberName n) = .ok n := by
  obtain ⟨numbers, _, hpriority, hbook⟩ := enterMembers_spec h.members
  have hmem : c.memberByNumber.contains n = true := by
    rw [hbook]
    rw [hpriority, List.nil_append] at hn
    exact Or.inr hn
  rw [Std.ExtTreeMap.contains_eq_isSome_getElem?, Option.isSome_iff_exists] at hmem
  obtain ⟨name, hname⟩ := hmem
  rw [memberName, memberNameIn, hname]
  have hentry := (enterMembers_book h.members n name).mp hname
  simp only [Std.ExtTreeMap.getElem?_empty, reduceCtorEq, false_or] at hentry
  exact hentry.2

namespace Enrollment

/-- What holds at a place of a pass, given the candidate order and the slot. -/
def Fits (priority : List Nat) (slot : UInt16) : Pass → Prop
  | .adding _ uuid _ _ => slot = 0 ∨ slot = meshAutoUuidNumber uuid
  | .direct _ rest => ∀ n ∈ rest, n ∈ priority
  | _ => True

/-- The address in the slot is for every device that may ask for it. -/
structure Orderly (config : SwarmConfig) (hostname : String) (e : Enrollment) : Prop where
  consistent : e.coordinator.Consistent config hostname
  auto : e.application.meshSwarmAutoProvisioning = true
  pass : Fits e.coordinator.memberPriority e.application.autoProvisioningUnicast e.pass
  slot : ∀ uuid ∈ e.attempts, e.application.autoProvisioningUnicast = 0 ∨
    e.application.autoProvisioningUnicast = meshAutoUuidNumber uuid
  answers : ∀ answer ∈ e.answers, answer.2 = meshAutoUuidNumber answer.1

variable {config : SwarmConfig} {hostname : String} {e e' : Enrollment}

/-- What is kept when only the coordinator's own records and the place in the pass change. -/
theorem Orderly.move (h : e.Orderly config hostname) (hcoordinator : e'.coordinator = e.coordinator)
    (happlication : e'.application = e.application) (hattempts : e'.attempts = e.attempts)
    (hanswers : e'.answers = e.answers)
    (hpass : Fits e.coordinator.memberPriority e.application.autoProvisioningUnicast e'.pass) :
    e'.Orderly config hostname := by
  refine ⟨?_, ?_, ?_, ?_, ?_⟩
  · rw [hcoordinator]
    exact h.consistent
  · rw [happlication]
    exact h.auto
  · rw [hcoordinator, happlication]
    exact hpass
  · rw [hattempts, happlication]
    exact h.slot
  · rw [hanswers]
    exact h.answers

theorem Orderly.handleEvent (h : e.Orderly config hostname) (event : Event) :
    (e.handleEvent event).Orderly config hostname := by
  unfold Enrollment.handleEvent
  split
  · exact h
  · split
    · exact h.move rfl rfl rfl rfl h.pass
    · exact h

theorem setAutoProvisioningUnicast_eq_ok {p p' : Provisioner} {unicast : UInt16}
    (h : p.setAutoProvisioningUnicast unicast = .ok p') :
    p' = { p with autoProvisioningUnicast := unicast } := by
  unfold Provisioner.setAutoProvisioningUnicast at h
  split at h
  · cases h
  · cases h
    rfl

/-- Reserving an address is in order if every device that may ask has that number. -/
theorem Orderly.reserve (h : e.Orderly config hostname) {uuid : Bytes} {application : Provisioner}
    {number : UInt16} (hreserved : e.application.setAutoProvisioningUnicast number = .ok application)
    (hnumber : meshAutoUuidNumber uuid = number)
    (hopen : ∀ other ∈ e.attempts, meshAutoUuidNumber other = meshAutoUuidNumber uuid)
    (hcoordinator : e'.coordinator = e.coordinator) (happlication : e'.application = application)
    (hattempts : e'.attempts = e.attempts) (hanswers : e'.answers = e.answers) {now : Time}
    {rest : Option (List Event)} (hpass : e'.pass = .adding now uuid number rest) :
    e'.Orderly config hostname := by
  have hslot : application = { e.application with autoProvisioningUnicast := number } :=
    setAutoProvisioningUnicast_eq_ok hreserved
  refine ⟨?_, ?_, ?_, fun other hother => ?_, ?_⟩
  · rw [hcoordinator]
    exact h.consistent
  · rw [happlication, hslot]
    exact h.auto
  · rw [hpass, happlication, hslot]
    exact Or.inr hnumber.symm
  · rw [hattempts] at hother
    rw [happlication, hslot, hopen other hother]
    exact Or.inr hnumber.symm
  · rw [hanswers]
    exact h.answers

theorem Orderly.processEvent (h : e.Orderly config hostname) (now : Time) (event : Event)
    (rest : List Event)
    (hopen : ∀ uuid ∈ (e.scanCandidate event).toOption.join, ∀ other ∈ e.attempts,
      meshAutoUuidNumber other = meshAutoUuidNumber uuid) :
    (e.processEvent now event rest).Orderly config hostname := by
  unfold Enrollment.processEvent
  dsimp only
  split
  · exact h.move rfl rfl rfl rfl trivial
  · split
    · split
      · exact h.move rfl rfl rfl rfl trivial
      · exact h.move rfl rfl rfl rfl trivial
    · split
      · exact h.move rfl rfl rfl rfl trivial
      · exact h.move rfl rfl rfl rfl trivial
      · rename_i uuid hcandidate
        rw [hcandidate] at hopen
        split
        · exact h.move rfl rfl rfl rfl trivial
        · rename_i application hreserved
          exact h.reserve hreserved rfl (hopen uuid rfl) rfl rfl rfl rfl rfl

theorem directCandidate_some (h : e.Orderly config hostname) {number : Nat}
    (hmem : number ∈ e.coordinator.memberPriority) {knownNodes : Except String (List UInt16)}
    {uuid : Bytes} (hcandidate : e.directCandidate number knownNodes = .ok (some uuid)) :
    meshAutoUuidNumber uuid = UInt16.ofNat number ∧ meshAutoUuidNumber uuid ≠ 0 := by
  unfold directCandidate at hcandidate
  obtain ⟨nodes, _, hcandidate⟩ := bind_eq_ok.mp hcandidate
  split at hcandidate
  · cases hcandidate
  · obtain ⟨uuid', huuid, hsame⟩ := bind_eq_ok.mp hcandidate
    cases hsame
    have hpos := (meshAutoUuidFromName_iff.mp ⟨uuid, huuid, rfl⟩).2.1
    refine ⟨meshAutoUuidNumber_of_uavNumber (h.consistent.uavNumber_memberName hmem) huuid,
      fun hzero => ?_⟩
    rw [hzero] at hpos
    exact absurd hpos (by decide)

theorem Orderly.tryMember (h : e.Orderly config hostname) {now : Time} {number : Nat}
    {rest : List Nat} (hpass : e.pass = .direct now (number :: rest))
    (knownNodes : Except String (List UInt16))
    (hopen : ∀ uuid ∈ (if e.due now number then (e.directCandidate number knownNodes).toOption.join
        else none), ∀ other ∈ e.attempts, meshAutoUuidNumber other = meshAutoUuidNumber uuid) :
    (e.tryMember now number rest knownNodes).Orderly config hostname := by
  have hfits := h.pass
  rw [hpass] at hfits
  -- The members that are left are members still.
  have hrest : ∀ n ∈ rest, n ∈ e.coordinator.memberPriority := fun n hn =>
    hfits n (List.mem_cons_of_mem _ hn)
  unfold Enrollment.tryMember
  dsimp only
  split
  · exact h.move rfl rfl rfl rfl hrest
  · rename_i hdue
    rw [Bool.not_eq_false] at hdue
    rw [if_pos hdue] at hopen
    split
    · exact h.move rfl rfl rfl rfl trivial
    · exact h.move rfl rfl rfl rfl hrest
    · rename_i uuid hcandidate
      rw [hcandidate] at hopen
      have hnumber := (directCandidate_some h (hfits number List.mem_cons_self) hcandidate).1
      split
      · exact h.move rfl rfl rfl rfl trivial
      · rename_i application hreserved
        exact h.reserve hreserved hnumber (hopen uuid rfl) rfl rfl rfl rfl rfl

theorem Orderly.callAddNode (h : e.Orderly config hostname) {now : Time} {uuid : Bytes}
    {number : UInt16} {rest : Option (List Event)} (hpass : e.pass = .adding now uuid number rest)
    (called : Except String Unit) :
    (e.callAddNode now uuid number rest called).Orderly config hostname := by
  have hfits := h.pass
  rw [hpass] at hfits
  have hresume : ∀ priority slot, Fits priority slot (Pass.resume now rest) := by
    intro priority slot
    cases rest with
    | none => exact trivial
    | some rest => exact trivial
  unfold Enrollment.callAddNode
  dsimp only
  split
  · exact h.move rfl rfl rfl rfl (hresume _ _)
  · rename_i application hadded
    simp only [Provisioner.addNode, bind_eq_ok, require_eq_ok, pure_eq_ok] at hadded
    obtain ⟨_, _, _, _, _, _, rfl⟩ := hadded
    refine ⟨h.consistent, h.auto, hresume _ _, fun other hother => ?_, h.answers⟩
    rcases List.mem_cons.mp hother with rfl | hother
    · exact hfits
    · exact h.slot other hother

theorem Orderly.expirePending (h : e.Orderly config hostname) (now : Time) :
    (e.expirePending now).Orderly config hostname := by
  unfold Enrollment.expirePending
  split
  · exact h.move rfl rfl rfl rfl h.pass
  · exact h

theorem Orderly.setUpRemoteModel (h : e.Orderly config hostname) (now : Time)
    (sent : Except String Unit) : (e.setUpRemoteModel now sent).Orderly config hostname := by
  unfold Enrollment.setUpRemoteModel
  split
  · split
    · exact h.move rfl rfl rfl rfl h.pass
    · split
      · exact h.move rfl rfl rfl rfl h.pass
      · exact h.move rfl rfl rfl rfl h.pass
  · exact h

theorem Orderly.runTimers (h : e.Orderly config hostname) (now : Time) (sent : Except String Unit) :
    (e.runTimers now sent).Orderly config hostname := by
  have htimed := (h.expirePending now).setUpRemoteModel now sent
  unfold Enrollment.runTimers
  dsimp only
  split
  · exact htimed.move rfl rfl rfl rfl trivial
  · exact htimed.move rfl rfl rfl rfl fun _ hn => hn

/-- Automatic provisioning gives the address in the slot and empties it, or aborts. -/
theorem requestProvData_auto {p : Provisioner} (h : p.meshSwarmAutoProvisioning = true)
    (count : UInt8) (persist : Except String Unit) :
    (∃ what, p.requestProvData count persist = (p, .error what)) ∨
      p.autoProvisioningUnicast ≠ 0 ∧ p.requestProvData count persist =
        ({ p with autoProvisioningUnicast := 0 },
          .ok (p.meshSwarmNetworkIndex, p.autoProvisioningUnicast)) := by
  unfold Provisioner.requestProvData
  rw [if_pos h]
  split
  · exact Or.inl ⟨_, rfl⟩
  · rename_i hslot
    rw [not_or] at hslot
    exact Or.inr ⟨hslot.2, rfl⟩

theorem Orderly.answer (h : e.Orderly config hostname) {uuid : Bytes} (hmem : uuid ∈ e.attempts)
    (count : UInt8) (persist : Except String Unit) :
    (e.answer uuid count persist).Orderly config hostname := by
  have hattempts : ∀ other ∈ e.attempts.erase uuid, other ∈ e.attempts := fun _ hother =>
    List.mem_of_mem_erase hother
  unfold Enrollment.answer
  rcases requestProvData_auto h.auto count persist with ⟨what, hresult⟩ | ⟨hslot, hresult⟩
  · rw [hresult]
    refine ⟨h.consistent, h.auto, h.pass, fun other hother => h.slot other (hattempts other hother),
      fun answer hanswer => h.answers answer ?_⟩
    simpa [Except.toOption] using hanswer
  · rw [hresult]
    -- The answer empties the slot; a pass that waits for its reply no longer needs it.
    have hfits : Fits e.coordinator.memberPriority 0 e.pass := by
      have hpass := h.pass
      generalize e.pass = pass at hpass ⊢
      cases pass with
      | idle => exact trivial
      | events now rest => exact trivial
      | adding now uuid number rest => exact Or.inl rfl
      | direct now rest => exact hpass
    refine ⟨h.consistent, h.auto, hfits, fun _ _ => Or.inl rfl, fun answer hanswer => ?_⟩
    rcases List.mem_append.mp hanswer with hanswer | hanswer
    · exact h.answers answer hanswer
    · have hnew : answer = (uuid, e.application.autoProvisioningUnicast) := by
        simpa [Except.toOption] using hanswer
      rw [hnew]
      exact (h.slot uuid hmem).resolve_left hslot

theorem orderly_start {c : MeshSwarmCoordinator} (hc : c.Consistent config hostname)
    (networkIndex nextUnicast : UInt16) :
    (start c networkIndex nextUnicast).Orderly config hostname :=
  ⟨hc, rfl, trivial, fun _ hnone => (List.not_mem_nil hnone).elim,
    fun _ hnone => (List.not_mem_nil hnone).elim⟩

/-- The daemon, the coordinator and the bus keep the order; only a contested reservation would
break it. -/
theorem Orderly.step (h : e.Orderly config hostname) {a : Action} (hopen : e.Uncontested a)
    (hstep : e.step a = some e') : e'.Orderly config hostname := by
  cases a with
  | beginPass now attached applicationReady =>
      unfold Enrollment.step at hstep
      dsimp only at hstep
      split at hstep
      · split at hstep
        · cases hstep
          exact h
        · cases hstep
          exact h.move rfl rfl rfl rfl trivial
      · cases hstep
  | nextEvent =>
      unfold Enrollment.step at hstep
      dsimp only at hstep
      split at hstep
      · rename_i now event rest hpass
        cases hstep
        refine h.processEvent now event rest ?_
        simpa only [Uncontested, reserves, hpass] using hopen
      · cases hstep
  | addNode called =>
      unfold Enrollment.step at hstep
      dsimp only at hstep
      split at hstep
      · rename_i hpass
        cases hstep
        exact h.callAddNode hpass called
      · cases hstep
  | timers sent =>
      unfold Enrollment.step at hstep
      dsimp only at hstep
      split at hstep
      · cases hstep
        exact h.runTimers _ sent
      · cases hstep
  | nextMember knownNodes =>
      unfold Enrollment.step at hstep
      dsimp only at hstep
      split at hstep
      · cases hstep
        exact h.move rfl rfl rfl rfl trivial
      · rename_i now number rest hpass
        cases hstep
        refine h.tryMember hpass knownNodes ?_
        simpa only [Uncontested, reserves, hpass] using hopen
      · cases hstep
  | addNodeReply failed =>
      unfold Enrollment.step at hstep
      dsimp only at hstep
      split at hstep
      · have hreplied : ({ e with application := { e.application with
            addNodeStartPending := false } } : Enrollment).Orderly config hostname :=
          ⟨h.consistent, h.auto, h.pass, h.slot, h.answers⟩
        cases hstep
        split
        · exact hreplied.handleEvent _
        · exact hreplied
      · cases hstep
  | requestProvData uuid count persist =>
      unfold Enrollment.step at hstep
      dsimp only at hstep
      split at hstep
      · rename_i hmem
        cases hstep
        exact h.answer hmem count persist
      · cases hstep
  | abandon uuid =>
      cases hstep
      exact ⟨h.consistent, h.auto, h.pass, fun other hother =>
        h.slot other (List.mem_of_mem_erase hother), h.answers⟩
  | callback event =>
      cases hstep
      exact h.handleEvent event
  | coordinate action =>
      unfold Enrollment.step at hstep
      obtain ⟨c, hc, rfl⟩ := Option.map_eq_some_iff.mp hstep
      have hconsistent := h.consistent.step hc
      -- A coordinator keeps its members whatever it hears.
      have hpriority : c.memberPriority = e.coordinator.memberPriority := by
        have hsame := hconsistent.members.symm.trans h.consistent.members
        simp only [Except.ok.injEq, Prod.mk.injEq] at hsame
        exact hsame.2
      refine ⟨hconsistent, h.auto, ?_, h.slot, h.answers⟩
      dsimp only
      rw [hpriority]
      exact h.pass

/-! ### A contested reservation -/

theorem setAutoProvisioningUnicast_ok (p : Provisioner) {unicast : UInt16} (hne : unicast ≠ 0)
    (hmax : unicast ≤ 0x7fff) : p.setAutoProvisioningUnicast unicast =
      .ok { p with autoProvisioningUnicast := unicast } := by
  unfold Provisioner.setAutoProvisioningUnicast
  rw [if_neg]
  rintro (h | h)
  · exact hne h
  · rw [UInt16.lt_iff_toNat_lt] at h
    rw [UInt16.le_iff_toNat_le] at hmax
    omega

theorem meshAutoUuidNumber_le (uuid : Bytes) : meshAutoUuidNumber uuid ≤ 0x7fff := by
  unfold meshAutoUuidNumber
  split
  · decide
  · dsimp only
    split
    · rename_i hrange
      exact hrange.2
    · decide

theorem scanCandidate_some {event : Event} {uuid : Bytes}
    (h : e.scanCandidate event = .ok (some uuid)) :
    event.event = .scanResult ∧ meshAutoUuidNumber uuid ≠ 0 := by
  unfold scanCandidate at h
  dsimp only at h
  split at h
  · cases h
  · rename_i hevent
    rw [not_or, not_not] at hevent
    split at h
    · cases h
    · rename_i hnumber
      obtain ⟨expected, _, h⟩ := bind_eq_ok.mp h
      rw [pure_eq_ok] at h
      split at h
      · cases h
      · cases h
        refine ⟨hevent.1, fun hzero => hnumber (Or.inl ?_)⟩
        rw [hzero]
        rfl

/-- A step that reserves puts the number of the device into the slot and leaves the daemon's
attempts. -/
theorem Orderly.reserved (h : e.Orderly config hostname) {a : Action} {uuid : Bytes}
    (hreserves : e.reserves a = some uuid) (hstep : e.step a = some e') :
    e'.application = { e.application with autoProvisioningUnicast := meshAutoUuidNumber uuid } ∧
      meshAutoUuidNumber uuid ≠ 0 ∧ e'.attempts = e.attempts := by
  have hset := fun hne => setAutoProvisioningUnicast_ok e.application hne
    (meshAutoUuidNumber_le uuid)
  cases a with
  | nextEvent =>
      unfold Enrollment.step at hstep
      unfold reserves at hreserves
      dsimp only at hstep hreserves
      split at hreserves
      · rename_i now event rest hpass
        rw [hpass] at hstep
        have hcandidate : e.scanCandidate event = .ok (some uuid) := by
          cases hscan : e.scanCandidate event with
          | error what =>
              rw [hscan] at hreserves
              cases hreserves
          | ok found =>
              rw [hscan] at hreserves
              rw [show found = some uuid from hreserves]
        -- The slot gets the number in the candidate's UUID.
        obtain ⟨hevent, hne⟩ := scanCandidate_some hcandidate
        cases hstep
        unfold Enrollment.processEvent
        simp only [hevent, hcandidate, hset hne, reduceCtorEq, false_and, if_false]
        exact ⟨trivial, hne, trivial⟩
      · cases hreserves
  | nextMember knownNodes =>
      unfold Enrollment.step at hstep
      unfold reserves at hreserves
      dsimp only at hstep hreserves
      split at hreserves
      · rename_i now number rest hpass
        rw [hpass] at hstep
        have hfits := h.pass
        rw [hpass] at hfits
        split at hreserves
        · rename_i hdue
          have hcandidate : e.directCandidate number knownNodes = .ok (some uuid) := by
            cases hdirect : e.directCandidate number knownNodes with
            | error what =>
                rw [hdirect] at hreserves
                cases hreserves
            | ok found =>
                rw [hdirect] at hreserves
                rw [show found = some uuid from hreserves]
          obtain ⟨hnumber, hne⟩ := directCandidate_some h (hfits number List.mem_cons_self)
            hcandidate
          cases hstep
          unfold Enrollment.tryMember
          rw [hnumber] at hset hne ⊢
          simp only [hdue, hcandidate, hset hne, Bool.true_eq_false, if_false]
          exact ⟨trivial, hne, trivial⟩
        · cases hreserves
      · cases hreserves
  | _ => cases hreserves

/-- The condition is needed: after a contested reservation the daemon's next request may give a
device the number of another one. -/
theorem Orderly.contested (h : e.Orderly config hostname) {a : Action} {uuid other : Bytes}
    (hreserves : e.reserves a = some uuid) (hstep : e.step a = some e') (hother : other ∈ e.attempts)
    (hne : meshAutoUuidNumber other ≠ meshAutoUuidNumber uuid) :
    ∃ e'', e'.step (.requestProvData other 1 (.ok ())) = some e'' ∧
      ∃ answer ∈ e''.answers, answer.2 ≠ meshAutoUuidNumber answer.1 := by
  obtain ⟨happlication, hnumber, hattempts⟩ := h.reserved hreserves hstep
  refine ⟨_, if_pos (by rw [hattempts]; exact hother), (other, meshAutoUuidNumber uuid), ?_, hne.symm⟩
  refine List.mem_append_right _ ?_
  have hasked : (e'.application.requestProvData 1 (.ok ())).2 =
      .ok (e.application.meshSwarmNetworkIndex, meshAutoUuidNumber uuid) := by
    rw [happlication]
    unfold Provisioner.requestProvData
    rw [if_pos h.auto, if_neg]
    exact not_or.mpr ⟨fun hone => hone rfl, hnumber⟩
  rw [hasked]
  exact List.mem_singleton_self _

/-! ### Every device -/

/-- **Every device gets its own address**: in a run in which no address is reserved while the
daemon may still ask on behalf of a device with another number, RequestProvData gives each
device the number in its UUID. -/
theorem answers_own {config : SwarmConfig} {hostname : String} {stored : Option (Nat × Int)}
    {c₀ : MeshSwarmCoordinator} (networkIndex nextUnicast : UInt16) {e : Enrollment}
    (h₀ : MeshSwarmCoordinator.create config hostname stored = .ok c₀)
    (hrun : Run.ReachableUnder step Uncontested (· = start c₀ networkIndex nextUnicast) e) :
    ∀ answer ∈ e.answers, answer.2 = meshAutoUuidNumber answer.1 := by
  have horderly : e.Orderly config hostname := by
    refine hrun.invariant (fun e he => ?_) fun e a e' h hopen hstep => h.step hopen hstep
    rw [he]
    exact orderly_start (MeshSwarmCoordinator.consistent_create h₀) networkIndex nextUnicast
  exact horderly.answers

/-- Three members; this one is `uav1`. -/
def threeMembers : SwarmConfig := { peerWhitelist := ["uav1", "uav2", "uav3"] }

def uuidOfUav2 : Bytes := [77, 82, 83, 66, 2, 0, 57, 253, 173, 167, 169, 84, 192, 67, 54, 16]

def uuidOfUav3 : Bytes := [77, 82, 83, 66, 3, 0, 63, 76, 153, 182, 236, 133, 25, 176, 203, 59]

/-- A pass that reserves the address of `uav2` and calls AddNode. -/
def firstAttempt : List Action :=
  [.beginPass (seconds 10) true true, .timers (.ok ()), .nextMember (.ok []),
    .nextMember (.ok []), .addNode (.ok ()), .addNodeReply false]

/-- A pass 51 seconds later, when the first attempt has timed out and `uav3` is due. -/
def secondAttempt : List Action :=
  [.beginPass (seconds 61) true true, .timers (.ok ()), .nextMember (.ok []),
    .nextMember (.ok []), .nextMember (.ok []), .addNode (.ok ()), .addNodeReply false]

/-- The daemon asks within each attempt. -/
theorem answers_own_in_turn :
    ∃ c₀ e, MeshSwarmCoordinator.create threeMembers "uav1" none = .ok c₀ ∧
      Run.exec step (start c₀ 0 256) (firstAttempt ++ [.requestProvData uuidOfUav2 1 (.ok ())] ++
        secondAttempt ++ [.requestProvData uuidOfUav3 1 (.ok ())]) = some e ∧
      e.answers = [(uuidOfUav2, 2), (uuidOfUav3, 3)] ∧
      ∀ answer ∈ e.answers, answer.2 = meshAutoUuidNumber answer.1 := by
  generalize hactions : firstAttempt ++ [.requestProvData uuidOfUav2 1 (.ok ())] ++
    secondAttempt ++ [.requestProvData uuidOfUav3 1 (.ok ())] = actions
  have hcomputed : (MeshSwarmCoordinator.create threeMembers "uav1" none).toOption.any (fun c =>
      Run.allowed step (fun e a => decide (e.Uncontested a)) (start c 0 256) actions &&
        (Run.exec step (start c 0 256) actions).any fun e =>
          e.answers == [(uuidOfUav2, 2), (uuidOfUav3, 3)]) = true := by
    rw [← hactions]
    decide +kernel
  obtain ⟨c₀, hc₀, hrun⟩ := exists_ok_of_any hcomputed
  rw [Bool.and_eq_true] at hrun
  obtain ⟨e, he, hanswers⟩ := (Option.any_eq_true _ _).mp hrun.2
  exact ⟨c₀, e, hc₀, he, eq_of_beq hanswers, answers_own 0 256 hc₀
    (Run.ReachableUnder.exec (.start rfl) (Run.guarded_of_decide hrun.1) he)⟩

/-- The daemon asks for the timed-out attempt when the next address is in the slot. -/
theorem late_request_misaddressed :
    ¬ ∀ (config : SwarmConfig) (hostname : String) (stored : Option (Nat × Int))
      (c₀ : MeshSwarmCoordinator) (networkIndex nextUnicast : UInt16) (e : Enrollment),
      MeshSwarmCoordinator.create config hostname stored = .ok c₀ →
        Run.Reachable step (· = start c₀ networkIndex nextUnicast) e →
          ∀ answer ∈ e.answers, answer.2 = meshAutoUuidNumber answer.1 := by
  intro hclaim
  generalize hactions : firstAttempt ++ secondAttempt ++
    [.requestProvData uuidOfUav2 1 (.ok ())] = actions
  have hcomputed : (MeshSwarmCoordinator.create threeMembers "uav1" none).toOption.any (fun c =>
      (Run.exec step (start c 0 256) actions).any fun e =>
        e.answers == [(uuidOfUav2, 3)]) = true := by
    rw [← hactions]
    decide +kernel
  obtain ⟨c₀, hc₀, hrun⟩ := exists_ok_of_any hcomputed
  obtain ⟨e, he, hanswers⟩ := (Option.any_eq_true _ _).mp hrun
  have hwrong := hclaim _ _ _ c₀ 0 256 e hc₀ (Run.Reachable.exec (.start rfl) he)
    (uuidOfUav2, 3) (by rw [eq_of_beq hanswers]; exact List.mem_singleton_self _)
  exact absurd hwrong (by decide)

end Enrollment

end UavBluetooth.Mesh
