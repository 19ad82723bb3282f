import UavBluetooth.Lib.Election
import UavBluetooth.Lib.Fallible
import UavBluetooth.Lib.Run
import UavBluetooth.Mesh.State
import UavBluetooth.Util.Text

set_option autoImplicit false

/-! # The swarm coordinator

`swarm_coordinator.cpp`: which peers are present, from their heartbeats and from payloads of
the swarm, and which member is the active provisioner. Enrollment, key setup and the sending
of heartbeats are left out, they read the state below but do not change it.

`provisioner_agreement` is the election: members with equal sets of available numbers elect
the same one, however they came by their sets.
-/

namespace UavBluetooth.Mesh

open Config Fallible Util

def controlOpcode : UInt8 := 0xc0
def frameVersion : UInt8 := 4
def frameSize : Nat := 8
def swarmParticipatingFlag : UInt8 := 0x02

/-! ## Numbers -/

/-- The value of some decimal digits. -/
def decimalValue (digits : List Char) : Nat := digits.foldl (fun n c => 10 * n + (c.toNat - 48)) 0

/-- The numeric suffix used as a member's Mesh address. -/
def uavNumber (hostname : String) : Except String Nat :=
  let digits := hostname.toList.rtakeWhile Char.isDigit
  if digits = [] then .error ("automatic Mesh peer must end in a UAV number: " ++ hostname)
  else
    let value := decimalValue digits
    -- std::stoul itself throws for what does not fit an unsigned long
    if 2 ^ 64 ≤ value then .error "stoul"
    else if value = 0 ∨ 0xffff < value then
      .error ("automatic Mesh UAV number must be in 1..65535: " ++ hostname)
    else .ok value

/-- The little-endian 24-bit field at `i`. -/
def u24At (data : Bytes) (i : Nat) : UInt32 :=
  (byteAt data i).toUInt32 ||| ((byteAt data (i + 1)).toUInt32 <<< 8) |||
    ((byteAt data (i + 2)).toUInt32 <<< 16)

/-- FNV-1a of the members and the preference, truncated to 24 bits. -/
def swarmFingerprint (members : List String) (preference : String) : UInt32 :=
  let normalized := members.map lowerTrimCopy
  let canonical := lowerTrimCopy preference ++ "|" ++
    (if normalized = [] then "*" else String.join (normalized.map (· ++ ",")))
  let hash := canonical.toList.foldl
    (fun (hash : UInt32) c => (hash ^^^ UInt32.ofNat c.toNat) * 16777619) 2166136261 &&& 0x00ffffff
  if hash = 0 then 1 else hash

/-! ## The coordinator -/

structure PeerPresence where
  source : UInt16
  swarmId : UInt16
  participating : Bool
  expires : Time
  deriving DecidableEq, Repr

structure MeshSwarmCoordinator where
  config : SwarmConfig
  localNumber : Nat
  preferredNumber : Nat := 0
  whitelistFingerprint : UInt32
  memberByNumber : Std.ExtTreeMap Nat String := ∅
  memberPriority : List Nat := []
  peerPresence : Std.ExtTreeMap Nat PeerPresence := ∅
  activeNumber : Nat
  activeProvisioner : String
  localIsActive : Bool
  swarmId : UInt16
  swarmParticipating : Bool

/-- A number's hostname in an address book. -/
def memberNameIn (book : Std.ExtTreeMap Nat String) (number : Nat) : String :=
  match book[number]? with
  | some name => name
  | none => "uav" ++ toString number

/-- The constructor's loop over the whitelist. -/
def enterMembers : List String → Std.ExtTreeMap Nat String → List Nat →
    Except String (Std.ExtTreeMap Nat String × List Nat)
  | [], book, priority => .ok (book, priority)
  | rawMember :: rest, book, priority => do
      let member := lowerTrimCopy rawMember
      let number ← uavNumber member
      if book.contains number then
        .error "automatic Mesh peer whitelist has duplicate UAV numbers"
      else enterMembers rest (book.insert number member) (priority ++ [number])

/-- The number of the preferred provisioner; 0 for none. -/
def preferredNumberOf (config : SwarmConfig) : Except String Nat :=
  let preference := lowerTrimCopy config.meshProvisionerPreference
  if preference = "ordered" then .ok 0 else uavNumber preference

/-- The swarm and the participation flag that a state file holds, if it is well formed. -/
def loadSwarmState (stored : Option (Nat × Int)) : Option (UInt16 × Bool) :=
  match stored with
  | none => none
  | some (id, participating) =>
      if id = 0 ∨ 0xffff < id ∨ (participating ≠ 0 ∧ participating ≠ 1) then none
      else some (UInt16.ofNat id, participating ≠ 0)

/-- The constructor. `stored` are the two numbers in the state file. -/
def MeshSwarmCoordinator.create (config : SwarmConfig) (hostname : String)
    (stored : Option (Nat × Int)) : Except String MeshSwarmCoordinator := do
  let localNumber ← uavNumber (lowerTrimCopy hostname)
  let (memberByNumber, memberPriority) ← enterMembers config.peerWhitelist ∅ []
  let preferredNumber ← preferredNumberOf config
  let activeNumber :=
    if preferredNumber ≠ 0 then preferredNumber
    else
      match memberPriority with
      | [] => localNumber
      | first :: _ => first
  let state := (loadSwarmState stored).getD (config.meshSwarmId, config.meshSwarmParticipating)
  return {
    config := config
    localNumber := localNumber
    preferredNumber := preferredNumber
    whitelistFingerprint := swarmFingerprint config.peerWhitelist
      (lowerTrimCopy config.meshProvisionerPreference)
    memberByNumber := memberByNumber
    memberPriority := memberPriority
    activeNumber := activeNumber
    activeProvisioner := memberNameIn memberByNumber activeNumber
    localIsActive := activeNumber == localNumber
    swarmId := state.1
    swarmParticipating := state.2 }

namespace MeshSwarmCoordinator

def memberName (c : MeshSwarmCoordinator) (number : Nat) : String :=
  memberNameIn c.memberByNumber number

def peerAllowed (c : MeshSwarmCoordinator) (number : Nat) : Bool :=
  c.config.peerWhitelist.isEmpty || c.memberByNumber.contains number

/-- Refresh a sender's lease. -/
def refresh (c : MeshSwarmCoordinator) (now : Time) (source swarmId : UInt16)
    (participating : Bool) : MeshSwarmCoordinator :=
  { c with
    peerPresence := c.peerPresence.insert source.toNat
      ⟨source, swarmId, participating, now + c.config.meshSwarmProvisionerTimeout⟩ }

/-- `accepts_swarm_payload` of a reliable frame. -/
def acceptsSwarmPayload (c : MeshSwarmCoordinator) (now : Time) (source senderSwarmId : UInt16) :
    MeshSwarmCoordinator × Bool :=
  if source = 0 ∨ source.toNat = c.localNumber ∨ senderSwarmId = 0 ∨
      c.peerAllowed source.toNat = false then (c, false)
  else if c.swarmParticipating = false ∨ senderSwarmId ≠ c.swarmId then (c, false)
  else (c.refresh now source senderSwarmId true, true)

/-- `accepts_swarm_payload` of a raw message. -/
def acceptsRawPayload (c : MeshSwarmCoordinator) (now : Time) (source : UInt16) : Bool :=
  c.swarmParticipating && c.peerPresence.toList.any fun (_, presence) =>
    presence.source == source && decide (now < presence.expires) && presence.participating &&
      presence.swarmId == c.swarmId

/-- Fresh peer addresses for acknowledged delivery. -/
def swarmMemberAddresses (c : MeshSwarmCoordinator) (now : Time) : List UInt16 :=
  if c.swarmParticipating = false then []
  else c.peerPresence.toList.filterMap fun (number, presence) =>
    if number ≤ 0x7fff ∧ now < presence.expires ∧ presence.participating = true ∧
        presence.swarmId = c.swarmId then some (UInt16.ofNat number)
    else none

/-- Configured peers without fresh presence. -/
def swarmProbeAddresses (c : MeshSwarmCoordinator) (now : Time) : List UInt16 :=
  if c.swarmParticipating = false then []
  else c.memberPriority.filterMap fun number =>
    if number = c.localNumber ∨ 0x7fff < number ∨
        c.peerPresence[number]?.any (fun presence => decide (now < presence.expires)) = true then none
    else some (UInt16.ofNat number)

/-- The frame of `publish_coordination_heartbeat`, with its vendor opcode. -/
def coordinationHeartbeat (c : MeshSwarmCoordinator) : Bytes :=
  [controlOpcode, c.config.meshCompanyId.toUInt8, (c.config.meshCompanyId >>> 8).toUInt8,
    0x4d, 0x53, (frameVersion <<< 4) ||| (if c.swarmParticipating then swarmParticipatingFlag else 0),
    c.whitelistFingerprint.toUInt8, (c.whitelistFingerprint >>> 8).toUInt8,
    (c.whitelistFingerprint >>> 16).toUInt8] ++ u16Bytes c.swarmId

def acceptCoordinationFrame (c : MeshSwarmCoordinator) (now : Time) (frame : Bytes)
    (source : UInt16) : MeshSwarmCoordinator :=
  if frame.length ≠ frameSize ∨ byteAt frame 0 ≠ 0x4d ∨ byteAt frame 1 ≠ 0x53 ∨
      byteAt frame 2 >>> 4 ≠ frameVersion ∨ u24At frame 3 ≠ c.whitelistFingerprint then c
  else
    let senderSwarmId := u16At frame 6
    if source = 0 ∨ source.toNat = c.localNumber ∨ senderSwarmId = 0 ∨
        c.peerAllowed source.toNat = false then c
    else c.refresh now source senderSwarmId (byteAt frame 2 &&& swarmParticipatingFlag ≠ 0)

/-- The coordination frame in a message, the vendor opcode retained or already stripped. -/
def coordinationFrame (c : MeshSwarmCoordinator) (deviceKey : Bool) (m : ReceivedMessage) :
    Option Bytes :=
  if deviceKey ∨ m.keyIndex ≠ c.config.meshSwarmAppKeyIndex ∨ m.source = 0 then none
  else
    let frame :=
      if m.data.length = frameSize + 3 ∧ m.data.take 3 = [controlOpcode,
          c.config.meshCompanyId.toUInt8, (c.config.meshCompanyId >>> 8).toUInt8] then
        some (m.data.drop 3)
      else if m.data.length ≠ frameSize then none
      else some m.data
    frame.filter fun frame =>
      frame.length == frameSize && byteAt frame 0 == 0x4d && byteAt frame 1 == 0x53

/-- `handle_message`: the coordinator afterwards, and whether it consumed the message. -/
def handleMessage (c : MeshSwarmCoordinator) (now : Time) (deviceKey : Bool)
    (m : ReceivedMessage) : MeshSwarmCoordinator × Bool :=
  match c.coordinationFrame deviceKey m with
  | none => (c, false)
  | some frame => (c.acceptCoordinationFrame now frame m.source, true)

/-- `join_swarm`; it throws if the swarm is 0 or its state cannot be persisted. -/
def joinSwarm (c : MeshSwarmCoordinator) (swarmId : UInt16) (persisted : Bool) :
    MeshSwarmCoordinator :=
  if swarmId = 0 ∨ persisted = false then c
  else { c with swarmId := swarmId, swarmParticipating := true }

def leaveSwarm (c : MeshSwarmCoordinator) (persisted : Bool) : MeshSwarmCoordinator :=
  if persisted then { c with swarmParticipating := false } else c

/-- Forget the peers whose lease has run out. -/
def expire (c : MeshSwarmCoordinator) (now : Time) : MeshSwarmCoordinator :=
  { c with peerPresence := c.peerPresence.filter fun _ presence => decide (now < presence.expires) }

/-- A candidate is electable while it is local or has an unexpired heartbeat. -/
def electable (c : MeshSwarmCoordinator) (number : Nat) : Bool :=
  number == c.localNumber || c.peerPresence.contains number

/-- The candidate that `update_selection` selects. -/
def selected (c : MeshSwarmCoordinator) : Nat :=
  if c.preferredNumber ≠ 0 ∧ c.electable c.preferredNumber then c.preferredNumber
  else if c.memberPriority ≠ [] then (c.memberPriority.find? c.electable).getD c.localNumber
  else c.peerPresence.keys.foldl min c.localNumber

def updateSelection (c : MeshSwarmCoordinator) (now : Time) : MeshSwarmCoordinator :=
  let c := c.expire now
  let selected := c.selected
  if selected ≠ c.activeNumber then
    { c with
      activeNumber := selected
      activeProvisioner := c.memberName selected
      localIsActive := selected == c.localNumber }
  else c

/-! ## Runs -/

inductive Action where
  | message (now : Time) (deviceKey : Bool) (m : ReceivedMessage)
  | payload (now : Time) (source senderSwarmId : UInt16)
  | join (swarmId : UInt16) (persisted : Bool)
  | leave (persisted : Bool)
  | updateSelection (now : Time)

def step (c : MeshSwarmCoordinator) : Action → Option MeshSwarmCoordinator
  | .message now deviceKey m => some (c.handleMessage now deviceKey m).1
  | .payload now source senderSwarmId => some (c.acceptsSwarmPayload now source senderSwarmId).1
  | .join swarmId persisted => some (c.joinSwarm swarmId persisted)
  | .leave persisted => some (c.leaveSwarm persisted)
  | .updateSelection now => some (c.updateSelection now)

end MeshSwarmCoordinator

/-! ## The electorate of a configuration -/

/-- The numbers of the members, in the order of the whitelist. -/
def memberNumbers (peers : List String) : Except String (List Nat) :=
  peers.mapM fun member => uavNumber (lowerTrimCopy member)

/-- Candidate order is common swarm policy: the preferred number and the members' numbers. -/
def electorateOf (config : SwarmConfig) : Except String (Election.Electorate Nat) := do
  let order ← memberNumbers config.peerWhitelist
  let preferred ← preferredNumberOf config
  return ⟨if preferred = 0 then none else some preferred, order⟩

/-- The whitelist names the node itself, unless admission is open. -/
def Listed (config : SwarmConfig) (hostname : String) : Prop :=
  config.peerWhitelist = [] ∨ lowerTrimCopy hostname ∈ config.peerWhitelist.map lowerTrimCopy

/-- What the constructor's loop leaves: the numbers in order, each in the address book. -/
theorem enterMembers_spec {peers : List String} {book book' : Std.ExtTreeMap Nat String}
    {priority priority' : List Nat} (h : enterMembers peers book priority = .ok (book', priority')) :
    ∃ numbers, memberNumbers peers = .ok numbers ∧ priority' = priority ++ numbers ∧
      ∀ n, book'.contains n = true ↔ book.contains n = true ∨ n ∈ numbers := by
  induction peers generalizing book priority with
  | nil =>
      cases h
      exact ⟨[], rfl, by simp, by simp⟩
  | cons rawMember rest ih =>
      simp only [enterMembers, bind_eq_ok] at h
      obtain ⟨number, hnumber, h⟩ := h
      split at h
      · cases h
      · obtain ⟨numbers, hnumbers, hpriority, hbook⟩ := ih h
        refine ⟨number :: numbers, ?_, by simp [hpriority], fun n => ?_⟩
        · unfold memberNumbers at hnumbers ⊢
          rw [List.mapM_cons, hnumber, bind_eq_ok]
          refine ⟨number, rfl, ?_⟩
          rw [hnumbers]
          rfl
        · rw [hbook, Std.ExtTreeMap.contains_insert, Bool.or_eq_true, beq_iff_eq,
            Std.LawfulEqCmp.compare_eq_iff_eq, List.mem_cons]
          constructor
          · rintro ((rfl | h) | h)
            · exact Or.inr (Or.inl rfl)
            · exact Or.inl h
            · exact Or.inr (Or.inr h)
          · rintro (h | rfl | h)
            · exact Or.inl (Or.inr h)
            · exact Or.inl (Or.inl rfl)
            · exact Or.inr h

/-- The address book that it leaves has the entries of the whitelist under their numbers. -/
theorem enterMembers_book {peers : List String} {book book' : Std.ExtTreeMap Nat String}
    {priority priority' : List Nat} (h : enterMembers peers book priority = .ok (book', priority'))
    (n : Nat) (name : String) :
    book'[n]? = some name ↔
      book[n]? = some name ∨ name ∈ peers.map lowerTrimCopy ∧ uavNumber name = .ok n := by
  induction peers generalizing book priority with
  | nil =>
      cases h
      simp
  | cons rawMember rest ih =>
      simp only [enterMembers, bind_eq_ok] at h
      obtain ⟨number, hnumber, h⟩ := h
      split at h
      · cases h
      · rename_i hnew
        rw [ih h, Std.ExtTreeMap.getElem?_insert, List.map_cons, List.mem_cons]
        simp only [Std.LawfulEqCmp.compare_eq_iff_eq]
        by_cases hn : number = n
        · subst hn
          have habsent : book[number]? = none := by
            rw [Bool.not_eq_true, Std.ExtTreeMap.contains_eq_isSome_getElem?] at hnew
            exact Option.not_isSome_iff_eq_none.mp (Bool.eq_false_iff.mp hnew)
          rw [if_pos rfl, habsent, Option.some.injEq]
          constructor
          · rintro (rfl | ⟨hmem, hname⟩)
            · exact Or.inr ⟨Or.inl rfl, hnumber⟩
            · exact Or.inr ⟨Or.inr hmem, hname⟩
          · rintro (hnone | ⟨rfl | hmem, hname⟩)
            · cases hnone
            · exact Or.inl rfl
            · exact Or.inr ⟨hmem, hname⟩
        · rw [if_neg hn]
          refine or_congr_right (and_congr_left fun hname => ⟨Or.inr, Or.rec ?_ id⟩)
          rintro rfl
          rw [hnumber] at hname
          exact absurd (Except.ok.inj hname) hn

theorem mem_memberNumbers {peers : List String} {numbers : List Nat}
    (h : memberNumbers peers = .ok numbers) {name : String} {number : Nat}
    (hname : name ∈ peers.map lowerTrimCopy) (hnumber : uavNumber name = .ok number) :
    number ∈ numbers := by
  induction peers generalizing numbers with
  | nil => cases hname
  | cons member rest ih =>
      simp only [memberNumbers, List.mapM_cons, bind_eq_ok] at h
      obtain ⟨first, hfirst, others, hothers, h⟩ := h
      cases h
      rcases List.mem_cons.mp hname with rfl | hname
      · rw [hnumber] at hfirst
        cases hfirst
        exact List.mem_cons_self
      · exact List.mem_cons_of_mem _ (ih hothers hname)

namespace MeshSwarmCoordinator

def electorate (c : MeshSwarmCoordinator) : Election.Electorate Nat :=
  ⟨if c.preferredNumber = 0 then none else some c.preferredNumber, c.memberPriority⟩

/-- The own number and those of the peers with unexpired presence. -/
def available (c : MeshSwarmCoordinator) (now : Time) : Set Nat :=
  fun n => n = c.localNumber ∨
    ∃ presence : PeerPresence, c.peerPresence[n]? = some presence ∧ now < presence.expires

/-- What a coordinator keeps: its policy is the constructor's, its cached fields follow the
active number, and only allowed peers are present. -/
structure Consistent (config : SwarmConfig) (hostname : String) (c : MeshSwarmCoordinator) :
    Prop where
  config_eq : c.config = config
  localNumber : uavNumber (lowerTrimCopy hostname) = .ok c.localNumber
  preferredNumber : preferredNumberOf config = .ok c.preferredNumber
  members : enterMembers config.peerWhitelist ∅ [] = .ok (c.memberByNumber, c.memberPriority)
  name : c.activeProvisioner = c.memberName c.activeNumber
  isLocal : c.localIsActive = (c.activeNumber == c.localNumber)
  allowed : ∀ (n : Nat) (presence : PeerPresence), c.peerPresence[n]? = some presence →
    c.peerAllowed n = true

variable {config : SwarmConfig} {hostname : String} {c : MeshSwarmCoordinator}

theorem consistent_create {stored : Option (Nat × Int)}
    (h : create config hostname stored = .ok c) : c.Consistent config hostname := by
  simp only [create, bind_eq_ok] at h
  obtain ⟨localNumber, hlocal, ⟨book, priority⟩, hmembers, preferred, hpreferred, h⟩ := h
  cases h
  exact ⟨rfl, hlocal, hpreferred, hmembers, rfl, rfl, by simp⟩

theorem Consistent.refresh (h : c.Consistent config hostname) {now : Time} {source swarmId : UInt16}
    {participating : Bool} (hallowed : c.peerAllowed source.toNat = true) :
    (c.refresh now source swarmId participating).Consistent config hostname := by
  refine ⟨h.config_eq, h.localNumber, h.preferredNumber, h.members, h.name, h.isLocal,
    fun n presence hn => ?_⟩
  rw [MeshSwarmCoordinator.refresh, Std.ExtTreeMap.getElem?_insert] at hn
  split at hn
  · rename_i hsource
    rw [← Std.LawfulEqCmp.compare_eq_iff_eq.mp hsource]
    exact hallowed
  · exact h.allowed n presence hn

theorem Consistent.acceptsSwarmPayload (h : c.Consistent config hostname) (now : Time)
    (source senderSwarmId : UInt16) :
    (c.acceptsSwarmPayload now source senderSwarmId).1.Consistent config hostname := by
  unfold MeshSwarmCoordinator.acceptsSwarmPayload
  split
  · exact h
  · rename_i hsource
    split
    · exact h
    · exact h.refresh (by simpa using fun hallowed => hsource (Or.inr (Or.inr (Or.inr hallowed))))

theorem Consistent.handleMessage (h : c.Consistent config hostname) (now : Time)
    (deviceKey : Bool) (m : ReceivedMessage) :
    (c.handleMessage now deviceKey m).1.Consistent config hostname := by
  unfold MeshSwarmCoordinator.handleMessage
  split
  · exact h
  · unfold acceptCoordinationFrame
    split
    · exact h
    · simp only
      split
      · exact h
      · rename_i hsource
        exact h.refresh (by simpa using fun hallowed => hsource (Or.inr (Or.inr (Or.inr hallowed))))

theorem Consistent.expire (h : c.Consistent config hostname) (now : Time) :
    (c.expire now).Consistent config hostname := by
  refine ⟨h.config_eq, h.localNumber, h.preferredNumber, h.members, h.name, h.isLocal,
    fun n presence hn => ?_⟩
  rw [MeshSwarmCoordinator.expire, Std.ExtTreeMap.getElem?_filter'] at hn
  obtain ⟨hn, _⟩ := Option.filter_eq_some_iff.mp hn
  exact h.allowed n presence hn

theorem Consistent.updateSelection (h : c.Consistent config hostname) (now : Time) :
    (c.updateSelection now).Consistent config hostname := by
  have hexpired := h.expire now
  unfold MeshSwarmCoordinator.updateSelection
  simp only
  split
  · exact ⟨hexpired.config_eq, hexpired.localNumber, hexpired.preferredNumber, hexpired.members,
      rfl, rfl, hexpired.allowed⟩
  · exact hexpired

theorem Consistent.step (h : c.Consistent config hostname) {action : Action}
    {c' : MeshSwarmCoordinator} (hstep : MeshSwarmCoordinator.step c action = some c') : c'.Consistent config hostname := by
  cases action with
  | message now deviceKey m =>
      cases hstep
      exact h.handleMessage now deviceKey m
  | payload now source senderSwarmId =>
      cases hstep
      exact h.acceptsSwarmPayload now source senderSwarmId
  | join swarmId persisted =>
      cases hstep
      unfold joinSwarm
      split
      · exact h
      · exact ⟨h.config_eq, h.localNumber, h.preferredNumber, h.members, h.name, h.isLocal,
          h.allowed⟩
  | leave persisted =>
      cases hstep
      unfold leaveSwarm
      split
      · exact ⟨h.config_eq, h.localNumber, h.preferredNumber, h.members, h.name, h.isLocal,
          h.allowed⟩
      · exact h
  | updateSelection now =>
      cases hstep
      exact h.updateSelection now

theorem consistent_reachable {stored : Option (Nat × Int)} {c₀ : MeshSwarmCoordinator}
    (h₀ : create config hostname stored = .ok c₀) (h : Run.Reachable step (· = c₀) c) :
    c.Consistent config hostname :=
  h.invariant (fun _ hc => hc ▸ consistent_create h₀) fun _ _ _ hc _ hstep => hc.step hstep

/-! ## The election -/

theorem electable_expire (now : Time) (n : Nat) :
    (c.expire now).electable n = true ↔ n ∈ c.available now := by
  show (n == c.localNumber || (c.peerPresence.filter fun _ presence =>
    decide (now < presence.expires)).contains n) = true ↔
      n = c.localNumber ∨ ∃ presence : PeerPresence, c.peerPresence[n]? = some presence ∧
        now < presence.expires
  rw [Bool.or_eq_true, beq_iff_eq, Std.ExtTreeMap.contains_eq_isSome_getElem?,
    Std.ExtTreeMap.getElem?_filter', Option.isSome_iff_exists]
  simp only [Option.filter_eq_some_iff, decide_eq_true_eq]

/-- The least of a number and the elements of a list. -/
theorem isLeast_foldl_min (a : Nat) (l : List Nat) :
    IsLeast {n | n = a ∨ n ∈ l} (l.foldl min a) := by
  induction l generalizing a with
  | nil =>
      refine ⟨Or.inl rfl, ?_⟩
      rintro n (rfl | hn)
      · exact le_refl _
      · cases hn
  | cons b rest ih =>
      rw [List.foldl_cons]
      obtain ⟨hmem, hleast⟩ := ih (min a b)
      constructor
      · rcases hmem with hmem | hmem
        · rcases min_choice a b with hmin | hmin
          · exact Or.inl (hmem.trans hmin)
          · exact Or.inr (List.mem_cons.mpr (Or.inl (hmem.trans hmin)))
        · exact Or.inr (List.mem_cons_of_mem _ hmem)
      · have hbound := hleast (Or.inl rfl)
        rintro n (rfl | hn)
        · exact le_trans hbound (min_le_left _ _)
        · rcases List.mem_cons.mp hn with rfl | hn
          · exact le_trans hbound (min_le_right _ _)
          · exact hleast (Or.inr hn)

/-- A node that the whitelist names is one of the candidates. -/
theorem Consistent.local_mem (h : c.Consistent config hostname) (hlisted : Listed config hostname) :
    c.memberPriority = [] ∨ c.localNumber ∈ c.memberPriority := by
  obtain ⟨numbers, hnumbers, hpriority, _⟩ := enterMembers_spec h.members
  rw [List.nil_append] at hpriority
  rcases hlisted with hnone | hlisted
  · rw [hnone] at hnumbers
    cases hnumbers
    exact Or.inl hpriority
  · rw [hpriority]
    exact Or.inr (mem_memberNumbers hnumbers hlisted h.localNumber)

/-- **The selection elects** a candidate of the electorate among the available ones. -/
theorem Consistent.selected_elected (h : c.Consistent config hostname)
    (hlisted : Listed config hostname) (now : Time) :
    Election.Elected c.electorate (c.available now) (c.expire now).selected := by
  have helectable := electable_expire (c := c) now
  have hopen : ¬ (c.preferredNumber ≠ 0 ∧ (c.expire now).electable c.preferredNumber = true) →
      c.electorate.Open (c.available now) := by
    intro hnot p hp hmem
    unfold electorate at hp
    simp only at hp
    split at hp
    · cases hp
    · rename_i hne
      cases hp
      exact hnot ⟨hne, (helectable _).mpr hmem⟩
  show Election.Elected c.electorate (c.available now)
    (if c.preferredNumber ≠ 0 ∧ (c.expire now).electable c.preferredNumber then c.preferredNumber
    else if c.memberPriority ≠ [] then
      (c.memberPriority.find? (c.expire now).electable).getD c.localNumber
    else (c.expire now).peerPresence.keys.foldl min c.localNumber)
  split
  · rename_i hpreferred
    exact .preferred (by simp [electorate, hpreferred.1]) ((helectable _).mp hpreferred.2)
  · rename_i hnot
    split
    · -- the node itself is in the order, so some candidate is available
      rename_i hne
      have hlocal := (h.local_mem hlisted).resolve_left hne
      have hsome : (c.memberPriority.find? (c.expire now).electable).isSome :=
        List.find?_isSome.mpr ⟨c.localNumber, hlocal, (helectable _).mpr (Or.inl rfl)⟩
      obtain ⟨n, hn⟩ := Option.isSome_iff_exists.mp hsome
      obtain ⟨hpn, before, after, hsplit, hbefore⟩ := List.find?_eq_some_iff_append.mp hn
      rw [hn]
      refine .ordered (hopen hnot) hsplit (fun m hm hmem => ?_) ((helectable n).mp hpn)
      have hnotElectable := hbefore m hm
      rw [(helectable m).mpr hmem] at hnotElectable
      cases hnotElectable
    · rename_i hnone
      refine .least (hopen hnot) (by simpa [electorate] using hnone) ?_
      have hset : c.available now = {n | n = c.localNumber ∨ n ∈ (c.expire now).peerPresence.keys} := by
        ext n
        rw [← helectable]
        simp only [electable, Bool.or_eq_true, beq_iff_eq, Std.ExtTreeMap.contains_iff_mem,
          Set.mem_ofPred_eq, Std.ExtTreeMap.mem_keys]
        exact Iff.rfl
      rw [hset]
      exact isLeast_foldl_min _ _

/-- The name of a member: the one entry of the whitelist with its number, or, if admission is open,
the one that is made of the number. -/
def IsNameOf (config : SwarmConfig) (number : Nat) (name : String) : Prop :=
  if config.peerWhitelist = [] then name = "uav" ++ toString number
  else ∀ entry, entry ∈ config.peerWhitelist.map lowerTrimCopy ∧ uavNumber entry = .ok number ↔
    entry = name

theorem IsNameOf.unique {number : Nat} {name name' : String} (h : IsNameOf config number name)
    (h' : IsNameOf config number name') : name = name' := by
  unfold IsNameOf at h h'
  split at h
  · rename_i hopen
    rw [if_pos hopen] at h'
    exact h.trans h'.symm
  · rename_i hlisted
    rw [if_neg hlisted] at h'
    exact ((h name').mp ((h' name').mpr rfl)).symm

/-- The cached fields follow the number. -/
structure Follows (config : SwarmConfig) (c : MeshSwarmCoordinator) (number : Nat) : Prop where
  active : c.activeNumber = number
  isLocal : c.localIsActive = true ↔ c.localNumber = number
  name : IsNameOf config number c.activeProvisioner

theorem Consistent.isNameOf (h : c.Consistent config hostname) {number : Nat}
    (hnumber : config.peerWhitelist = [] ∨ number ∈ c.memberPriority) :
    IsNameOf config number (c.memberName number) := by
  have hfound : ∀ name, c.memberByNumber[number]? = some name ↔
      name ∈ config.peerWhitelist.map lowerTrimCopy ∧ uavNumber name = .ok number := by
    intro name
    rw [enterMembers_book h.members]
    simp
  unfold IsNameOf
  split
  · rename_i hopen
    have habsent : c.memberByNumber[number]? = none := by
      rw [Option.eq_none_iff_forall_ne_some]
      intro name hname
      rw [hfound, hopen] at hname
      cases hname.1
    rw [memberName, memberNameIn, habsent]
  · rename_i hlisted
    obtain ⟨numbers, _, hpriority, hbook⟩ := enterMembers_spec h.members
    have hcontains : c.memberByNumber.contains number = true := by
      rw [hbook]
      rw [hpriority, List.nil_append] at hnumber
      exact Or.inr (hnumber.resolve_left hlisted)
    rw [Std.ExtTreeMap.contains_eq_isSome_getElem?, Option.isSome_iff_exists] at hcontains
    obtain ⟨name, hname⟩ := hcontains
    intro entry
    rw [← hfound, memberName, memberNameIn, hname, Option.some.injEq]
    exact eq_comm

theorem Consistent.follows (h : c.Consistent config hostname) (now : Time)
    (hselected : config.peerWhitelist = [] ∨ (c.expire now).selected ∈ c.memberPriority) :
    (c.updateSelection now).Follows config (c.expire now).selected := by
  have hafter := h.updateSelection now
  have hactive : (c.updateSelection now).activeNumber = (c.expire now).selected := by
    unfold MeshSwarmCoordinator.updateSelection
    simp only
    split
    · rfl
    · rename_i hsame
      exact (not_not.mp hsame).symm
  refine ⟨hactive, ?_, ?_⟩
  · rw [hafter.isLocal, hactive, beq_iff_eq]
    exact eq_comm
  · have hmembers : (c.updateSelection now).memberPriority = c.memberPriority := by
      unfold MeshSwarmCoordinator.updateSelection
      simp only
      split <;> rfl
    rw [hafter.name, hactive]
    exact hafter.isNameOf (hmembers ▸ hselected)

theorem Consistent.electorate_eq (h : c.Consistent config hostname) :
    electorateOf config = .ok c.electorate := by
  obtain ⟨numbers, hnumbers, hpriority, _⟩ := enterMembers_spec h.members
  simp only [electorateOf, bind_eq_ok]
  refine ⟨numbers, hnumbers, c.preferredNumber, h.preferredNumber, ?_⟩
  rw [electorate, hpriority]
  rfl

/-- Whoever is available is admitted. -/
theorem Consistent.admitted (h : c.Consistent config hostname) (hlisted : Listed config hostname)
    {now : Time} {n : Nat} (hn : n ∈ c.available now) :
    config.peerWhitelist = [] ∨ n ∈ c.memberPriority := by
  obtain ⟨numbers, hnumbers, hpriority, hbook⟩ := enterMembers_spec h.members
  rw [List.nil_append] at hpriority
  rcases hn with rfl | ⟨presence, hpresence, _⟩
  · rcases hlisted with hnone | hlisted
    · exact Or.inl hnone
    · rw [hpriority]
      exact Or.inr (mem_memberNumbers hnumbers hlisted h.localNumber)
  · have hallowed := h.allowed n presence hpresence
    rw [peerAllowed, h.config_eq, Bool.or_eq_true, List.isEmpty_iff, hbook] at hallowed
    rw [hpriority]
    simpa using hallowed

/-- **Members with equal sets of available numbers elect the same provisioner**, whatever
messages, expiries and restarts brought them there: the preferred number if it is available, else
the first available one in the order of the whitelist, else the least. It is admitted, it is
the local node on exactly the elected member, and both know it by its name. -/
theorem provisioner_agreement {config' : SwarmConfig} {hostname' : String}
    {stored stored' : Option (Nat × Int)} {a₀ a b₀ b : MeshSwarmCoordinator} {now now' : Time}
    (hmembers : config.peerWhitelist = config'.peerWhitelist)
    (hpreference : config.meshProvisionerPreference = config'.meshProvisionerPreference)
    (hlisted : Listed config hostname) (hlisted' : Listed config' hostname')
    (ha₀ : create config hostname stored = .ok a₀) (hb₀ : create config' hostname' stored' = .ok b₀)
    (ha : Run.Reachable step (· = a₀) a) (hb : Run.Reachable step (· = b₀) b)
    (havailable : a.available now = b.available now') :
    ∃ electorate number, electorateOf config = .ok electorate ∧
      Election.Elected electorate (a.available now) number ∧
      (config.peerWhitelist = [] ∨ number ∈ electorate.order) ∧
      (a.updateSelection now).Follows config number ∧
      (b.updateSelection now').Follows config number ∧
      (a.updateSelection now).activeProvisioner = (b.updateSelection now').activeProvisioner := by
  have hca := consistent_reachable ha₀ ha
  have hcb := consistent_reachable hb₀ hb
  have hsame : electorateOf config' = electorateOf config := by
    unfold electorateOf preferredNumberOf
    rw [hmembers, hpreference]
  have helectorate : a.electorate = b.electorate := by
    have hequal := hcb.electorate_eq
    rw [hsame, hca.electorate_eq] at hequal
    exact Except.ok.inj hequal
  have helected := hca.selected_elected hlisted now
  have helected' := hcb.selected_elected hlisted' now'
  rw [← helectorate, ← havailable] at helected'
  have hnumber : (b.expire now').selected = (a.expire now).selected :=
    helected'.unique helected
  have hadmitted := hca.admitted hlisted helected.mem
  have hadmitted' : config'.peerWhitelist = [] ∨ (b.expire now').selected ∈ b.memberPriority := by
    have horder : b.memberPriority = a.memberPriority :=
      congrArg Election.Electorate.order helectorate.symm
    rw [← hmembers, hnumber, horder]
    exact hadmitted
  have hfollows := hca.follows now hadmitted
  have hfollows' := hcb.follows now' hadmitted'
  rw [hnumber] at hfollows'
  have hname' : IsNameOf config (a.expire now).selected
      (b.updateSelection now').activeProvisioner := by
    have hname := hfollows'.name
    unfold IsNameOf at hname ⊢
    rw [hmembers]
    exact hname
  exact ⟨a.electorate, (a.expire now).selected, hca.electorate_eq, helected, hadmitted, hfollows,
    ⟨hfollows'.active, hfollows'.isLocal, hname'⟩, hfollows.name.unique hname'⟩

/-- With open admission a member whose name is not made of its number elects itself under a name
that nobody has. -/
theorem open_admission_misnames :
    ((create {} "drone5" none).toOption.map fun c =>
      ((c.updateSelection 0).localIsActive, (c.updateSelection 0).activeProvisioner)) =
      some (true, "uav5") ∧ lowerTrimCopy "drone5" ≠ "uav5" := by
  decide +kernel

/-- A fresh coordinator knows nobody. -/
theorem available_create {stored : Option (Nat × Int)} (h : create config hostname stored = .ok c)
    (now : Time) : c.available now = {n | n = c.localNumber} := by
  simp only [create, bind_eq_ok] at h
  obtain ⟨localNumber, _, _, _, preferred, _, h⟩ := h
  cases h
  ext n
  show (n = localNumber ∨ ∃ presence : PeerPresence,
    (∅ : Std.ExtTreeMap Nat PeerPresence)[n]? = some presence ∧ now < presence.expires) ↔ _
  simp

/-- An accepted payload makes its source available, and nobody else. -/
theorem available_acceptsSwarmPayload {now : Time} {source senderSwarmId : UInt16}
    (h : (c.acceptsSwarmPayload now source senderSwarmId).2 = true)
    (htimeout : 0 < c.config.meshSwarmProvisionerTimeout) :
    (c.acceptsSwarmPayload now source senderSwarmId).1.available now =
      {n | n = source.toNat ∨ n ∈ c.available now} := by
  unfold acceptsSwarmPayload at h ⊢
  split at h
  · cases h
  · rename_i hsource
    rw [if_neg hsource]
    split at h
    · cases h
    · rename_i hswarm
      rw [if_neg hswarm]
      ext n
      show (n = c.localNumber ∨ ∃ presence : PeerPresence,
        (c.refresh now source senderSwarmId true).peerPresence[n]? = some presence ∧
          now < presence.expires) ↔
        n = source.toNat ∨ n = c.localNumber ∨ ∃ presence : PeerPresence,
          c.peerPresence[n]? = some presence ∧ now < presence.expires
      by_cases hn : source.toNat = n
      · subst hn
        have hlease : now < now + c.config.meshSwarmProvisionerTimeout :=
          Nat.lt_add_of_pos_right htimeout
        simp [refresh, hlease]
      · simp [refresh, Std.ExtTreeMap.getElem?_insert, hn, Ne.symm hn]

/-- A member of a swarm of two that has heard a payload of the other member. -/
theorem exists_heard {hostname : String} {source : UInt16}
    (h : ((create { peerWhitelist := ["uav2", "uav1"] } hostname none).toOption.map
      fun c => (c.acceptsSwarmPayload 0 source 1).2) = some true) :
    ∃ c₀ c, create { peerWhitelist := ["uav2", "uav1"] } hostname none = .ok c₀ ∧
      Run.Reachable step (· = c₀) c ∧
      c.available 0 = {n | n = source.toNat ∨ n = c₀.localNumber} := by
  cases hcreate : create { peerWhitelist := ["uav2", "uav1"] } hostname none with
  | error e =>
      rw [hcreate] at h
      cases h
  | ok c₀ =>
      rw [hcreate] at h
      have haccepted : (c₀.acceptsSwarmPayload 0 source 1).2 = true := Option.some.inj h
      have htimeout : 0 < c₀.config.meshSwarmProvisionerTimeout := by
        rw [(consistent_create hcreate).config_eq]
        decide
      refine ⟨c₀, _, rfl, .next (a := .payload 0 source 1) (.start rfl) trivial rfl, ?_⟩
      rw [available_acceptsSwarmPayload haccepted htimeout, available_create hcreate]
      rfl

theorem provisioner_agreement_pair : ∃ a b : MeshSwarmCoordinator,
    a.localNumber = 1 ∧ b.localNumber = 2 ∧ a.available 0 = b.available 0 ∧
      (a.updateSelection 0).activeNumber = 2 ∧ (b.updateSelection 0).activeNumber = 2 ∧
      (a.updateSelection 0).localIsActive = false ∧ (b.updateSelection 0).localIsActive = true ∧
      (a.updateSelection 0).activeProvisioner = "uav2" ∧
      (b.updateSelection 0).activeProvisioner = "uav2" := by
  obtain ⟨a₀, a, ha₀, ha, havailable⟩ :=
    @exists_heard "uav1" 2 (by decide +kernel)
  obtain ⟨b₀, b, hb₀, hb, havailable'⟩ :=
    @exists_heard "uav2" 1 (by decide +kernel)
  have hlocal : a₀.localNumber = 1 := (Except.ok.inj (consistent_create ha₀).localNumber).symm
  have hlocal' : b₀.localNumber = 2 := (Except.ok.inj (consistent_create hb₀).localNumber).symm
  have hca := consistent_reachable ha₀ ha
  have hcb := consistent_reachable hb₀ hb
  have hown : a.localNumber = 1 := (Except.ok.inj hca.localNumber).symm
  have hown' : b.localNumber = 2 := (Except.ok.inj hcb.localNumber).symm
  have hsame : a.available 0 = b.available 0 := by
    rw [havailable, havailable', hlocal, hlocal']
    ext n
    exact or_comm
  obtain ⟨electorate, number, helectorate, helected, -, hfollows, hfollows', hnames⟩ :=
    provisioner_agreement rfl rfl (Or.inr (by decide)) (Or.inr (by decide)) ha₀ hb₀ ha hb hsame
  have hpolicy : electorate.preferred = none ∧ electorate.order = [2, 1] := by
    have hread : (electorateOf { peerWhitelist := ["uav2", "uav1"] }).toOption.map
        (fun e => (e.preferred, e.order)) = some (none, [2, 1]) := by decide +kernel
    rw [helectorate] at hread
    exact Prod.mk.inj (Option.some.inj hread)
  have hnumber : number = 2 := by
    -- both are available, and 2 stands first
    refine helected.unique (.ordered (fun p hp => ?_) (hpolicy.2.trans (List.nil_append _).symm)
      (fun m hm => by cases hm) ?_)
    · rw [hpolicy.1] at hp
      cases hp
    · rw [havailable]
      exact Or.inl rfl
  subst hnumber
  have hname : "uav2" = (b.updateSelection 0).activeProvisioner :=
    (hfollows'.name "uav2").mp (by decide +kernel)
  refine ⟨a, b, hown, hown', hsame, hfollows.active, hfollows'.active, ?_, ?_,
    hnames.trans hname.symm, hname.symm⟩
  · have hafter : (a.updateSelection 0).localNumber = 1 :=
      (Except.ok.inj (hca.updateSelection 0).localNumber).symm
    rw [Bool.eq_false_iff, ne_eq, hfollows.isLocal, hafter]
    decide
  · have hafter : (b.updateSelection 0).localNumber = 2 :=
      (Except.ok.inj (hcb.updateSelection 0).localNumber).symm
    rw [hfollows'.isLocal, hafter]

end MeshSwarmCoordinator

end UavBluetooth.Mesh
