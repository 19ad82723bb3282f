import UavBluetooth.Lib.Epochs
import UavBluetooth.Mesh.Network
import UavBluetooth.Mesh.SwarmCoordinator

set_option autoImplicit false

/-! # Leaving the swarm

The members of a Mesh, each a coordinator and a reliability layer, and the frames between
them. A member that leaves says so in its heartbeats; it stays a relay, and its reliability
layer goes on sending what it has queued. Every frame is stamped with its sender's state, for
the record only.

`departed_stays_out` says when a member that has processed a peer's departure keeps the peer
out until it comes back: when it processes no older frame of the peer, and none that the peer
sent while it did not participate.
-/

namespace UavBluetooth.Mesh

open Config Epochs

/-! ## The system -/

/-- A frame in the air, with its stamp. -/
structure Transmission where
  packet : Packet
  stamp : Stamp
  /-- Sent by `publish_coordination_heartbeat`. -/
  heartbeat : Bool
  deriving DecidableEq

structure Member where
  coordinator : MeshSwarmCoordinator
  station : Station := {}
  party : Party

/-- A payload that `accepts_swarm_payload` has accepted, and the departure its receiver knew of. -/
structure Acceptance where
  member : UInt16
  sent : Transmission
  departure : Option Stamp

structure Swarm where
  now : Time := 0
  groupAddress : UInt16 := 0xc000
  member : UInt16 → Member
  air : List Transmission := []
  /-- The departures that a member has processed and that no return has followed. -/
  departure : UInt16 → UInt16 → Option Stamp := fun _ _ => none
  accepted : List Acceptance := []

namespace Swarm

def coordinator (w : Swarm) (x : UInt16) : MeshSwarmCoordinator := (w.member x).coordinator

def setMember (w : Swarm) (x : UInt16) (m : Member) : Swarm :=
  { w with member := Function.update w.member x m }

def setCoordinator (w : Swarm) (x : UInt16) (c : MeshSwarmCoordinator) : Swarm :=
  w.setMember x { w.member x with coordinator := c }

def setDeparture (w : Swarm) (m x : UInt16) (d : Option Stamp) : Swarm :=
  { w with departure := Function.update w.departure m (Function.update (w.departure m) x d) }

/-- Put a frame into the air. -/
def put (w : Swarm) (x : UInt16) (heartbeat : Bool) (packet : Packet) : Swarm :=
  { w.setMember x { w.member x with party := (w.member x).party.send } with
    air := w.air ++ [⟨packet, (w.member x).party.stamp, heartbeat⟩] }

/-! ## Frames of the swarm -/

/-- Whether a sender's presence is taken note of at all. -/
def hears (c : MeshSwarmCoordinator) (source senderSwarmId : UInt16) : Bool :=
  source != 0 && source.toNat != c.localNumber && senderSwarmId != 0 && c.peerAllowed source.toNat

/-- A coordination frame that is taken note of. -/
def hearsCoordination (c : MeshSwarmCoordinator) (frame : Bytes) (source : UInt16) : Bool :=
  decide (frame.length = frameSize) && byteAt frame 0 == 0x4d && byteAt frame 1 == 0x53 &&
    byteAt frame 2 >>> 4 == frameVersion && u24At frame 3 == c.whitelistFingerprint &&
    hears c source (u16At frame 6)

def participates (frame : Bytes) : Bool := byteAt frame 2 &&& swarmParticipatingFlag != 0

/-- The later of a departure and the one on record. -/
def laterDeparture (known : Option Stamp) (s : Stamp) : Stamp :=
  match known with
  | none => s
  | some d => if d.order < s.order then s else d

/-- The departure on record after a frame that shows its sender present. -/
def afterPresence (known : Option Stamp) (s : Stamp) : Option Stamp :=
  known.filter fun d => !decide (Returned d s)

/-- `handle_message` at member `m`, of a coordination frame. -/
def hearCoordination (w : Swarm) (m : UInt16) (s : Transmission) (frame : Bytes) : Swarm :=
  let c := w.coordinator m
  let x := s.packet.source
  let w' := w.setCoordinator m (c.acceptCoordinationFrame w.now frame x)
  if hearsCoordination c frame x = false then w'
  else if participates frame then
    w'.setDeparture m x (afterPresence (w.departure m x) s.stamp)
  else if s.heartbeat then
    w'.setDeparture m x (some (laterDeparture (w.departure m x) s.stamp))
  else w'

/-- `publish_mesh_message` at member `m`: admission, then the reliability layer. -/
def hearMessage (w : Swarm) (m : UInt16) (s : Transmission) : Option Swarm :=
  let c := w.coordinator m
  let x := s.packet.source
  let localSource := decide (x = m)
  let asks := !localSource && isMeshReliableFrame s.packet.data
  let admission := c.acceptsSwarmPayload w.now x (meshReliableSwarmId s.packet.data)
  let frameAllowed := asks && admission.2
  let policy : Admittance :=
    { localSource := localSource
      frameAllowed := frameAllowed
      swarmAllowed := c.acceptsRawPayload w.now x }
  ((w.member m).station.step w.now (.receive policy s.packet.message)).map fun (station, _) =>
    let w' := w.setMember m
      { w.member m with
        coordinator := if asks then admission.1 else c
        station := station }
    if frameAllowed then
      { w'.setDeparture m x (afterPresence (w.departure m x) s.stamp) with
        accepted := w.accepted ++ [⟨m, s, w.departure m x⟩] }
    else w'

/-! ## Steps -/

/-- The view of the executor: the daemon's status is an input, the rest is the coordinator's. -/
def view (c : MeshSwarmCoordinator) (now : Time) (status : View) : View :=
  { status with
    participating := c.swarmParticipating
    members := c.swarmMemberAddresses now
    probes := c.swarmProbeAddresses now
    swarmId := c.swarmId }

inductive Action where
  | advance (duration : Time)
  | submit (x : UInt16) (bridge : SharedTopicConfig) (body : Bytes)
  | tick (x : UInt16)
  | exec (x : UInt16) (status : View) (answer : Answer)
  | decode (x : UInt16) (delivered : Bool)
  | finish (x : UInt16) (status : View)
  | requestReset (x : UInt16)
  | heartbeat (x : UInt16)
  | join (x swarmId : UInt16) (persisted : Bool)
  | leave (x : UInt16) (persisted : Bool)
  | updateSelection (x : UInt16)
  /-- The frame at `index` arrives at `m`; `keep` if another copy may arrive. -/
  | deliver (index : Nat) (keep : Bool) (m : UInt16)
  | lose (index : Nat)

/-- A step of the reliability layer of `x`. -/
def act (w : Swarm) (x : UInt16) (action : Mesh.Action) : Option Swarm :=
  ((w.member x).station.step w.now action).map fun (station, events) =>
    (events.filterMap (Event.packet x)).foldl (fun w packet => w.put x false packet)
      (w.setMember x { w.member x with station := station })

def step (w : Swarm) : Action → Option Swarm
  | .advance duration => some { w with now := w.now + duration }
  | .submit x bridge body => w.act x (.submit bridge body)
  | .tick x => w.act x .tick
  | .exec x status answer => w.act x (.exec (view (w.coordinator x) w.now status) answer)
  | .decode x delivered => w.act x (.decode delivered)
  | .finish x status => w.act x (.finish (view (w.coordinator x) w.now status))
  | .requestReset x => w.act x .requestReset
  | .heartbeat x =>
      let c := w.coordinator x
      -- A node at another address than its own number does not get this far.
      if c.localNumber = x.toNat then
        some (w.put x true ⟨x, w.groupAddress, c.config.meshSwarmAppKeyIndex, c.coordinationHeartbeat⟩)
      else none
  | .join x swarmId persisted =>
      let m := w.member x
      some (w.setMember x
        { m with
          coordinator := m.coordinator.joinSwarm swarmId persisted
          party := if swarmId = 0 ∨ persisted = false then m.party else m.party.enter })
  | .leave x persisted =>
      let m := w.member x
      some (w.setMember x
        { m with
          coordinator := m.coordinator.leaveSwarm persisted
          party := if persisted then m.party.leave else m.party })
  | .updateSelection x => some (w.setCoordinator x ((w.coordinator x).updateSelection w.now))
  | .deliver index keep m =>
      match w.air[index]? with
      | none => none
      | some s =>
          if s.packet.destination = m ∨ 0xc000 ≤ s.packet.destination then
            let w' := { w with air := if keep then w.air else w.air.eraseIdx index }
            match (w.coordinator m).coordinationFrame false s.packet.message with
            | some frame => some (w'.hearCoordination m s frame)
            | none => w'.hearMessage m s
          else none
  | .lose index => if index < w.air.length then some { w with air := w.air.eraseIdx index } else none

/-- Freshly started members, and nothing in the air. -/
def Initial (w : Swarm) : Prop :=
  (∀ x, ∃ config hostname stored,
    MeshSwarmCoordinator.create config hostname stored = .ok (w.coordinator x) ∧
    (w.member x).party = ⟨0, (w.coordinator x).swarmParticipating, []⟩) ∧
  w.air = [] ∧ w.departure = (fun _ _ => none) ∧ w.accepted = []

/-! ## Staying out -/

/-- What a frame would tell `c`: that its sender is present. -/
def admits (c : MeshSwarmCoordinator) (s : Transmission) : Bool :=
  match c.coordinationFrame false s.packet.message with
  | some frame => hearsCoordination c frame s.packet.source && participates frame
  | none =>
      isMeshReliableFrame s.packet.data &&
        hears c s.packet.source (meshReliableSwarmId s.packet.data) && c.swarmParticipating &&
        meshReliableSwarmId s.packet.data == c.swarmId

/-- After a departure, no member processes a frame that would admit the peer again although the
peer sent it before the departure or without participating. -/
def Timely (w : Swarm) : Action → Prop
  | .deliver index _ m => ∀ s ∈ w.air[index]?, ∀ d ∈ w.departure m s.packet.source,
      admits (w.coordinator m) s = true → d.order < s.stamp.order ∧ s.stamp.present = true
  | _ => True

instance (w : Swarm) (a : Action) : Decidable (w.Timely a) := by
  cases a with
  | deliver index keep m =>
      exact inferInstanceAs (Decidable (∀ s ∈ w.air[index]?, ∀ d ∈ w.departure m s.packet.source,
        admits (w.coordinator m) s = true → d.order < s.stamp.order ∧ s.stamp.present = true))
  | _ => exact inferInstanceAs (Decidable True)

/-- A departed peer is no member and its payloads are not accepted, until it has come back. -/
structure StaysOut (w : Swarm) : Prop where
  absent : ∀ m x d, w.departure m x = some d →
    x ∉ (w.coordinator m).swarmMemberAddresses w.now ∧
      (w.coordinator m).acceptsRawPayload w.now x = false
  refused : ∀ a ∈ w.accepted, ∀ d, a.departure = some d → Returned d a.sent.stamp

/-! ### The presence table -/

/-- Each entry is under its source. -/
def Keyed (c : MeshSwarmCoordinator) : Prop :=
  ∀ (n : Nat) (presence : PeerPresence), c.peerPresence[n]? = some presence →
    presence.source.toNat = n

/-- Nothing in the table says that `x` participates. -/
def Silent (c : MeshSwarmCoordinator) (x : UInt16) : Prop :=
  ∀ presence : PeerPresence, c.peerPresence[x.toNat]? = some presence →
    presence.participating = false

section

variable {c : MeshSwarmCoordinator}

theorem getElem?_refresh (now : Time) (source swarmId : UInt16) (participating : Bool) (n : Nat) :
    (c.refresh now source swarmId participating).peerPresence[n]? =
      if source.toNat = n then
        some ⟨source, swarmId, participating, now + c.config.meshSwarmProvisionerTimeout⟩
      else c.peerPresence[n]? := by
  rw [MeshSwarmCoordinator.refresh, Std.ExtTreeMap.getElem?_insert]
  simp only [Std.LawfulEqCmp.compare_eq_iff_eq]

theorem Keyed.refresh (h : Keyed c) (now : Time) (source swarmId : UInt16) (participating : Bool) :
    Keyed (c.refresh now source swarmId participating) := by
  intro n presence hn
  rw [getElem?_refresh] at hn
  split at hn
  · rename_i hsource
    cases hn
    exact hsource
  · exact h n presence hn

theorem Silent.refresh {x : UInt16} {source swarmId : UInt16} {participating : Bool}
    (h : source ≠ x → Silent c x) (hsilent : source = x → participating = false) (now : Time) :
    Silent (c.refresh now source swarmId participating) x := by
  intro presence hx
  rw [getElem?_refresh] at hx
  split at hx
  · rename_i hsource
    cases hx
    exact hsilent (UInt16.toNat_inj.mp hsource)
  · rename_i hsource
    exact h (fun heq => hsource (congrArg UInt16.toNat heq)) presence hx

/-- Elections only drop entries. -/
theorem getElem?_updateSelection {now : Time} {n : Nat} {presence : PeerPresence}
    (h : (c.updateSelection now).peerPresence[n]? = some presence) :
    c.peerPresence[n]? = some presence := by
  have hexpire : (c.updateSelection now).peerPresence = (c.expire now).peerPresence := by
    unfold MeshSwarmCoordinator.updateSelection
    dsimp only
    split <;> rfl
  rw [hexpire, MeshSwarmCoordinator.expire, Std.ExtTreeMap.getElem?_filter'] at h
  exact (Option.filter_eq_some_iff.mp h).1

theorem swarmParticipating_updateSelection (now : Time) :
    (c.updateSelection now).swarmParticipating = c.swarmParticipating := by
  unfold MeshSwarmCoordinator.updateSelection
  dsimp only
  split <;> rfl

/-- Who is silent is neither a member nor a sender whose raw messages are accepted. -/
theorem Silent.absent {x : UInt16} (hkeyed : Keyed c) (h : Silent c x) (now : Time) :
    x ∉ c.swarmMemberAddresses now ∧ c.acceptsRawPayload now x = false := by
  constructor
  · unfold MeshSwarmCoordinator.swarmMemberAddresses
    split
    · exact List.not_mem_nil
    · intro hmem
      obtain ⟨⟨number, presence⟩, hentry, hfound⟩ := List.mem_filterMap.mp hmem
      have hget := Std.ExtTreeMap.mem_toList_iff_getElem?_eq_some.mp hentry
      dsimp only at hfound
      split at hfound
      · rename_i hfresh
        have hnumber : x.toNat = number := by
          rw [← Option.some.inj hfound]
          exact UInt16.toNat_ofNat_of_lt' (lt_of_le_of_lt hfresh.1 (by decide))
        rw [← hnumber] at hget
        have hsilent := h presence hget
        rw [hfresh.2.2.1] at hsilent
        cases hsilent
      · cases hfound
  · rw [Bool.eq_false_iff]
    intro haccepts
    unfold MeshSwarmCoordinator.acceptsRawPayload at haccepts
    rw [Bool.and_eq_true] at haccepts
    obtain ⟨⟨number, presence⟩, hentry, hmatch⟩ := List.any_eq_true.mp haccepts.2
    have hget := Std.ExtTreeMap.mem_toList_iff_getElem?_eq_some.mp hentry
    simp only [Bool.and_eq_true, beq_iff_eq] at hmatch
    obtain ⟨⟨⟨hsource, _⟩, hparticipating⟩, _⟩ := hmatch
    have hnumber := hkeyed number presence hget
    rw [hsource] at hnumber
    rw [← hnumber] at hget
    have hsilent := h presence hget
    rw [hparticipating] at hsilent
    cases hsilent

theorem hears_iff {source senderSwarmId : UInt16} :
    hears c source senderSwarmId = true ↔
      ¬(source = 0 ∨ source.toNat = c.localNumber ∨ senderSwarmId = 0 ∨
        c.peerAllowed source.toNat = false) := by
  simp only [hears, Bool.and_eq_true, bne_iff_ne, not_or, Bool.not_eq_false, and_assoc, ne_eq]

theorem hearsCoordination_iff {frame : Bytes} {source : UInt16} :
    hearsCoordination c frame source = true ↔
      ¬(frame.length ≠ frameSize ∨ byteAt frame 0 ≠ 0x4d ∨ byteAt frame 1 ≠ 0x53 ∨
        byteAt frame 2 >>> 4 ≠ frameVersion ∨ u24At frame 3 ≠ c.whitelistFingerprint) ∧
      hears c source (u16At frame 6) = true := by
  simp only [hearsCoordination, Bool.and_eq_true, beq_iff_eq, decide_eq_true_eq, not_or, not_not,
    and_assoc, ne_eq]

/-- What a coordination frame does to the table. -/
theorem acceptCoordinationFrame_eq (now : Time) (frame : Bytes) (source : UInt16) :
    c.acceptCoordinationFrame now frame source =
      if hearsCoordination c frame source then
        c.refresh now source (u16At frame 6) (participates frame)
      else c := by
  have hflag : decide (byteAt frame 2 &&& swarmParticipatingFlag ≠ 0) = participates frame :=
    Bool.decide_congr (bne_iff_ne).symm |>.trans (Bool.decide_coe _)
  unfold MeshSwarmCoordinator.acceptCoordinationFrame
  by_cases hheard : hearsCoordination c frame source = true
  · obtain ⟨hframe, hsource⟩ := hearsCoordination_iff.mp hheard
    rw [if_pos hheard, if_neg hframe]
    dsimp only
    rw [if_neg (hears_iff.mp hsource), hflag]
  · rw [if_neg hheard]
    split
    · rfl
    · rename_i hframe
      dsimp only
      rw [if_pos]
      by_contra hsource
      exact hheard (hearsCoordination_iff.mpr ⟨hframe, hears_iff.mpr hsource⟩)

/-- What a payload does to the table. -/
theorem acceptsSwarmPayload_eq (now : Time) (source senderSwarmId : UInt16) :
    c.acceptsSwarmPayload now source senderSwarmId =
      if hears c source senderSwarmId && c.swarmParticipating && senderSwarmId == c.swarmId then
        (c.refresh now source senderSwarmId true, true)
      else (c, false) := by
  unfold MeshSwarmCoordinator.acceptsSwarmPayload
  by_cases hheard : hears c source senderSwarmId = true
  · rw [if_neg (hears_iff.mp hheard), hheard, Bool.true_and]
    by_cases hswarm : c.swarmParticipating = false ∨ senderSwarmId ≠ c.swarmId
    · rw [if_pos hswarm, if_neg]
      rw [Bool.and_eq_true, beq_iff_eq]
      rintro ⟨hparticipating, hsame⟩
      rcases hswarm with hno | hother
      · rw [hparticipating] at hno
        cases hno
      · exact hother hsame
    · rw [if_neg hswarm, if_pos]
      rw [not_or, Bool.not_eq_false, not_not] at hswarm
      rw [hswarm.1, hswarm.2, Bool.true_and, beq_self_eq_true]
  · rw [if_pos (not_not.mp fun hnot => hheard (hears_iff.mpr hnot)), if_neg]
    rw [Bool.not_eq_true] at hheard
    rw [hheard, Bool.false_and, Bool.false_and]
    exact Bool.false_ne_true

end

/-! ### The invariant -/

structure Orderly (w : Swarm) : Prop where
  kept : ∀ x, (w.member x).party.Kept
  present : ∀ x, (w.member x).party.present = (w.coordinator x).swarmParticipating
  stamped : ∀ s ∈ w.air, s.stamp ∈ (w.member s.packet.source).party.sent
  heartbeat : ∀ s ∈ w.air, s.heartbeat = true → ∃ c : MeshSwarmCoordinator,
    s.packet.data = c.coordinationHeartbeat ∧ c.swarmParticipating = s.stamp.present
  keyed : ∀ m, Keyed (w.coordinator m)
  departed : ∀ m x d, w.departure m x = some d →
    d ∈ (w.member x).party.sent ∧ d.present = false ∧ Silent (w.coordinator m) x
  refused : ∀ a ∈ w.accepted, ∀ d, a.departure = some d → Returned d a.sent.stamp

variable {w w' : Swarm}

theorem Orderly.staysOut (h : w.Orderly) : w.StaysOut :=
  ⟨fun m x d hd => (h.departed m x d hd).2.2.absent (h.keyed m) w.now, h.refused⟩

theorem member_setMember (x y : UInt16) (m : Member) :
    (w.setMember x m).member y = if y = x then m else w.member y :=
  Function.update_apply w.member x m y

theorem party_setCoordinator (x y : UInt16) (c : MeshSwarmCoordinator) :
    ((w.setCoordinator x c).member y).party = (w.member y).party := by
  unfold Swarm.setCoordinator
  rw [member_setMember]
  split
  · rename_i hy
    rw [hy]
  · rfl

theorem departure_setDeparture (m x y : UInt16) (departure : Option Stamp) :
    (w.setDeparture m x departure).departure m y =
      if y = x then departure else w.departure m y := by
  change Function.update w.departure m (Function.update (w.departure m) x departure) m y = _
  rw [Function.update_self, Function.update_apply]

/-- One member changes; it may have sent something. -/
theorem Orderly.setMember (h : w.Orderly) {x : UInt16} {m : Member} (hkept : m.party.Kept)
    (hpresent : m.party.present = m.coordinator.swarmParticipating)
    (hsent : (w.member x).party.sent ⊆ m.party.sent) (hkeyed : Keyed m.coordinator)
    (hsilent : ∀ y d, w.departure x y = some d → Silent m.coordinator y) :
    (w.setMember x m).Orderly := by
  have hgrows : ∀ y, (w.member y).party.sent ⊆ ((w.setMember x m).member y).party.sent := by
    intro y
    rw [member_setMember]
    split
    · rename_i hy
      rw [hy]
      exact hsent
    · exact fun _ ha => ha
  refine ⟨fun y => ?_, fun y => ?_, fun s hs => hgrows _ (h.stamped s hs), h.heartbeat,
    fun y => ?_, fun z y d hd => ?_, h.refused⟩
  · rw [member_setMember]
    split
    · exact hkept
    · exact h.kept y
  · unfold Swarm.coordinator
    rw [member_setMember]
    split
    · exact hpresent
    · exact h.present y
  · unfold Swarm.coordinator
    rw [member_setMember]
    split
    · exact hkeyed
    · exact h.keyed y
  · obtain ⟨hmem, habsent, hquiet⟩ := h.departed z y d hd
    refine ⟨hgrows y hmem, habsent, ?_⟩
    unfold Swarm.coordinator
    rw [member_setMember]
    split
    · rename_i hz
      subst hz
      exact hsilent y d hd
    · exact hquiet

/-- One coordinator changes, but not whether it participates. -/
theorem Orderly.setCoordinator (h : w.Orderly) {x : UInt16} {c : MeshSwarmCoordinator}
    (hpresent : c.swarmParticipating = (w.coordinator x).swarmParticipating) (hkeyed : Keyed c)
    (hsilent : ∀ y d, w.departure x y = some d → Silent c y) :
    (w.setCoordinator x c).Orderly :=
  h.setMember (h.kept x) ((h.present x).trans hpresent.symm) (fun _ ha => ha) hkeyed hsilent

theorem Orderly.setDeparture (h : w.Orderly) {m x : UInt16} {departure : Option Stamp}
    (hd : ∀ d ∈ departure, d ∈ (w.member x).party.sent ∧ d.present = false ∧
      Silent (w.coordinator m) x) : (w.setDeparture m x departure).Orderly := by
  refine ⟨h.kept, h.present, h.stamped, h.heartbeat, h.keyed, fun m' x' d hd' => ?_, h.refused⟩
  change Function.update w.departure m (Function.update (w.departure m) x departure) m' x' =
    some d at hd'
  rw [Function.update_apply] at hd'
  split at hd'
  · rename_i hm
    subst hm
    rw [Function.update_apply] at hd'
    split at hd'
    · rename_i hx
      subst hx
      exact hd d hd'
    · exact h.departed m' x' d hd'
  · exact h.departed m' x' d hd'

theorem Orderly.withAir (h : w.Orderly) {air : List Transmission} (hair : air ⊆ w.air) :
    ({ w with air := air } : Swarm).Orderly :=
  ⟨h.kept, h.present, fun s hs => h.stamped s (hair hs), fun s hs => h.heartbeat s (hair hs),
    h.keyed, h.departed, h.refused⟩

theorem Orderly.put (h : w.Orderly) {x : UInt16} {heartbeat : Bool} {packet : Packet}
    (hsource : packet.source = x) (hbeat : heartbeat = true → ∃ c : MeshSwarmCoordinator,
      packet.data = c.coordinationHeartbeat ∧
        c.swarmParticipating = (w.member x).party.present) :
    (w.put x heartbeat packet).Orderly := by
  have hmember := h.setMember (m := { w.member x with party := (w.member x).party.send })
    (h.kept x).send (h.present x) (List.subset_append_left _ _) (h.keyed x)
    fun y d hd => (h.departed x y d hd).2.2
  refine ⟨hmember.kept, hmember.present, fun s hs => ?_, fun s hs hbeats => ?_, hmember.keyed,
    hmember.departed, hmember.refused⟩
  · rcases List.mem_append.mp hs with hs | hs
    · exact hmember.stamped s hs
    · rw [List.mem_singleton.mp hs]
      change _ ∈ ((w.setMember x _).member packet.source).party.sent
      rw [hsource, member_setMember, if_pos rfl]
      exact List.mem_append_right _ (List.mem_singleton_self _)
  · rcases List.mem_append.mp hs with hs | hs
    · exact h.heartbeat s hs hbeats
    · rw [List.mem_singleton.mp hs] at hbeats ⊢
      exact hbeat hbeats

theorem Orderly.putAll {x : UInt16} {packets : List Packet}
    (hpackets : ∀ packet ∈ packets, packet.source = x) (h : w.Orderly) :
    (packets.foldl (fun w packet => w.put x false packet) w).Orderly := by
  induction packets generalizing w with
  | nil => exact h
  | cons packet rest ih =>
      refine ih (fun p hp => hpackets p (List.mem_cons_of_mem _ hp)) ?_
      exact h.put (hpackets packet List.mem_cons_self) fun hno => absurd hno Bool.false_ne_true

/-- The reliability layer sends and keeps its coordinator. -/
theorem Orderly.act (h : w.Orderly) {x : UInt16} {action : Mesh.Action}
    (hact : w.act x action = some w') : w'.Orderly := by
  obtain ⟨⟨station, events⟩, _, rfl⟩ := Option.map_eq_some_iff.mp hact
  refine Orderly.putAll (fun packet hpacket => ?_) ?_
  · obtain ⟨event, _, hevent⟩ := List.mem_filterMap.mp hpacket
    cases event <;> cases hevent
    rfl
  · exact h.setMember (h.kept x) (h.present x) (fun _ ha => ha) (h.keyed x)
      fun y d hd => (h.departed x y d hd).2.2

/-- The flag of a heartbeat, as any receiver reads it. -/
theorem participates_of_heartbeat {c sender : MeshSwarmCoordinator} {message : ReceivedMessage}
    (hdata : message.data = sender.coordinationHeartbeat) {frame : Bytes}
    (hframe : c.coordinationFrame false message = some frame) :
    participates frame = sender.swarmParticipating := by
  have hlength : message.data.length = 11 := by
    rw [hdata]
    rfl
  have hdrop : frame = message.data.drop 3 := by
    unfold MeshSwarmCoordinator.coordinationFrame at hframe
    split at hframe
    · cases hframe
    · obtain ⟨hframe, _⟩ := Option.filter_eq_some_iff.mp hframe
      split at hframe
      · exact (Option.some.inj hframe).symm
      · rw [if_pos (by rw [hlength]; decide)] at hframe
        cases hframe
  rw [hdrop, hdata]
  unfold participates
  change ((frameVersion <<< 4 ||| if sender.swarmParticipating = true then swarmParticipatingFlag
    else 0) &&& swarmParticipatingFlag != 0) = sender.swarmParticipating
  cases sender.swarmParticipating <;> rfl

/-- A timely frame that shows its sender present ends the departure on record. -/
theorem afterPresence_eq_none {m : UInt16} {s : Transmission} (h : w.Orderly)
    (hstamped : s.stamp ∈ (w.member s.packet.source).party.sent)
    (htimely : ∀ d ∈ w.departure m s.packet.source,
      d.order < s.stamp.order ∧ s.stamp.present = true) :
    afterPresence (w.departure m s.packet.source) s.stamp = none := by
  unfold afterPresence
  rw [Option.filter_eq_none_iff]
  intro d hd
  obtain ⟨hlater, hpresent⟩ := htimely d hd
  obtain ⟨hmem, habsent, _⟩ := h.departed m _ d hd
  have hreturned := (h.kept s.packet.source).returned hmem hstamped habsent hpresent hlater
  rw [decide_eq_true hreturned]
  exact Bool.false_ne_true

theorem Orderly.hearCoordination (h : w.Orderly) {m : UInt16} {s : Transmission} {frame : Bytes}
    (hframe : (w.coordinator m).coordinationFrame false s.packet.message = some frame)
    (hstamped : s.stamp ∈ (w.member s.packet.source).party.sent)
    (hbeat : s.heartbeat = true → ∃ c : MeshSwarmCoordinator,
      s.packet.data = c.coordinationHeartbeat ∧ c.swarmParticipating = s.stamp.present)
    (htimely : ∀ d ∈ w.departure m s.packet.source,
      admits (w.coordinator m) s = true → d.order < s.stamp.order ∧ s.stamp.present = true) :
    (w.hearCoordination m s frame).Orderly := by
  unfold Swarm.hearCoordination
  dsimp only
  rw [acceptCoordinationFrame_eq]
  split
  · rename_i hunheard
    rw [if_neg (by rw [hunheard]; exact Bool.false_ne_true)]
    exact h.setCoordinator rfl (h.keyed m) fun y d hd => (h.departed m y d hd).2.2
  · rename_i hheard
    rw [Bool.not_eq_false] at hheard
    rw [if_pos hheard]
    have hkeyed := (h.keyed m).refresh w.now s.packet.source (u16At frame 6) (participates frame)
    split
    · rename_i hparticipates
      -- the departure goes before the entry is refreshed
      have hnone : afterPresence (w.departure m s.packet.source) s.stamp = none := by
        refine afterPresence_eq_none h hstamped fun d hd => htimely d hd ?_
        unfold admits
        rw [hframe]
        exact Bool.and_eq_true_iff.mpr ⟨hheard, hparticipates⟩
      rw [hnone]
      have hcleared : (w.setDeparture m s.packet.source none).Orderly :=
        h.setDeparture fun d hd => by cases hd
      refine hcleared.setCoordinator rfl hkeyed fun y d hd => ?_
      rw [departure_setDeparture] at hd
      split at hd
      · cases hd
      · rename_i hy
        exact Silent.refresh (fun _ => (h.departed m y d hd).2.2) (fun heq => absurd heq.symm hy)
          w.now
    · rename_i hparticipates
      rw [Bool.not_eq_true] at hparticipates
      have hset : (w.setCoordinator m ((w.coordinator m).refresh w.now s.packet.source
          (u16At frame 6) (participates frame))).Orderly :=
        h.setCoordinator rfl hkeyed fun y d hd =>
          Silent.refresh (fun _ => (h.departed m y d hd).2.2) (fun _ => hparticipates) w.now
      split
      · rename_i hheartbeat
        obtain ⟨sender, hdata, hsender⟩ := hbeat hheartbeat
        have habsent : s.stamp.present = false := by
          rw [← hsender, ← participates_of_heartbeat hdata hframe]
          exact hparticipates
        refine hset.setDeparture fun d hd => ?_
        have hsilent : Silent ((w.setCoordinator m ((w.coordinator m).refresh w.now
            s.packet.source (u16At frame 6) (participates frame))).coordinator m)
            s.packet.source := by
          unfold Swarm.coordinator Swarm.setCoordinator
          rw [member_setMember, if_pos rfl]
          exact Silent.refresh (fun hne => absurd rfl hne) (fun _ => hparticipates) w.now
        have hrecorded : ∀ e, e = s.stamp ∨ w.departure m s.packet.source = some e →
            e ∈ (w.member s.packet.source).party.sent ∧ e.present = false := by
          rintro e (rfl | he)
          · exact ⟨hstamped, habsent⟩
          · obtain ⟨hmem, habsent', _⟩ := h.departed m _ e he
            exact ⟨hmem, habsent'⟩
        have hd' : d = s.stamp ∨ w.departure m s.packet.source = some d := by
          rw [← Option.some.inj hd]
          unfold laterDeparture
          split
          · exact Or.inl rfl
          · rename_i known hknown
            split
            · exact Or.inl rfl
            · exact Or.inr hknown
        obtain ⟨hmem, hpresent⟩ := hrecorded d hd'
        refine ⟨?_, hpresent, hsilent⟩
        rw [party_setCoordinator]
        exact hmem
      · exact hset

theorem Orderly.hearMessage (h : w.Orderly) {m : UInt16} {s : Transmission}
    (hnone : (w.coordinator m).coordinationFrame false s.packet.message = none)
    (hstamped : s.stamp ∈ (w.member s.packet.source).party.sent)
    (htimely : ∀ d ∈ w.departure m s.packet.source,
      admits (w.coordinator m) s = true → d.order < s.stamp.order ∧ s.stamp.present = true)
    (hheard : w.hearMessage m s = some w') : w'.Orderly := by
  obtain ⟨⟨station, events⟩, _, rfl⟩ := Option.map_eq_some_iff.mp hheard
  clear hheard
  dsimp only
  rw [acceptsSwarmPayload_eq]
  generalize hasks : (!decide (s.packet.source = m) && isMeshReliableFrame s.packet.data) = asks
  have hkept : (w.setMember m { w.member m with station := station }).Orderly :=
    h.setMember (h.kept m) (h.present m) (fun _ ha => ha) (h.keyed m)
      fun y d hd => (h.departed m y d hd).2.2
  cases asks with
  | false => exact hkept
  | true =>
      rw [Bool.and_eq_true] at hasks
      simp only [if_true, Bool.true_and]
      split
      · rename_i hadmitted
        -- the departure goes before the entry is refreshed
        have hcleared : (w.setDeparture m s.packet.source none).Orderly :=
          h.setDeparture fun d hd => by cases hd
        have hadmits : admits (w.coordinator m) s = true := by
          unfold admits
          rw [hnone]
          dsimp only
          rw [Bool.and_assoc, Bool.and_assoc, hasks.2, Bool.true_and, ← Bool.and_assoc]
          exact hadmitted
        have htimely' := fun d hd => htimely d hd hadmits
        have hrefreshed : ((w.setDeparture m s.packet.source none).setMember m
            { w.member m with
              coordinator := (w.coordinator m).refresh w.now s.packet.source
                (meshReliableSwarmId s.packet.data) true
              station := station }).Orderly := by
          refine hcleared.setMember (h.kept m) (h.present m) (fun _ ha => ha)
            ((h.keyed m).refresh _ _ _ _) fun y d hd => ?_
          rw [departure_setDeparture] at hd
          split at hd
          · cases hd
          · rename_i hy
            exact Silent.refresh (fun _ => (h.departed m y d hd).2.2)
              (fun heq => absurd heq.symm hy) w.now
        rw [afterPresence_eq_none h hstamped htimely']
        refine ⟨hrefreshed.kept, hrefreshed.present, hrefreshed.stamped, hrefreshed.heartbeat,
          hrefreshed.keyed, hrefreshed.departed, fun a ha d hd => ?_⟩
        rcases List.mem_append.mp ha with ha | ha
        · exact h.refused a ha d hd
        · rw [List.mem_singleton.mp ha] at hd ⊢
          obtain ⟨hlater, hpresent⟩ := htimely' d hd
          obtain ⟨hmem, habsent, _⟩ := h.departed m _ d hd
          exact (h.kept s.packet.source).returned hmem hstamped habsent hpresent hlater
      · exact hkept

theorem peerPresence_create {config : SwarmConfig} {hostname : String}
    {stored : Option (Nat × Int)} {c : MeshSwarmCoordinator}
    (h : MeshSwarmCoordinator.create config hostname stored = .ok c) : c.peerPresence = ∅ := by
  simp only [MeshSwarmCoordinator.create, Fallible.bind_eq_ok] at h
  obtain ⟨_, _, _, _, _, _, h⟩ := h
  cases h
  rfl

theorem orderly_initial (h : w.Initial) : w.Orderly := by
  obtain ⟨hmembers, hair, hdeparture, haccepted⟩ := h
  refine ⟨fun x => ?_, fun x => ?_, ?_, ?_, fun x n presence hn => ?_, ?_, ?_⟩
  · obtain ⟨_, _, _, _, hparty⟩ := hmembers x
    rw [hparty]
    exact Party.Kept.fresh _ _
  · obtain ⟨_, _, _, _, hparty⟩ := hmembers x
    rw [hparty]
  · rw [hair]
    exact fun _ hs => (List.not_mem_nil hs).elim
  · rw [hair]
    exact fun _ hs => (List.not_mem_nil hs).elim
  · obtain ⟨config, hostname, stored, hcreate, _⟩ := hmembers x
    rw [peerPresence_create hcreate] at hn
    cases Std.ExtTreeMap.getElem?_empty.symm.trans hn
  · intro m x d hd
    rw [hdeparture] at hd
    cases hd
  · rw [haccepted]
    exact fun _ ha => (List.not_mem_nil ha).elim

theorem Orderly.step (h : w.Orderly) {a : Action} (htimely : w.Timely a)
    (hstep : w.step a = some w') : w'.Orderly := by
  cases a with
  | advance duration =>
      cases hstep
      exact ⟨h.kept, h.present, h.stamped, h.heartbeat, h.keyed, h.departed, h.refused⟩
  | submit x bridge body => exact h.act hstep
  | tick x => exact h.act hstep
  | exec x status answer => exact h.act hstep
  | decode x delivered => exact h.act hstep
  | finish x status => exact h.act hstep
  | requestReset x => exact h.act hstep
  | heartbeat x =>
      unfold Swarm.step at hstep
      dsimp only at hstep
      split at hstep
      · cases hstep
        exact h.put rfl fun _ => ⟨w.coordinator x, rfl, (h.present x).symm⟩
      · cases hstep
  | join x swarmId persisted =>
      cases hstep
      have hsilent := fun y d hd => (h.departed x y d hd).2.2
      unfold MeshSwarmCoordinator.joinSwarm
      split
      · exact h.setMember (h.kept x) (h.present x) (fun _ ha => ha) (h.keyed x) hsilent
      · exact h.setMember (h.kept x).enter rfl (fun _ ha => ha) (h.keyed x) hsilent
  | leave x persisted =>
      cases hstep
      have hsilent := fun y d hd => (h.departed x y d hd).2.2
      unfold MeshSwarmCoordinator.leaveSwarm
      split
      · exact h.setMember (h.kept x).leave rfl (fun _ ha => ha) (h.keyed x) hsilent
      · exact h.setMember (h.kept x) (h.present x) (fun _ ha => ha) (h.keyed x) hsilent
  | updateSelection x =>
      cases hstep
      refine h.setCoordinator (swarmParticipating_updateSelection _)
        (fun n presence hn => h.keyed x n presence (getElem?_updateSelection hn))
        fun y d hd presence hpresence =>
          (h.departed x y d hd).2.2 presence (getElem?_updateSelection hpresence)
  | deliver index keep m =>
      unfold Swarm.step at hstep
      dsimp only at hstep
      split at hstep
      · cases hstep
      · rename_i s hs
        split at hstep
        · have hmem := List.mem_of_getElem? hs
          have hair : (if keep then w.air else w.air.eraseIdx index) ⊆ w.air := by
            split
            · exact fun _ ha => ha
            · exact List.eraseIdx_subset
          have hw := h.withAir hair
          split at hstep
          · rename_i frame hframe
            cases hstep
            exact hw.hearCoordination hframe (h.stamped s hmem) (h.heartbeat s hmem) (htimely s hs)
          · rename_i hframe
            exact hw.hearMessage hframe (h.stamped s hmem) (htimely s hs) hstep
        · cases hstep
  | lose index =>
      unfold Swarm.step at hstep
      dsimp only at hstep
      split at hstep
      · cases hstep
        exact h.withAir List.eraseIdx_subset
      · cases hstep

/-- **A departed member stays out** of the memberships it has left until it comes back, in
every run in which no member processes, after a departure, a frame of the peer that the peer
sent before the departure or while it did not participate. -/
theorem departed_stays_out {w : Swarm}
    (hrun : Run.ReachableUnder step Timely Initial w) : w.StaysOut :=
  (hrun.invariant (fun _ hinit => orderly_initial hinit)
    fun _ _ _ h htimely hstep => h.step htimely hstep).staysOut

/-! ### Two members -/

def twoMembers : SwarmConfig := { peerWhitelist := ["uav1", "uav2"] }

/-- Members with these coordinators; the second has all other addresses too. -/
def ofTwo (first second : MeshSwarmCoordinator) : Swarm where
  member := fun x =>
    if x = 1 then { coordinator := first, party := ⟨0, first.swarmParticipating, []⟩ }
    else { coordinator := second, party := ⟨0, second.swarmParticipating, []⟩ }

theorem initial_ofTwo {first second : MeshSwarmCoordinator}
    (hfirst : MeshSwarmCoordinator.create twoMembers "uav1" none = .ok first)
    (hsecond : MeshSwarmCoordinator.create twoMembers "uav2" none = .ok second) :
    (ofTwo first second).Initial := by
  refine ⟨fun x => ?_, rfl, rfl, rfl⟩
  by_cases hx : x = 1
  · refine ⟨twoMembers, "uav1", none, ?_⟩
    simp only [coordinator, ofTwo, hx, if_true]
    exact ⟨hfirst, trivial⟩
  · refine ⟨twoMembers, "uav2", none, ?_⟩
    simp only [coordinator, ofTwo, hx, if_false]
    exact ⟨hsecond, trivial⟩

def firstStatus : View := { addresses := [1] }

/-- The members hear each other; `uav1` sends a value that is lost. -/
def lostValue : List Action :=
  [Action.heartbeat 2, .deliver 0 false 1, .heartbeat 1, .deliver 0 false 2,
    .submit 1 { meshSwarmReliable := true, channelId := 7 } [1, 2, 3]] ++
  List.replicate 7 (Action.exec 1 firstStatus .ok) ++
  [Action.exec 1 firstStatus (.handle ⟨1, 1⟩), .exec 1 firstStatus .ok, .exec 1 firstStatus .ok,
    .lose 0]

/-- `uav1` leaves and `uav2` hears of it. -/
def departing : List Action := [.leave 1 true, .heartbeat 1, .deliver 0 false 2]

/-- The reliability layer of `uav1` repairs the lost value, and the repair arrives. -/
def lateRepair : List Action :=
  [.advance (seconds 12), .tick 1, .exec 1 firstStatus .ok, .exec 1 firstStatus .ok,
    .exec 1 firstStatus (.pending true), .exec 1 firstStatus .ok, .exec 1 firstStatus .ok,
    .exec 1 firstStatus .ok, .exec 1 firstStatus (.handle ⟨2, 1⟩), .deliver 0 false 2]

/-- Whether a test holds of the two members when they have just started. -/
def startsWith (test : Swarm → Bool) : Bool :=
  (MeshSwarmCoordinator.create twoMembers "uav1" none).toOption.any fun first =>
    (MeshSwarmCoordinator.create twoMembers "uav2" none).toOption.any fun second =>
      test (ofTwo first second)

theorem exists_of_startsWith {test : Swarm → Bool} (h : startsWith test = true) :
    ∃ w : Swarm, w.Initial ∧ test w = true := by
  obtain ⟨first, hfirst, h⟩ := Fallible.exists_ok_of_any h
  obtain ⟨second, hsecond, h⟩ := Fallible.exists_ok_of_any h
  exact ⟨ofTwo first second, initial_ofTwo hfirst hsecond, h⟩

/-- `uav2` takes the peer in again once it has heard that it is back. -/
theorem departed_stays_out_until_return :
    ∃ w₀ w₁ w₂ : Swarm, w₀.Initial ∧
      Run.exec step w₀ (lostValue ++ departing) = some w₁ ∧
      Run.exec step w₁ ([.join 1 1 true, .heartbeat 1, .deliver 0 false 2] ++ lateRepair) = some w₂ ∧
      w₁.departure 2 1 ≠ none ∧ w₁.StaysOut ∧ w₂.StaysOut ∧
      w₂.departure 2 1 = none ∧ 1 ∈ (w₂.coordinator 2).swarmMemberAddresses w₂.now := by
  have hcomputed : startsWith (fun w₀ =>
      Run.allowed step (fun w a => decide (w.Timely a)) w₀ (lostValue ++ departing) &&
        (Run.exec step w₀ (lostValue ++ departing)).any fun w₁ =>
          (w₁.departure 2 1).isSome &&
            Run.allowed step (fun w a => decide (w.Timely a)) w₁
              ([.join 1 1 true, .heartbeat 1, .deliver 0 false 2] ++ lateRepair) &&
            (Run.exec step w₁
                ([.join 1 1 true, .heartbeat 1, .deliver 0 false 2] ++ lateRepair)).any fun w₂ =>
              (w₂.departure 2 1).isNone &&
                decide (1 ∈ (w₂.coordinator 2).swarmMemberAddresses w₂.now)) = true := by
    decide +kernel
  obtain ⟨w₀, hinit, hrun⟩ := exists_of_startsWith hcomputed
  rw [Bool.and_eq_true] at hrun
  obtain ⟨w₁, hw₁, hrun₁⟩ := (Option.any_eq_true _ _).mp hrun.2
  rw [Bool.and_eq_true, Bool.and_eq_true] at hrun₁
  obtain ⟨⟨hdeparted, hallowed⟩, hrun₂⟩ := hrun₁
  obtain ⟨w₂, hw₂, hback⟩ := (Option.any_eq_true _ _).mp hrun₂
  rw [Bool.and_eq_true, Option.isNone_iff_eq_none, decide_eq_true_eq] at hback
  have hreach₁ : Run.ReachableUnder step Timely Initial w₁ :=
    Run.ReachableUnder.exec (.start hinit) (Run.guarded_of_decide hrun.1) hw₁
  refine ⟨w₀, w₁, w₂, hinit, hw₁, hw₂, Option.isSome_iff_ne_none.mp hdeparted,
    departed_stays_out hreach₁, ?_, hback.1, hback.2⟩
  exact departed_stays_out (hreach₁.exec (Run.guarded_of_decide hallowed) hw₂)

/-- A repair that the departed member still sends makes it a member again. -/
theorem repair_readmits : ¬ ∀ w : Swarm, Run.Reachable step Initial w → w.StaysOut := by
  intro hclaim
  have hcomputed : startsWith (fun w₀ =>
      (Run.exec step w₀ (lostValue ++ departing ++ lateRepair)).any fun w =>
        (w.departure 2 1).isSome &&
          decide (1 ∈ (w.coordinator 2).swarmMemberAddresses w.now)) = true := by
    decide +kernel
  obtain ⟨w₀, hinit, hrun⟩ := exists_of_startsWith hcomputed
  obtain ⟨w, hw, hback⟩ := (Option.any_eq_true _ _).mp hrun
  rw [Bool.and_eq_true, decide_eq_true_eq] at hback
  obtain ⟨d, hd⟩ := Option.isSome_iff_exists.mp hback.1
  exact ((hclaim w (Run.Reachable.exec (.start hinit) hw)).absent 2 1 d hd).1 hback.2

end Swarm

end UavBluetooth.Mesh
