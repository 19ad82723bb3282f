import UavBluetooth.Mesh.SwarmCoordinator

set_option autoImplicit false

/-! # Heartbeats

The access payload of `publish_coordination_heartbeat` against `handle_message`: whether the
vendor opcode is retained or stripped, a peer of the same swarm policy reads the swarm and the
participation of the sender, and a peer of another policy or another frame version reads nothing.
-/

namespace UavBluetooth.Mesh

open Config Fallible Util

/-! ## Fields -/

/-- The low bytes of a number below `2 ^ 24`, put together again. -/
theorem or_of_bytes (n : Nat) :
    n % 256 ||| n / 256 % 256 * 256 ||| n / 65536 * 65536 = n := by
  have hlow : (n / 256 % 256) <<< 8 + n % 256 = (n / 256 % 256) <<< 8 ||| n % 256 :=
    Nat.shiftLeft_add_eq_or_of_lt (show n % 256 < 2 ^ 8 by omega) _
  have hbelow : n / 256 % 256 * 256 + n % 256 < 2 ^ 16 := by omega
  have hboth := Nat.shiftLeft_add_eq_or_of_lt hbelow (n / 65536)
  have hsplit : n / 65536 * 65536 + (n / 256 % 256 * 256 + n % 256) = n := by omega
  simp only [Nat.shiftLeft_eq, Nat.reducePow] at hlow hboth
  calc n % 256 ||| n / 256 % 256 * 256 ||| n / 65536 * 65536
      = n / 256 % 256 * 256 + n % 256 ||| n / 65536 * 65536 := by
        rw [Nat.or_comm (n % 256), hlow]
    _ = n / 65536 * 65536 + (n / 256 % 256 * 256 + n % 256) := by rw [Nat.or_comm, hboth]
    _ = n := hsplit

/-- The three low bytes of a 24-bit value give the value back. -/
theorem u24_of_bytes {v : UInt32} (h : v.toNat < 16777216) :
    v.toUInt8.toUInt32 ||| ((v >>> 8).toUInt8.toUInt32 <<< 8) |||
      ((v >>> 16).toUInt8.toUInt32 <<< 16) = v := by
  apply UInt32.toNat_inj.mp
  have hmiddle : ∀ n : Nat, n % 256 * 256 % 4294967296 = n % 256 * 256 := by omega
  have hhigh : v.toNat / 65536 % 256 * 65536 % 4294967296 = v.toNat / 65536 * 65536 := by omega
  have h8 : UInt32.toNat 8 % 32 = 8 := rfl
  have h16 : UInt32.toNat 16 % 32 = 16 := rfl
  simp only [UInt32.toNat_or, UInt8.toNat_toUInt32, UInt32.toNat_toUInt8, UInt32.toNat_shiftLeft,
    UInt32.toNat_shiftRight, h8, h16, Nat.shiftRight_eq_div_pow, Nat.shiftLeft_eq, Nat.reducePow,
    hmiddle, hhigh]
  exact or_of_bytes v.toNat

theorem swarmFingerprint_lt (members : List String) (preference : String) :
    (swarmFingerprint members preference).toNat < 16777216 := by
  unfold swarmFingerprint
  simp only
  generalize List.foldl _ _ _ = hash
  by_cases hzero : hash &&& 0x00ffffff = 0
  · rw [if_pos hzero]
    decide
  · rw [if_neg hzero, UInt32.toNat_and]
    exact lt_of_le_of_lt Nat.and_le_right (by decide)

/-- The byte of the version and the participation flag. -/
def versionByte (participating : Bool) : UInt8 :=
  (frameVersion <<< 4) ||| (if participating then swarmParticipatingFlag else 0)

/-- The flag lies below the version. -/
theorem versionByte_version (participating : Bool) :
    versionByte participating >>> 4 = frameVersion := by
  cases participating <;> decide

theorem versionByte_flag (participating : Bool) :
    decide (versionByte participating &&& swarmParticipatingFlag ≠ 0) = participating := by
  cases participating <;> decide

namespace MeshSwarmCoordinator

/-! ## Members of a policy -/

/-- The configuration and the fingerprint that the constructor has left. -/
structure Follow (config : SwarmConfig) (c : MeshSwarmCoordinator) : Prop where
  config_eq : c.config = config
  fingerprint : c.whitelistFingerprint =
    swarmFingerprint config.peerWhitelist (lowerTrimCopy config.meshProvisionerPreference)

section

variable {config : SwarmConfig} {hostname : String} {c c' : MeshSwarmCoordinator}

theorem follow_step (h : Follow config c) {action : Action} (hstep : step c action = some c') :
    Follow config c' := by
  have hsame : c'.config = c.config ∧ c'.whitelistFingerprint = c.whitelistFingerprint := by
    cases action with
    | message now deviceKey m =>
        cases hstep
        unfold MeshSwarmCoordinator.handleMessage
        split
        · exact ⟨rfl, rfl⟩
        · unfold acceptCoordinationFrame
          simp only
          split_ifs <;> exact ⟨rfl, rfl⟩
    | payload now source senderSwarmId =>
        cases hstep
        unfold MeshSwarmCoordinator.acceptsSwarmPayload
        split_ifs <;> exact ⟨rfl, rfl⟩
    | join swarmId persisted =>
        cases hstep
        unfold joinSwarm
        split_ifs <;> exact ⟨rfl, rfl⟩
    | leave persisted =>
        cases hstep
        unfold leaveSwarm
        split_ifs <;> exact ⟨rfl, rfl⟩
    | updateSelection now =>
        cases hstep
        unfold MeshSwarmCoordinator.updateSelection
        simp only
        split_ifs <;> exact ⟨rfl, rfl⟩
  exact ⟨hsame.1.trans h.config_eq, hsame.2.trans h.fingerprint⟩

theorem follow_reachable {stored : Option (Nat × Int)} {c₀ : MeshSwarmCoordinator}
    (h₀ : create config hostname stored = .ok c₀) (h : Run.Reachable step (· = c₀) c) :
    Follow config c := by
  refine h.invariant (fun _ hc => ?_) fun _ _ _ hc _ hstep => follow_step hc hstep
  subst hc
  simp only [create, bind_eq_ok] at h₀
  obtain ⟨localNumber, _, ⟨book, priority⟩, _, preferred, _, h₀⟩ := h₀
  cases h₀
  exact ⟨rfl, rfl⟩

end

/-! ## Bodies -/

/-- The access payload behind the vendor opcode. -/
def heartbeatBody (c : MeshSwarmCoordinator) : Bytes :=
  [0x4d, 0x53, versionByte c.swarmParticipating, c.whitelistFingerprint.toUInt8,
    (c.whitelistFingerprint >>> 8).toUInt8, (c.whitelistFingerprint >>> 16).toUInt8] ++
      u16Bytes c.swarmId

section

variable {c peer : MeshSwarmCoordinator}

theorem length_heartbeatBody (c : MeshSwarmCoordinator) : c.heartbeatBody.length = frameSize := rfl

/-- The fields of a body at the offsets that a peer reads. -/
theorem heartbeatBody_fields (hfingerprint : c.whitelistFingerprint.toNat < 16777216) :
    byteAt c.heartbeatBody 0 = 0x4d ∧ byteAt c.heartbeatBody 1 = 0x53 ∧
      byteAt c.heartbeatBody 2 = versionByte c.swarmParticipating ∧
      u24At c.heartbeatBody 3 = c.whitelistFingerprint ∧ u16At c.heartbeatBody 6 = c.swarmId :=
  ⟨rfl, rfl, rfl, u24_of_bytes hfingerprint, u16_of_bytes c.swarmId⟩

/-! ## A peer that hears it -/

/-- The sources that a peer takes a heartbeat from. -/
def Admits (peer : MeshSwarmCoordinator) (source : UInt16) : Prop :=
  source ≠ 0 ∧ source.toNat ≠ peer.localNumber ∧ peer.peerAllowed source.toNat = true

instance (peer : MeshSwarmCoordinator) (source : UInt16) : Decidable (peer.Admits source) :=
  inferInstanceAs (Decidable (_ ∧ _))

/-- `accept_coordination_frame` of a peer whose frames have the given version. -/
def acceptFrameOfVersion (version : UInt8) (c : MeshSwarmCoordinator) (now : Time) (frame : Bytes)
    (source : UInt16) : MeshSwarmCoordinator :=
  if frame.length ≠ frameSize ∨ byteAt frame 0 ≠ 0x4d ∨ byteAt frame 1 ≠ 0x53 ∨
      byteAt frame 2 >>> 4 ≠ version ∨ u24At frame 3 ≠ c.whitelistFingerprint then c
  else
    let senderSwarmId := u16At frame 6
    if source = 0 ∨ source.toNat = c.localNumber ∨ senderSwarmId = 0 ∨
        c.peerAllowed source.toNat = false then c
    else c.refresh now source senderSwarmId (byteAt frame 2 &&& swarmParticipatingFlag ≠ 0)

/-- `handle_message` of a peer whose frames have the given version. -/
def handleMessageOfVersion (version : UInt8) (c : MeshSwarmCoordinator) (now : Time)
    (deviceKey : Bool) (m : ReceivedMessage) : MeshSwarmCoordinator × Bool :=
  match c.coordinationFrame deviceKey m with
  | none => (c, false)
  | some frame => (c.acceptFrameOfVersion version now frame m.source, true)

theorem handleMessageOfVersion_frameVersion (c : MeshSwarmCoordinator) (now : Time)
    (deviceKey : Bool) (m : ReceivedMessage) :
    c.handleMessageOfVersion frameVersion now deviceKey m = c.handleMessage now deviceKey m := rfl

/-- The vendor opcode retained, or stripped by the daemon. -/
def Carries (c : MeshSwarmCoordinator) (data : Bytes) : Prop :=
  data = c.coordinationHeartbeat ∨ data = c.coordinationHeartbeat.drop 3

instance (c : MeshSwarmCoordinator) (data : Bytes) : Decidable (c.Carries data) :=
  inferInstanceAs (Decidable (_ ∨ _))

/-- The frame that a peer finds in a delivered heartbeat, if any, is its body. -/
theorem coordinationFrame_body {m : ReceivedMessage} (hdata : c.Carries m.data)
    {deviceKey : Bool} {frame : Bytes} (hframe : peer.coordinationFrame deviceKey m = some frame) :
    frame = c.heartbeatBody := by
  unfold coordinationFrame at hframe
  split_ifs at hframe with hkey hcomplete hstripped
  · obtain ⟨hframe, _⟩ := Option.filter_eq_some_iff.mp hframe
    rcases hdata with hdata | hdata
    · rw [hdata] at hframe
      exact (Option.some.inj hframe).symm
    · rw [hdata] at hcomplete
      exact absurd (show frameSize = frameSize + 3 from hcomplete.1) (by decide)
  · cases hframe
  · obtain ⟨hframe, _⟩ := Option.filter_eq_some_iff.mp hframe
    rcases hdata with hdata | hdata
    · rw [hdata] at hstripped
      exact absurd (show frameSize + 3 ≠ frameSize by decide) hstripped
    · rw [hdata] at hframe
      exact (Option.some.inj hframe).symm

theorem coordinationFrame_delivered {m : ReceivedMessage} (hdata : c.Carries m.data)
    (hcompany : peer.config.meshCompanyId = c.config.meshCompanyId)
    (hkey : m.keyIndex = peer.config.meshSwarmAppKeyIndex) (hsource : m.source ≠ 0) :
    peer.coordinationFrame false m = some c.heartbeatBody := by
  have hadmitted : ¬ (false = true ∨ m.keyIndex ≠ peer.config.meshSwarmAppKeyIndex ∨
      m.source = 0) := by
    rintro (hdevice | hother | hzero)
    · cases hdevice
    · exact hother hkey
    · exact hsource hzero
  unfold coordinationFrame
  rw [if_neg hadmitted]
  rcases hdata with hdata | hdata
  · -- the opcode is retained, and it is the peer's own
    have hcomplete : m.data.length = frameSize + 3 ∧ m.data.take 3 = [controlOpcode,
        peer.config.meshCompanyId.toUInt8, (peer.config.meshCompanyId >>> 8).toUInt8] := by
      rw [hdata, hcompany]
      exact ⟨rfl, rfl⟩
    simp only [if_pos hcomplete]
    rw [hdata]
    exact Option.filter_some_pos rfl
  · have hshort : m.data.length = frameSize := by
      rw [hdata]
      rfl
    simp only [ne_eq, hshort, not_true_eq_false, if_false]
    rw [hdata]
    exact Option.filter_some_pos rfl

/-- A heartbeat refreshes the lease of its source, with what the sender has written. -/
theorem handleMessage_heartbeat {m : ReceivedMessage} (hdata : c.Carries m.data)
    (hbelow : c.whitelistFingerprint.toNat < 16777216) (hswarm : c.swarmId ≠ 0)
    (hfingerprint : peer.whitelistFingerprint = c.whitelistFingerprint)
    (hcompany : peer.config.meshCompanyId = c.config.meshCompanyId)
    (hkey : m.keyIndex = peer.config.meshSwarmAppKeyIndex) (hadmits : peer.Admits m.source)
    (now : Time) :
    peer.handleMessage now false m =
      (peer.refresh now m.source c.swarmId c.swarmParticipating, true) := by
  obtain ⟨hsource, hother, hallowed⟩ := hadmits
  obtain ⟨hM, hS, hversion, hu24, hu16⟩ := heartbeatBody_fields hbelow
  have hframe : ¬ (c.heartbeatBody.length ≠ frameSize ∨ byteAt c.heartbeatBody 0 ≠ 0x4d ∨
      byteAt c.heartbeatBody 1 ≠ 0x53 ∨ byteAt c.heartbeatBody 2 >>> 4 ≠ frameVersion ∨
      u24At c.heartbeatBody 3 ≠ peer.whitelistFingerprint) := by
    rw [hM, hS, hversion, hu24, hfingerprint, versionByte_version, length_heartbeatBody]
    simp
  have hsender : ¬ (m.source = 0 ∨ m.source.toNat = peer.localNumber ∨ c.swarmId = 0 ∨
      peer.peerAllowed m.source.toNat = false) := by
    rw [hallowed]
    simp [hsource, hother, hswarm]
  unfold handleMessage acceptCoordinationFrame
  simp only [coordinationFrame_delivered hdata hcompany hkey hsource]
  rw [if_neg hframe]
  simp only [hu16, if_neg hsender, hversion, versionByte_flag]

/-- A peer of another policy or of another version takes nothing from a heartbeat. -/
theorem handleMessageOfVersion_other {m : ReceivedMessage} (hdata : c.Carries m.data)
    (hbelow : c.whitelistFingerprint.toNat < 16777216) {version : UInt8}
    (hother : version ≠ frameVersion ∨ peer.whitelistFingerprint ≠ c.whitelistFingerprint)
    (now : Time) (deviceKey : Bool) :
    (peer.handleMessageOfVersion version now deviceKey m).1 = peer := by
  obtain ⟨_, _, hversion, hu24, _⟩ := heartbeatBody_fields hbelow
  unfold handleMessageOfVersion
  cases hframe : peer.coordinationFrame deviceKey m with
  | none => rfl
  | some frame =>
      have hbody := coordinationFrame_body hdata hframe
      have hrefused : frame.length ≠ frameSize ∨ byteAt frame 0 ≠ 0x4d ∨ byteAt frame 1 ≠ 0x53 ∨
          byteAt frame 2 >>> 4 ≠ version ∨ u24At frame 3 ≠ peer.whitelistFingerprint := by
        rw [hbody, hversion, hu24, versionByte_version]
        rcases hother with hother | hother
        · exact Or.inr (Or.inr (Or.inr (Or.inl (Ne.symm hother))))
        · exact Or.inr (Or.inr (Or.inr (Or.inr (Ne.symm hother))))
      simp only [acceptFrameOfVersion, if_pos hrefused]

end

/-! ## Two members -/

/-- What a peer makes of a delivered heartbeat. -/
structure HeardBy (c peer : MeshSwarmCoordinator) (now : Time) (m : ReceivedMessage) : Prop where
  /-- A peer of the same policy that admits the source records what the sender has written. -/
  same : peer.config.peerWhitelist = c.config.peerWhitelist →
    peer.config.meshProvisionerPreference = c.config.meshProvisionerPreference →
    peer.config.meshSwarmAppKeyIndex = c.config.meshSwarmAppKeyIndex →
    peer.config.meshCompanyId = c.config.meshCompanyId →
    m.keyIndex = c.config.meshSwarmAppKeyIndex → peer.Admits m.source →
    (peer.handleMessage now false m).2 = true ∧
      (peer.handleMessage now false m).1.peerPresence[m.source.toNat]? = some
        ⟨m.source, c.swarmId, c.swarmParticipating, now + peer.config.meshSwarmProvisionerTimeout⟩ ∧
      ∀ n, n ≠ m.source.toNat →
        (peer.handleMessage now false m).1.peerPresence[n]? = peer.peerPresence[n]?
  /-- A peer of another policy records nothing. -/
  policy : peer.whitelistFingerprint ≠ c.whitelistFingerprint → ∀ deviceKey,
    (peer.handleMessage now deviceKey m).1.peerPresence = peer.peerPresence
  /-- A peer whose frames have another version records nothing. -/
  version : ∀ version deviceKey, version ≠ frameVersion →
    (peer.handleMessageOfVersion version now deviceKey m).1.peerPresence = peer.peerPresence

/-- **A heartbeat is read as it was written**, by every peer of the same policy that admits its
source, whether the vendor opcode arrives with it or not, and by nobody else. -/
theorem heartbeat_roundTrip {config config' : SwarmConfig} {hostname hostname' : String}
    {stored stored' : Option (Nat × Int)} {c₀ c peer₀ peer : MeshSwarmCoordinator}
    (hc₀ : create config hostname stored = .ok c₀) (hc : Run.Reachable step (· = c₀) c)
    (hpeer₀ : create config' hostname' stored' = .ok peer₀)
    (hpeer : Run.Reachable step (· = peer₀) peer) (hswarm : c.swarmId ≠ 0) :
    c.coordinationHeartbeat.length = 11 ∧
      ∀ (now : Time) (m : ReceivedMessage), c.Carries m.data → HeardBy c peer now m := by
  have hfollow := follow_reachable hc₀ hc
  have hfollow' := follow_reachable hpeer₀ hpeer
  have hbelow : c.whitelistFingerprint.toNat < 16777216 := by
    rw [hfollow.fingerprint]
    exact swarmFingerprint_lt _ _
  refine ⟨rfl, fun now m hdata => ⟨?_, fun hpolicy deviceKey => ?_,
    fun version deviceKey hversion => ?_⟩⟩
  · intro hwhitelist hpreference happKey hcompany hkey hadmits
    have hfingerprint : peer.whitelistFingerprint = c.whitelistFingerprint := by
      rw [hfollow.config_eq, hfollow'.config_eq] at hwhitelist hpreference
      rw [hfollow.fingerprint, hfollow'.fingerprint, hwhitelist, hpreference]
    have hheard := handleMessage_heartbeat hdata hbelow hswarm hfingerprint hcompany
      (hkey.trans happKey.symm) hadmits now
    rw [hheard]
    refine ⟨rfl, ?_, fun n hn => ?_⟩
    · simp [refresh]
    · simp [refresh, Std.ExtTreeMap.getElem?_insert, Ne.symm hn]
  · rw [← handleMessageOfVersion_frameVersion,
      handleMessageOfVersion_other hdata hbelow (Or.inr hpolicy) now deviceKey]
  · rw [handleMessageOfVersion_other hdata hbelow (Or.inl hversion) now deviceKey]

/-- A heartbeat of `uav1` as its daemon delivers it, without the opcode. -/
def delivered (c : MeshSwarmCoordinator) : ReceivedMessage where
  source := 1
  destination := 0xc000
  keyIndex := 0
  data := c.coordinationHeartbeat.drop 3

/-- A heartbeat of `uav1` that `uav2` hears. -/
theorem heartbeat_heard : ∃ c peer : MeshSwarmCoordinator,
    create { peerWhitelist := ["uav2", "uav1"] } "uav1" none = .ok c ∧
      create { peerWhitelist := ["uav2", "uav1"] } "uav2" none = .ok peer ∧
      c.coordinationHeartbeat.length = 11 ∧
      (peer.handleMessage 0 false c.delivered).1.peerPresence[1]? =
        some ⟨1, 1, true, seconds 20⟩ := by
  have hcomputed : (create { peerWhitelist := ["uav2", "uav1"] } "uav1" none).toOption.any
      (fun c => (create { peerWhitelist := ["uav2", "uav1"] } "uav2" none).toOption.any fun peer =>
        decide (c.swarmId = 1 ∧ c.swarmParticipating = true ∧ peer.Admits 1)) = true := by
    decide +kernel
  obtain ⟨c, hc, hrest⟩ := exists_ok_of_any hcomputed
  obtain ⟨peer, hpeer, hrest⟩ := exists_ok_of_any hrest
  obtain ⟨hid, hparticipating, hadmits⟩ := of_decide_eq_true hrest
  have hconfig := (follow_reachable hc (.start rfl)).config_eq
  have hconfig' := (follow_reachable hpeer (.start rfl)).config_eq
  obtain ⟨hlength, hheard⟩ := heartbeat_roundTrip hc (.start rfl) hpeer (.start rfl)
    (by rw [hid]; decide)
  have hsame := (hheard 0 c.delivered (Or.inr rfl)).same (by rw [hconfig, hconfig'])
    (by rw [hconfig, hconfig']) (by rw [hconfig, hconfig']) (by rw [hconfig, hconfig'])
    (by rw [hconfig]; rfl) hadmits
  refine ⟨c, peer, hc, hpeer, hlength, hsame.2.1.trans ?_⟩
  rw [hid, hparticipating, hconfig']
  rfl

end MeshSwarmCoordinator

end UavBluetooth.Mesh
