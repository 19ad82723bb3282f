import UavBluetooth.Config.AutoMesh
import UavBluetooth.Mesh.Bootstrap
import UavBluetooth.Mesh.Enrollment

set_option autoImplicit false

/-! # The UUID of a newcomer

A node advertises a UUID that `mesh_application.cpp` derives from its hostname as it was given to
the service. A provisioner looks for the UUID of the whitelist entry, which the loader has trimmed
and lower-cased. `enrollment_uuid_iff` says when it is the same.
-/

namespace UavBluetooth.Mesh

open Bridge Config Fallible Util

/-! ## Deriving it -/

/-- `uuid_` of the constructor of MeshApplication. -/
def deviceUuid (cfg : NodeConfig) (hostname : String) : Except String Bytes :=
  if cfg.meshDeviceUuid = "" then
    if cfg.meshSwarmAutoProvisioning then meshAutoUuidFromName hostname
    else meshUuidFromName ("mrs-uav-bluetooth-mesh:" ++ hostname)
  else do
    let uuid ← meshUuidFromString cfg.meshDeviceUuid
    let version := uuid.getD 6 0 >>> 4
    let variant := uuid.getD 8 0 >>> 6
    require (!(version < 1 || 5 < version || variant ≠ 2))
      "mesh_device_uuid must use RFC 4122 version and variant bits"
    return uuid

/-- The bytes of an automatic UUID that depend on more than the number. -/
def nameBytes (hostname : String) : Except String Bytes :=
  (meshUuidFromName ("mrs-uav-bluetooth-mesh-auto:" ++ hostname)).map (·.drop 6)

/-- The automatic UUID of a name whose number is in range. -/
theorem meshAutoUuidFromName_eq {hostname : String} {number : Nat}
    (hnumber : ofDigits 10 (suffix hostname) = number) (hpos : 0 < number)
    (hmax : number ≤ 0x7fff) :
    ∃ bytes, nameBytes hostname = .ok bytes ∧ meshAutoUuidFromName hostname =
      .ok (autoUuidMark ++ [UInt8.ofNat number, UInt8.ofNat (number / 256)] ++ bytes) := by
  obtain ⟨named, hnamed, _⟩ := meshUuidFromName_spec ("mrs-uav-bluetooth-mesh-auto:" ++ hostname)
  have hdigits : (suffix hostname).isEmpty = false := by
    rw [List.isEmpty_eq_false_iff]
    intro hnil
    rw [hnil] at hnumber
    exact absurd hnumber.symm (Nat.ne_of_gt hpos)
  rw [suffix] at hnumber hdigits
  refine ⟨named.drop 6, ?_, ?_⟩
  · rw [nameBytes, hnamed]
    rfl
  · simp only [meshAutoUuidFromName, bind_eq_ok, require_eq_ok, pure_eq_ok, hnamed, hdigits,
      hnumber, Bool.and_eq_true, decide_eq_true_eq]
    exact ⟨(), by simp, (), ⟨by simp, by omega⟩, (), ⟨hpos, hmax⟩, named, rfl, rfl⟩

/-- Two names of one number have one UUID if and only if their other bytes are the same. -/
theorem meshAutoUuidFromName_eq_iff {hostname hostname' : String} {number : Nat}
    (hnumber : ofDigits 10 (suffix hostname) = number)
    (hnumber' : ofDigits 10 (suffix hostname') = number) (hpos : 0 < number)
    (hmax : number ≤ 0x7fff) :
    meshAutoUuidFromName hostname = meshAutoUuidFromName hostname' ↔
      nameBytes hostname = nameBytes hostname' := by
  obtain ⟨bytes, hbytes, huuid⟩ := meshAutoUuidFromName_eq hnumber hpos hmax
  obtain ⟨bytes', hbytes', huuid'⟩ := meshAutoUuidFromName_eq hnumber' hpos hmax
  rw [hbytes, hbytes', huuid, huuid', Except.ok.injEq, Except.ok.injEq, List.append_cancel_left_eq]

/-! ## Spellings -/

theorem isDigit_toLower (c : Char) : c.toLower.isDigit = c.isDigit := by
  refine apply_toLower (fun d hd => ?_) c
  simp only [Char.isDigit, Bool.and_eq_true, decide_eq_true_eq] at hd
  have hle : d.toNat ≤ 57 := hd.2
  omega

theorem toLower_of_isDigit {c : Char} (h : c.isDigit = true) : c.toLower = c := by
  refine toLower_of_not_isUpper ?_
  by_contra hupper
  have hrange := isUpper_iff.mp (eq_true_of_ne_false hupper)
  simp only [Char.isDigit, Bool.and_eq_true, decide_eq_true_eq] at h
  have hle : c.toNat ≤ 57 := h.2
  omega

/-- Trimming and lower-casing leave the number of a hostname that ends in one. -/
theorem suffix_lowerTrimCopy {hostname : String} (h : suffix hostname ≠ []) :
    suffix (lowerTrimCopy hostname) = suffix hostname := by
  have hstrip : digitTail (Strip.strip isSpace hostname.toList) = digitTail hostname.toList :=
    digitTail_strip (fun c hc => isSpace_of_isDigit hc) h
  show digitTail (lowerTrimCopy hostname).toList = digitTail hostname.toList
  rw [lowerTrimCopy, String.toList_ofList,
    digitTail_map isDigit_toLower (fun c hc => toLower_of_isDigit hc), hstrip]

/-- The hostname is given as the loader would write it, or its name-based UUID does not tell the
difference. -/
def SpelledAlike (hostname : String) : Prop :=
  lowerTrimCopy hostname = hostname ∨ nameBytes hostname = nameBytes (lowerTrimCopy hostname)

/-! ## The address book -/

section

variable {peers : List String} {book book' : Std.ExtTreeMap Nat String}
  {priority priority' : List Nat} {n : Nat} {name : String}

/-- Every entry of the whitelist is in the address book under its number. -/
theorem enterMembers_finds (h : enterMembers peers book priority = .ok (book', priority'))
    (hname : name ∈ peers.map lowerTrimCopy) (hn : uavNumber name = .ok n) :
    book'[n]? = some name :=
  (enterMembers_book h n name).mpr (Or.inr ⟨hname, hn⟩)

theorem exists_uavNumber {numbers : List Nat} (h : memberNumbers peers = .ok numbers)
    (hname : name ∈ peers.map lowerTrimCopy) : ∃ number, uavNumber name = .ok number := by
  induction peers generalizing numbers with
  | nil => cases hname
  | cons first rest ih =>
      simp only [memberNumbers, List.mapM_cons, bind_eq_ok] at h
      obtain ⟨number, hnumber, others, hothers, _⟩ := h
      rcases List.mem_cons.mp hname with rfl | hname
      · exact ⟨number, hnumber⟩
      · exact ih hothers hname

end

/-! ## Finding it -/

/-- A provisioner looks for a UUID under a number: on the direct path it is the one that is passed
to AddNode, and among the results of a scan with this number it is the one that is accepted. -/
structure LooksFor (c : MeshSwarmCoordinator) (number : Nat) (uuid : Bytes) : Prop where
  direct : ∀ (e : Enrollment) (nodes : List UInt16), e.coordinator = c →
    (∀ unicast ∈ nodes, unicast.toNat ≠ number) →
      e.directCandidate number (.ok nodes) = .ok (some uuid)
  added : ∀ (e : Enrollment) (now : Time) (rest : List Nat) (nodes : List UInt16),
    e.coordinator = c → (∀ unicast ∈ nodes, unicast.toNat ≠ number) → e.due now number = true →
      (e.tryMember now number rest (.ok nodes)).pass = .adding now uuid (UInt16.ofNat number) none
  expected : ∀ (e : Enrollment) (other : Bytes), e.coordinator = c →
    (e.expectedUuid number other = .ok true ↔ other = uuid)
  scanned : ∀ (e : Enrollment) (other rest : Bytes), e.coordinator = c → c.localIsActive = true →
    e.pendingProvisionUuid = "" → c.peerPresence.contains number = false →
    other.length = 16 → (meshAutoUuidNumber other).toNat = number →
      (e.scanCandidate { event := .scanResult, data := other ++ rest } = .ok (some other) ↔
        other = uuid)

section

variable {cfg : NodeConfig} {hostname hostname' : String} {c : MeshSwarmCoordinator} {number : Nat}

/-- The filter of an active provisioner that is not busy and does not know the peer. -/
theorem scanCandidate_eq {e : Enrollment} {other rest : Bytes} {expected : Bool}
    (hactive : e.coordinator.localIsActive = true) (hpending : e.pendingProvisionUuid = "")
    (hlength : other.length = 16) (hread : (meshAutoUuidNumber other).toNat = number)
    (hpos : number ≠ 0) (hother : number ≠ e.coordinator.localNumber)
    (hallowed : e.coordinator.peerAllowed number = true)
    (habsent : e.coordinator.peerPresence.contains number = false)
    (hexpected : e.expectedUuid number other = .ok expected) :
    e.scanCandidate { event := .scanResult, data := other ++ rest } =
      .ok (if expected = false then none else some other) := by
  have htake : (other ++ rest).take 16 = other := by
    rw [← hlength, List.take_left]
  have henough : ¬ (other ++ rest).length < 16 := by
    rw [List.length_append, hlength]
    omega
  unfold Enrollment.scanCandidate
  simp only [hactive, hpending, henough, htake, hread, hpos, hother, hallowed, habsent, hexpected,
    ne_eq, not_true_eq_false, or_false, Bool.true_eq_false, if_false, bind_eq_ok]
  exact ⟨expected, rfl, by simp⟩

/-- **What a provisioner looks for** is the UUID of the whitelist entry. -/
theorem looksFor (hc : c.Consistent (swarmConfig cfg) hostname') {name : String}
    (hname : name ∈ cfg.peerWhitelist) (hnormal : lowerTrimCopy name = name)
    (hnumber : uavNumber name = .ok number) (hother : number ≠ c.localNumber)
    {uuid : Bytes} (huuid : meshAutoUuidFromName name = .ok uuid) : LooksFor c number uuid := by
  have hmapped : name ∈ cfg.peerWhitelist.map lowerTrimCopy :=
    List.mem_map.mpr ⟨name, hname, hnormal⟩
  have hfound : c.memberByNumber[number]? = some name :=
    enterMembers_finds hc.members hmapped hnumber
  have hmember : c.memberName number = name := by
    rw [MeshSwarmCoordinator.memberName, memberNameIn, hfound]
  have hnonempty : c.config.peerWhitelist ≠ [] := by
    rw [hc.config_eq]
    exact List.ne_nil_of_mem hname
  obtain ⟨_, hvalue, hpos, _⟩ := uavNumber_eq_ok_iff.mp hnumber
  obtain ⟨_, _, hmax⟩ := meshAutoUuidFromName_iff.mp ⟨uuid, huuid, rfl⟩
  have hsmall : number ≤ 0x7fff := by
    have hread := (meshAutoUuidFromName_iff.mp ⟨uuid, huuid, rfl⟩).1
    rw [suffix] at hvalue
    rw [← hvalue, hread]
    exact hmax
  have hallowed : c.peerAllowed number = true := by
    rw [MeshSwarmCoordinator.peerAllowed, Std.ExtTreeMap.contains_eq_isSome_getElem?, hfound]
    exact Bool.or_true _
  have hdirect : ∀ (e : Enrollment) (nodes : List UInt16), e.coordinator = c →
      (∀ unicast ∈ nodes, unicast.toNat ≠ number) →
        e.directCandidate number (.ok nodes) = .ok (some uuid) := by
    intro e nodes he hnodes
    have hunknown : nodes.any (fun unicast => unicast.toNat == number) = false := by
      rw [List.any_eq_false]
      exact fun unicast hmem => by simpa using hnodes unicast hmem
    simp only [Enrollment.directCandidate, he, hmember, huuid, bind_eq_ok]
    refine ⟨nodes, rfl, ?_⟩
    rw [hunknown]
    rfl
  have hexpected : ∀ (e : Enrollment) (other : Bytes), e.coordinator = c →
      e.expectedUuid number other = .ok (uuid == other) := by
    intro e other he
    rw [Enrollment.expectedUuid, he, if_neg hnonempty, hfound]
    simp only [huuid]
    rfl
  refine ⟨hdirect, ?_, ?_, ?_⟩
  · intro e now rest nodes he hnodes hdue
    have hslot : ¬ (UInt16.ofNat number = 0 ∨ 0x7fff < UInt16.ofNat number) := by
      have hexact : (UInt16.ofNat number).toNat = number :=
        UInt16.toNat_ofNat_of_lt' (lt_of_le_of_lt hsmall (by decide))
      rw [UInt16.lt_iff_toNat_lt, ← UInt16.toNat_inj, hexact]
      rintro (hzero | hlarge)
      · exact absurd hzero (Nat.ne_of_gt hpos)
      · exact absurd hlarge (Nat.not_lt.mpr hsmall)
    unfold Enrollment.tryMember
    rw [hdue, if_neg (by decide)]
    simp only [hdirect e nodes he hnodes, Provisioner.setAutoProvisioningUnicast, if_neg hslot]
  · intro e other he
    rw [hexpected e other he, Except.ok.injEq, beq_iff_eq]
    exact eq_comm
  · intro e other rest he hactive hpending habsent hlength hread
    subst he
    rw [scanCandidate_eq hactive hpending hlength hread (Nat.ne_of_gt hpos) hother hallowed habsent
      (hexpected e other rfl), Except.ok.injEq]
    by_cases hsame : uuid = other
    · simp [hsame]
    · have hdiffers : (uuid == other) = false := beq_false_of_ne hsame
      simp [hdiffers, Ne.symm hsame]

/-- Entries of the whitelist have UUIDs of their own. -/
def OwnUuids (peers : List String) : Prop :=
  ∀ peer ∈ peers, ∀ other ∈ peers, peer ≠ other → ∀ uuid uuid',
    meshAutoUuidFromName peer = .ok uuid → meshAutoUuidFromName other = .ok uuid' → uuid ≠ uuid'

theorem ownUuids (hc : c.Consistent (swarmConfig cfg) hostname')
    (hnormal : ∀ peer ∈ cfg.peerWhitelist, lowerTrimCopy peer = peer) :
    OwnUuids cfg.peerWhitelist := by
  obtain ⟨numbers, hnumbers, _⟩ := enterMembers_spec hc.members
  have hmapped : ∀ peer ∈ cfg.peerWhitelist, peer ∈ cfg.peerWhitelist.map lowerTrimCopy :=
    fun peer hpeer => List.mem_map.mpr ⟨peer, hpeer, hnormal peer hpeer⟩
  rintro peer hpeer other hother hne uuid uuid' huuid huuid' rfl
  obtain ⟨n, hn⟩ := exists_uavNumber hnumbers (hmapped peer hpeer)
  obtain ⟨n', hn'⟩ := exists_uavNumber hnumbers (hmapped other hother)
  -- the number is read back from the UUID, so both names have it
  have hvalue := (meshAutoUuidFromName_iff.mp ⟨uuid, huuid, rfl⟩).1
  have hvalue' := (meshAutoUuidFromName_iff.mp ⟨uuid, huuid', rfl⟩).1
  have hread := (uavNumber_eq_ok_iff.mp hn).2.1
  have hread' := (uavNumber_eq_ok_iff.mp hn').2.1
  rw [suffix] at hread hread'
  have hsame : n' = n := by rw [← hread', ← hread, hvalue, hvalue']
  rw [hsame] at hn'
  have hfound := enterMembers_finds hc.members (hmapped peer hpeer) hn
  rw [enterMembers_finds hc.members (hmapped other hother) hn'] at hfound
  exact hne (Option.some.inj hfound).symm

/-- The node advertises the UUID that the provisioner looks for under its number, and no other
entry of the whitelist has it. -/
def Enrolls (cfg : NodeConfig) (hostname : String) (c : MeshSwarmCoordinator) : Prop :=
  ∃ number uuid, uavNumber (lowerTrimCopy hostname) = .ok number ∧
    deviceUuid cfg hostname = .ok uuid ∧ LooksFor c number uuid ∧ OwnUuids cfg.peerWhitelist

theorem suffix_of_autoMesh (h : AutoMesh hostname cfg) :
    suffix hostname ≠ [] ∧ ofDigits 10 (suffix hostname) ≤ 0x7fff := by
  have hprivate := h.privateMesh
  simp only [checkPrivateMesh, bind_eq_ok, require_eq_ok, Bool.and_eq_true, Bool.not_eq_true',
    decide_eq_true_eq, List.isEmpty_eq_false_iff] at hprivate
  obtain ⟨_, _, _, ⟨hdigits, _⟩, hmax⟩ := hprivate
  exact ⟨hdigits, hmax⟩

end

/-- **Who is found.** A node of an automatic Mesh is looked for under the UUID that it advertises
if and only if its hostname is spelled as in the whitelist, up to MD5 collisions. -/
theorem enrollment_uuid_iff {regexMatch : String → String → Bool} {doc doc' : Yaml.Node}
    {hostname hostname' pattern pattern' : String} {cfg cfg' : NodeConfig}
    {stored : Option (Nat × Int)} {c₀ c : MeshSwarmCoordinator}
    (hcfg : parseNodeConfig regexMatch doc hostname pattern = .ok cfg)
    (hcfg' : parseNodeConfig regexMatch doc' hostname' pattern' = .ok cfg')
    (hauto : cfg.meshSwarmAutoProvisioning = true)
    (hauto' : cfg'.meshSwarmAutoProvisioning = true)
    (hpeers : cfg'.peerWhitelist = cfg.peerWhitelist)
    (hc₀ : MeshSwarmCoordinator.create (swarmConfig cfg') hostname' stored = .ok c₀)
    (hc : Run.Reachable MeshSwarmCoordinator.step (· = c₀) c)
    (hne : lowerTrimCopy hostname ≠ lowerTrimCopy hostname') :
    Enrolls cfg hostname c ↔ SpelledAlike hostname := by
  have haccepted := autoMesh_of_parseNodeConfig hcfg hauto
  have haccepted' := autoMesh_of_parseNodeConfig hcfg' hauto'
  have hconsistent := MeshSwarmCoordinator.consistent_reachable hc₀ hc
  have hlisted : lowerTrimCopy hostname ∈ cfg'.peerWhitelist := by
    rw [hpeers]
    exact haccepted.localMember
  have hnormal : lowerTrimCopy (lowerTrimCopy hostname) = lowerTrimCopy hostname :=
    lowerTrimCopy_lowerTrimCopy hostname
  obtain ⟨numbers, hnumbers, _⟩ := enterMembers_spec hconsistent.members
  obtain ⟨number, hnumber⟩ := exists_uavNumber hnumbers
    (List.mem_map.mpr ⟨lowerTrimCopy hostname, hlisted, hnormal⟩)
  have hother : number ≠ c.localNumber := by
    rintro rfl
    have hfound := enterMembers_finds hconsistent.members
      (List.mem_map.mpr ⟨lowerTrimCopy hostname, hlisted, hnormal⟩) hnumber
    have hlocal := enterMembers_finds hconsistent.members
      (List.mem_map.mpr ⟨_, haccepted'.localMember, lowerTrimCopy_lowerTrimCopy hostname'⟩)
      hconsistent.localNumber
    rw [hfound] at hlocal
    exact hne (Option.some.inj hlocal)
  -- both spellings have the number, and it is an address
  obtain ⟨hdigits, hmax⟩ := suffix_of_autoMesh haccepted
  obtain ⟨_, hvalue, hpos, _⟩ := uavNumber_eq_ok_iff.mp hnumber
  have hraw : ofDigits 10 (suffix hostname) = number := by
    rw [← hvalue, suffix_lowerTrimCopy hdigits]
  rw [hraw] at hmax
  obtain ⟨bytes, _, hentry⟩ := meshAutoUuidFromName_eq hvalue hpos hmax
  have hlooks := looksFor hconsistent hlisted hnormal hnumber hother hentry
  have hderived : deviceUuid cfg hostname = meshAutoUuidFromName hostname := by
    rw [deviceUuid, if_pos haccepted.deviceUuid, if_pos hauto]
  have hiff := meshAutoUuidFromName_eq_iff hraw hvalue hpos hmax
  constructor
  · rintro ⟨number', uuid, hnumber', huuid, hlooks', _⟩
    rw [hnumber] at hnumber'
    cases hnumber'
    -- what a fresh provisioner passes to AddNode is one UUID only
    have hsame := hlooks'.direct (Enrollment.start c 0 256) [] rfl (by simp)
    rw [hlooks.direct (Enrollment.start c 0 256) [] rfl (by simp)] at hsame
    refine Or.inr (hiff.mp ?_)
    rw [← hderived, huuid, hentry]
    exact congrArg Except.ok (Option.some.inj (Except.ok.inj hsame)).symm
  · intro hspelled
    have hsame : nameBytes hostname = nameBytes (lowerTrimCopy hostname) := by
      rcases hspelled with hspelled | hspelled
      · rw [hspelled]
      · exact hspelled
    refine ⟨number, _, hnumber, ?_, hlooks, ?_⟩
    · rw [hderived, hiff.mpr hsame, hentry]
    · rw [← hpeers]
      exact ownUuids hconsistent haccepted'.normal

/-- Whether a test holds of `uav2` and of a node with this hostname, both of the whitelist of
`uav1` and `uav2`. -/
def joins (hostname : String) (test : NodeConfig → MeshSwarmCoordinator → Bool) : Bool :=
  (parseNodeConfig (fun _ _ => false) (autoMeshDocument ["uav1", "uav2"]) hostname
    "").toOption.any fun cfg =>
      (parseNodeConfig (fun _ _ => false) (autoMeshDocument ["uav1", "uav2"]) "uav2"
        "").toOption.any fun cfg' =>
          decide (cfg.meshSwarmAutoProvisioning = true ∧ cfg'.meshSwarmAutoProvisioning = true ∧
            cfg'.peerWhitelist = cfg.peerWhitelist) &&
          (MeshSwarmCoordinator.create (swarmConfig cfg') "uav2" none).toOption.any fun c =>
            test cfg c

/-- A hostname that is spelled as in the whitelist. -/
theorem enrollment_uuid_listed : ∃ cfg c,
    parseNodeConfig (fun _ _ => false) (autoMeshDocument ["uav1", "uav2"]) "uav1" "" = .ok cfg ∧
      Enrolls cfg "uav1" c := by
  have hcomputed : joins "uav1" (fun _ _ => true) = true := by decide +kernel
  obtain ⟨cfg, hcfg, hrest⟩ := exists_ok_of_any hcomputed
  obtain ⟨cfg', hcfg', hrest⟩ := exists_ok_of_any hrest
  rw [Bool.and_eq_true, decide_eq_true_eq] at hrest
  obtain ⟨⟨hauto, hauto', hpeers⟩, hrest⟩ := hrest
  obtain ⟨c, hc, _⟩ := exists_ok_of_any hrest
  exact ⟨cfg, c, hcfg, (enrollment_uuid_iff hcfg hcfg' hauto hauto' hpeers hc (.start rfl)
    (by decide)).mpr (Or.inl (by decide))⟩

/-- `UAV1` is accepted as the member `uav1` and advertises another UUID. -/
theorem capital_not_found : ¬ ∀ (regexMatch : String → String → Bool) (doc doc' : Yaml.Node)
    (hostname hostname' pattern pattern' : String) (cfg cfg' : NodeConfig)
    (stored : Option (Nat × Int)) (c : MeshSwarmCoordinator),
    parseNodeConfig regexMatch doc hostname pattern = .ok cfg →
      parseNodeConfig regexMatch doc' hostname' pattern' = .ok cfg' →
      cfg.meshSwarmAutoProvisioning = true → cfg'.meshSwarmAutoProvisioning = true →
      cfg'.peerWhitelist = cfg.peerWhitelist →
      MeshSwarmCoordinator.create (swarmConfig cfg') hostname' stored = .ok c →
      lowerTrimCopy hostname ≠ lowerTrimCopy hostname' → Enrolls cfg hostname c := by
  intro hclaim
  have hcomputed : joins "UAV1" (fun cfg c => (deviceUuid cfg "UAV1").toOption.any fun uuid =>
      decide (((Enrollment.start c 0 256).directCandidate 1 (.ok [])).toOption ≠
        some (some uuid))) = true := by decide +kernel
  obtain ⟨cfg, hcfg, hrest⟩ := exists_ok_of_any hcomputed
  obtain ⟨cfg', hcfg', hrest⟩ := exists_ok_of_any hrest
  rw [Bool.and_eq_true, decide_eq_true_eq] at hrest
  obtain ⟨⟨hauto, hauto', hpeers⟩, hrest⟩ := hrest
  obtain ⟨c, hc, hrest⟩ := exists_ok_of_any hrest
  obtain ⟨uuid, huuid, hdiffers⟩ := exists_ok_of_any hrest
  obtain ⟨number, uuid', hnumber, huuid', hlooks, _⟩ :=
    hclaim _ _ _ _ _ _ _ cfg cfg' _ c hcfg hcfg' hauto hauto' hpeers hc (by decide)
  have hone : number = 1 := by
    have hread : uavNumber (lowerTrimCopy "UAV1") = .ok 1 := by rfl
    rw [hread] at hnumber
    exact (Except.ok.inj hnumber).symm
  rw [huuid] at huuid'
  cases huuid'
  subst hone
  have hdirect := hlooks.direct (Enrollment.start c 0 256) [] rfl (by simp)
  rw [hdirect] at hdiffers
  exact of_decide_eq_true hdiffers rfl

end UavBluetooth.Mesh
