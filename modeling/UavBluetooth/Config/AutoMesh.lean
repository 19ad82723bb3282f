import UavBluetooth.Config.Loader

set_option autoImplicit false

/-! # Automatic Mesh configurations

What `parse_node_config` has checked about the swarm when it accepts a configuration with
`mesh_swarm_auto_provisioning`: the whitelist names the node itself and the preferred provisioner,
its entries are normalised and have different numbers, and the periods are positive.
-/

namespace UavBluetooth.Config

open Fallible Util

/-- The swarm policy of a configuration that the sections after the validation leave alone. -/
def swarmPolicy (cfg : NodeConfig) : List String × Bool × String × Double × String :=
  (cfg.peerWhitelist, cfg.meshSwarmAutoProvisioning, cfg.meshProvisionerPreference,
    cfg.meshSwarmStartupGrace, cfg.meshDeviceUuid)

/-- A section that leaves the policy alone. -/
def KeepsPolicy (cfg : NodeConfig) (x : Except String NodeConfig) : Prop :=
  Ensures (fun cfg' => swarmPolicy cfg' = swarmPolicy cfg) x

/-- What the loader has checked about an automatic Mesh. -/
structure AutoMesh (hostname : String) (cfg : NodeConfig) : Prop where
  nodup : cfg.peerWhitelist.Nodup
  normal : ∀ peer ∈ cfg.peerWhitelist, lowerTrimCopy peer = peer
  numbers : checkPeerNumbers [] cfg.peerWhitelist = .ok ()
  localMember : lowerTrimCopy hostname ∈ cfg.peerWhitelist
  preference : cfg.meshProvisionerPreference = "ordered" ∨
    cfg.meshProvisionerPreference ∈ cfg.peerWhitelist
  grace : positiveFinite cfg.meshSwarmStartupGrace = true
  deviceUuid : cfg.meshDeviceUuid = ""
  privateMesh : checkPrivateMesh hostname cfg = .ok ()

section

variable {doc : Yaml.Node} {hostname : String} {cfg cfg' : NodeConfig}

theorem keepsPolicy_readIdentity : KeepsPolicy cfg (readIdentity doc hostname cfg) := by
  unfold readIdentity KeepsPolicy
  repeat refine Ensures.bind fun _ => ?_
  split
  all_goals
    repeat refine Ensures.bind fun _ => ?_
    exact Ensures.pure rfl

theorem keepsPolicy_readAgent : KeepsPolicy cfg (readAgent doc cfg) := by
  unfold readAgent KeepsPolicy
  repeat refine Ensures.bind fun _ => ?_
  exact Ensures.pure rfl

theorem keepsPolicy_readConnections : KeepsPolicy cfg (readConnections doc cfg) := by
  unfold readConnections KeepsPolicy
  repeat refine Ensures.bind fun _ => ?_
  exact Ensures.pure rfl

theorem keepsPolicy_readAdvertisement :
    KeepsPolicy cfg (readAdvertisement doc hostname cfg) := by
  unfold readAdvertisement KeepsPolicy
  repeat refine Ensures.bind fun _ => ?_
  exact Ensures.pure rfl

theorem exclusiveMesh_policy : swarmPolicy (exclusiveMesh cfg) = swarmPolicy cfg := by
  unfold exclusiveMesh
  split <;> rfl

theorem checkPeers_nodup {seen peers : List String} (h : checkPeers seen peers = .ok ()) :
    peers.Nodup ∧ ∀ peer ∈ peers, peer ∉ seen := by
  induction peers generalizing seen with
  | nil => exact ⟨List.nodup_nil, fun peer hmem => by cases hmem⟩
  | cons peer rest ih =>
      simp only [checkPeers, bind_eq_ok, require_eq_ok, Bool.and_eq_true, decide_eq_true_eq] at h
      obtain ⟨_, ⟨_, hnew⟩, h⟩ := h
      obtain ⟨hnodup, hrest⟩ := ih h
      refine ⟨List.nodup_cons.mpr ⟨fun hmem => hrest peer hmem List.mem_cons_self, hnodup⟩, ?_⟩
      intro other hmem
      rcases List.mem_cons.mp hmem with rfl | hmem
      · exact hnew
      · exact fun hseen => hrest other hmem (List.mem_cons_of_mem _ hseen)

theorem readMesh_peers (h : readMesh doc cfg = .ok cfg') :
    cfg'.peerWhitelist.Nodup ∧ ∀ peer ∈ cfg'.peerWhitelist, lowerTrimCopy peer = peer := by
  simp only [readMesh, bind_eq_ok, pure_eq_ok] at h
  obtain ⟨_, _, _, _, _, _, _, _, _, _, _, hpeers, _, _, _, _, _, _, _, _, _, _, _, _, _, _, _, _,
    rfl⟩ := h
  refine ⟨(checkPeers_nodup hpeers).1, fun peer hmem => ?_⟩
  obtain ⟨raw, _, rfl⟩ := List.mem_map.mp hmem
  exact lowerTrimCopy_lowerTrimCopy raw

theorem readSwarm_whitelist (h : readSwarm doc hostname cfg = .ok cfg') :
    cfg'.peerWhitelist = cfg.peerWhitelist := by
  have hkeeps : Ensures (fun cfg' => cfg'.peerWhitelist = cfg.peerWhitelist)
      (readSwarm doc hostname cfg) := by
    unfold readSwarm
    repeat refine Ensures.bind fun _ => ?_
    exact Ensures.pure rfl
  exact hkeeps _ h

/-- The last check of the private Mesh reads the whitelist and the hostname only. -/
theorem checkPrivateMesh_congr (h : cfg'.peerWhitelist = cfg.peerWhitelist) :
    checkPrivateMesh hostname cfg' = checkPrivateMesh hostname cfg := by
  unfold checkPrivateMesh
  rw [h]

theorem readIdentity_private (h : readIdentity doc hostname cfg = .ok cfg')
    (hauto : cfg.meshSwarmAutoProvisioning = true) : checkPrivateMesh hostname cfg = .ok () := by
  simp only [readIdentity, bind_eq_ok, if_pos hauto] at h
  obtain ⟨_, _, _, _, _, _, _, _, _, _, _, _, _, hchecked, _⟩ := h
  exact hchecked

theorem checkPrivateMesh_nonempty (h : checkPrivateMesh hostname cfg = .ok ()) :
    cfg.peerWhitelist.isEmpty = false := by
  simp only [checkPrivateMesh, bind_eq_ok, require_eq_ok, Bool.not_eq_true'] at h
  obtain ⟨_, hnonempty, _⟩ := h
  exact hnonempty

/-- The checks of a nonempty whitelist. -/
theorem checkAutoProvisioning_spec (h : checkAutoProvisioning hostname cfg = .ok ())
    (hnonempty : cfg.peerWhitelist.isEmpty = false) :
    checkPeerNumbers [] cfg.peerWhitelist = .ok () ∧
      lowerTrimCopy hostname ∈ cfg.peerWhitelist ∧
      (cfg.meshProvisionerPreference = "ordered" ∨
        cfg.meshProvisionerPreference ∈ cfg.peerWhitelist) ∧
      positiveFinite cfg.meshSwarmStartupGrace = true ∧ cfg.meshDeviceUuid = "" := by
  simp only [checkAutoProvisioning, bind_eq_ok, require_eq_ok, hnonempty, Bool.false_or,
    decide_eq_true_eq] at h
  obtain ⟨_, _, _, hdevice, _, _, _, hnumbers, _, _, _, hlocal, h⟩ := h
  split at h
  · simp only [bind_eq_ok, require_eq_ok, decide_eq_true_eq, Bool.and_eq_true] at h
    obtain ⟨_, _, _, hpreference, _, hperiods, _⟩ := h
    exact ⟨hnumbers, hlocal, Or.inr hpreference, hperiods.1.1, hdevice⟩
  · rename_i hordered
    simp only [bind_eq_ok, require_eq_ok, Bool.and_eq_true] at h
    obtain ⟨_, hperiods, _⟩ := h
    exact ⟨hnumbers, hlocal, Or.inl (not_not.mp hordered), hperiods.1.1, hdevice⟩

/-- **What an accepted automatic Mesh satisfies.** -/
theorem autoMesh_of_parseNodeConfig {regexMatch : String → String → Bool} {pattern : String}
    (h : parseNodeConfig regexMatch doc hostname pattern = .ok cfg)
    (hauto : cfg.meshSwarmAutoProvisioning = true) : AutoMesh hostname cfg := by
  obtain ⟨base, hbase, hcfg, _⟩ := parseNodeConfig_spec h
  have hpolicy : swarmPolicy cfg = swarmPolicy base := by
    rw [hcfg]
    rfl
  simp only [readNode, bind_eq_ok, pure_eq_ok] at hbase
  obtain ⟨service, _, mesh, hmesh, swarm, hswarm, auto, hautomatic, identity, hidentity,
    agent, hagent, connections, hconnections, advertisement, hadvertisement, rfl⟩ := hbase
  have hkept : swarmPolicy cfg = swarmPolicy auto := by
    rw [hpolicy, exclusiveMesh_policy, keepsPolicy_readAdvertisement _ hadvertisement,
      keepsPolicy_readConnections _ hconnections, keepsPolicy_readAgent _ hagent,
      keepsPolicy_readIdentity _ hidentity]
  simp only [swarmPolicy, Prod.mk.injEq] at hkept
  obtain ⟨hpeers, hmode, hpreference, hgrace, hdevice⟩ := hkept
  rw [hmode] at hauto
  have hprivate := readIdentity_private hidentity hauto
  obtain ⟨hnodup, hnormal⟩ := readMesh_peers hmesh
  rw [← readSwarm_whitelist hswarm] at hnodup hnormal
  unfold applyAutoProvisioning at hautomatic
  split at hautomatic
  · simp only [bind_eq_ok, pure_eq_ok] at hautomatic
    obtain ⟨_, hchecked, rfl⟩ := hautomatic
    obtain ⟨hnumbers, hlocal, hpreferred, hpositive, hempty⟩ :=
      checkAutoProvisioning_spec hchecked (checkPrivateMesh_nonempty hprivate)
    exact {
      nodup := by rw [hpeers]; exact hnodup
      normal := by rw [hpeers]; exact hnormal
      numbers := by rw [hpeers]; exact hnumbers
      localMember := by rw [hpeers]; exact hlocal
      preference := by rw [hpeers, hpreference]; exact hpreferred
      grace := by rw [hgrace]; exact hpositive
      deviceUuid := by rw [hdevice]; exact hempty
      privateMesh := by rw [checkPrivateMesh_congr hpeers]; exact hprivate }
  · rename_i hoff
    cases hautomatic
    exact absurd hauto hoff

end

end UavBluetooth.Config
