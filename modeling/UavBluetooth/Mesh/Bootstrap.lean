import UavBluetooth.Config.AutoMesh
import UavBluetooth.Lib.Binary64
import UavBluetooth.Mesh.UavNumbers

set_option autoImplicit false

/-! # Forming a network

`maintain` of `swarm_coordinator.cpp` on a node that is not attached: it waits to be provisioned,
and after a delay that grows with its rank it creates a private network by itself.

The delay is computed in doubles. `createAfter_law` says how far the delays of two members are
apart: 90 seconds at least, up to the rounding of one sum for each of them.
-/

namespace UavBluetooth.Mesh

open Binary64 Config Fallible Util

/-! ## The rank -/

/-- The settings that the coordinator copies; a period in seconds is cut to whole nanoseconds. -/
def swarmConfig (cfg : NodeConfig) : SwarmConfig where
  peerWhitelist := cfg.peerWhitelist
  meshProvisionerPreference := cfg.meshProvisionerPreference
  meshSwarmId := cfg.meshSwarmId
  meshSwarmParticipating := cfg.meshSwarmParticipating
  meshSwarmProvisionerTimeout :=
    ⌊nearest (finiteValue cfg.meshSwarmProvisionerTimeout * 10 ^ 9)⌋.toNat
  meshSwarmAppKeyIndex := cfg.meshSwarmAppKeyIndex
  meshCompanyId := cfg.meshCompanyId

/-- The configured delay, rounded as it is read. -/
def startupGrace (cfg : NodeConfig) : ℚ := nearest (finiteValue cfg.meshSwarmStartupGrace)

/-- `kRetryDelay` -/
def bootstrapRetryDelay : Time := seconds 5

/-- `kPerPriorityJoinWindowSeconds` -/
def perPriorityJoinWindow : ℚ := 90

/-- What `maintain` reads of the application's status. -/
structure BootstrapStatus where
  attached : Bool
  daemonAvailable : Bool
  token : UInt64
  state : String
  deriving DecidableEq, Repr

/-- What `maintain` keeps while the node is not attached; 0 is the default time point. -/
structure Bootstrap where
  bootstrapStartedAt : Time
  lastBootstrapAction : Time := 0
  applicationReady : Bool := false
  localModelStage : Nat := 0
  nextLocalModelAction : Time := 0
  deriving DecidableEq, Repr

/-- The calls to the application, in the order in which they are made. -/
inductive BootstrapCall where
  | attach (token : UInt64)
  | cancelJoin
  | importAutoIdentity (unicast : UInt16)
  | join
  deriving DecidableEq, Repr

namespace Bootstrap

/-- The last action was too recent for another one. -/
def Recent (b : Bootstrap) (now : Time) : Prop :=
  b.lastBootstrapAction ≠ 0 ∧ now - b.lastBootstrapAction < bootstrapRetryDelay

instance (b : Bootstrap) (now : Time) : Decidable (b.Recent now) :=
  inferInstanceAs (Decidable (_ ∧ _))

/-- The seconds since the start, a count of nanoseconds in a double divided by another one. -/
def elapsed (b : Bootstrap) (now : Time) : ℚ :=
  nearest (nearest ((now - b.bootstrapStartedAt : Nat) : ℚ) / 10 ^ 9)

end Bootstrap

namespace MeshSwarmCoordinator

/-- The priority of `maintain`. The difference of two iterators is signed, the size is not, and
the sum of both is taken modulo `2 ^ 64`. -/
def bootstrapPriority (c : MeshSwarmCoordinator) : Nat :=
  if c.memberPriority = [] then 0
  else
    let size := c.memberPriority.length
    let first := if c.preferredNumber ≠ 0 then c.memberPriority.idxOf c.preferredNumber else 0
    let own := c.memberPriority.idxOf c.localNumber
    if first = size ∨ own = size then size
    else ((((own : Int) - first) % 2 ^ 64).toNat + size) % 2 ^ 64 % size

/-- The delay after which the node creates a network, in doubles. -/
def createAfter (c : MeshSwarmCoordinator) (grace : ℚ) : ℚ :=
  nearest (grace + nearest (perPriorityJoinWindow * nearest (c.bootstrapPriority : ℚ)))

/-- `maintain` of a node that is not attached; attached, it makes none of these calls. The calls
that `throws` holds of are the last of the pass. -/
def maintainBootstrap (c : MeshSwarmCoordinator) (grace : ℚ) (b : Bootstrap)
    (status : BootstrapStatus) (now : Time) (throws : BootstrapCall → Bool) :
    Bootstrap × List BootstrapCall :=
  if status.attached then (b, [])
  else
    let b := { b with applicationReady := false, localModelStage := 0, nextLocalModelAction := 0 }
    let acted := { b with lastBootstrapAction := now }
    if status.daemonAvailable = false then ({ b with lastBootstrapAction := 0 }, [])
    else if status.token ≠ 0 then
      if b.Recent now then (b, []) else (acted, [.attach status.token])
    else if c.createAfter grace ≤ b.elapsed now ∧ status.state ≠ "importing" then
      let cancelled := if status.state = "joining" then [.cancelJoin] else []
      if cancelled.any throws then (b, cancelled)
      else if b.Recent now then (b, cancelled)
      else (acted, cancelled ++ [.importAutoIdentity (UInt16.ofNat c.localNumber)])
    else if status.state ≠ "joining" ∧ status.state ≠ "importing" ∧ ¬ b.Recent now then
      (acted, [.join])
    else (b, [])

end MeshSwarmCoordinator

/-! ## Ranks of accepted configurations -/

/-- How far a position is behind the first one, going round. -/
def cyclicDistance (n first own : Nat) : Nat := (own + n - first) % n

theorem cyclicDistance_eq {n first own : Nat} (hfirst : first < n) (hown : own < n) :
    cyclicDistance n first own = if first ≤ own then own - first else own + n - first := by
  unfold cyclicDistance
  split
  · rename_i hle
    rw [show own + n - first = own - first + n by omega, Nat.add_mod_right,
      Nat.mod_eq_of_lt (by omega)]
  · exact Nat.mod_eq_of_lt (by omega)

theorem cyclicDistance_inj {n first own other : Nat} (hfirst : first < n) (hown : own < n)
    (hother : other < n) (h : cyclicDistance n first own = cyclicDistance n first other) :
    own = other := by
  rw [cyclicDistance_eq hfirst hown, cyclicDistance_eq hfirst hother] at h
  split_ifs at h <;> omega

/-- The wrap at `2 ^ 64` has no effect on sizes that fit. -/
theorem wrapped_priority {n first own : Nat} (hfirst : first < n) (hown : own < n)
    (hn : n ≤ 65535) :
    ((((own : Int) - first) % 2 ^ 64).toNat + n) % 2 ^ 64 % n = cyclicDistance n first own := by
  rw [cyclicDistance_eq hfirst hown]
  split
  · rename_i hle
    have hdifference : (((own : Int) - first) % 2 ^ 64).toNat = own - first := by omega
    rw [hdifference, Nat.mod_eq_of_lt (by omega : own - first + n < 2 ^ 64), Nat.add_mod_right,
      Nat.mod_eq_of_lt (by omega)]
  · rename_i hgt
    have hdifference : (((own : Int) - first) % 2 ^ 64).toNat = 2 ^ 64 + own - first := by omega
    have hsum : (2 ^ 64 + own - first + n) % 2 ^ 64 = own + n - first := by omega
    rw [hdifference, hsum, Nat.mod_eq_of_lt (by omega)]

/-- The constructor refuses two entries with one number. -/
theorem enterMembers_nodup {peers : List String} {book book' : Std.ExtTreeMap Nat String}
    {priority priority' numbers : List Nat}
    (h : enterMembers peers book priority = .ok (book', priority'))
    (hnumbers : memberNumbers peers = .ok numbers) :
    numbers.Nodup ∧ ∀ n ∈ numbers, book.contains n = false := by
  induction peers generalizing book priority numbers with
  | nil =>
      cases hnumbers
      exact ⟨List.nodup_nil, fun n hn => by cases hn⟩
  | cons rawMember rest ih =>
      simp only [enterMembers, bind_eq_ok] at h
      obtain ⟨number, hnumber, h⟩ := h
      simp only [memberNumbers, List.mapM_cons, bind_eq_ok] at hnumbers
      obtain ⟨number', hnumber', others, hothers, hlist⟩ := hnumbers
      rw [hnumber] at hnumber'
      cases hnumber'
      cases hlist
      split at h
      · cases h
      · rename_i hnew
        -- The rest is entered into a book that has this number already.
        obtain ⟨hnodup, hfresh⟩ := ih h hothers
        simp only [Std.ExtTreeMap.contains_insert, Bool.or_eq_false_iff] at hfresh
        refine ⟨List.nodup_cons.mpr ⟨fun hmem => ?_, hnodup⟩, fun n hn => ?_⟩
        · have hself := (hfresh number hmem).1
          simp at hself
        · rcases List.mem_cons.mp hn with rfl | hn
          · exact Bool.eq_false_iff.mpr hnew
          · exact (hfresh n hn).2

/-- A member's number stands where its name does. -/
theorem idxOf_memberNumbers {peers : List String} {numbers : List Nat}
    (h : memberNumbers peers = .ok numbers) (hnormal : ∀ peer ∈ peers, lowerTrimCopy peer = peer)
    (hnodup : numbers.Nodup) {name : String} (hname : name ∈ peers) {n : Nat}
    (hn : uavNumber name = .ok n) : numbers.idxOf n = peers.idxOf name := by
  induction peers generalizing numbers with
  | nil => cases hname
  | cons first rest ih =>
      simp only [memberNumbers, List.mapM_cons, bind_eq_ok] at h
      obtain ⟨number, hnumber, others, hothers, hlist⟩ := h
      cases hlist
      rw [hnormal first List.mem_cons_self] at hnumber
      obtain ⟨hout, hnodup⟩ := List.nodup_cons.mp hnodup
      by_cases hsame : first = name
      · subst hsame
        rw [hnumber] at hn
        cases hn
        rw [List.idxOf_cons_self, List.idxOf_cons_self]
      · have hrest : name ∈ rest := (List.mem_cons.mp hname).resolve_left (Ne.symm hsame)
        have hnormal' : ∀ peer ∈ rest, lowerTrimCopy peer = peer := fun peer hpeer =>
          hnormal peer (List.mem_cons_of_mem _ hpeer)
        have hmapped : name ∈ rest.map lowerTrimCopy :=
          List.mem_map.mpr ⟨name, hrest, hnormal' name hrest⟩
        -- The number is one of the rest, so it is not the first.
        have hmem : n ∈ others := mem_memberNumbers hothers hmapped hn
        have hne : number ≠ n := by
          rintro rfl
          exact hout hmem
        rw [List.idxOf_cons_ne _ hne, List.idxOf_cons_ne _ hsame, ih hothers hnormal' hnodup hrest]

theorem length_memberNumbers {peers : List String} {numbers : List Nat}
    (h : memberNumbers peers = .ok numbers) : numbers.length = peers.length := by
  induction peers generalizing numbers with
  | nil =>
      cases h
      rfl
  | cons first rest ih =>
      simp only [memberNumbers, List.mapM_cons, bind_eq_ok] at h
      obtain ⟨number, _, others, hothers, hlist⟩ := h
      cases hlist
      rw [List.length_cons, List.length_cons, ih hothers]

theorem memberNumbers_le {peers : List String} {numbers : List Nat}
    (h : memberNumbers peers = .ok numbers) : ∀ n ∈ numbers, n < 65536 ∧ n ≠ 0 := by
  induction peers generalizing numbers with
  | nil =>
      cases h
      intro n hn
      cases hn
  | cons first rest ih =>
      simp only [memberNumbers, List.mapM_cons, bind_eq_ok] at h
      obtain ⟨number, hnumber, others, hothers, hlist⟩ := h
      cases hlist
      intro n hn
      rcases List.mem_cons.mp hn with rfl | hn
      · obtain ⟨_, _, hpos, hle⟩ := uavNumber_eq_ok_iff.mp hnumber
        omega
      · exact ih hothers n hn

/-- Different numbers of 16 bits, none of them 0. -/
theorem length_le_of_nodup {numbers : List Nat} (hnodup : numbers.Nodup)
    (hrange : ∀ n ∈ numbers, n < 65536 ∧ n ≠ 0) : numbers.length ≤ 65535 := by
  have hsubset : numbers ⊆ (List.range 65536).erase 0 := fun n hn =>
    (List.mem_erase_of_ne (hrange n hn).2).mpr (List.mem_range.mpr (hrange n hn).1)
  calc numbers.length ≤ ((List.range 65536).erase 0).length := (hnodup.subperm hsubset).length_le
    _ = (List.range 65536).length - 1 := List.length_erase_of_mem (List.mem_range.mpr (by omega))
    _ = 65535 := by rw [List.length_range]

/-- Where the order of the candidates begins: at the preferred one, or at the first. -/
def firstPosition (cfg : NodeConfig) : Nat :=
  if cfg.meshProvisionerPreference = "ordered" then 0
  else cfg.peerWhitelist.idxOf cfg.meshProvisionerPreference

/-- The rank of a hostname. -/
def rankOf (cfg : NodeConfig) (hostname : String) : Nat :=
  cyclicDistance cfg.peerWhitelist.length (firstPosition cfg)
    (cfg.peerWhitelist.idxOf (lowerTrimCopy hostname))

section

variable {cfg : NodeConfig} {hostname : String} {c : MeshSwarmCoordinator}

theorem firstPosition_lt (h : AutoMesh hostname cfg) :
    firstPosition cfg < cfg.peerWhitelist.length := by
  unfold firstPosition
  split
  · exact List.length_pos_of_mem h.localMember
  · rename_i hnamed
    exact List.idxOf_lt_length_of_mem (h.preference.resolve_left hnamed)

/-- **The priority is the rank**, for every accepted configuration. -/
theorem bootstrapPriority_eq (h : AutoMesh hostname cfg)
    (hc : c.Consistent (swarmConfig cfg) hostname) :
    c.bootstrapPriority = rankOf cfg hostname ∧ cfg.peerWhitelist.length ≤ 65535 := by
  obtain ⟨numbers, hnumbers, hpriority, _⟩ := enterMembers_spec hc.members
  rw [List.nil_append] at hpriority
  change memberNumbers cfg.peerWhitelist = .ok numbers at hnumbers
  have hlength := length_memberNumbers hnumbers
  have hnodup : numbers.Nodup := (enterMembers_nodup hc.members hnumbers).1
  have hbound := length_le_of_nodup hnodup (memberNumbers_le hnumbers)
  have hown := idxOf_memberNumbers hnumbers h.normal hnodup h.localMember hc.localNumber
  have hownLt : cfg.peerWhitelist.idxOf (lowerTrimCopy hostname) < cfg.peerWhitelist.length :=
    List.idxOf_lt_length_of_mem h.localMember
  have hfirstLt := firstPosition_lt h
  -- The preferred member leads the circle, without a preference the first of the list.
  have hfirst : (if c.preferredNumber ≠ 0 then numbers.idxOf c.preferredNumber else 0) =
      firstPosition cfg := by
    have hpreferred := hc.preferredNumber
    change (if lowerTrimCopy cfg.meshProvisionerPreference = "ordered" then .ok 0
      else uavNumber (lowerTrimCopy cfg.meshProvisionerPreference)) = _ at hpreferred
    unfold firstPosition
    by_cases hordered : cfg.meshProvisionerPreference = "ordered"
    · rw [hordered, if_pos (by decide)] at hpreferred
      have hzero : c.preferredNumber = 0 := (Except.ok.inj hpreferred).symm
      rw [if_pos hordered, if_neg (not_not.mpr hzero)]
    · have hlisted := h.preference.resolve_left hordered
      rw [h.normal _ hlisted, if_neg hordered] at hpreferred
      obtain ⟨_, _, hpos, _⟩ := uavNumber_eq_ok_iff.mp hpreferred
      rw [if_neg hordered, if_pos (by omega)]
      exact idxOf_memberNumbers hnumbers h.normal hnodup hlisted hpreferred
  have hne : numbers ≠ [] := by
    rintro rfl
    rw [← hlength] at hownLt
    exact absurd hownLt (Nat.not_lt_zero _)
  refine ⟨?_, by omega⟩
  unfold MeshSwarmCoordinator.bootstrapPriority rankOf
  rw [hpriority, if_neg hne]
  simp only
  rw [hfirst, hown, hlength, if_neg (by omega)]
  exact wrapped_priority hfirstLt hownLt (by omega)

theorem startupGrace_nonneg (h : positiveFinite cfg.meshSwarmStartupGrace = true) :
    0 ≤ startupGrace cfg := by
  refine nearest_nonneg ?_
  cases hgrace : cfg.meshSwarmStartupGrace with
  | finite value =>
      rw [hgrace] at h
      exact (of_decide_eq_true h).le
  | infinite negative => exact le_refl 0
  | nan => exact le_refl 0

/-- The product of the window and a rank is exact. -/
theorem createAfter_eq (hpriority : c.bootstrapPriority ≤ 65535) (grace : ℚ) :
    c.createAfter grace =
      nearest (grace + perPriorityJoinWindow * c.bootstrapPriority) := by
  have hproduct : perPriorityJoinWindow * (c.bootstrapPriority : ℚ) =
      ((90 * c.bootstrapPriority : Nat) : ℚ) := by
    rw [perPriorityJoinWindow]
    push_cast
    rfl
  rw [MeshSwarmCoordinator.createAfter, nearest_natCast (show c.bootstrapPriority < 2 ^ 53 by omega),
    hproduct, nearest_natCast (by omega)]

/-- A network is created only by a node without an identity, after its delay. -/
theorem import_after {grace : ℚ} {b : Bootstrap} {status : BootstrapStatus} {now : Time}
    {throws : BootstrapCall → Bool} {unicast : UInt16}
    (h : .importAutoIdentity unicast ∈
      (c.maintainBootstrap grace b status now throws).2) :
    status.attached = false ∧ status.daemonAvailable = true ∧ status.token = 0 ∧
      unicast = UInt16.ofNat c.localNumber ∧ c.createAfter grace ≤ b.elapsed now := by
  -- The `Cancel` in front of it is not a creation.
  have hcancelled : ∀ state : String, BootstrapCall.importAutoIdentity unicast ∉
      (if state = "joining" then [BootstrapCall.cancelJoin] else []) := by
    intro state hmem
    split at hmem
    · exact absurd (List.mem_singleton.mp hmem) (by simp)
    · cases hmem
  unfold MeshSwarmCoordinator.maintainBootstrap at h
  split at h
  · cases h
  · rename_i hattached
    simp only at h
    split at h
    · cases h
    · rename_i hdaemon
      split at h
      · split at h
        · cases h
        · exact absurd (List.mem_singleton.mp h) (by simp)
      · rename_i htoken
        split at h
        · rename_i hdue
          have hcancel := hcancelled status.state
          generalize (if status.state = "joining" then [BootstrapCall.cancelJoin] else []) =
            cancelled at h hcancel
          split at h
          · exact absurd h hcancel
          · split at h
            · exact absurd h hcancel
            · rcases List.mem_append.mp h with h | h
              · exact absurd h hcancel
              · cases List.mem_singleton.mp h
                exact ⟨by simpa using hattached, by simpa using hdaemon, not_not.mp htoken, rfl,
                  hdue.1⟩
        · split at h
          · exact absurd (List.mem_singleton.mp h) (by simp)
          · cases h

end

/-! ## Two members -/

/-- What the delay of a member is, and when it creates a network. -/
structure Waits (cfg : NodeConfig) (hostname : String) (c : MeshSwarmCoordinator) : Prop where
  rank : c.bootstrapPriority = rankOf cfg hostname
  below : rankOf cfg hostname < cfg.peerWhitelist.length
  first : cfg.peerWhitelist.idxOf (lowerTrimCopy hostname) = firstPosition cfg →
    rankOf cfg hostname = 0
  delay : c.createAfter (startupGrace cfg) =
    nearest (startupGrace cfg + perPriorityJoinWindow * rankOf cfg hostname)
  created : ∀ b status now throws unicast, .importAutoIdentity unicast ∈
    (c.maintainBootstrap (startupGrace cfg) b status now throws).2 →
      status.attached = false ∧ status.token = 0 ∧
        c.createAfter (startupGrace cfg) ≤ b.elapsed now

theorem waits {cfg : NodeConfig} {hostname : String} {c : MeshSwarmCoordinator}
    (h : AutoMesh hostname cfg) (hc : c.Consistent (swarmConfig cfg) hostname) :
    Waits cfg hostname c := by
  obtain ⟨hrank, hbound⟩ := bootstrapPriority_eq h hc
  have hpos : 0 < cfg.peerWhitelist.length := List.length_pos_of_mem h.localMember
  have hbelow : rankOf cfg hostname < cfg.peerWhitelist.length := Nat.mod_lt _ hpos
  refine ⟨hrank, hbelow, fun hown => ?_, ?_, ?_⟩
  · rw [rankOf, hown, cyclicDistance, Nat.add_sub_cancel_left, Nat.mod_self]
  · rw [createAfter_eq (by omega), hrank]
  · intro b status now throws unicast hcall
    obtain ⟨hattached, _, htoken, _, hdue⟩ := import_after hcall
    exact ⟨hattached, htoken, hdue⟩

/-- How far two delays are apart. -/
structure Spaced (grace : ℚ) (rank rank' : Nat) (delay delay' : ℚ) : Prop where
  distinct : rank ≠ rank'
  sums : 90 ≤ |(grace + perPriorityJoinWindow * rank) -
    (grace + perPriorityJoinWindow * rank')|
  exact : nearest (grace + perPriorityJoinWindow * rank) =
      grace + perPriorityJoinWindow * rank →
    nearest (grace + perPriorityJoinWindow * rank') =
      grace + perPriorityJoinWindow * rank' → 90 ≤ |delay - delay'|
  rounded : 90 - ((2 * grace + perPriorityJoinWindow * (rank + rank')) / 2 ^ 53 + smallest) ≤
    |delay - delay'|
  ordered : rank < rank' → delay ≤ delay'

theorem spaced {grace : ℚ} (hgrace : 0 ≤ grace) {rank rank' : Nat}
    (hne : rank ≠ rank') :
    Spaced grace rank rank' (nearest (grace + perPriorityJoinWindow * rank))
      (nearest (grace + perPriorityJoinWindow * rank')) := by
  have hwindow : (0 : ℚ) ≤ perPriorityJoinWindow := by norm_num [perPriorityJoinWindow]
  have hsum : ∀ k : Nat, 0 ≤ grace + perPriorityJoinWindow * k := fun k =>
    add_nonneg hgrace (mul_nonneg hwindow (Nat.cast_nonneg k))
  have hapart : (90 : ℚ) ≤ |(grace + perPriorityJoinWindow * rank) -
      (grace + perPriorityJoinWindow * rank')| := by
    have hdifference : (grace + perPriorityJoinWindow * rank) -
        (grace + perPriorityJoinWindow * rank') = 90 * ((rank : ℚ) - rank') := by
      rw [perPriorityJoinWindow]
      ring
    have hone : (1 : ℚ) ≤ |(rank : ℚ) - rank'| := by
      have hint : 1 ≤ |(rank : ℤ) - rank'| := Int.one_le_abs (by omega)
      exact_mod_cast hint
    rw [hdifference, abs_mul, abs_of_pos (by norm_num : (0 : ℚ) < 90)]
    linarith
  refine ⟨hne, hapart, fun hexact hexact' => ?_, ?_, fun hlt => ?_⟩
  · rw [hexact, hexact']
    exact hapart
  · -- each delay is off its sum by half of a last place at most
    have herror := abs_nearest_sub_le (hsum rank)
    have herror' := abs_nearest_sub_le (hsum rank')
    rw [abs_le] at herror herror'
    rcases abs_cases ((grace + perPriorityJoinWindow * (rank : ℚ)) -
      (grace + perPriorityJoinWindow * (rank' : ℚ))) with ⟨habs, _⟩ | ⟨habs, _⟩
    · refine le_trans ?_ (le_abs_self _)
      linarith [herror.1, herror'.2]
    · refine le_trans ?_ (neg_le_abs _)
      linarith [herror.2, herror'.1]
  · refine nearest_mono (hsum rank) ?_
    have hcast : (rank : ℚ) ≤ rank' := Nat.cast_le.mpr hlt.le
    have hproduct := mul_le_mul_of_nonneg_left hcast hwindow
    linarith

/-- **One creator at a time.** Two members of one automatic Mesh whose configurations have been
accepted wait according to their ranks, which are their cyclic distances from the preferred
member or the first one; their delays are 90 seconds apart but for the rounding of the sums. -/
theorem createAfter_law {regexMatch : String → String → Bool} {doc doc' : Yaml.Node}
    {hostname hostname' pattern pattern' : String} {cfg cfg' : NodeConfig}
    {stored stored' : Option (Nat × Int)} {c₀ c c₀' c' : MeshSwarmCoordinator}
    (hcfg : parseNodeConfig regexMatch doc hostname pattern = .ok cfg)
    (hcfg' : parseNodeConfig regexMatch doc' hostname' pattern' = .ok cfg')
    (hauto : cfg.meshSwarmAutoProvisioning = true)
    (hauto' : cfg'.meshSwarmAutoProvisioning = true)
    (hpeers : cfg'.peerWhitelist = cfg.peerWhitelist)
    (hpreference : cfg'.meshProvisionerPreference = cfg.meshProvisionerPreference)
    (hgrace : cfg'.meshSwarmStartupGrace = cfg.meshSwarmStartupGrace)
    (hc₀ : MeshSwarmCoordinator.create (swarmConfig cfg) hostname stored = .ok c₀)
    (hc₀' : MeshSwarmCoordinator.create (swarmConfig cfg') hostname' stored' = .ok c₀')
    (hc : Run.Reachable MeshSwarmCoordinator.step (· = c₀) c)
    (hc' : Run.Reachable MeshSwarmCoordinator.step (· = c₀') c')
    (hne : lowerTrimCopy hostname ≠ lowerTrimCopy hostname') :
    Waits cfg hostname c ∧ Waits cfg' hostname' c' ∧
      Spaced (startupGrace cfg) (rankOf cfg hostname) (rankOf cfg' hostname')
        (c.createAfter (startupGrace cfg)) (c'.createAfter (startupGrace cfg')) := by
  have haccepted := autoMesh_of_parseNodeConfig hcfg hauto
  have haccepted' := autoMesh_of_parseNodeConfig hcfg' hauto'
  have hwaits := waits haccepted (MeshSwarmCoordinator.consistent_reachable hc₀ hc)
  have hwaits' := waits haccepted' (MeshSwarmCoordinator.consistent_reachable hc₀' hc')
  refine ⟨hwaits, hwaits', ?_⟩
  -- Both nodes count from the same first member, so different names have different ranks.
  have hranks : rankOf cfg hostname ≠ rankOf cfg' hostname' := by
    have hfirst : firstPosition cfg' = firstPosition cfg := by
      unfold firstPosition
      rw [hpreference, hpeers]
    have hlocal' := haccepted'.localMember
    unfold rankOf
    rw [hfirst, hpeers]
    rw [hpeers] at hlocal'
    intro hsame
    have hposition := cyclicDistance_inj (firstPosition_lt haccepted)
      (List.idxOf_lt_length_of_mem haccepted.localMember) (List.idxOf_lt_length_of_mem hlocal') hsame
    exact hne ((List.idxOf_inj haccepted.localMember).mp hposition)
  have hsame : startupGrace cfg' = startupGrace cfg := by rw [startupGrace, hgrace, startupGrace]
  rw [hwaits.delay, hwaits'.delay, hsame]
  exact spaced (startupGrace_nonneg haccepted.grace) hranks

/-- A Mesh of `uav1` and `uav2` with a startup delay. -/
def graceDocument (grace : String) : Yaml.Node :=
  .map ((.scalar "mesh_swarm_startup_grace", .scalar grace) ::
    (autoMeshDocument ["uav1", "uav2"]).entries)

/-- Whether both members start with this delay in their configurations, first `uav1`. -/
def startsMesh (grace : String) (value : ℚ) : Bool :=
  (parseNodeConfig (fun _ _ => false) (graceDocument grace) "uav1" "").toOption.any fun cfg =>
    (parseNodeConfig (fun _ _ => false) (graceDocument grace) "uav2" "").toOption.any fun cfg' =>
      (MeshSwarmCoordinator.create (swarmConfig cfg) "uav1" none).toOption.any fun c =>
        (MeshSwarmCoordinator.create (swarmConfig cfg') "uav2" none).toOption.any fun c' =>
          decide ((cfg.meshSwarmAutoProvisioning = true ∧ cfg'.meshSwarmAutoProvisioning = true) ∧
            (cfg'.peerWhitelist = cfg.peerWhitelist ∧
              cfg'.meshProvisionerPreference = cfg.meshProvisionerPreference) ∧
            (cfg.meshSwarmStartupGrace = .finite value ∧
              cfg'.meshSwarmStartupGrace = .finite value) ∧
            c.bootstrapPriority = 0 ∧ c'.bootstrapPriority = 1)

/-- Two members that have started, and what the delays depend on. -/
structure Started (grace : String) (value : ℚ) (cfg cfg' : NodeConfig)
    (c c' : MeshSwarmCoordinator) : Prop where
  accepted : parseNodeConfig (fun _ _ => false) (graceDocument grace) "uav1" "" = .ok cfg
  accepted' : parseNodeConfig (fun _ _ => false) (graceDocument grace) "uav2" "" = .ok cfg'
  created : MeshSwarmCoordinator.create (swarmConfig cfg) "uav1" none = .ok c
  created' : MeshSwarmCoordinator.create (swarmConfig cfg') "uav2" none = .ok c'
  automatic : cfg.meshSwarmAutoProvisioning = true ∧ cfg'.meshSwarmAutoProvisioning = true
  policy : cfg'.peerWhitelist = cfg.peerWhitelist ∧
    cfg'.meshProvisionerPreference = cfg.meshProvisionerPreference
  delays : cfg.meshSwarmStartupGrace = .finite value ∧ cfg'.meshSwarmStartupGrace = .finite value
  priorities : c.bootstrapPriority = 0 ∧ c'.bootstrapPriority = 1

theorem exists_of_startsMesh {grace : String} {value : ℚ} (h : startsMesh grace value = true) :
    ∃ cfg cfg' c c', Started grace value cfg cfg' c c' := by
  obtain ⟨cfg, hcfg, h⟩ := exists_ok_of_any h
  obtain ⟨cfg', hcfg', h⟩ := exists_ok_of_any h
  obtain ⟨c, hc, h⟩ := exists_ok_of_any h
  obtain ⟨c', hc', h⟩ := exists_ok_of_any h
  obtain ⟨hauto, hpolicy, hdelays, hpriorities⟩ := of_decide_eq_true h
  exact ⟨cfg, cfg', c, c', hcfg, hcfg', hc, hc', hauto, hpolicy, hdelays, hpriorities⟩

/-- The delays of two members that wait five seconds before they begin. -/
theorem createAfter_law_five : ∃ cfg cfg' c c', Started "5" 5 cfg cfg' c c' ∧
    Waits cfg "uav1" c ∧ Waits cfg' "uav2" c' ∧
      Spaced (startupGrace cfg) (rankOf cfg "uav1") (rankOf cfg' "uav2")
        (c.createAfter (startupGrace cfg)) (c'.createAfter (startupGrace cfg')) := by
  obtain ⟨cfg, cfg', c, c', h⟩ :=
    exists_of_startsMesh (show startsMesh "5" 5 = true by decide +kernel)
  exact ⟨cfg, cfg', c, c', h, createAfter_law h.accepted h.accepted' h.automatic.1 h.automatic.2
    h.policy.1 h.policy.2 (h.delays.2.trans h.delays.1.symm) h.created h.created' (.start rfl)
    (.start rfl) (by decide +kernel)⟩

/-- The doubles around `10 ^ 19` are 2048 apart. -/
theorem nearest_large {x : ℚ} (h : 10 ^ 19 ≤ x) (h' : x ≤ 10 ^ 19 + 90) : nearest x = 10 ^ 19 := by
  have hlower : ((2 : ℕ) : ℚ) ^ (63 : ℤ) ≤ x := by
    refine le_trans ?_ h
    norm_num
  have hlog : Int.log 2 x = 63 := by
    have hpos : 0 < x := by linarith
    refine le_antisymm ?_ ((Int.zpow_le_iff_le_log Nat.one_lt_two hpos).mp hlower)
    have hupper : x < ((2 : ℕ) : ℚ) ^ (64 : ℤ) := by
      refine lt_of_le_of_lt h' ?_
      norm_num
    have hlt := (Int.lt_zpow_iff_log_lt Nat.one_lt_two hpos).mp hupper
    omega
  have hplace : (2 : ℚ) ^ lastPlace x = 2048 := by
    rw [lastPlace, hlog]
    norm_num
  have hround : roundHalfEven (x / 2048) = 4882812500000000 := by
    have hfloor : ⌊x / 2048⌋ = 4882812500000000 := by
      rw [Int.floor_eq_iff]
      constructor
      · push_cast
        linarith
      · push_cast
        linarith
    rw [roundHalfEven, hfloor, if_pos]
    push_cast
    linarith
  rw [nearest, hplace, hround]
  norm_num

/-- A delay of `10 ^ 19` seconds absorbs the window of the second member. -/
theorem delays_coincide : ¬ ∀ (regexMatch : String → String → Bool) (doc doc' : Yaml.Node)
    (hostname hostname' pattern pattern' : String) (cfg cfg' : NodeConfig)
    (stored stored' : Option (Nat × Int)) (c c' : MeshSwarmCoordinator),
    parseNodeConfig regexMatch doc hostname pattern = .ok cfg →
      parseNodeConfig regexMatch doc' hostname' pattern' = .ok cfg' →
      cfg.meshSwarmAutoProvisioning = true → cfg'.meshSwarmAutoProvisioning = true →
      cfg'.peerWhitelist = cfg.peerWhitelist →
      cfg'.meshProvisionerPreference = cfg.meshProvisionerPreference →
      cfg'.meshSwarmStartupGrace = cfg.meshSwarmStartupGrace →
      MeshSwarmCoordinator.create (swarmConfig cfg) hostname stored = .ok c →
      MeshSwarmCoordinator.create (swarmConfig cfg') hostname' stored' = .ok c' →
      lowerTrimCopy hostname ≠ lowerTrimCopy hostname' →
        90 ≤ |c.createAfter (startupGrace cfg) - c'.createAfter (startupGrace cfg')| := by
  intro hclaim
  obtain ⟨cfg, cfg', c, c', h⟩ := exists_of_startsMesh
    (show startsMesh "10000000000000000000" (10 ^ 19) = true by decide +kernel)
  have hapart := hclaim _ _ _ _ _ _ _ cfg cfg' _ _ c c' h.accepted h.accepted' h.automatic.1
    h.automatic.2 h.policy.1 h.policy.2 (h.delays.2.trans h.delays.1.symm) h.created h.created'
    (by decide +kernel)
  have hgrace : startupGrace cfg = 10 ^ 19 := by
    rw [startupGrace, h.delays.1]
    exact nearest_large (le_refl _) (by norm_num [finiteValue])
  have hgrace' : startupGrace cfg' = 10 ^ 19 := by
    rw [startupGrace, h.delays.2]
    exact nearest_large (le_refl _) (by norm_num [finiteValue])
  have hdelay : c.createAfter (10 ^ 19) = 10 ^ 19 := by
    rw [createAfter_eq (by rw [h.priorities.1]; decide), h.priorities.1]
    exact nearest_large (by norm_num [perPriorityJoinWindow]) (by norm_num [perPriorityJoinWindow])
  have hdelay' : c'.createAfter (10 ^ 19) = 10 ^ 19 := by
    rw [createAfter_eq (by rw [h.priorities.2]; decide), h.priorities.2]
    exact nearest_large (by norm_num [perPriorityJoinWindow]) (by norm_num [perPriorityJoinWindow])
  rw [hgrace, hgrace', hdelay, hdelay', sub_self, abs_zero] at hapart
  exact absurd hapart (by norm_num)

end UavBluetooth.Mesh
