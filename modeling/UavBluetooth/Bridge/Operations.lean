import UavBluetooth.Bridge.Configure

set_option autoImplicit false

/-! # The operations of the manager

Which bridge takes an advertisement is decided twice in the source, by `handle_advertisement`
and by `remember_advertisement`; both decide as `incoming` does. `operate_served` lists what an
operation can do to the manager and what it can publish.

The header of the manager promises an atomic replacement of the configuration.
`configure_atomic_iff` says when a refused one leaves the manager as it was: hardly ever,
since the entries, the prefix, the whitelist and the address book are replaced before the
first check.
-/

namespace UavBluetooth.Bridge

open Config Util

/-! ## The bridge that takes an advertisement -/

/-- Whether the whitelist lets the advertiser pass. -/
def admitted (m : Manager) (hostname mac : String) : Bool :=
  m.peerWhitelist.isEmpty || m.peerWhitelist.contains (lowerTrimCopy hostname) ||
    m.peerWhitelist.contains (lowerTrimCopy mac)

/-- The name under which an advertiser's data is published. -/
def advertisementPeer (hostname mac : String) : String :=
  if hostname = "" then "mac_" ++ mac else hostname

/-- The import bridge for the bytes, by its channel, and its payload: the bare bridge if there
is one, else the one that the frame names. -/
def selectAdvertisement (m : Manager) (payload : Bytes) : Option (UInt16 × Entry × Bytes) :=
  let bareKey := entryKey .advertisement 0
  match m.entries[bareKey]?.filter (·.config.advertisementBare) with
  | some bare => if imports bare.config then some (0, bare, payload) else none
  | none =>
      match unframePayload payload 0 with
      | none => none
      | some (channel, body) =>
          match m.entries[entryKey .advertisement channel]? with
          | none => none
          | some entry => if imports entry.config then some (channel, entry, body) else none

/-- The bridge and the payload of an admitted packet. -/
def incoming (m : Manager) (hostname mac : String) (payload : Bytes) :
    Option (UInt16 × Entry × Bytes) :=
  if admitted m hostname mac then selectAdvertisement m payload else none

section

variable {ros : Ros} {now : Time} {hostname mac : String} {payload : Bytes} {m : Manager}

theorem not_admitted_iff : (m.peerWhitelist ≠ [] ∧ lowerTrimCopy hostname ∉ m.peerWhitelist ∧
    lowerTrimCopy mac ∉ m.peerWhitelist) ↔ admitted m hostname mac = false := by
  simp [admitted, and_assoc]

theorem selectAdvertisement_entry {channel : UInt16} {entry : Entry} {body : Bytes}
    (h : selectAdvertisement m payload = some (channel, entry, body)) :
    m.entries[entryKey .advertisement channel]? = some entry := by
  unfold selectAdvertisement at h
  simp only at h
  split at h
  · rename_i bare hbare
    split at h <;> cases h
    exact (Option.filter_eq_some_iff.mp hbare).1
  · split at h
    · cases h
    · split at h
      · cases h
      · rename_i hentry
        split at h <;> cases h
        exact hentry

/-- The bridge of a packet is one of the manager's. -/
theorem incoming_entry {channel : UInt16} {entry : Entry} {body : Bytes}
    (h : incoming m hostname mac payload = some (channel, entry, body)) :
    m.entries[entryKey .advertisement channel]? = some entry := by
  unfold incoming at h
  split at h
  · exact selectAdvertisement_entry h
  · cases h

/-- **Live packets** go where `incoming` says. -/
theorem handleAdvertisement_eq :
    handleAdvertisement ros now hostname mac payload m =
      match incoming m hostname mac payload with
      | none => (m, false, none)
      | some (channel, entry, body) =>
          let key := entryKey .advertisement channel
          let result := publish ros now key entry (advertisementPeer hostname mac) body true
          (m.setEntry key result.1, result.2.1, result.2.2) := by
  unfold handleAdvertisement incoming selectAdvertisement
  simp only [not_admitted_iff]
  cases admitted m hostname mac with
  | false => rfl
  | true =>
      simp only [Bool.true_eq_false, if_false, if_true]
      cases m.entries[entryKey .advertisement 0]?.filter (·.config.advertisementBare) with
      | some bare => cases himports : imports bare.config <;> simp [himports, advertisementPeer]
      | none =>
          cases unframePayload payload 0 with
          | none => rfl
          | some frame =>
              obtain ⟨channel, body⟩ := frame
              simp only
              cases m.entries[entryKey .advertisement channel]? with
              | none => rfl
              | some entry =>
                  cases himports : imports entry.config <;> simp [himports, advertisementPeer]

/-- **Cached packets** go where `incoming` says. -/
theorem rememberAdvertisement_eq :
    rememberAdvertisement now hostname mac payload m =
      match incoming m hostname mac payload with
      | none => m
      | some (channel, entry, body) =>
          m.setEntry (entryKey .advertisement channel)
            (remember now entry (safePeerToken (advertisementPeer hostname mac)) body) := by
  unfold rememberAdvertisement incoming selectAdvertisement
  simp only [not_admitted_iff]
  cases admitted m hostname mac with
  | false => rfl
  | true =>
      simp only [Bool.true_eq_false, if_false, if_true]
      cases m.entries[entryKey .advertisement 0]?.filter (·.config.advertisementBare) with
      | some bare => cases himports : imports bare.config <;> simp [himports, advertisementPeer]
      | none =>
          cases unframePayload payload 0 with
          | none => rfl
          | some frame =>
              obtain ⟨channel, body⟩ := frame
              simp only
              cases m.entries[entryKey .advertisement channel]? with
              | none => rfl
              | some entry =>
                  cases himports : imports entry.config <;> simp [himports, advertisementPeer]

end

/-! ## What an operation does -/

/-- The payloads that the entry remembers of a peer, oldest first. -/
def Entry.history (entry : Entry) (token : String) : List Bytes := (entry.recent token).map (·.2)

/-- The payload that enters a peer's replay history. -/
def recordedBy (ros : Ros) (m : Manager) : Operation → Option Publication
  | .handleAdvertisement now hostname mac payload =>
      (handleAdvertisement ros now hostname mac payload m).2.2
  | .rememberAdvertisement _ hostname mac payload =>
      match incoming m hostname mac payload with
      | none => none
      | some (channel, entry, body) =>
          let token := safePeerToken (advertisementPeer hostname mac)
          if body ∈ entry.history token then none
          else some ⟨entryKey .advertisement channel, token, body⟩
  | _ => none

/-- The operation replaces the configuration. -/
def Operation.replaces : Operation → Bool
  | .configure _ _ _ _ => true
  | .clear => true
  | _ => false

/-- The effects of an operation within one configuration on the manager, what it publishes, and
what enters a replay history. -/
inductive Served (m : Manager) : Manager → Option Publication → Option Publication → Prop where
  | unchanged : Served m m none none
  | senders (advertisement mesh : Bool) : Served m
      { m with advertisementSender := advertisement, meshSender := mesh } none none
  /-- One entry changes, but not its replay histories. -/
  | entry (key : String) (entry entry' : Entry) (hentry : m.entries[key]? = some entry)
      (hgeneration : entry'.generation = entry.generation)
      (hrecent : entry'.recentPayloads = entry.recentPayloads) :
      Served m (m.setEntry key entry') none none
  | meshPublished (channel : UInt16) (entry : Entry) (token : String) (payload : Bytes)
      (hentry : m.entries[entryKey .mesh channel]? = some entry) :
      Served m (m.setEntry (entryKey .mesh channel) entry)
        (some ⟨entryKey .mesh channel, token, payload⟩) none
  /-- A payload that is new to a peer's history enters it, published or not. -/
  | remembered (now : Time) (channel : UInt16) (entry : Entry) (token : String) (payload : Bytes)
      (publication : Option Publication)
      (hentry : m.entries[entryKey .advertisement channel]? = some entry)
      (hnew : payload ∉ entry.history token)
      (hpublication : ∀ p ∈ publication, p = ⟨entryKey .advertisement channel, token, payload⟩) :
      Served m (m.setEntry (entryKey .advertisement channel) (remember now entry token payload))
        publication (some ⟨entryKey .advertisement channel, token, payload⟩)

theorem mem_history_iff {entry : Entry} {token : String} {payload : Bytes} :
    (entry.recent token).any (·.2 == payload) = true ↔ payload ∈ entry.history token := by
  simp [Entry.history]

/-- What `publish` does to the entry of an advertisement bridge. -/
theorem publish_cases (ros : Ros) (now : Time) (key : String) (entry : Entry) (peer : String)
    (payload : Bytes) :
    ((publish ros now key entry peer payload true).1 = entry ∧
      (publish ros now key entry peer payload true).2.2 = none) ∨
    (payload ∉ entry.history (safePeerToken peer) ∧
      (publish ros now key entry peer payload true).1 =
        remember now entry (safePeerToken peer) payload ∧
      (publish ros now key entry peer payload true).2.2 =
        some ⟨key, safePeerToken peer, payload⟩) := by
  unfold publish
  simp only [Bool.true_and, mem_history_iff, if_true]
  split
  · exact Or.inl ⟨rfl, rfl⟩
  · rename_i hnew
    split
    · exact Or.inl ⟨rfl, rfl⟩
    · split
      · exact Or.inl ⟨rfl, rfl⟩
      · exact Or.inr ⟨hnew, rfl, rfl⟩

theorem publish_mesh_entry (ros : Ros) (now : Time) (key : String) (entry : Entry)
    (peer : String) (payload : Bytes) :
    (publish ros now key entry peer payload false).1 = entry ∧
      ∀ p ∈ (publish ros now key entry peer payload false).2.2,
        p = ⟨key, safePeerToken peer, payload⟩ := by
  unfold publish
  simp only [Bool.false_and, Bool.false_eq_true, if_false]
  split
  · exact ⟨rfl, by simp⟩
  · split
    · exact ⟨rfl, by simp⟩
    · exact ⟨rfl, by simp⟩

/-- A settled dispatch changes at most the deadline or the slot of its entry. -/
theorem served_flushSettle (d : Dispatch) (accepted : Bool) (now : Time) (m : Manager) :
    Served m (flushSettle d accepted now m) none none := by
  unfold flushSettle
  split
  · exact .unchanged
  · rename_i entry hentry
    split
    · exact .unchanged
    · split
      · split
        · exact .entry d.key entry _ hentry rfl rfl
        · exact .unchanged
      · split
        · exact .entry d.key entry _ hentry rfl rfl
        · exact .unchanged

theorem served_handleAdvertisement (ros : Ros) (now : Time) (hostname mac : String)
    (payload : Bytes) (m : Manager) :
    Served m (handleAdvertisement ros now hostname mac payload m).1
      (handleAdvertisement ros now hostname mac payload m).2.2
      (recordedBy ros m (.handleAdvertisement now hostname mac payload)) := by
  show Served m _ _ (handleAdvertisement ros now hostname mac payload m).2.2
  rw [handleAdvertisement_eq]
  cases hin : incoming m hostname mac payload with
  | none => exact .unchanged
  | some target =>
      obtain ⟨channel, entry, body⟩ := target
      have hentry : m.entries[entryKey .advertisement channel]? = some entry := incoming_entry hin
      simp only
      rcases publish_cases ros now (entryKey .advertisement channel) entry
        (advertisementPeer hostname mac) body with ⟨hsame, hnone⟩ | ⟨hnew, hset, hsome⟩
      · rw [hsame, hnone]
        exact .entry _ entry entry hentry rfl rfl
      · rw [hset, hsome]
        exact .remembered now channel entry _ body _ hentry hnew (by simp)

theorem served_rememberAdvertisement (ros : Ros) (now : Time) (hostname mac : String)
    (payload : Bytes) (m : Manager) :
    Served m (rememberAdvertisement now hostname mac payload m) none
      (recordedBy ros m (.rememberAdvertisement now hostname mac payload)) := by
  simp only [recordedBy]
  rw [rememberAdvertisement_eq]
  cases hin : incoming m hostname mac payload with
  | none => exact .unchanged
  | some target =>
      obtain ⟨channel, entry, body⟩ := target
      have hentry : m.entries[entryKey .advertisement channel]? = some entry := incoming_entry hin
      simp only
      by_cases hnew : body ∈ entry.history (safePeerToken (advertisementPeer hostname mac))
      · have hsame : remember now entry (safePeerToken (advertisementPeer hostname mac)) body =
            entry := by
          unfold remember
          simp only [mem_history_iff]
          rw [if_pos hnew]
        rw [hsame, if_pos hnew]
        exact .entry _ entry entry hentry rfl rfl
      · rw [if_neg hnew]
        exact .remembered now channel entry _ body none hentry hnew (by simp)

theorem served_handleMesh (ros : Ros) (now : Time) (source keyIndex : UInt16) (data : Bytes)
    (m : Manager) : Served m (handleMesh ros now source keyIndex data m).1
      (handleMesh ros now source keyIndex data m).2.2 none := by
  unfold handleMesh
  simp only
  generalize (if 3 ≤ data.length ∧ 0xc0 ≤ data.headD 0 then 3 else 0) = frameOffset
  cases unframePayload data frameOffset with
  | none => exact .unchanged
  | some frame =>
      obtain ⟨channel, body⟩ := frame
      simp only
      cases hentry : m.entries[entryKey .mesh channel]? with
      | none => exact .unchanged
      | some entry =>
          simp only
          split
          · exact .unchanged
          · split
            · exact .unchanged
            · split
              · exact .unchanged
              · cases meshPeerName m source with
                | none => exact .unchanged
                | some peer =>
                    have hpublish := publish_mesh_entry ros now (entryKey .mesh channel) entry
                      peer body
                    simp only
                    rw [hpublish.1]
                    cases hp : (publish ros now (entryKey .mesh channel) entry peer body
                      false).2.2 with
                    | none => exact .entry _ entry entry hentry rfl rfl
                    | some p =>
                        rw [hpublish.2 p hp]
                        exact .meshPublished channel entry _ body hentry

/-- **Every operation within one configuration** has one of the effects of `Served`. -/
theorem operate_served (ros : Ros) (m : Manager) {op : Operation} (h : op.replaces = false) :
    Served m (operate ros m op).1 (operate ros m op).2 (recordedBy ros m op) := by
  cases op with
  | configure loadable topics peersPrefix peerWhitelist => cases h
  | clear => cases h
  | setSenders advertisement mesh => exact .senders advertisement mesh
  | localMessage key generation encoded =>
      show Served m (handleLocalMessage key generation encoded m) none none
      rcases handleLocalMessage_cases key generation encoded m with
        ⟨hsame, _⟩ | ⟨entry, payload, hentry, _, hset, _⟩
      · rw [hsame]
        exact .unchanged
      · rw [hset]
        exact .entry key entry _ hentry rfl rfl
  | flushTake key generation now =>
      unfold operate
      simp only
      split
      · exact .unchanged
      · rename_i d m' htake
        obtain ⟨entry, hentry, _, _, _, _, _, _, rfl⟩ := flushTake_eq_some htake
        exact .entry key entry _ hentry rfl rfl
  | flushSettle d accepted now => exact served_flushSettle d accepted now m
  | handleAdvertisement now hostname mac payload =>
      exact served_handleAdvertisement ros now hostname mac payload m
  | rememberAdvertisement now hostname mac payload =>
      exact served_rememberAdvertisement ros now hostname mac payload m
  | handleMesh now source keyIndex data => exact served_handleMesh ros now source keyIndex data m

/-! ## Consistent managers -/

/-- Generations only grow, and the address book is the whitelist's. -/
structure Manager.Consistent (m : Manager) : Prop where
  generation_le : ∀ (key : String) (entry : Entry), m.entries[key]? = some entry →
    entry.generation ≤ m.nextGeneration
  meshPeers : m.meshPeers = meshPeerByAddress m.peerWhitelist

theorem consistent_initial : Manager.Consistent {} :=
  ⟨fun key entry h => by simp at h, rfl⟩

theorem Manager.Consistent.setEntry {m : Manager} {key : String} {entry entry' : Entry}
    (h : m.Consistent) (hentry : m.entries[key]? = some entry)
    (hgeneration : entry'.generation = entry.generation) : (m.setEntry key entry').Consistent := by
  refine ⟨fun k e hk => ?_, h.meshPeers⟩
  rw [Manager.getElem?_setEntry] at hk
  split at hk
  · cases hk
    rw [hgeneration]
    exact h.generation_le key entry hentry
  · exact h.generation_le k e hk

theorem generation_remember (now : Time) (entry : Entry) (token : String) (payload : Bytes) :
    (remember now entry token payload).generation = entry.generation := by
  unfold remember
  simp only
  split <;> rfl

theorem configureTopics_setup (loadable : String → Bool) (topics : List SharedTopicConfig)
    (m : Manager) :
    (configureTopics loadable topics m).2.meshPeers = m.meshPeers ∧
      (configureTopics loadable topics m).2.peerWhitelist = m.peerWhitelist ∧
      (configureTopics loadable topics m).2.peersPrefix = m.peersPrefix := by
  induction topics generalizing m with
  | nil => exact ⟨rfl, rfl, rfl⟩
  | cons configured rest ih =>
      simp only [configureTopics]
      split
      · exact ih m
      · split
        · exact ⟨rfl, rfl, rfl⟩
        · split
          · exact ih _
          · exact ⟨rfl, rfl, rfl⟩

/-- The prefix, the whitelist and the address book are those of the call, refused or not. -/
theorem configure_setup (loadable : String → Bool) (topics : List SharedTopicConfig)
    (peersPrefix : String) (peerWhitelist : List String) (m : Manager) :
    (configure loadable topics peersPrefix peerWhitelist m).2.meshPeers =
        meshPeerByAddress (peerWhitelist.map lowerTrimCopy) ∧
      (configure loadable topics peersPrefix peerWhitelist m).2.peerWhitelist =
        peerWhitelist.map lowerTrimCopy ∧
      (configure loadable topics peersPrefix peerWhitelist m).2.peersPrefix = peersPrefix := by
  unfold configure
  simp only
  split
  · exact ⟨rfl, rfl, rfl⟩
  · exact configureTopics_setup loadable topics _

theorem Served.consistent {m m' : Manager} {publication recorded : Option Publication}
    (h : m.Consistent) (hserved : Served m m' publication recorded) : m'.Consistent := by
  cases hserved with
  | unchanged => exact h
  | senders advertisement mesh => exact ⟨h.generation_le, h.meshPeers⟩
  | entry key entry entry' hentry hgeneration _ => exact h.setEntry hentry hgeneration
  | meshPublished channel entry token payload hentry => exact h.setEntry hentry rfl
  | remembered now channel entry token payload _ hentry _ _ =>
      exact h.setEntry hentry (generation_remember now entry token payload)

theorem operate_consistent (ros : Ros) {m : Manager} (h : m.Consistent) (op : Operation) :
    (operate ros m op).1.Consistent := by
  cases hreplaces : op.replaces with
  | false => exact (operate_served ros m hreplaces).consistent h
  | true =>
      cases op with
      | configure loadable topics peersPrefix peerWhitelist =>
          have hentries := configure_entries loadable topics peersPrefix peerWhitelist m
          have hsetup := configure_setup loadable topics peersPrefix peerWhitelist m
          exact ⟨fun key entry hk => (hentries.2 key entry hk).2.1,
            by rw [operate, hsetup.1, hsetup.2.1]⟩
      | clear => exact ⟨fun key entry hk => by simp [operate, clear] at hk, h.meshPeers⟩
      | _ => cases hreplaces

/-- The manager after one operation, as a step. -/
def Manager.step (ros : Ros) (m : Manager) (op : Operation) : Option Manager :=
  some (operate ros m op).1

theorem consistent_reachable {ros : Ros} {m : Manager}
    (h : Run.Reachable (Manager.step ros) (· = {}) m) : m.Consistent := by
  refine h.invariant (fun m hm => ?_) (fun m op m' hm _ hstep => ?_)
  · rw [hm]
    exact consistent_initial
  · cases hstep
    exact operate_consistent ros hm op

/-! ## A refused configuration -/

/-- The managers agree on everything that a configuration replaces. -/
structure Manager.SameSetup (m m' : Manager) : Prop where
  entries : m'.entries = m.entries
  peersPrefix : m'.peersPrefix = m.peersPrefix
  peerWhitelist : m'.peerWhitelist = m.peerWhitelist
  meshPeers : m'.meshPeers = m.meshPeers

/-- **When a refused configuration changes nothing.** A call of `configure` that throws leaves
the manager as it was if and only if it does not throw at all, or it refuses a second
advertisement exporter in a manager without entries that already has the prefix and the
whitelist of the call. -/
theorem configure_atomic_iff {ros : Ros} {m : Manager}
    (h : Run.Reachable (Manager.step ros) (· = {}) m) (loadable : String → Bool)
    (topics : List SharedTopicConfig) (peersPrefix : String) (peerWhitelist : List String) :
    ((∃ e, (configure loadable topics peersPrefix peerWhitelist m).1 = .error e) →
      m.SameSetup (configure loadable topics peersPrefix peerWhitelist m).2) ↔
    Acceptable loadable topics ∨
      (1 < topics.countP advertisementExporter ∧ m.entries = ∅ ∧ m.peersPrefix = peersPrefix ∧
        m.peerWhitelist = peerWhitelist.map lowerTrimCopy) := by
  have hconsistent := consistent_reachable h
  have hsetup := configure_setup loadable topics peersPrefix peerWhitelist m
  have hok := configure_ok_iff loadable topics peersPrefix peerWhitelist m
  have hcount : topics.countP (fun item => item.transport == .advertisement && exports item) =
      topics.countP advertisementExporter := rfl
  by_cases haccept : Acceptable loadable topics
  · -- The call does not throw.
    refine iff_of_true (fun herror => ?_) (Or.inl haccept)
    obtain ⟨e, he⟩ := herror
    rw [hok.mpr haccept] at he
    cases he
  · have hthrows : ∃ e, (configure loadable topics peersPrefix peerWhitelist m).1 = .error e := by
      cases hresult : (configure loadable topics peersPrefix peerWhitelist m).1 with
      | ok _ => exact absurd (hok.mp hresult) haccept
      | error e => exact ⟨e, rfl⟩
    have hiff : ((∃ e, (configure loadable topics peersPrefix peerWhitelist m).1 = .error e) →
        m.SameSetup (configure loadable topics peersPrefix peerWhitelist m).2) ↔
        m.SameSetup (configure loadable topics peersPrefix peerWhitelist m).2 :=
      ⟨fun hsame => hsame hthrows, fun hsame _ => hsame⟩
    rw [hiff]
    constructor
    · intro hsame
      refine Or.inr ?_
      have hprefix := hsame.peersPrefix
      have hwhitelist := hsame.peerWhitelist
      rw [hsetup.2.2] at hprefix
      rw [hsetup.2.1] at hwhitelist
      by_cases hmany : 1 < topics.countP advertisementExporter
      · refine ⟨hmany, ?_, hprefix.symm, hwhitelist.symm⟩
        rw [← hsame.entries]
        unfold configure
        rw [if_pos (by rw [hcount]; exact hmany)]
      · -- The loop has left an entry of a new generation.
        exfalso
        obtain ⟨e, he⟩ := hthrows
        have hentries := configure_entries loadable topics peersPrefix peerWhitelist m
        have hleft : ∃ (key : String) (entry : Entry),
            (configure loadable topics peersPrefix peerWhitelist m).2.entries[key]? =
              some entry := by
          revert he
          unfold configure
          rw [if_neg (by rw [hcount]; exact hmany)]
          exact configureTopics_error loadable
        obtain ⟨key, entry, hentry⟩ := hleft
        have hnew := (hentries.2 key entry hentry).1
        rw [hsame.entries] at hentry
        have hold := hconsistent.generation_le key entry hentry
        omega
    · rintro (hno | ⟨hmany, hempty, hprefix, hwhitelist⟩)
      · exact absurd hno haccept
      · refine ⟨?_, ?_, ?_, ?_⟩
        · rw [hempty]
          unfold configure
          rw [if_pos (by rw [hcount]; exact hmany)]
        · rw [hsetup.2.2, hprefix]
        · rw [hsetup.2.1, hwhitelist]
        · rw [hsetup.1, hconsistent.meshPeers, hwhitelist]

/-- A Mesh bridge on a channel. -/
def meshTopic (channel : UInt16) : SharedTopicConfig :=
  { transport := .mesh, channelId := channel }

/-- Two framed advertisement exporters. -/
def twoExporters : List SharedTopicConfig :=
  [{ transport := .advertisement, channelId := 1 }, { transport := .advertisement, channelId := 2 }]

/-- A new manager refuses two advertisement exporters and stays new. -/
theorem configure_atomic_iff_twoExporters :
    (∃ e, (configure (fun _ => true) twoExporters "" [] {}).1 = .error e) ∧
      Manager.SameSetup {} (configure (fun _ => true) twoExporters "" [] {}).2 := by
  have hthrows : ∃ e, (configure (fun _ => true) twoExporters "" [] {}).1 = .error e := ⟨_, rfl⟩
  exact ⟨hthrows, (@configure_atomic_iff { decode := fun _ _ => none } _ (.start rfl) _ _ _ _).mpr
    (Or.inr ⟨by decide, rfl, rfl, rfl⟩) hthrows⟩

/-- A manager with a bridge on channel 7 refuses two bridges on channel 9, and has lost the
one on channel 7. -/
theorem refused_configuration_clears :
    ∃ m, Run.Reachable (Manager.step { decode := fun _ _ => none }) (· = {}) m ∧
      (∃ e, (configure (fun _ => true) [meshTopic 9, meshTopic 9] "" [] m).1 = .error e) ∧
      ¬ m.SameSetup (configure (fun _ => true) [meshTopic 9, meshTopic 9] "" [] m).2 := by
  let m : Manager := (configure (fun _ => true) [meshTopic 7] "" [] {}).2
  have hreach : Run.Reachable (Manager.step { decode := fun _ _ => none }) (· = {}) m :=
    .next (a := .configure (fun _ => true) [meshTopic 7] "" []) (.start rfl) trivial rfl
  have hlost : (m.entries.contains "mesh:7",
      (configure (fun _ => true) [meshTopic 9, meshTopic 9] "" [] m).2.entries.contains "mesh:7",
      (configure (fun _ => true) [meshTopic 9, meshTopic 9] "" [] m).1.toOption.isSome) =
      (true, false, false) := by decide +kernel
  simp only [Prod.mk.injEq] at hlost
  obtain ⟨hbefore, hafter, hthrows⟩ := hlost
  refine ⟨m, hreach, ?_, fun hsame => ?_⟩
  · cases hresult : (configure (fun _ => true) [meshTopic 9, meshTopic 9] "" [] m).1 with
    | ok _ =>
        rw [hresult] at hthrows
        cases hthrows
    | error e => exact ⟨e, rfl⟩
  · rw [hsame.entries, hbefore] at hafter
    cases hafter

end UavBluetooth.Bridge
