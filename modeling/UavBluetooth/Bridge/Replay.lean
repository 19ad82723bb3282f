import UavBluetooth.Bridge.Operations
import UavBluetooth.Lib.Window

set_option autoImplicit false

/-! # Replay suppression

Within one configuration the history of an advertisement bridge and a peer token is the window
of the last 4096 payloads recorded there (`windowed_reachable`), so what `publish` suppresses
is exactly what is in that window, and a payload comes back only after a whole window of others
(`replay_suppression`).
-/

namespace UavBluetooth.Bridge

open Config Util

/-! ## Histories -/

/-- The history of a bridge and a peer token. -/
def Manager.history (m : Manager) (key token : String) : List Bytes :=
  match m.entries[key]? with
  | some entry => entry.history token
  | none => []

theorem history_of_entry {m : Manager} {key : String} {entry : Entry}
    (h : m.entries[key]? = some entry) (token : String) :
    m.history key token = entry.history token := by
  unfold Manager.history
  rw [h]

theorem history_setEntry {m : Manager} {key : String} {entry' : Entry} (k token : String) :
    (m.setEntry key entry').history k token =
      if key = k then entry'.history token else m.history k token := by
  unfold Manager.history
  rw [Manager.getElem?_setEntry]
  by_cases hk : key = k
  · rw [if_pos hk, if_pos hk]
  · rw [if_neg hk, if_neg hk]

theorem history_of_recent {entry entry' : Entry}
    (h : entry'.recentPayloads = entry.recentPayloads) (token : String) :
    entry'.history token = entry.history token := by
  unfold Entry.history Entry.recent
  rw [h]

/-- A new payload is pushed on the window of its token. -/
theorem history_remember {now : Time} {entry : Entry} {token : String} {payload : Bytes}
    (hnew : payload ∉ entry.history token) (t : String) :
    (remember now entry token payload).history t =
      if token = t then Window.push maxRecentPayloads (entry.history token) payload
      else entry.history t := by
  unfold remember
  simp only [mem_history_iff]
  rw [if_neg hnew]
  unfold Entry.history Entry.recent
  simp only [Std.ExtTreeMap.getElem?_insert, Std.LawfulEqCmp.compare_eq_iff_eq]
  by_cases ht : token = t
  · subst ht
    simp only [if_true, Option.getD_some]
    unfold Window.push
    simp only [List.length_append, List.length_map, List.length_singleton]
    split <;> simp [List.map_tail]
  · simp only [ht, if_false]

/-! ## Runs within one configuration -/

inductive Arrival where
  | published (p : Publication)
  | recorded (p : Publication)
  deriving DecidableEq, Repr

/-- The manager and the record of what was published and what entered a history, oldest
first. -/
structure Session where
  manager : Manager := {}
  log : List Arrival := []

def arrivals (ros : Ros) (m : Manager) (op : Operation) : List Arrival :=
  (operate ros m op).2.toList.map .published ++ (recordedBy ros m op).toList.map .recorded

/-- One operation within the configuration. -/
def Session.step (ros : Ros) (s : Session) (op : Operation) : Option Session :=
  if op.replaces then none
  else some { manager := (operate ros s.manager op).1
              log := s.log ++ arrivals ros s.manager op }

/-- A manager that has just been configured. -/
def Session.Initial (s : Session) : Prop :=
  (∃ loadable topics peersPrefix peerWhitelist m,
    configure loadable topics peersPrefix peerWhitelist m = (.ok (), s.manager)) ∧ s.log = []

/-- The payloads that entered the history of a bridge and a token, oldest first. -/
def recordsOf (key token : String) (log : List Arrival) : List Bytes :=
  log.filterMap fun
    | .recorded p => if p.key = key ∧ p.token = token then some p.payload else none
    | .published _ => none

@[simp] theorem recordsOf_append (key token : String) (log log' : List Arrival) :
    recordsOf key token (log ++ log') = recordsOf key token log ++ recordsOf key token log' :=
  List.filterMap_append ..

@[simp] theorem recordsOf_published (key token : String) (ps : List Publication) :
    recordsOf key token (ps.map .published) = [] := by
  simp [recordsOf]

/-- The entries that `configure` makes have no history. -/
theorem configureTopics_recent (loadable : String → Bool) (topics : List SharedTopicConfig)
    (m : Manager) (h : ∀ (key : String) (entry : Entry), m.entries[key]? = some entry →
      entry.recentPayloads = ∅) :
    ∀ (key : String) (entry : Entry),
      (configureTopics loadable topics m).2.entries[key]? = some entry →
        entry.recentPayloads = ∅ := by
  induction topics generalizing m with
  | nil => exact h
  | cons configured rest ih =>
      have hadd : ∀ (key : String) (entry : Entry),
          (m.addEntry configured).entries[key]? = some entry → entry.recentPayloads = ∅ := by
        intro key entry hk
        unfold Manager.addEntry at hk
        rw [Manager.getElem?_setEntry] at hk
        split at hk
        · cases hk
          rfl
        · exact h key entry hk
      simp only [configureTopics]
      split
      · exact ih m h
      · split
        · exact h
        · split
          · exact ih _ hadd
          · exact hadd

theorem configure_history (loadable : String → Bool) (topics : List SharedTopicConfig)
    (peersPrefix : String) (peerWhitelist : List String) (m : Manager) (key token : String) :
    (configure loadable topics peersPrefix peerWhitelist m).2.history key token = [] := by
  have hrecent : ∀ (k : String) (entry : Entry),
      (configure loadable topics peersPrefix peerWhitelist m).2.entries[k]? = some entry →
        entry.recentPayloads = ∅ := by
    unfold configure
    simp only
    split
    · intro k entry h
      simp at h
    · exact configureTopics_recent loadable topics _ (fun k entry h => by simp at h)
  unfold Manager.history
  cases hentry : (configure loadable topics peersPrefix peerWhitelist m).2.entries[key]? with
  | none => rfl
  | some entry =>
      show entry.history token = []
      unfold Entry.history Entry.recent
      rw [hrecent key entry hentry]
      simp

/-! ## The window invariant -/

/-- An advertisement that was published was recorded afterwards. -/
def Followed : List Arrival → Prop
  | [] => True
  | e :: rest =>
      (∀ p channel, e = .published p → p.key = entryKey .advertisement channel →
        .recorded p ∈ rest) ∧ Followed rest

theorem Followed.append {log log' : List Arrival} (h : Followed log) (h' : Followed log') :
    Followed (log ++ log') := by
  induction log with
  | nil => exact h'
  | cons e rest ih =>
      exact ⟨fun p channel he hkey => List.mem_append_left _ (h.1 p channel he hkey), ih h.2⟩

theorem Followed.recorded {before after : List Arrival} {p : Publication} {channel : UInt16}
    (h : Followed (before ++ .published p :: after))
    (hkey : p.key = entryKey .advertisement channel) : .recorded p ∈ after := by
  induction before with
  | nil => exact h.1 p channel rfl hkey
  | cons e rest ih => exact ih h.2

/-- Every history is duplicate-free and the window over its records. -/
structure Windowed (s : Session) : Prop where
  window : ∀ key token, s.manager.history key token =
    Window.last maxRecentPayloads (recordsOf key token s.log)
  nodup : ∀ key token, (s.manager.history key token).Nodup
  followed : Followed s.log

theorem windowed_initial {s : Session} (h : s.Initial) : Windowed s := by
  obtain ⟨⟨loadable, topics, peersPrefix, peerWhitelist, m, hconfigure⟩, hlog⟩ := h
  have hempty : ∀ key token, s.manager.history key token = [] := by
    intro key token
    have := configure_history loadable topics peersPrefix peerWhitelist m key token
    rwa [hconfigure] at this
  refine ⟨fun key token => ?_, fun key token => ?_, ?_⟩
  · rw [hempty, hlog]
    exact Window.last_nil.symm
  · rw [hempty]
    exact List.nodup_nil
  · rw [hlog]
    trivial

/-- An operation that records nothing keeps the invariant. -/
theorem Windowed.quiet {s : Session} {m' : Manager} {publication : Option Publication}
    (h : Windowed s) (hhistory : ∀ key token, m'.history key token = s.manager.history key token)
    (hmesh : ∀ p ∈ publication, ∃ channel, p.key = entryKey .mesh channel) :
    Windowed ⟨m', s.log ++ (publication.toList.map .published ++ [])⟩ := by
  rw [List.append_nil]
  refine ⟨fun key token => ?_, fun key token => ?_, h.followed.append ?_⟩
  · rw [hhistory, h.window, recordsOf_append, recordsOf_published, List.append_nil]
  · rw [hhistory]
    exact h.nodup key token
  · cases publication with
    | none => trivial
    | some p =>
        refine ⟨fun q channel hq hkey => ?_, trivial⟩
        cases hq
        obtain ⟨channel', hmeshKey⟩ := hmesh p rfl
        rw [hmeshKey] at hkey
        exact absurd (entryKey_inj.mp hkey).1 (by decide)

theorem windowed_served {s : Session} {m' : Manager} {publication recorded : Option Publication}
    (h : Windowed s) (hserved : Served s.manager m' publication recorded) :
    Windowed ⟨m', s.log ++ (publication.toList.map .published ++
      recorded.toList.map .recorded)⟩ := by
  have hsame : ∀ {key : String} {entry entry' : Entry}, s.manager.entries[key]? = some entry →
      entry'.recentPayloads = entry.recentPayloads → ∀ k token,
        (s.manager.setEntry key entry').history k token = s.manager.history k token := by
    intro key entry entry' hentry hrecent k token
    rw [history_setEntry]
    split
    · rename_i hk
      rw [← hk, history_of_entry hentry, history_of_recent hrecent]
    · rfl
  have hnone : ∀ p ∈ (none : Option Publication), ∃ channel, p.key = entryKey .mesh channel :=
    fun p hp => by cases hp
  cases hserved with
  | unchanged => exact h.quiet (fun _ _ => rfl) hnone
  | senders advertisement mesh => exact h.quiet (fun _ _ => rfl) hnone
  | entry key entry entry' hentry _ hrecent => exact h.quiet (hsame hentry hrecent) hnone
  | meshPublished channel entry token payload hentry =>
      refine h.quiet (hsame hentry rfl) (fun p hp => ?_)
      cases hp
      exact ⟨channel, rfl⟩
  | remembered now channel entry token payload _ hentry hnew hpublication =>
      -- One payload enters the window of one entry and token.
      have hhistory : ∀ k t, (s.manager.setEntry (entryKey .advertisement channel)
          (remember now entry token payload)).history k t =
            if entryKey .advertisement channel = k ∧ token = t then
              Window.push maxRecentPayloads (s.manager.history k t) payload
            else s.manager.history k t := by
        intro k t
        rw [history_setEntry]
        by_cases hk : entryKey .advertisement channel = k
        · subst hk
          rw [if_pos rfl, history_remember hnew, history_of_entry hentry]
          by_cases ht : token = t
          · subst ht
            simp
          · simp [ht]
        · simp [hk]
      refine ⟨fun k t => ?_, fun k t => ?_, h.followed.append ?_⟩
      · show Manager.history _ k t = _
        rw [hhistory, recordsOf_append, recordsOf_append, recordsOf_published, List.nil_append]
        by_cases hkt : entryKey .advertisement channel = k ∧ token = t
        · rw [if_pos hkt, h.window, Window.push_last]
          congr 1
          obtain ⟨rfl, rfl⟩ := hkt
          simp [recordsOf]
        · rw [if_neg hkt, h.window]
          simp [recordsOf, hkt]
      · show (Manager.history _ k t).Nodup
        rw [hhistory]
        split
        · rename_i hkt
          obtain ⟨rfl, rfl⟩ := hkt
          -- It was not in the window, so the window stays free of duplicates.
          have hfresh : (s.manager.history (entryKey .advertisement channel) token ++
              [payload]).Nodup := by
            rw [history_of_entry hentry]
            refine List.nodup_append.mpr ⟨?_, List.nodup_singleton _, ?_⟩
            · rw [← history_of_entry hentry]
              exact h.nodup _ _
            · rintro x hx y hy rfl
              rw [List.mem_singleton.mp hy] at hx
              exact hnew hx
          unfold Window.push
          split
          · exact hfresh.sublist (List.tail_sublist _)
          · exact hfresh
        · exact h.nodup k t
      · cases publication with
        | none => exact ⟨fun p channel hp => by simp at hp, trivial⟩
        | some p =>
            have hp := hpublication p rfl
            subst hp
            exact ⟨fun q channel' hq _ => by cases hq; exact List.mem_singleton_self _,
              fun q channel' hq => by simp at hq, trivial⟩

theorem windowed_reachable {ros : Ros} {s : Session}
    (h : Run.Reachable (Session.step ros) Session.Initial s) : Windowed s := by
  refine h.invariant (fun _ => windowed_initial) (fun s op s' hs _ hstep => ?_)
  unfold Session.step at hstep
  cases hreplaces : op.replaces with
  | true =>
      rw [hreplaces, if_pos rfl] at hstep
      cases hstep
  | false =>
      rw [hreplaces, if_neg Bool.false_ne_true] at hstep
      cases hstep
      exact windowed_served hs (operate_served ros s.manager hreplaces)

/-! ## Replay suppression -/

/-- The token under which an advertiser's data is published and remembered. -/
def advertisementToken (hostname mac : String) : String :=
  safePeerToken (advertisementPeer hostname mac)

/-- Live and cached packets are admitted alike, and go to the same entry and token. -/
theorem arrivals_agree (ros : Ros) (now : Time) (hostname mac : String) (payload : Bytes)
    (m : Manager) :
    (incoming m hostname mac payload = none →
      handleAdvertisement ros now hostname mac payload m = (m, false, none) ∧
        rememberAdvertisement now hostname mac payload m = m) ∧
    ∀ channel entry body, incoming m hostname mac payload = some (channel, entry, body) →
      (∃ entry' ∈ [entry, remember now entry (advertisementToken hostname mac) body],
        (handleAdvertisement ros now hostname mac payload m).1 =
          m.setEntry (entryKey .advertisement channel) entry') ∧
      rememberAdvertisement now hostname mac payload m =
        m.setEntry (entryKey .advertisement channel)
          (remember now entry (advertisementToken hostname mac) body) := by
  rw [handleAdvertisement_eq, rememberAdvertisement_eq]
  refine ⟨fun hnone => ?_, fun channel entry body hsome => ?_⟩
  · rw [hnone]
    exact ⟨rfl, rfl⟩
  · rw [hsome]
    refine ⟨⟨_, ?_, rfl⟩, rfl⟩
    rcases publish_cases ros now (entryKey .advertisement channel) entry
      (advertisementPeer hostname mac) body with ⟨hsame, _⟩ | ⟨_, hset, _⟩
    · simp [hsame]
    · simp [hset, advertisementToken]

/-- A live packet is published if it is admitted, decodes, and is new to the history. -/
theorem handleAdvertisement_publishes_iff {ros : Ros}
    (hros : ∀ config token, ros.publisher config token = true) (now : Time)
    (hostname mac : String) (payload : Bytes) (m : Manager) (p : Publication) :
    (handleAdvertisement ros now hostname mac payload m).2.2 = some p ↔
      ∃ channel entry body, incoming m hostname mac payload = some (channel, entry, body) ∧
        (ros.decode entry.config body).isSome = true ∧
        body ∉ m.history (entryKey .advertisement channel) (advertisementToken hostname mac) ∧
        p = ⟨entryKey .advertisement channel, advertisementToken hostname mac, body⟩ := by
  rw [handleAdvertisement_eq]
  cases hin : incoming m hostname mac payload with
  | none => simp
  | some target =>
      obtain ⟨channel, entry, body⟩ := target
      have hentry : m.entries[entryKey .advertisement channel]? = some entry := incoming_entry hin
      have hpublish : (publish ros now (entryKey .advertisement channel) entry
          (advertisementPeer hostname mac) body true).2.2 = some p ↔
          (ros.decode entry.config body).isSome = true ∧
            body ∉ entry.history (advertisementToken hostname mac) ∧
            p = ⟨entryKey .advertisement channel, advertisementToken hostname mac, body⟩ := by
        unfold publish advertisementToken
        simp only [Bool.true_and, mem_history_iff, hros, Bool.not_true, Bool.false_eq_true,
          if_false]
        split
        · rename_i hseen
          simp [hseen]
        · rename_i hnew
          cases ros.decode entry.config body with
          | none => simp
          | some decoded =>
              simp only [Option.some.injEq, Option.isSome_some, hnew, not_false_eq_true, true_and]
              exact eq_comm
      simp only
      rw [hpublish]
      constructor
      · rintro ⟨hdecode, hnew, hp⟩
        exact ⟨channel, entry, body, rfl, hdecode, by rwa [history_of_entry hentry], hp⟩
      · rintro ⟨_, _, _, heq, hdecode, hnew, hp⟩
        cases heq
        rw [history_of_entry hentry] at hnew
        exact ⟨hdecode, hnew, hp⟩

/-- A payload comes back only after a whole window of other payloads. -/
theorem republished_after {ros : Ros} {s : Session} (h : Windowed s) {op : Operation}
    (hop : op.replaces = false) {p : Publication} {channel : UInt16}
    (hpublished : (operate ros s.manager op).2 = some p)
    (hkey : p.key = entryKey .advertisement channel) {before after : List Arrival}
    (hlog : s.log = before ++ .published p :: after) :
    ∃ others, others <:+ recordsOf p.key p.token after ∧ others.length = maxRecentPayloads ∧
      others.Nodup ∧ p.payload ∉ others := by
  have hnew : p.payload ∉ s.manager.history p.key p.token := by
    have hserved := operate_served ros s.manager hop
    rw [hpublished] at hserved
    generalize (operate ros s.manager op).1 = m' at hserved
    generalize recordedBy ros s.manager op = recorded at hserved
    cases hserved with
    | meshPublished channel' entry token payload hentry =>
        exact absurd (entryKey_inj.mp hkey).1 (by decide)
    | remembered now channel' entry token payload _ hentry hnew hpublication =>
        rw [hpublication p rfl, history_of_entry hentry]
        exact hnew
  -- What is published is recorded as well, later in the log.
  have hrecorded : Arrival.recorded p ∈ after := by
    have hfollowed := h.followed
    rw [hlog] at hfollowed
    exact hfollowed.recorded hkey
  obtain ⟨middle, rest, rfl⟩ := List.append_of_mem hrecorded
  have hrecords : recordsOf p.key p.token s.log =
      (recordsOf p.key p.token before ++ recordsOf p.key p.token middle) ++
        p.payload :: recordsOf p.key p.token rest := by
    rw [hlog]
    simp [recordsOf]
  -- The payload has left the window, so a whole window of others came after it.
  have hwindow := h.window p.key p.token
  rw [hwindow, hrecords] at hnew
  obtain ⟨hlength, hsuffix⟩ := Window.last_of_not_mem hnew
  rw [← hrecords, ← hwindow] at hlength hsuffix
  rw [← hrecords, ← hwindow] at hnew
  refine ⟨_, hsuffix.trans ?_, hlength, h.nodup _ _, hnew⟩
  refine ⟨recordsOf p.key p.token middle ++ [p.payload], ?_⟩
  simp [recordsOf]

/-- **Replay suppression.** In every state of every run within one configuration, live and
cached packets are admitted alike and go to the same bridge and token; remembering publishes
nothing; every history is duplicate-free and holds the last 4096 recorded payloads in their
order; if publishers can be made, a live packet is published if and only if it is admitted,
decodes and is not in the history; and one that was published comes back only after 4096
others. -/
theorem replay_suppression {ros : Ros} {s : Session}
    (hs : Run.Reachable (Session.step ros) Session.Initial s) :
    (∀ now hostname mac payload,
      (incoming s.manager hostname mac payload = none →
        handleAdvertisement ros now hostname mac payload s.manager = (s.manager, false, none) ∧
          rememberAdvertisement now hostname mac payload s.manager = s.manager) ∧
      ∀ channel entry body, incoming s.manager hostname mac payload = some (channel, entry, body) →
        (∃ entry' ∈ [entry, remember now entry (advertisementToken hostname mac) body],
          (handleAdvertisement ros now hostname mac payload s.manager).1 =
            s.manager.setEntry (entryKey .advertisement channel) entry') ∧
        rememberAdvertisement now hostname mac payload s.manager =
          s.manager.setEntry (entryKey .advertisement channel)
            (remember now entry (advertisementToken hostname mac) body)) ∧
    (∀ now hostname mac payload,
      (operate ros s.manager (.rememberAdvertisement now hostname mac payload)).2 = none) ∧
    (∀ key token, (s.manager.history key token).Nodup ∧
      (s.manager.history key token).length ≤ maxRecentPayloads ∧
      s.manager.history key token =
        Window.last maxRecentPayloads (recordsOf key token s.log)) ∧
    ((∀ config token, ros.publisher config token = true) → ∀ now hostname mac payload p,
      (handleAdvertisement ros now hostname mac payload s.manager).2.2 = some p ↔
        ∃ channel entry body,
          incoming s.manager hostname mac payload = some (channel, entry, body) ∧
          (ros.decode entry.config body).isSome = true ∧
          body ∉ s.manager.history (entryKey .advertisement channel)
            (advertisementToken hostname mac) ∧
          p = ⟨entryKey .advertisement channel, advertisementToken hostname mac, body⟩) ∧
    ∀ op p channel before after, op.replaces = false →
      (operate ros s.manager op).2 = some p → p.key = entryKey .advertisement channel →
      s.log = before ++ .published p :: after →
        ∃ others, others <:+ recordsOf p.key p.token after ∧
          others.length = maxRecentPayloads ∧ others.Nodup ∧ p.payload ∉ others := by
  have hwindowed := windowed_reachable hs
  refine ⟨fun now hostname mac payload => arrivals_agree ros now hostname mac payload s.manager,
    fun _ _ _ _ => rfl, fun key token => ⟨hwindowed.nodup key token, ?_, hwindowed.window key token⟩,
    fun hros now hostname mac payload p =>
      handleAdvertisement_publishes_iff hros now hostname mac payload s.manager p,
    fun op p channel before after hop hpublished hkey hlog =>
      republished_after hwindowed hop hpublished hkey hlog⟩
  rw [hwindowed.window]
  exact Window.length_last_le _

/-- An import bridge on advertisement channel 5, and a frame for it. -/
def importChannel : SharedTopicConfig :=
  { transport := .advertisement, mode := .import, channelId := 5 }

def frame : Bytes := [0x4d, 0x42, 1, 5, 0, 9]

/-- A codec that takes every payload. -/
def openRos : Ros := { decode := fun _ payload => some payload }

/-- A frame that was published once is not published again at once. -/
theorem replay_suppression_repeated :
    ∃ s, Run.Reachable (Session.step openRos) Session.Initial s ∧
      s.manager.history "advertisement:5" "uav1" = [[9]] ∧
      s.log = [.published ⟨"advertisement:5", "uav1", [9]⟩,
        .recorded ⟨"advertisement:5", "uav1", [9]⟩] ∧
      ∀ now p, (handleAdvertisement openRos now "uav1" "" frame s.manager).2.2 ≠ some p := by
  let m : Manager := (configure (fun _ => true) [importChannel] "" [] {}).2
  have hinit : Session.Initial ⟨m, []⟩ :=
    ⟨⟨fun _ => true, [importChannel], "", [], {}, by
      refine Prod.ext ?_ rfl
      exact (configure_ok_iff _ _ _ _ _).mpr (by decide)⟩, rfl⟩
  have hrun : ((Run.exec (Session.step openRos) ⟨m, []⟩
      [.handleAdvertisement 1 "uav1" "" frame]).map fun s =>
        (s.manager.history "advertisement:5" "uav1", s.log,
          (incoming s.manager "uav1" "" frame).map fun t => (t.1, t.2.2))) =
      some ([[9]], [.published ⟨"advertisement:5", "uav1", [9]⟩,
        .recorded ⟨"advertisement:5", "uav1", [9]⟩], some (5, [9])) := by decide +kernel
  obtain ⟨s, hs, hval⟩ := Option.map_eq_some_iff.mp hrun
  simp only [Prod.mk.injEq] at hval
  obtain ⟨hhistory, hlog, htarget⟩ := hval
  have hreach := Run.Reachable.exec (.start hinit) hs
  obtain ⟨_, _, _, hpublishes, _⟩ := replay_suppression hreach
  refine ⟨s, hreach, hhistory, hlog, fun now p hp => ?_⟩
  obtain ⟨channel, entry, body, hin, _, hnew, _⟩ := (hpublishes (fun _ _ => rfl) now "uav1" "" frame p).mp hp
  rw [hin] at htarget
  simp only [Option.map_some, Option.some.injEq, Prod.mk.injEq] at htarget
  obtain ⟨rfl, rfl⟩ := htarget
  have hkey : entryKey .advertisement 5 = "advertisement:5" := by decide +kernel
  have htoken : advertisementToken "uav1" "" = "uav1" := by decide +kernel
  rw [hkey, htoken, hhistory] at hnew
  exact hnew (List.mem_singleton_self _)

end UavBluetooth.Bridge
