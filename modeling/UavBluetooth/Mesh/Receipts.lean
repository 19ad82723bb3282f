import UavBluetooth.Mesh.Handles
import UavBluetooth.Mesh.Network

set_option autoImplicit false

/-! # Receipts and acknowledgements

A receiver queues an acknowledgement only for an identity of which its bridge has accepted a
frame, and a sender gives up a target because of an acknowledgement only if that target
published a frame sent to it under the sequence. The invariant `Sound` of a node follows the receipt
from the map of receipts through the queue and the outgoing frames, and `Honest` through the air
(`honest_reachable`).
-/

namespace UavBluetooth.Mesh

open Config

/-! ## The executor and the receipts -/

theorem chooseTargets_receiver (now : Time) (members probes : List UInt16)
    (r : MeshReliable) : (chooseTargets now members probes r).2.seen = r.seen ∧
      (chooseTargets now members probes r).2.acks = r.acks := by
  unfold chooseTargets
  split
  · split <;> exact ⟨rfl, rfl⟩
  · exact ⟨rfl, rfl⟩

theorem arbitrate_receiver {now : Time} {send : Send} {addresses members probes : List UInt16}
    {r r' : MeshReliable} {adm : Option Admission}
    (h : arbitrate now send addresses members probes r = some (r', adm)) :
    r'.seen = r.seen ∧ r'.acks = r.acks := by
  have hchoose := chooseTargets_receiver now members probes r
  unfold arbitrate at h
  simp only at h
  split at h
  · cases h
    exact hchoose
  · obtain ⟨next, _, h⟩ := Option.map_eq_some_iff.mp h
    unfold arbitrateTurn at h
    split at h
    · simp only at h
      split at h <;> cases h <;> exact hchoose
    · cases h
      exact hchoose

theorem admitSample_receiver (now : Time) (send : Send) (adm : Admission) (data : Bytes)
    (r : MeshReliable) : (admitSample now send adm data r).seen = r.seen ∧
      (admitSample now send adm data r).acks = r.acks := by
  unfold admitSample evictOldest
  split
  · exact ⟨rfl, rfl⟩
  · split <;> exact ⟨rfl, rfl⟩

theorem rollBack_receiver (send : Send) (adm : Admission) (r : MeshReliable) :
    (rollBack send adm r).seen = r.seen ∧ (rollBack send adm r).acks = r.acks := by
  unfold rollBack storeLatest
  simp only
  split <;> exact ⟨rfl, rfl⟩

/-- An event of the receive thread. -/
def Event.receiving : Event → Bool
  | .opened _ => true
  | .published _ => true
  | .refused _ => true
  | .acked _ _ => true
  | _ => false

/-- What the executor does to the receiver's side of the state. -/
structure ReceiverStep (s : Station) (task : Task) (s' : Station) (events : List Event) :
    Prop where
  decoding : s'.decoding = s.decoding
  seen : s'.reliable.seen = s.reliable.seen ∨ task = .sweep ∨
    ∃ preserveLatest, task = .clear preserveLatest
  acks : ∀ ack ∈ s'.reliable.acks, ack ∈ s.reliable.acks ∨
    ∃ item, task = .requeueAck item ∧ ack = item.ack
  events : ∀ e ∈ events, e.receiving = false

theorem exec_receiver {now : Time} {view : View} {answer : Answer} {s s' : Station}
    {task : Task} {events : List Event}
    (hx : execTask now view answer s task = some (s', events)) :
    ReceiverStep s task s' events := by
  by_cases hquiet : task.quiet = true
  · have hstep := exec_quiet hquiet hx
    refine ⟨hstep.decoding, Or.inl hstep.reliable.seen, hstep.acks, fun e he => ?_⟩
    rcases hstep.events e he with ⟨_, rfl⟩ | ⟨_, rfl⟩ <;> rfl
  have hkeep : ∀ r' tasks, r'.seen = s.reliable.seen → r'.acks = s.reliable.acks →
      (∀ e ∈ events, e.receiving = false) →
      ReceiverStep s task ((s.withReliable r').push tasks) events :=
    fun r' tasks hseen hacks he =>
      ⟨rfl, Or.inl hseen, fun ack h => Or.inl (by rw [← hacks]; exact h), he⟩
  have hsent : ∀ (sent : Bool) (frame : Frame) (more : List Event),
      (∀ e ∈ more, e.receiving = false) →
      ∀ e ∈ (if sent = true then [Event.transmitted frame] else []) ++ more,
        e.receiving = false := by
    intro sent frame more hmore e he
    rcases List.mem_append.mp he with he | he
    · split at he
      · rw [List.mem_singleton] at he
        subst he
        rfl
      · cases he
    · exact hmore e he
  cases task with
  | maintain =>
      simp only [execTask] at hx
      split at hx <;> cases hx
      · exact ⟨rfl, Or.inl rfl, fun _ h => Or.inl h, by simp⟩
      · exact hkeep _ _ rfl rfl (by simp)
  | clear preserveLatest =>
      cases hx
      refine ⟨rfl, Or.inr (Or.inr ⟨_, rfl⟩), fun _ h => ?_, ?_⟩
      · cases h
      · simp [Event.receiving]
  | sweep =>
      cases hx
      refine ⟨rfl, Or.inr (Or.inl rfl), fun ack h => Or.inl (List.mem_of_mem_drop h), ?_⟩
      intro e he
      rcases mem_sweepEvents.mp he with ⟨_, _, rfl⟩ | ⟨_, _, rfl⟩ | ⟨_, _, rfl⟩ |
        ⟨_, _, _, _, rfl⟩ <;> rfl
  | transmit item =>
      simp only [execTask] at hx
      split at hx
      · cases hx
      · split at hx
        · split at hx <;> cases hx
          · exact hkeep _ _ rfl rfl (by simp [Event.receiving])
          · exact hkeep _ [] rfl rfl (by simp [Event.receiving])
        · cases hx
          exact hkeep _ _ rfl rfl (by simp)
        · cases hx
          have he := hsent ‹Bool› item.frame [] (by simp)
          rw [List.append_nil] at he
          split
          · exact hkeep _ _ rfl rfl he
          · exact hkeep _ [] rfl rfl he
        · cases hx
  | consume send =>
      cases hx
      exact hkeep _ [] rfl rfl (by simp)
  | install meshApp coordinator =>
      cases hx
      exact ⟨rfl, Or.inl rfl, fun _ h => Or.inl h, by simp⟩
  | enter send =>
      simp only [execTask] at hx
      split at hx
      · cases hx
        exact hkeep _ [] rfl rfl (by simp [Event.receiving])
      · split at hx <;> cases hx
        · exact ⟨rfl, Or.inl rfl, fun _ h => Or.inl h, by simp⟩
        · exact hkeep _ _ rfl rfl (by simp)
  | gate send =>
      simp only [execTask] at hx
      split at hx <;> cases hx
      · exact hkeep _ _ rfl rfl (by simp)
      · exact hkeep _ [] rfl rfl (by simp [Event.receiving])
  | claim send addresses =>
      simp only [execTask] at hx
      split at hx
      · cases hx
        exact hkeep _ [] rfl rfl (by simp [Event.receiving])
      · have hs₁ : ∃ r₁, (if send.resumed = true then s else
            s.withReliable (dropLatest send s.reliable)) = s.withReliable r₁ ∧
            r₁.seen = s.reliable.seen ∧ r₁.acks = s.reliable.acks := by
          split
          · exact ⟨s.reliable, rfl, rfl, rfl⟩
          · exact ⟨_, rfl, rfl, rfl⟩
        obtain ⟨r₁, hr₁, hseen, hacks⟩ := hs₁
        rw [hr₁] at hx
        split at hx
        · split at hx <;> cases hx
          · exact hkeep r₁ _ hseen hacks (by simp)
          · exact hkeep r₁ [] hseen hacks (by simp [Event.receiving])
        · cases hx
          exact hkeep r₁ _ hseen hacks (by simp)
  | occupied send addresses =>
      simp only [execTask] at hx
      split at hx <;> cases hx
      · exact hkeep _ [] rfl rfl (by simp [Event.receiving])
      · exact hkeep _ _ rfl rfl (by simp)
  | arbitrate send addresses =>
      simp only [execTask] at hx
      split at hx
      · cases hx
      · rename_i r harb
        cases hx
        obtain ⟨hseen, hacks⟩ := arbitrate_receiver harb
        exact hkeep r [] hseen hacks (by simp [Event.receiving])
      · rename_i r adm harb
        cases hx
        obtain ⟨hseen, hacks⟩ := arbitrate_receiver harb
        exact hkeep r _ hseen hacks (by simp)
  | admission send adm =>
      cases hx
      obtain ⟨hseen, hacks⟩ := admitSample_receiver now send adm
        (makeMeshReliableData send.payload adm.sequence view.swarmId) s.reliable
      refine hkeep _ _ hseen hacks (fun e he => ?_)
      rcases List.mem_append.mp he with he | he
      · obtain ⟨_, _, rfl⟩ := List.mem_map.mp he
        rfl
      · rw [List.mem_singleton] at he
        subst he
        rfl
  | fanOut send adm data remaining admitted =>
      cases remaining with
      | nil =>
          simp only [execTask] at hx
          split at hx <;> cases hx
          · exact hkeep _ [] rfl rfl (by simp [Event.receiving])
          · obtain ⟨hseen, hacks⟩ := rollBack_receiver send adm s.reliable
            exact hkeep _ [] hseen hacks (by simp [Event.receiving])
      | cons destination remaining =>
          simp only [execTask] at hx
          split at hx
          · cases hx
          · split at hx <;> cases hx
            · exact hkeep _ _ rfl rfl (by simp [Event.receiving])
            · exact hkeep _ _ rfl rfl (by simp)
            · have he := hsent ‹Bool› ⟨destination, send.bridge.meshAppKeyIndex,
                fanOutFrame adm data destination⟩ [] (by simp)
              rw [List.append_nil] at he
              exact hkeep _ _ rfl rfl he
  | plain send =>
      simp only [execTask] at hx
      split at hx
      · cases hx
      · split at hx <;> cases hx
        · exact hkeep _ [] rfl rfl (by simp [Event.receiving])
        · exact hkeep _ [] rfl rfl (hsent _ _ _ (by simp [Event.receiving]))
  | _ => exact absurd rfl hquiet

/-! ## Frames of one identity -/

/-- The identity that an acknowledgement is for. -/
def MeshReliableAck.seenKey (ack : MeshReliableAck) : MeshReliableSeenKey where
  source := ack.destination
  keyIndex := ack.appKeyIndex
  swarmId := meshReliableSwarmId ack.data
  vendorOpcode := vendorOpcode ack.data
  sequence := meshReliableSequence ack.data

/-- The acknowledgement of a received frame. -/
def ReceivedMessage.ack (m : ReceivedMessage) : MeshReliableAck :=
  ⟨m.source, m.keyIndex, acknowledgementOf m.data⟩

theorem ack_seenKey {m : ReceivedMessage} (h : 3 ≤ m.data.length) :
    m.ack.seenKey = m.seenKey := by
  obtain ⟨elementIndex, source, destination, keyIndex, data⟩ := m
  match data, h with
  | a :: b :: c :: rest, _ =>
    simp only [MeshReliableAck.seenKey, ReceivedMessage.ack, ReceivedMessage.seenKey,
      MeshReliableSeenKey.mk.injEq, true_and]
    exact ⟨u16_of_bytes _, rfl, u16_of_bytes _⟩

theorem ack_kind {m : ReceivedMessage} (h : 3 ≤ m.data.length) :
    frameKind m.ack.data = reliableAck := by
  obtain ⟨elementIndex, source, destination, keyIndex, data⟩ := m
  match data, h with
  | a :: b :: c :: rest, _ => rfl

theorem length_makeMeshReliableData (payload : Bytes) (sequence swarmId : UInt16) :
    3 < (makeMeshReliableData payload sequence swarmId).length := by
  simp only [makeMeshReliableData, List.length_append, u16Bytes, List.length_cons,
    List.length_nil]
  omega

theorem repairFrame_kind {sample : MeshReliablePending} (h : 3 < sample.data.length)
    (peer : UInt16) : frameKind (repairFrame sample peer) ≠ reliableAck := by
  rw [repairFrame, frameKind_withKind _ h]
  split <;> decide

theorem receiptQueryOf_kind {data : Bytes} (h : 3 < data.length) :
    frameKind (receiptQueryOf data) ≠ reliableAck := by
  rw [receiptQueryOf, frameKind_withKind _ (by simp [reliableAckHeaderBytes]; omega)]
  decide

theorem fanOutFrame_kind (adm : Admission) {data : Bytes} (h : 3 < data.length)
    (destination : UInt16) : frameKind (fanOutFrame adm data destination) ≠ reliableAck := by
  rw [fanOutFrame, frameKind_withKind _ h]
  split <;> decide

/-! ## The invariant -/

/-- The bridge of the node has accepted a frame of the identity. -/
def Receipt (log : List (UInt16 × Event)) (a : UInt16) (key : MeshReliableSeenKey) : Prop :=
  ∃ m, (a, .published m) ∈ log ∧ m.seenKey = key

/-- The source has transmitted the message to the node. -/
def Sent (log : List (UInt16 × Event)) (a : UInt16) (m : ReceivedMessage) : Prop :=
  (m.source, .transmitted ⟨a, m.keyIndex, m.data⟩) ∈ log

/-- An acknowledgement that the node may send. -/
def AckSound (log : List (UInt16 × Event)) (a : UInt16) (ack : MeshReliableAck) : Prop :=
  frameKind ack.data = reliableAck ∧ Receipt log a ack.seenKey

/-- An outgoing frame that is an acknowledgement only of a receipt. -/
def OutboundSound (log : List (UInt16 × Event)) (a : UInt16) (item : Outbound) : Prop :=
  item.acknowledgement = true ∨ frameKind item.data = reliableAck → AckSound log a item.ack

def Task.Sound (log : List (UInt16 × Event)) (a : UInt16) : Task → Prop
  | .outbound item => OutboundSound log a item
  | .transmit item => OutboundSound log a item
  | .requeueAck item => AckSound log a item.ack
  | .fanOut _ _ data _ _ => 3 < data.length
  | _ => True

/-- The node's state against the record of the network. -/
structure Sound (log : List (UInt16 × Event)) (a : UInt16) (s : Station) : Prop where
  acks : ∀ ack ∈ s.reliable.acks, AckSound log a ack
  seen : ∀ (key : MeshReliableSeenKey) (entry : MeshReliableSeen),
    s.reliable.seen[key]? = some entry → entry.delivered = true → Receipt log a key
  tasks : ∀ t ∈ s.todo, t.Sound log a
  framed : ∀ t ∈ s.todo, ∀ send, t.send = some send → Framed send.bridge send.payload
  latest : ∀ (key : UInt64) (value : SharedTopicConfig × Bytes),
    s.reliable.latest[key]? = some value → Framed value.1 value.2
  pending : ∀ (sequence : UInt16) (p : MeshReliablePending),
    s.reliable.pending[sequence]? = some p → 3 < p.data.length
  decoding : ∀ d, s.decoding = some d → Sent log a d.message ∧
    isDataFrame d.message.data = true ∧
      (d.delivered = some true → (a, .published d.message) ∈ log)

section

variable {log log' : List (UInt16 × Event)} {a : UInt16}

theorem Receipt.mono (h : ∀ e ∈ log, e ∈ log') {key : MeshReliableSeenKey}
    (hr : Receipt log a key) : Receipt log' a key := by
  obtain ⟨m, hm, hkey⟩ := hr
  exact ⟨m, h _ hm, hkey⟩

theorem AckSound.mono (h : ∀ e ∈ log, e ∈ log') {ack : MeshReliableAck}
    (ha : AckSound log a ack) : AckSound log' a ack :=
  ⟨ha.1, ha.2.mono h⟩

theorem Task.Sound.mono (h : ∀ e ∈ log, e ∈ log') {t : Task} (ht : t.Sound log a) :
    t.Sound log' a := by
  cases t with
  | outbound item => exact fun hitem => (ht hitem).mono h
  | transmit item => exact fun hitem => (ht hitem).mono h
  | requeueAck item => exact AckSound.mono h ht
  | fanOut send adm data remaining admitted => exact ht
  | _ => trivial

theorem Sound.mono (h : ∀ e ∈ log, e ∈ log') {s : Station} (hs : Sound log a s) :
    Sound log' a s where
  acks := fun ack hack => (hs.acks ack hack).mono h
  seen := fun key entry hentry hd => (hs.seen key entry hentry hd).mono h
  tasks := fun t ht => (hs.tasks t ht).mono h
  framed := hs.framed
  latest := hs.latest
  pending := hs.pending
  decoding := fun d hd =>
    let ⟨hsent, hframe, hpublished⟩ := hs.decoding d hd
    ⟨h _ hsent, hframe, fun hv => h _ (hpublished hv)⟩

end

theorem sound_sweepTasks {log : List (UInt16 × Event)} {a : UInt16} {s : Station} {now : Time}
    (h : Sound log a s) : ∀ t ∈ sweepTasks now s.reliable, t.Sound log a := by
  obtain ⟨done, hloop, _⟩ := sweepLoop_spec now s.reliable
  have hlength : ∀ (q : UInt16) (p' : MeshReliablePending),
      (sweepLoop now s.reliable).pending[q]? = some p' → 3 < p'.data.length := by
    intro q p' hp'
    obtain ⟨p, hp, _, hdata | ⟨_, _, _, hdata, _⟩⟩ := hloop.kept q p' hp'
    · rw [hdata]
      exact h.pending q p hp
    · rw [hdata]
      exact length_makeMeshReliableData _ _ _
  intro t ht
  simp only [sweepTasks, List.mem_append, List.mem_map, List.mem_singleton] at ht
  rcases ht with ((⟨_, _, rfl⟩ | rfl) | ⟨item, hitem, rfl⟩) | ⟨_, _, rfl⟩
  · trivial
  · trivial
  · intro hack
    rcases hloop.outbound item hitem with hold | ⟨q, _, p', hp', hserves⟩
    · obtain ⟨ack, hmem, rfl⟩ := List.mem_map.mp hold
      exact h.acks ack (List.mem_of_mem_take hmem)
    · obtain ⟨_, _, _, hnot, hdata⟩ := hserves
      have hlen := hlength q p' hp'
      rcases hack with hack | hack
      · rw [hnot] at hack
        cases hack
      · rcases hdata with ⟨hdata, _⟩ | ⟨hdata, _⟩
        · rw [hdata] at hack
          exact absurd hack (receiptQueryOf_kind hlen)
        · rw [hdata] at hack
          exact absurd hack (repairFrame_kind hlen _)
  · trivial

/-! ## The executor keeps the invariant -/

theorem storeLatest_framed {send : Send} {r : MeshReliable}
    (hsend : Framed send.bridge send.payload)
    (h : ∀ (key : UInt64) (value : SharedTopicConfig × Bytes),
      r.latest[key]? = some value → Framed value.1 value.2) :
    ∀ (key : UInt64) (value : SharedTopicConfig × Bytes),
      (storeLatest send r).latest[key]? = some value → Framed value.1 value.2 := by
  intro key value hv
  rcases storeLatest_cases hv with hold | ⟨_, rfl⟩
  · exact h key value hold
  · exact hsend

theorem admitSample_length {now : Time} {send : Send} {adm : Admission} {data : Bytes}
    {r : MeshReliable} (hdata : 3 < data.length)
    (h : ∀ (q : UInt16) (p : MeshReliablePending), r.pending[q]? = some p → 3 < p.data.length) :
    ∀ (q : UInt16) (p : MeshReliablePending),
      (admitSample now send adm data r).pending[q]? = some p → 3 < p.data.length := by
  intro q p hp
  unfold admitSample at hp
  simp only at hp
  rw [Std.ExtTreeMap.getElem?_insertIfNew] at hp
  split at hp
  · cases hp
    exact hdata
  · exact h q p (evictOldest_pending hp)

/-- A stretch that leaves samples and waiting values, or stores the send's value. -/
theorem Sound.build {log : List (UInt16 × Event)} {a : UInt16} {s s' : Station} {task : Task}
    {events : List Event} {l : List Task}
    (h : Sound log a { s with todo := task :: s.todo })
    (hstep : ReceiverStep s task s' events) (htodo : s'.todo = l ++ s.todo)
    (htasks : ∀ t ∈ l, t.Sound log a)
    (hsends : ∀ t ∈ l, ∀ send, t.send = some send → Framed send.bridge send.payload)
    (hlatest : ∀ (key : UInt64) (value : SharedTopicConfig × Bytes),
      s'.reliable.latest[key]? = some value → Framed value.1 value.2)
    (hpending : ∀ (q : UInt16) (p : MeshReliablePending),
      s'.reliable.pending[q]? = some p → 3 < p.data.length)
    (hseen : ∀ (key : MeshReliableSeenKey) (entry : MeshReliableSeen),
      s'.reliable.seen[key]? = some entry → s.reliable.seen[key]? = some entry) :
    Sound log a s' := by
  refine ⟨fun ack hack => ?_, fun key entry hentry => h.seen key entry (hseen key entry hentry),
    fun t ht => ?_, fun t ht => ?_, hlatest, hpending, ?_⟩
  · rcases hstep.acks ack hack with hold | ⟨item, rfl, rfl⟩
    · exact h.acks ack hold
    · exact h.tasks _ List.mem_cons_self
  · rw [htodo] at ht
    rcases List.mem_append.mp ht with ht | ht
    · exact htasks t ht
    · exact h.tasks t (List.mem_cons_of_mem _ ht)
  · rw [htodo] at ht
    rcases List.mem_append.mp ht with ht | ht
    · exact hsends t ht
    · exact h.framed t (List.mem_cons_of_mem _ ht)
  · rw [hstep.decoding]
    exact h.decoding

theorem sound_exec {now : Time} {view : View} {answer : Answer} {s s' : Station}
    {task : Task} {log : List (UInt16 × Event)} {a : UInt16} {events : List Event}
    (h : Sound log a { s with todo := task :: s.todo })
    (hx : execTask now view answer s task = some (s', events)) : Sound log a s' := by
  have hstep := exec_receiver hx
  have hown : ∀ send, task.send = some send → Framed send.bridge send.payload :=
    h.framed task List.mem_cons_self
  have hmine := h.tasks task List.mem_cons_self
  -- Samples, waiting values and receipts as they were.
  have hsame : ∀ tasks, s'.todo = tasks ++ s.todo → (∀ t ∈ tasks, t.Sound log a) →
      (∀ t ∈ tasks, ∀ send, t.send = some send → Framed send.bridge send.payload) →
      s'.reliable.latest = s.reliable.latest → s'.reliable.pending = s.reliable.pending →
      s'.reliable.seen = s.reliable.seen → Sound log a s' := by
    intro tasks htodo htasks hsends hl hp hs
    refine h.build hstep htodo htasks hsends ?_ ?_ ?_
    · rw [hl]
      exact h.latest
    · rw [hp]
      exact h.pending
    · rw [hs]
      exact fun _ _ h => h
  -- A send goes on as another task of the same send.
  have hnext : ∀ (before : List Task) (t' : Task), s'.todo = (before ++ [t']) ++ s.todo →
      (∀ t ∈ before, t.send = none ∧ t.Sound log a) → t'.Sound log a → t'.send = task.send →
      s'.reliable.latest = s.reliable.latest → s'.reliable.pending = s.reliable.pending →
      s'.reliable.seen = s.reliable.seen → Sound log a s' := by
    intro before t' htodo hbefore hsound hsend hl hp hs
    refine hsame _ htodo (fun t ht => ?_) (fun t ht send hts => ?_) hl hp hs
    · rcases List.mem_append.mp ht with ht | ht
      · exact (hbefore t ht).2
      · rw [List.mem_singleton.mp ht]
        exact hsound
    · rcases List.mem_append.mp ht with ht | ht
      · rw [(hbefore t ht).1] at hts
        cases hts
      · rw [List.mem_singleton.mp ht, hsend] at hts
        exact hown send hts
  -- A send stores its value.
  have hstore : ∀ send, task.send = some send → s'.todo = s.todo →
      s'.reliable.latest = (storeLatest send s.reliable).latest →
      (∀ (q : UInt16) (p : MeshReliablePending),
        s'.reliable.pending[q]? = some p → 3 < p.data.length) →
      s'.reliable.seen = s.reliable.seen → Sound log a s' := by
    intro send hsend htodo hl hp hs
    refine h.build hstep (l := []) htodo (by simp) (by simp) ?_ hp ?_
    · rw [hl]
      exact storeLatest_framed (hown send hsend) h.latest
    · rw [hs]
      exact fun _ _ h => h
  by_cases hquiet : task.quiet = true
  · have hq := exec_quiet hquiet hx
    obtain ⟨tasks, htodo, htasks⟩ := hq.todo
    refine h.build hstep htodo (fun t ht => ?_) (fun t ht send hs => ?_) ?_ (fun q p' hp' => ?_) ?_
    · rcases htasks t ht with hh | ⟨item, rfl, rfl⟩
      · cases t with
        | cancel batch => trivial
        | requeue batch => trivial
        | completed check => trivial
        | _ => cases hh
      · exact hmine
    · rcases htasks t ht with hh | ⟨item, rfl, rfl⟩
      · rw [send_of_handling hh] at hs
        cases hs
      · cases hs
    · rw [hq.reliable.latest]
      exact h.latest
    · obtain ⟨p, hp, htrim⟩ := hq.reliable.pending.back q p' hp'
      rw [htrim.data]
      exact h.pending q p hp
    · rw [hq.reliable.seen]
      exact fun _ _ h => h
  cases task with
  | maintain =>
      simp only [execTask] at hx
      split at hx <;> cases hx
      · exact hsame [.clear true, .flush, .sweep] rfl (by simp [Task.Sound])
          (by simp [Task.send]) rfl rfl rfl
      · exact hsame [.sweep] rfl (by simp [Task.Sound]) (by simp [Task.send]) rfl rfl rfl
  | clear preserveLatest =>
      cases hx
      refine h.build hstep (l := []) rfl (by simp) (by simp) (fun key value hv => ?_)
        (fun q p hp => ?_) (fun key entry he => ?_)
      · cases preserveLatest
        · simp [Station.withReliable, clearMeshReliableState] at hv
        · exact h.latest key value hv
      · simp [Station.withReliable, clearMeshReliableState] at hp
      · simp [Station.withReliable, clearMeshReliableState] at he
  | sweep =>
      cases hx
      obtain ⟨done, hloop, _⟩ := sweepLoop_spec now s.reliable
      have hbefore : Sound log a s :=
        ⟨h.acks, h.seen, fun t ht => h.tasks t (List.mem_cons_of_mem _ ht),
          fun t ht => h.framed t (List.mem_cons_of_mem _ ht), h.latest, h.pending, h.decoding⟩
      refine h.build hstep rfl (sound_sweepTasks hbefore) (fun t ht send hs => ?_)
        (fun key value hv => ?_) (fun q p' hp' => ?_) (fun key entry he => ?_)
      · obtain ⟨value, hvalue, rfl⟩ := mem_sendsOf_sweepTasks.mp (mem_sendsOf.mpr ⟨t, ht, hs⟩)
        obtain ⟨key, hkey, _⟩ := mem_sweepReady.mp hvalue
        exact h.latest key value (hloop.latest_sub key value hkey)
      · have hv' : (sweepState now s.reliable).latest[key]? = some value := hv
        rw [sweepState_latest, Option.filter_eq_some_iff] at hv'
        exact h.latest key value (hloop.latest_sub key value hv'.1)
      · obtain ⟨p, hp, _, hdata | ⟨_, _, _, hdata, _⟩⟩ := hloop.kept q p' hp'
        · rw [hdata]
          exact h.pending q p hp
        · rw [hdata]
          exact length_makeMeshReliableData _ _ _
      · have he' : (sweepState now s.reliable).seen[key]? = some entry := he
        unfold sweepState at he'
        simp only at he'
        rw [Std.ExtTreeMap.getElem?_filter', Option.filter_eq_some_iff] at he'
        exact he'.1
  | transmit item =>
      simp only [execTask] at hx
      split at hx
      · cases hx
      · split at hx
        · split at hx <;> cases hx
          · exact hsame [.remember _ _ _] rfl (by simp [Task.Sound]) (by simp [Task.send])
              rfl rfl rfl
          · exact hsame [] rfl (by simp) (by simp) rfl rfl rfl
        · cases hx
          exact hsame [.outboundBusy item] rfl (by simp [Task.Sound]) (by simp [Task.send])
            rfl rfl rfl
        · cases hx
          by_cases hack : item.acknowledgement = true
          · refine hsame [.requeueAck item] (by simp [hack]; rfl) (fun t ht => ?_)
              (by simp [Task.send]) (by simp [hack]; rfl) (by simp [hack]; rfl)
              (by simp [hack]; rfl)
            rw [List.mem_singleton.mp ht]
            exact hmine (Or.inl hack)
          · exact hsame [] (by simp [hack]) (by simp) (by simp) (by simp [hack])
              (by simp [hack]) (by simp [hack])
        · cases hx
  | consume send =>
      cases hx
      exact hsame [] rfl (by simp) (by simp) rfl rfl rfl
  | install meshApp coordinator =>
      cases hx
      exact hsame [] rfl (by simp) (by simp) rfl rfl rfl
  | enter send =>
      simp only [execTask] at hx
      split at hx
      · cases hx
        exact hsame [] rfl (by simp) (by simp) rfl rfl rfl
      · split at hx <;> cases hx
        · exact hnext [.clear true, .flush] (.gate send) rfl (by simp [Task.send, Task.Sound])
            trivial rfl rfl rfl rfl
        · exact hnext [] (.gate send) rfl (by simp) trivial rfl rfl rfl rfl
  | gate send =>
      simp only [execTask] at hx
      split at hx <;> cases hx
      · exact hnext [] (.claim send _) rfl (by simp) trivial rfl rfl rfl rfl
      · exact hstore send rfl rfl rfl h.pending rfl
  | claim send addresses =>
      simp only [execTask] at hx
      split at hx
      · cases hx
        exact hsame [] rfl (by simp) (by simp) rfl rfl rfl
      · generalize hs₁ : (if send.resumed = true then s else
          s.withReliable (dropLatest send s.reliable)) = s₁ at hx
        have hfields : s₁.todo = s.todo ∧ s₁.reliable.pending = s.reliable.pending ∧
            s₁.reliable.seen = s.reliable.seen ∧ ∀ (key : UInt64) value,
              s₁.reliable.latest[key]? = some value → s.reliable.latest[key]? = some value := by
          rw [← hs₁]
          split
          · exact ⟨rfl, rfl, rfl, fun _ _ h => h⟩
          · refine ⟨rfl, rfl, rfl, fun key value hv => ?_⟩
            have hv' : (s.reliable.latest.erase send.key)[key]? = some value := hv
            rw [Std.ExtTreeMap.getElem?_erase] at hv'
            split at hv'
            · cases hv'
            · exact hv'
        obtain ⟨htodo, hp, hseen, hl⟩ := hfields
        have hgo : ∀ tasks, s'.todo = tasks ++ s₁.todo → s'.reliable = s₁.reliable →
            (∀ t ∈ tasks, t.send = some send ∧ t.Sound log a) → Sound log a s' := by
          intro tasks ht hr htasks
          refine h.build hstep (l := tasks) (by rw [ht, htodo]) (fun t ht => (htasks t ht).2)
            (fun t ht send' hs => ?_) (fun key value hv => ?_) (fun q p hpq => ?_) ?_
          · rw [(htasks t ht).1] at hs
            cases hs
            exact hown send rfl
          · rw [hr] at hv
            exact h.latest key value (hl key value hv)
          · rw [hr, hp] at hpq
            exact h.pending q p hpq
          · rw [hr, hseen]
            exact fun _ _ h => h
        split at hx
        · split at hx <;> cases hx
          · exact hgo [.occupied send addresses] rfl rfl (by simp [Task.send, Task.Sound])
          · exact hgo [] rfl rfl (by simp)
        · cases hx
          exact hgo [.plain send] rfl rfl (by simp [Task.send, Task.Sound])
  | occupied send addresses =>
      simp only [execTask] at hx
      split at hx <;> cases hx
      · exact hstore send rfl rfl rfl h.pending rfl
      · exact hnext [] (.arbitrate send addresses) rfl (by simp) trivial rfl rfl rfl rfl
  | arbitrate send addresses =>
      simp only [execTask] at hx
      split at hx
      · cases hx
      · rename_i r harb
        cases hx
        refine hstore send rfl rfl (arbitrate_latest harb) (fun q p hp => ?_)
          (arbitrate_receiver harb).1
        have hp' : r.pending[q]? = some p := hp
        rw [(arbitrate_custody harb).1] at hp'
        exact h.pending q p hp'
      · rename_i r adm harb
        cases hx
        exact hnext [] (.admission send adm) rfl (by simp) trivial rfl (arbitrate_latest harb)
          (arbitrate_custody harb).1 (arbitrate_receiver harb).1
  | admission send adm =>
      cases hx
      have hlen := length_makeMeshReliableData send.payload adm.sequence view.swarmId
      refine h.build hstep rfl (fun t ht => ?_) (fun t ht send' hs => ?_) ?_
        (admitSample_length hlen h.pending) ?_
      · rcases List.mem_append.mp ht with ht | ht
        · split at ht
          · rw [List.mem_singleton.mp ht]
            trivial
          · cases ht
        · rw [List.mem_singleton.mp ht]
          exact hlen
      · rcases List.mem_append.mp ht with ht | ht
        · split at ht
          · rw [List.mem_singleton.mp ht] at hs
            cases hs
          · cases ht
        · rw [List.mem_singleton.mp ht] at hs
          cases hs
          exact hown send rfl
      · show ∀ (key : UInt64) value, (admitSample now send adm _ s.reliable).latest[key]? =
          some value → _
        rw [admitSample_latest]
        exact h.latest
      · show ∀ (key : MeshReliableSeenKey) entry,
          (admitSample now send adm _ s.reliable).seen[key]? = some entry → _
        rw [(admitSample_receiver now send adm _ s.reliable).1]
        exact fun _ _ h => h
  | fanOut send adm data remaining admitted =>
      have hlen : 3 < data.length := hmine
      cases remaining with
      | nil =>
          simp only [execTask] at hx
          split at hx <;> cases hx
          · exact hsame [] rfl (by simp) (by simp) rfl rfl rfl
          · refine hstore send rfl rfl (rollBack_latest send adm s.reliable) (fun q p hp => ?_)
              (rollBack_receiver send adm s.reliable).1
            have hp' : (rollBack send adm s.reliable).pending[q]? = some p := hp
            rw [rollBack_pending, Std.ExtTreeMap.getElem?_erase] at hp'
            split at hp'
            · cases hp'
            · exact h.pending q p hp'
      | cons destination remaining =>
          simp only [execTask] at hx
          split at hx
          · cases hx
          · split at hx <;> cases hx
            · exact hnext [.remember _ _ _] (.fanOut send adm data remaining true) rfl
                (by simp [Task.send, Task.Sound]) hlen rfl rfl rfl rfl
            · exact hnext [.deferred _ _ _] (.fanOut send adm data remaining admitted) rfl
                (by simp [Task.send, Task.Sound]) hlen rfl rfl rfl rfl
            · exact hnext [.deferred _ _ _] (.fanOut send adm data remaining admitted) rfl
                (by simp [Task.send, Task.Sound]) hlen rfl rfl rfl rfl
  | plain send =>
      simp only [execTask] at hx
      split at hx
      · cases hx
      · split at hx <;> cases hx <;> exact hsame [] rfl (by simp) (by simp) rfl rfl rfl
  | _ => exact absurd rfl hquiet

/-- A transmitted acknowledgement is one of a receipt. -/
theorem sound_transmitted {now : Time} {view : View} {answer : Answer} {s s' : Station}
    {task : Task} {log : List (UInt16 × Event)} {a : UInt16} {events : List Event}
    (h : Sound log a { s with todo := task :: s.todo })
    (hx : execTask now view answer s task = some (s', events)) :
    ∀ f, .transmitted f ∈ events → frameKind f.data = reliableAck →
      Receipt log a (⟨f.destination, f.keyIndex, f.data⟩ : MeshReliableAck).seenKey := by
  intro f hf hack
  have hmine := h.tasks task List.mem_cons_self
  cases exec_transmitted hx hf with
  | outbound item => exact (hmine (Or.inr hack)).2
  | fanOut send adm data destination remaining admitted =>
      exact absurd hack (fanOutFrame_kind adm hmine destination)
  | plain send =>
      obtain ⟨body, hbody⟩ := h.framed (.plain send) List.mem_cons_self send rfl
      rw [hbody] at hack
      cases hack

/-! ## The receive thread keeps the invariant -/

theorem mem_queueAck {m : ReceivedMessage} {r : MeshReliable} {ack : MeshReliableAck}
    (h : ack ∈ (queueAck m r).acks) : ack ∈ r.acks ∨ ack = m.ack := by
  unfold queueAck at h
  simp only at h
  split at h
  · exact Or.inl h
  · split at h
    · exact Or.inl h
    · rcases List.mem_append.mp h with h | h
      · exact Or.inl h
      · exact Or.inr (List.mem_singleton.mp h)

@[simp] theorem receiveAck_receiver (m : ReceivedMessage) (r : MeshReliable) :
    (receiveAck m r).seen = r.seen ∧ (receiveAck m r).acks = r.acks := by
  refine ⟨(bookkeeping_receiveAck m r).seen, ?_⟩
  unfold receiveAck
  simp only
  split
  · rfl
  · split
    · split <;> rfl
    · rfl

section

variable {log : List (UInt16 × Event)} {a : UInt16} {s : Station}

/-- A section of the receive thread that keeps the samples. -/
theorem Sound.samples {r' : MeshReliable} {decoding : Option Decoding} (h : Sound log a s)
    (hkept : SamplesKept s.reliable r') (hacks : ∀ ack ∈ r'.acks, AckSound log a ack)
    (hseen : ∀ (key : MeshReliableSeenKey) (entry : MeshReliableSeen),
      r'.seen[key]? = some entry → entry.delivered = true → Receipt log a key)
    (hdecoding : ∀ d, decoding = some d → Sent log a d.message ∧
      isDataFrame d.message.data = true ∧
        (d.delivered = some true → (a, .published d.message) ∈ log)) :
    Sound log a { s with reliable := r', decoding := decoding } := by
  refine ⟨hacks, hseen, h.tasks, h.framed, ?_, fun q p' hp' => ?_, hdecoding⟩
  · show ∀ (key : UInt64) (value : SharedTopicConfig × Bytes), r'.latest[key]? = some value → _
    rw [hkept.latest]
    exact h.latest
  · obtain ⟨p, hp, htrim⟩ := hkept.pending.back q p' hp'
    rw [htrim.data]
    exact h.pending q p hp

theorem sound_receive {now : Time} {m : ReceivedMessage} {s' : Station} {events : List Event}
    (h : Sound log a s) (hsent : Sent log a m) (hx : Received now m s s' events) :
    Sound log a s' := by
  cases hx with
  | ignored => exact h
  | passed => exact h
  | ack _ _ =>
      obtain ⟨hseen, hacks⟩ := receiveAck_receiver m s.reliable
      refine h.samples (bookkeeping_receiveAck m s.reliable).samplesKept ?_ ?_ h.decoding
      · rw [hacks]
        exact h.acks
      · rw [hseen]
        exact h.seen
  | known seen hseen hlength =>
      by_cases hd : seen.delivered = true
      · rw [if_pos hd]
        have hq := bookkeeping_queueAck m s.reliable
        refine h.samples hq.samplesKept (fun ack hack => ?_) ?_ h.decoding
        · rcases mem_queueAck hack with hold | rfl
          · exact h.acks ack hold
          · refine ⟨ack_kind hlength, ?_⟩
            rw [ack_seenKey hlength]
            exact h.seen m.seenKey seen hseen hd
        · rw [hq.seen]
          exact h.seen
      · rw [if_neg hd]
        exact h
  | opened hframe hseen =>
      refine h.samples ⟨.refl _, rfl, rfl⟩ h.acks (fun key entry hentry hd => ?_)
        (fun d hdec => ?_)
      · rw [Std.ExtTreeMap.getElem?_insert] at hentry
        split at hentry
        · cases hentry
          cases hd
        · exact h.seen key entry hentry hd
      · cases hdec
        exact ⟨hsent, hframe, nofun⟩

theorem sound_finish {now : Time} {m : ReceivedMessage} {delivered : Bool}
    {localAddress : UInt16} {members : List UInt16} (h : Sound log a s)
    (hd : s.decoding = some ⟨m, some delivered⟩) :
    Sound log a { s with
      reliable := finishData now delivered localAddress members m s.reliable
      decoding := none } := by
  obtain ⟨_, hframe, hpublished⟩ := h.decoding _ hd
  have hlength : 3 ≤ m.data.length :=
    le_trans (by decide) (isDataFrame_length hframe)
  have hreceipt : delivered = true → Receipt log a m.seenKey :=
    fun hdel => ⟨m, hpublished (by rw [hdel]), rfl⟩
  refine h.samples (samplesKept_finishData _ _ _ _ _ _) (fun ack hack => ?_)
    (fun key entry hentry hdel => ?_) nofun
  · unfold finishData at hack
    split at hack
    · exact h.acks ack hack
    · split at hack
      · rename_i hdel
        have hack' : ack ∈ s.reliable.acks ∨ ack = m.ack := by
          simp only at hack
          split at hack <;> (have hqueued := mem_queueAck hack; exact hqueued)
        rcases hack' with hold | rfl
        · exact h.acks ack hold
        · refine ⟨ack_kind hlength, ?_⟩
          rw [ack_seenKey hlength]
          exact hreceipt hdel
      · exact h.acks ack hack
  · unfold finishData at hentry
    split at hentry
    · exact h.seen key entry hentry hdel
    · rename_i seen hseen
      split at hentry
      · rename_i hdelivered
        have hentry' : (s.reliable.seen.insert m.seenKey
            { seen with delivered := true, last := now })[key]? = some entry := by
          simp only at hentry
          split at hentry
          · rw [(bookkeeping_queueAck m _).seen] at hentry
            exact hentry
          · simp only [(bookkeeping_queueAck m _).seen] at hentry
            exact hentry
        rw [Std.ExtTreeMap.getElem?_insert] at hentry'
        split at hentry'
        · rename_i heq
          have hkey : m.seenKey = key := by simpa using heq
          rw [← hkey]
          exact hreceipt hdelivered
        · exact h.seen key entry hentry' hdel
      · rw [Std.ExtTreeMap.getElem?_erase] at hentry
        split at hentry
        · cases hentry
        · exact h.seen key entry hentry hdel

end

/-! ## The network keeps the invariant -/

/-- What a step of one node adds to the record. -/
structure StepSound (log : List (UInt16 × Event)) (a : UInt16) (s' : Station)
    (events : List Event) : Prop where
  station : Sound (events.reverse.map (a, ·) ++ log) a s'
  transmitted : ∀ f, .transmitted f ∈ events → frameKind f.data = reliableAck →
    Receipt log a (⟨f.destination, f.keyIndex, f.data⟩ : MeshReliableAck).seenKey
  published : ∀ m, .published m ∈ events → Sent log a m ∧ isDataFrame m.data = true
  acked : ∀ sequence target, .acked sequence target ∈ events →
    ∃ m, Sent log a m ∧ frameKind m.data = reliableAck ∧ m.source = target ∧
      meshReliableSequence m.data = sequence

theorem stepSound_step {now : Time} {log : List (UInt16 × Event)} {a : UInt16}
    {s s' : Station} {action : Action} {events : List Event} (h : Sound log a s)
    (hreceived : ∀ policy m, action = .receive policy m → Sent log a m)
    (hx : s.step now action = some (s', events)) : StepSound log a s' events := by
  have hmono : ∀ e ∈ log, e ∈ events.reverse.map (a, ·) ++ log :=
    fun e he => List.mem_append_right _ he
  -- Steps that show nothing about frames.
  have hquiet : Sound log a s' → (∀ e ∈ events, (∀ f, e ≠ .transmitted f) ∧
      (∀ m, e ≠ .published m) ∧ ∀ q t, e ≠ .acked q t) → StepSound log a s' events := by
    intro hs he
    refine ⟨hs.mono hmono, fun f hf => ?_, fun m hm => ?_, fun q t ht => ?_⟩
    · exact absurd rfl ((he _ hf).1 f)
    · exact absurd rfl ((he _ hm).2.1 m)
    · exact absurd rfl ((he _ ht).2.2 q t)
  -- Tasks pushed on the idle executor.
  have hpush : ∀ tasks, s.todo = [] → (∀ t ∈ tasks, t.Sound log a) →
      (∀ t ∈ tasks, ∀ send, t.send = some send → Framed send.bridge send.payload) →
      Sound log a (s.push tasks) := by
    intro tasks hnil ht hs
    refine ⟨h.acks, h.seen, fun t hmem => ?_, fun t hmem => ?_, h.latest, h.pending, h.decoding⟩
    · rw [show (s.push tasks).todo = tasks by simp [Station.push, hnil]] at hmem
      exact ht t hmem
    · rw [show (s.push tasks).todo = tasks by simp [Station.push, hnil]] at hmem
      exact hs t hmem
  cases action with
  | submit bridge body =>
      simp only [Station.step] at hx
      split at hx <;> cases hx
      refine hquiet (hpush _ ‹_› (by simp [Task.Sound]) (fun t ht send hs => ?_)) (by simp)
      rw [List.mem_singleton.mp ht] at hs
      cases hs
      exact ⟨body, rfl⟩
  | tick =>
      simp only [Station.step] at hx
      split at hx
      · split at hx <;> cases hx
        exact hquiet (hpush _ ‹_› (by simp [Task.Sound]) (by simp [Task.send])) (by simp)
      · cases hx
  | exec view answer =>
      simp only [Station.step] at hx
      split at hx
      · cases hx
      · rename_i task todo htodo
        have hs : Sound log a { ({ s with todo := todo } : Station) with todo := task :: todo } := by
          rw [← htodo]
          exact h
        have hsound := sound_exec (s := { s with todo := todo }) hs hx
        have hstep := exec_receiver hx
        refine ⟨hsound.mono hmono, sound_transmitted (s := { s with todo := todo }) hs hx,
          fun m hm => ?_, fun q t ht => ?_⟩
        · cases hstep.events _ hm
        · cases hstep.events _ ht
  | receive policy message =>
      simp only [Station.step] at hx
      split at hx
      · have hcases := receive_cases (Option.some.inj hx)
        have hsent := hreceived policy message rfl
        have hsound := sound_receive h hsent hcases
        refine ⟨hsound.mono hmono, ?_, ?_, ?_⟩
        · intro f hf
          cases hcases with
          | ack _ _ => split at hf <;> simp at hf
          | _ => simp at hf
        · intro m hm
          cases hcases with
          | ack _ _ => split at hm <;> simp at hm
          | _ => simp at hm
        · intro q t ht
          cases hcases with
          | ack hkind _ =>
              split at ht
              · have heq := List.mem_singleton.mp ht
                cases heq
                exact ⟨message, hsent, hkind, rfl, rfl⟩
              · simp at ht
          | _ => simp at ht
      · cases hx
  | decode delivered =>
      simp only [Station.step] at hx
      split at hx
      · rename_i message hdec
        cases hx
        obtain ⟨hsent, hframe, _⟩ := h.decoding _ hdec
        have hbefore := h.mono hmono
        refine ⟨⟨hbefore.acks, hbefore.seen, hbefore.tasks, hbefore.framed, hbefore.latest,
          hbefore.pending, ?_⟩, ?_, ?_, ?_⟩
        · intro d hd
          cases hd
          refine ⟨hmono _ hsent, hframe, fun hv => ?_⟩
          cases hv
          simp
        · intro f hf
          split at hf <;> simp at hf
        · intro m hm
          split at hm
          · have heq := List.mem_singleton.mp hm
            cases heq
            exact ⟨hsent, hframe⟩
          · simp at hm
        · intro q t ht
          split at ht <;> simp at ht
      · cases hx
  | finish view =>
      simp only [Station.step] at hx
      split at hx
      · rename_i message delivered hdec
        cases hx
        exact hquiet (sound_finish h hdec) (by simp)
      · cases hx
  | requestReset =>
      cases hx
      exact hquiet ⟨h.acks, h.seen, h.tasks, h.framed, h.latest, h.pending, h.decoding⟩ (by simp)
  | reconfigure meshApp coordinator =>
      simp only [Station.step] at hx
      split at hx <;> cases hx
      exact hquiet (hpush _ ‹_› (by simp [Task.Sound]) (by simp [Task.send])) (by simp)

/-- The states of the nodes, the air and the record agree. -/
structure Honest (w : World) : Prop where
  stations : ∀ a, Sound w.log a (w.station a)
  air : ∀ p ∈ w.air, (p.source, .transmitted p.frame) ∈ w.log
  acks : ∀ a f, (a, .transmitted f) ∈ w.log → frameKind f.data = reliableAck →
    Receipt w.log a (⟨f.destination, f.keyIndex, f.data⟩ : MeshReliableAck).seenKey
  published : ∀ a m, (a, .published m) ∈ w.log → Sent w.log a m ∧ isDataFrame m.data = true
  acked : ∀ a sequence target, (a, .acked sequence target) ∈ w.log →
    ∃ m, (target, .published m) ∈ w.log ∧ m.source = a ∧ meshReliableSequence m.data = sequence

theorem honest_initial {w : World} (h : w.Initial) : Honest w := by
  obtain ⟨hstation, hair, hlog⟩ := h
  refine ⟨fun a => ?_, ?_, ?_, ?_, ?_⟩
  · obtain ⟨_, _, _, hs⟩ := hstation a
    rw [hs]
    constructor <;> simp
  · simp [hair]
  · simp [hlog]
  · simp [hlog]
  · simp [hlog]

theorem Honest.nodeStep {w w' : World} {node : UInt16} {action : Action} {s' : Station}
    {events : List Event} (h : Honest w) (hstep : NodeStep w w' node action s' events) :
    Honest w' := by
  have hreceived : ∀ policy m, action = .receive policy m → Sent w.log node m := by
    intro policy m haction
    obtain ⟨p, hp, rfl, rfl⟩ := hstep.received policy m haction
    exact h.air p hp
  have hsound := stepSound_step (h.stations node) hreceived hstep.step
  have hmono : ∀ e ∈ w.log, e ∈ w'.log := by
    intro e he
    rw [hstep.log]
    exact List.mem_append_right _ he
  have hnew : ∀ a e, (a, e) ∈ w'.log → (a, e) ∈ w.log ∨ (a = node ∧ e ∈ events) := by
    intro a e he
    rw [hstep.log, List.mem_append, List.mem_map] at he
    rcases he with ⟨e', he', heq⟩ | he
    · cases heq
      exact Or.inr ⟨rfl, List.mem_reverse.mp he'⟩
    · exact Or.inl he
  refine ⟨fun a => ?_, fun p hp => ?_, fun a f hf hack => ?_, fun a m hm => ?_,
    fun a q t ht => ?_⟩
  · rw [hstep.station]
    by_cases ha : a = node
    · subst ha
      rw [Function.update_self, hstep.log]
      exact hsound.station
    · rw [Function.update_of_ne ha]
      exact (h.stations a).mono hmono
  · rcases hstep.air p hp with hp | hp
    · exact hmono _ (h.air p hp)
    · obtain ⟨e, he, hpacket⟩ := List.mem_filterMap.mp hp
      rw [hstep.log]
      refine List.mem_append_left _ (List.mem_map.mpr ⟨e, List.mem_reverse.mpr he, ?_⟩)
      cases e with
      | transmitted f =>
          cases hpacket
          rfl
      | _ => cases hpacket
  · rcases hnew a _ hf with hold | ⟨rfl, he⟩
    · exact (h.acks a f hold hack).mono hmono
    · exact (hsound.transmitted f he hack).mono hmono
  · rcases hnew a _ hm with hold | ⟨rfl, he⟩
    · obtain ⟨hsent, hframe⟩ := h.published a m hold
      exact ⟨hmono _ hsent, hframe⟩
    · obtain ⟨hsent, hframe⟩ := hsound.published m he
      exact ⟨hmono _ hsent, hframe⟩
  · rcases hnew a _ ht with hold | ⟨rfl, he⟩
    · obtain ⟨m, hm, hsource, hsequence⟩ := h.acked a q t hold
      exact ⟨m, hmono _ hm, hsource, hsequence⟩
    · obtain ⟨m, hsent, hkind, rfl, rfl⟩ := hsound.acked q t he
      -- The acknowledgement was transmitted for a receipt, whose identity names this node.
      obtain ⟨m', hm', hkey⟩ := h.acks m.source _ hsent hkind
      exact ⟨m', hmono _ hm', congrArg MeshReliableSeenKey.source hkey,
        congrArg MeshReliableSeenKey.sequence hkey⟩

theorem honest_step {w w' : World} {a : WorldAction} (h : Honest w)
    (hx : w.step a = some w') : Honest w' := by
  rcases World.step_cases hx with ⟨duration, _, rfl⟩ | ⟨index, _, rfl⟩ |
    ⟨node, action, s', events, _, hstep⟩ | ⟨index, keep, policy, p, s', events, _, _, hstep⟩
  · exact ⟨h.stations, h.air, h.acks, h.published, h.acked⟩
  · exact ⟨h.stations, fun p hp => h.air p (List.mem_of_mem_eraseIdx hp), h.acks, h.published,
      h.acked⟩
  · exact h.nodeStep hstep
  · exact h.nodeStep hstep

theorem honest_reachable {ok : World → WorldAction → Prop} {w : World}
    (h : Run.ReachableUnder World.step ok World.Initial w) : Honest w :=
  h.invariant (fun _ => honest_initial) (fun _ _ _ hw _ hx => honest_step hw hx)

end UavBluetooth.Mesh
