import UavBluetooth.Mesh.Stack
import UavBluetooth.Mesh.Sweep

set_option autoImplicit false

/-! # Bookkeeping of the pending samples

Most critical sections change a pending sample only by bookkeeping: its transfers, the timing
of its targets, targets that acknowledged (`Trimmed`). They neither enter nor drop a sample and
leave waiting values, receipts and turns alone (`Bookkeeping`). The executor's tasks that do no
more than this are `Task.quiet`.
-/

namespace UavBluetooth.Mesh

open Config

/-! ## Samples -/

/-- The same sample with at most the same targets. -/
structure Trimmed (p p' : MeshReliablePending) : Prop where
  channelKey : p'.channelKey = p.channelKey
  data : p'.data = p.data
  awaiting : ∀ d : UInt16, d ∈ p'.awaiting → d ∈ p.awaiting
  appKeyIndex : p'.appKeyIndex = p.appKeyIndex
  elementIndex : p'.elementIndex = p.elementIndex
  turnSuccessor : p'.turnSuccessor = p.turnSuccessor
  created : p'.created = p.created

theorem Trimmed.refl (p : MeshReliablePending) : Trimmed p p :=
  ⟨rfl, rfl, fun _ h => h, rfl, rfl, rfl, rfl⟩

theorem Trimmed.trans {p p' p'' : MeshReliablePending} (h : Trimmed p p')
    (h' : Trimmed p' p'') : Trimmed p p'' :=
  ⟨h'.channelKey.trans h.channelKey, h'.data.trans h.data,
    fun d hd => h.awaiting d (h'.awaiting d hd), h'.appKeyIndex.trans h.appKeyIndex,
    h'.elementIndex.trans h.elementIndex, h'.turnSuccessor.trans h.turnSuccessor,
    h'.created.trans h.created⟩

/-- The same samples, each at most trimmed. -/
structure PendingKept (a b : Std.ExtTreeMap UInt16 MeshReliablePending) : Prop where
  forth : ∀ (sequence : UInt16) (p : MeshReliablePending), a[sequence]? = some p →
    ∃ p', b[sequence]? = some p' ∧ Trimmed p p'
  back : ∀ (sequence : UInt16) (p' : MeshReliablePending), b[sequence]? = some p' →
    ∃ p, a[sequence]? = some p ∧ Trimmed p p'

theorem PendingKept.refl (a : Std.ExtTreeMap UInt16 MeshReliablePending) : PendingKept a a :=
  ⟨fun _ p h => ⟨p, h, .refl p⟩, fun _ p h => ⟨p, h, .refl p⟩⟩

theorem PendingKept.trans {a b c : Std.ExtTreeMap UInt16 MeshReliablePending}
    (h : PendingKept a b) (h' : PendingKept b c) : PendingKept a c := by
  constructor
  · intro sequence p hp
    obtain ⟨p', hp', ht⟩ := h.forth sequence p hp
    obtain ⟨p'', hp'', ht'⟩ := h'.forth sequence p' hp'
    exact ⟨p'', hp'', ht.trans ht'⟩
  · intro sequence p'' hp''
    obtain ⟨p', hp', ht'⟩ := h'.back sequence p'' hp''
    obtain ⟨p, hp, ht⟩ := h.back sequence p' hp'
    exact ⟨p, hp, ht.trans ht'⟩

theorem pendingKept_insert {a : Std.ExtTreeMap UInt16 MeshReliablePending}
    {sequence : UInt16} {p p' : MeshReliablePending} (hp : a[sequence]? = some p)
    (ht : Trimmed p p') : PendingKept a (a.insert sequence p') := by
  constructor
  · intro s q hq
    rw [Std.ExtTreeMap.getElem?_insert]
    split
    · rename_i heq
      have hs : sequence = s := by simpa using heq
      subst hs
      rw [hp] at hq
      cases hq
      exact ⟨p', rfl, ht⟩
    · exact ⟨q, hq, .refl q⟩
  · intro s q hq
    rw [Std.ExtTreeMap.getElem?_insert] at hq
    split at hq
    · rename_i heq
      have hs : sequence = s := by simpa using heq
      subst hs
      cases hq
      exact ⟨p, hp, ht⟩
    · exact ⟨q, hq, .refl q⟩

theorem PendingKept.mem_iff {a b : Std.ExtTreeMap UInt16 MeshReliablePending}
    (h : PendingKept a b) (sequence : UInt16) : sequence ∈ b ↔ sequence ∈ a := by
  rw [Std.ExtTreeMap.mem_iff_isSome_getElem?, Std.ExtTreeMap.mem_iff_isSome_getElem?,
    Option.isSome_iff_exists, Option.isSome_iff_exists]
  constructor
  · rintro ⟨p', hp'⟩
    obtain ⟨p, hp, _⟩ := h.back sequence p' hp'
    exact ⟨p, hp⟩
  · rintro ⟨p, hp⟩
    obtain ⟨p', hp', _⟩ := h.forth sequence p hp
    exact ⟨p', hp'⟩

/-- Updating a target that is there, and at most the fields that `Trimmed` leaves open, is
trimming. -/
theorem trimmed_insert {p p' : MeshReliablePending} {d : UInt16}
    {target target' : MeshReliableTarget} (hd : p.awaiting[d]? = some target)
    (hawaiting : p'.awaiting = p.awaiting.insert d target')
    (hkey : p'.channelKey = p.channelKey) (hdata : p'.data = p.data)
    (happ : p'.appKeyIndex = p.appKeyIndex) (hel : p'.elementIndex = p.elementIndex)
    (hturn : p'.turnSuccessor = p.turnSuccessor) (hcreated : p'.created = p.created) :
    Trimmed p p' := by
  refine ⟨hkey, hdata, fun e he => ?_, happ, hel, hturn, hcreated⟩
  rw [hawaiting, Std.ExtTreeMap.mem_insert] at he
  rcases he with heq | he
  · have hde : d = e := by simpa using heq
    rw [← hde, Std.ExtTreeMap.mem_iff_isSome_getElem?, hd]
    rfl
  · exact he

/-! ## Critical sections -/

/-- Only bookkeeping is done. -/
structure Bookkeeping (r r' : MeshReliable) : Prop where
  pending : PendingKept r.pending r'.pending
  latest : r'.latest = r.latest
  seen : r'.seen = r.seen
  turns : r'.turns = r.turns
  nextSequence : r'.nextSequence = r.nextSequence

theorem Bookkeeping.refl (r : MeshReliable) : Bookkeeping r r :=
  ⟨.refl _, rfl, rfl, rfl, rfl⟩

theorem Bookkeeping.trans {r r' r'' : MeshReliable} (h : Bookkeeping r r')
    (h' : Bookkeeping r' r'') : Bookkeeping r r'' :=
  ⟨h.pending.trans h'.pending, h'.latest.trans h.latest, h'.seen.trans h.seen,
    h'.turns.trans h.turns, h'.nextSequence.trans h.nextSequence⟩

theorem bookkeeping_remember (sequence destination : UInt16) (handle : SendHandle)
    (now : Time) (r : MeshReliable) :
    Bookkeeping r (rememberMeshTransfer sequence destination handle now r) := by
  unfold rememberMeshTransfer
  split
  · rename_i sample hsample
    split
    · rename_i target htarget
      exact ⟨pendingKept_insert hsample (trimmed_insert htarget rfl rfl rfl rfl rfl rfl rfl),
        rfl, rfl, rfl, rfl⟩
    · exact ⟨pendingKept_insert hsample ⟨rfl, rfl, fun _ h => h, rfl, rfl, rfl, rfl⟩,
        rfl, rfl, rfl, rfl⟩
  · exact ⟨.refl _, rfl, rfl, rfl, rfl⟩

theorem bookkeeping_completed (check : TransferCheck) (r : MeshReliable) :
    Bookkeeping r (transferCompleted check r) := by
  unfold transferCompleted
  split
  · exact .refl r
  · rename_i sample hsample
    split
    · exact .refl r
    · rename_i target htarget
      split
      · exact ⟨pendingKept_insert hsample (trimmed_insert htarget rfl rfl rfl rfl rfl rfl rfl),
          rfl, rfl, rfl, rfl⟩
      · exact .refl r

theorem bookkeeping_retryTarget (sequence destination : UInt16)
    (f : MeshReliableTarget → MeshReliableTarget) (r : MeshReliable) :
    Bookkeeping r (retryTarget sequence destination f r) := by
  unfold retryTarget
  split
  · exact .refl r
  · rename_i sample hsample
    split
    · exact .refl r
    · rename_i target htarget
      exact ⟨pendingKept_insert hsample (trimmed_insert htarget rfl rfl rfl rfl rfl rfl rfl),
        rfl, rfl, rfl, rfl⟩

theorem bookkeeping_deferPeer (destination : UInt16) (retryAt : Time) (r : MeshReliable) :
    Bookkeeping r (deferPeer destination retryAt r) :=
  ⟨.refl _, rfl, rfl, rfl, rfl⟩

theorem bookkeeping_outboundBusy (item : Outbound) (now : Time) (r : MeshReliable) :
    Bookkeeping r (outboundBusy item now r) :=
  (bookkeeping_deferPeer item.destination (now + meshQueueRetryDelay) r).trans
    (bookkeeping_retryTarget _ _ _ _)

theorem bookkeeping_requeueAck (item : Outbound) (r : MeshReliable) :
    Bookkeeping r (requeueAck item r) := by
  unfold requeueAck
  split
  · exact ⟨.refl _, rfl, rfl, rfl, rfl⟩
  · exact .refl r

theorem bookkeeping_receiveAck (m : ReceivedMessage) (r : MeshReliable) :
    Bookkeeping r (receiveAck m r) := by
  unfold receiveAck
  simp only
  split
  · exact .refl r
  · rename_i sample hsample
    split
    · split
      · exact ⟨.refl _, rfl, rfl, rfl, rfl⟩
      · refine ⟨pendingKept_insert hsample ⟨rfl, rfl, fun d hd => ?_, rfl, rfl, rfl, rfl⟩,
          rfl, rfl, rfl, rfl⟩
        exact (Std.ExtTreeMap.mem_erase.mp hd).2
    · exact .refl r

theorem bookkeeping_queueAck (m : ReceivedMessage) (r : MeshReliable) :
    Bookkeeping r (queueAck m r) := by
  unfold queueAck
  simp only
  split
  · exact .refl r
  · split
    · exact .refl r
    · exact ⟨.refl _, rfl, rfl, rfl, rfl⟩

/-! ## The receive thread -/

/-- The receive thread enters and drops no sample and leaves the waiting values. -/
structure SamplesKept (r r' : MeshReliable) : Prop where
  pending : PendingKept r.pending r'.pending
  latest : r'.latest = r.latest
  nextSequence : r'.nextSequence = r.nextSequence

theorem Bookkeeping.samplesKept {r r' : MeshReliable} (h : Bookkeeping r r') :
    SamplesKept r r' :=
  ⟨h.pending, h.latest, h.nextSequence⟩

theorem samplesKept_finishData (now : Time) (delivered : Bool) (localAddress : UInt16)
    (members : List UInt16) (m : ReceivedMessage) (r : MeshReliable) :
    SamplesKept r (finishData now delivered localAddress members m r) := by
  unfold finishData
  split
  · exact (Bookkeeping.refl r).samplesKept
  · rename_i seen _
    split
    · have hq := (bookkeeping_queueAck m { r with
        seen := r.seen.insert m.seenKey { seen with delivered := true, last := now } }).samplesKept
      simp only
      split
      · exact ⟨hq.pending, hq.latest, hq.nextSequence⟩
      · exact ⟨hq.pending, hq.latest, hq.nextSequence⟩
    · exact ⟨.refl _, rfl, rfl⟩

/-- What a received message does to its node. -/
inductive Received (now : Time) (m : ReceivedMessage) (s : Station) :
    Station → List Event → Prop where
  | ignored : Received now m s s []
  | passed : Received now m s s [.passed m]
  | ack (hkind : frameKind m.data = reliableAck)
      (hlength : m.data.length = reliableAckHeaderBytes) :
      Received now m s (s.withReliable (receiveAck m s.reliable))
        (if ackReleases m s.reliable then [.acked (meshReliableSequence m.data) m.source] else [])
  /-- A query, or a data frame whose receipt is there. -/
  | known (seen : MeshReliableSeen) (hseen : s.reliable.seen[m.seenKey]? = some seen)
      (hlength : 3 ≤ m.data.length) :
      Received now m s
        (s.withReliable (if seen.delivered then queueAck m s.reliable else s.reliable)) []
  | opened (hframe : isDataFrame m.data = true) (hseen : s.reliable.seen[m.seenKey]? = none) :
      Received now m s
        { s with
          reliable := { s.reliable with
            seen := s.reliable.seen.insert m.seenKey { last := now } }
          decoding := some { message := m } }
        [.opened m.seenKey]

theorem isDataFrame_length {data : Bytes} (h : isDataFrame data = true) : 10 ≤ data.length := by
  simp only [isDataFrame, Bool.and_eq_true, decide_eq_true_eq] at h
  exact h.2

theorem receive_cases {now : Time} {policy : Admittance} {m : ReceivedMessage}
    {s s' : Station} {events : List Event} (h : s.receive now policy m = (s', events)) :
    Received now m s s' events := by
  unfold Station.receive at h
  split at h
  · cases h
    exact .ignored
  · split at h
    · split at h
      · rename_i hack
        cases h
        exact .ack hack.1 hack.2.2
      · split at h
        · rename_i hquery
          have hlength : 3 ≤ m.data.length := by
            rw [hquery.2.2]
            decide
          unfold receiveQuery at h
          split at h
          · rename_i seen hseen
            cases h
            exact .known seen hseen hlength
          · cases h
            exact .ignored
        · split at h
          · rename_i hdata
            have hlength := isDataFrame_length hdata.2
            cases hseen : s.reliable.seen[m.seenKey]? with
            | some seen =>
                simp only [receiveData, hseen, Bool.false_eq_true, if_false] at h
                cases h
                exact .known seen hseen (by omega)
            | none =>
                simp only [receiveData, hseen, if_true] at h
                cases h
                exact .opened hdata.2 hseen
          · cases h
            exact .ignored
    · split at h
      · cases h
        exact .passed
      · cases h
        exact .ignored

theorem samplesKept_receive (now : Time) (policy : Admittance) (m : ReceivedMessage)
    (s : Station) : SamplesKept s.reliable (s.receive now policy m).1.reliable := by
  have hrefl := (Bookkeeping.refl s.reliable).samplesKept
  generalize hr : s.receive now policy m = result
  obtain ⟨s', events⟩ := result
  cases receive_cases hr with
  | ignored => exact hrefl
  | passed => exact hrefl
  | ack _ _ => exact (bookkeeping_receiveAck m s.reliable).samplesKept
  | known seen _ _ =>
      show SamplesKept s.reliable (if seen.delivered then queueAck m s.reliable else s.reliable)
      split
      · exact (bookkeeping_queueAck m s.reliable).samplesKept
      · exact hrefl
  | opened _ _ => exact ⟨.refl _, rfl, rfl⟩

theorem receive_events {now : Time} {policy : Admittance} {m : ReceivedMessage} {s : Station}
    {e : Event} (h : e ∈ (s.receive now policy m).2) :
    (∃ sequence target, e = .acked sequence target) ∨ e = .opened m.seenKey ∨ e = .passed m := by
  generalize hr : s.receive now policy m = result at h
  obtain ⟨s', events⟩ := result
  cases receive_cases hr with
  | ignored => cases h
  | passed => exact Or.inr (Or.inr (List.mem_singleton.mp h))
  | ack _ _ =>
      simp only at h
      split at h
      · exact Or.inl ⟨_, _, List.mem_singleton.mp h⟩
      · cases h
  | known _ _ _ => cases h
  | opened _ _ => exact Or.inr (Or.inl (List.mem_singleton.mp h))

/-! ## Tasks -/

/-- A task that does bookkeeping only. -/
def Task.quiet : Task → Bool
  | .flush => true
  | .cancel _ => true
  | .requeue _ => true
  | .check _ => true
  | .completed _ => true
  | .outbound _ => true
  | .outboundBusy _ => true
  | .requeueAck _ => true
  | .remember _ _ _ => true
  | .deferred _ _ _ => true
  | _ => false

/-- A task about transfers only. -/
def Task.handling : Task → Bool
  | .cancel _ => true
  | .requeue _ => true
  | .completed _ => true
  | _ => false

theorem send_of_handling {task : Task} (h : task.handling = true) : task.send = none := by
  cases task with
  | cancel batch => rfl
  | requeue batch => rfl
  | completed check => rfl
  | _ => cases h

/-- An acknowledgement among the outgoing frames. -/
def Outbound.ack (item : Outbound) : MeshReliableAck :=
  ⟨item.destination, item.appKeyIndex, item.data⟩

@[simp] theorem rememberMeshTransfer_acks (sequence destination : UInt16)
    (handle : SendHandle) (now : Time) (r : MeshReliable) :
    (rememberMeshTransfer sequence destination handle now r).acks = r.acks := by
  unfold rememberMeshTransfer
  split
  · split <;> rfl
  · rfl

@[simp] theorem transferCompleted_acks (check : TransferCheck) (r : MeshReliable) :
    (transferCompleted check r).acks = r.acks := by
  unfold transferCompleted
  split
  · rfl
  · split
    · rfl
    · split <;> rfl

@[simp] theorem retryTarget_acks (sequence destination : UInt16)
    (f : MeshReliableTarget → MeshReliableTarget) (r : MeshReliable) :
    (retryTarget sequence destination f r).acks = r.acks := by
  unfold retryTarget
  split
  · rfl
  · split <;> rfl

theorem mem_requeueAck {item : Outbound} {r : MeshReliable} {ack : MeshReliableAck}
    (h : ack ∈ (requeueAck item r).acks) : ack ∈ r.acks ∨ ack = item.ack := by
  unfold requeueAck at h
  split at h
  · exact (List.mem_cons.mp h).symm
  · exact Or.inl h

/-- What a quiet task does to its node. -/
structure QuietStep (s : Station) (task : Task) (s' : Station) (events : List Event) :
    Prop where
  reliable : Bookkeeping s.reliable s'.reliable
  todo : ∃ tasks, s'.todo = tasks ++ s.todo ∧
    ∀ t ∈ tasks, t.handling = true ∨ ∃ item, task = .outbound item ∧ t = .transmit item
  acks : ∀ ack ∈ s'.reliable.acks, ack ∈ s.reliable.acks ∨
    ∃ item, task = .requeueAck item ∧ ack = item.ack
  events : ∀ e ∈ events, (∃ x, e = .released x) ∨ ∃ x, e = .remembered x
  resetRequested : s'.resetRequested = s.resetRequested
  meshApp : s'.meshApp = s.meshApp
  coordinator : s'.coordinator = s.coordinator
  decoding : s'.decoding = s.decoding

/-- A quiet task does bookkeeping only. -/
theorem exec_quiet {now : Time} {view : View} {answer : Answer} {s s' : Station}
    {task : Task} {events : List Event} (hquiet : task.quiet = true)
    (hx : execTask now view answer s task = some (s', events)) :
    QuietStep s task s' events := by
  -- A quiet task moves on, or has one critical section in which it touches handles and queues.
  have hstay : ∀ (tasks : List Task), (∀ t ∈ tasks, t.handling = true ∨
      ∃ item, task = .outbound item ∧ t = .transmit item) →
      (∀ e ∈ events, (∃ x, e = .released x) ∨ ∃ x, e = .remembered x) →
      QuietStep s task (s.push tasks) events :=
    fun tasks ht he =>
      ⟨.refl _, ⟨tasks, rfl, ht⟩, fun _ h => Or.inl h, he, rfl, rfl, rfl, rfl⟩
  have hsection : ∀ r', Bookkeeping s.reliable r' → r'.acks = s.reliable.acks →
      (∀ e ∈ events, (∃ x, e = .released x) ∨ ∃ x, e = .remembered x) →
      QuietStep s task (s.withReliable r') events :=
    fun r' hr hacks he => ⟨hr, ⟨[], rfl, by simp⟩,
      fun ack h => Or.inl (by rw [← hacks]; exact h), he, rfl, rfl, rfl, rfl⟩
  cases task with
  | flush =>
      simp only [execTask] at hx
      split at hx <;> cases hx
      · exact ⟨⟨.refl _, rfl, rfl, rfl, rfl⟩, ⟨[.cancel _], rfl, by simp [Task.handling]⟩,
          fun _ h => Or.inl h, by simp, rfl, rfl, rfl, rfl⟩
      · exact hsection _ ⟨.refl _, rfl, rfl, rfl, rfl⟩ rfl (by simp)
  | cancel batch =>
      cases batch with
      | nil =>
          cases hx
          exact hstay [] (by simp) (by simp)
      | cons handle batch =>
          simp only [execTask] at hx
          split at hx <;> cases hx
          · exact hstay [.cancel _] (by simp [Task.handling]) (by simp)
          · exact hstay [.requeue _] (by simp [Task.handling]) (by simp)
  | requeue batch =>
      cases hx
      exact hsection _ ⟨.refl _, rfl, rfl, rfl, rfl⟩ rfl (by simp)
  | check check =>
      simp only [execTask] at hx
      split at hx <;> cases hx
      · exact hstay [] (by simp) (by simp)
      · exact hstay [.completed check] (by simp [Task.handling]) (by simp)
      · exact hstay [] (by simp) (by simp)
  | completed check =>
      cases hx
      exact hsection _ (bookkeeping_completed check s.reliable) (by simp) (by simp)
  | outbound item =>
      have hgo : ∀ t ∈ [Task.transmit item], t.handling = true ∨
          ∃ item', Task.outbound item = .outbound item' ∧ t = .transmit item' :=
        fun t ht => Or.inr ⟨item, rfl, List.mem_singleton.mp ht⟩
      simp only [execTask] at hx
      split at hx
      · split at hx
        · split at hx <;> cases hx
          · exact hstay [] (by simp) (by simp)
          · exact hstay [.transmit item] hgo (by simp)
          · exact hstay [] (by simp) (by simp)
        · cases hx
          exact hstay [.transmit item] hgo (by simp)
      · cases hx
        exact hstay [.transmit item] hgo (by simp)
  | outboundBusy item =>
      cases hx
      exact hsection _ (bookkeeping_outboundBusy item now s.reliable) (retryTarget_acks _ _ _ _)
        (by simp)
  | requeueAck item =>
      cases hx
      exact ⟨bookkeeping_requeueAck item s.reliable, ⟨[], rfl, by simp⟩,
        fun ack h => (mem_requeueAck h).imp_right fun heq => ⟨item, rfl, heq⟩, by simp, rfl, rfl,
        rfl, rfl⟩
  | remember sequence destination handle =>
      simp only [execTask] at hx
      split at hx <;> cases hx
      · exact hstay [] (by simp) (by simp)
      · exact hsection _ (bookkeeping_remember sequence destination handle now s.reliable)
          (by simp) (by simp)
  | deferred sequence destination busy =>
      cases hx
      refine hsection _ (Bookkeeping.trans ?_ (bookkeeping_retryTarget _ _ _ _)) ?_ (by simp)
      · split
        · exact bookkeeping_deferPeer _ _ _
        · exact .refl _
      · rw [retryTarget_acks]
        split <;> rfl
  | _ => cases hquiet

/-! ## The critical sections of a send -/

theorem storeLatest_ne (send : Send) (r : MeshReliable) {key : UInt64} (h : key ≠ send.key) :
    (storeLatest send r).latest[key]? = r.latest[key]? := by
  unfold storeLatest
  simp only
  split
  · rw [Std.ExtTreeMap.getElem?_insertIfNew]
    simp [Ne.symm h]
  · rw [Std.ExtTreeMap.getElem?_insert]
    simp [Ne.symm h]

/-- A value that waits was waiting before or is the send's. -/
theorem storeLatest_cases {send : Send} {r : MeshReliable} {key : UInt64}
    {value : SharedTopicConfig × Bytes} (h : (storeLatest send r).latest[key]? = some value) :
    r.latest[key]? = some value ∨ key = send.key ∧ value = (send.bridge, send.payload) := by
  by_cases hkey : key = send.key
  · subst hkey
    unfold storeLatest at h
    simp only at h
    split at h
    · rw [Std.ExtTreeMap.getElem?_insertIfNew] at h
      split at h
      · exact Or.inr ⟨rfl, (Option.some.inj h).symm⟩
      · exact Or.inl h
    · rw [Std.ExtTreeMap.getElem?_insert_self] at h
      exact Or.inr ⟨rfl, (Option.some.inj h).symm⟩
  · rw [storeLatest_ne send r hkey] at h
    exact Or.inl h

/-- A value is stored unless it is resumed and a newer one waits. -/
theorem storeLatest_self {send : Send} {r : MeshReliable}
    (h : send.resumed = true → r.latest[send.key]? = none) :
    (storeLatest send r).latest[send.key]? = some (send.bridge, send.payload) := by
  unfold storeLatest
  simp only
  split
  · rename_i hres
    have hnot : send.key ∉ r.latest := by
      rw [Std.ExtTreeMap.mem_iff_isSome_getElem?, h hres]
      simp
    rw [Std.ExtTreeMap.getElem?_insertIfNew]
    simp [hnot]
  · simp

theorem evictOldest_eq (r : MeshReliable) :
    (evictOldest r).latest = r.latest ∧ ∀ s : UInt16, (evictOldest r).pending[s]? =
      if evicted r = some s then none else r.pending[s]? := by
  unfold evictOldest evicted
  split
  · exact ⟨rfl, fun s => by simp⟩
  · cases oldestSample r.pending.toList with
    | none => exact ⟨rfl, fun s => by simp⟩
    | some item =>
        refine ⟨rfl, fun s => ?_⟩
        simp only [Option.map_some, Option.some.injEq, Std.ExtTreeMap.getElem?_erase,
          Std.LawfulEqCmp.compare_eq_iff_eq]

theorem admitSample_latest (now : Time) (send : Send) (adm : Admission) (data : Bytes)
    (r : MeshReliable) : (admitSample now send adm data r).latest = r.latest :=
  (evictOldest_eq r).1

/-- Admission enters the new sample beside those that are not evicted. -/
theorem admitSample_pending (now : Time) (send : Send) (adm : Admission) (data : Bytes)
    {r : MeshReliable} (hfree : adm.sequence ∉ r.pending) (s : UInt16) :
    (admitSample now send adm data r).pending[s]? =
      if s = adm.sequence then some (newSample now send adm data)
      else if evicted r = some s then none else r.pending[s]? := by
  have hnot : adm.sequence ∉ (evictOldest r).pending := by
    rw [Std.ExtTreeMap.mem_iff_isSome_getElem?, (evictOldest_eq r).2,
      Std.ExtTreeMap.getElem?_eq_none hfree]
    simp
  unfold admitSample
  simp only
  rw [Std.ExtTreeMap.getElem?_insertIfNew, (evictOldest_eq r).2]
  by_cases hs : s = adm.sequence
  · subst hs
    simp [hnot]
  · simp [hs, Ne.symm hs]

theorem rollBack_latest (send : Send) (adm : Admission) (r : MeshReliable) :
    (rollBack send adm r).latest = (storeLatest send r).latest := by
  unfold rollBack storeLatest
  simp only
  split <;> rfl

theorem rollBack_pending (send : Send) (adm : Admission) (r : MeshReliable) :
    (rollBack send adm r).pending = r.pending.erase adm.sequence := by
  unfold rollBack storeLatest
  simp only
  split <;> rfl

theorem chooseTargets_latest (now : Time) (members probes : List UInt16) (r : MeshReliable) :
    (chooseTargets now members probes r).2.latest = r.latest := by
  unfold chooseTargets
  split
  · split <;> rfl
  · rfl

/-- Arbitration stores the value exactly when it admits none. -/
theorem arbitrate_latest {now : Time} {send : Send} {addresses members probes : List UInt16}
    {r r' : MeshReliable} {adm : Option Admission}
    (h : arbitrate now send addresses members probes r = some (r', adm)) :
    r'.latest = if adm.isSome then r.latest else (storeLatest send r).latest := by
  have hstore : ∀ r₁ : MeshReliable, r₁.latest = r.latest →
      (storeLatest send r₁).latest = (storeLatest send r).latest := by
    intro r₁ h₁
    unfold storeLatest
    simp only [h₁]
  -- The choice of the targets leaves the latest values alone.
  have hchoose := chooseTargets_latest now members probes r
  unfold arbitrate at h
  simp only at h
  split at h
  · cases h
    exact hstore _ hchoose
  · obtain ⟨next, hnext, h⟩ := Option.map_eq_some_iff.mp h
    unfold arbitrateTurn at h
    split at h
    · simp only at h
      split at h
      · cases h
        exact hchoose
      · cases h
        exact hstore _ hchoose
    · cases h
      exact hchoose

theorem validPayload_of_framed {bridge : SharedTopicConfig} {payload : Bytes}
    (h : Framed bridge payload) : validPayload payload = true := by
  obtain ⟨body, rfl⟩ := h
  simp [validPayload, bridgePayload, u16Bytes, byteAt, meshVendorPrefixBytes,
    bridgeFramePrefixBytes]

/-! ## What follows a sweep -/

theorem mem_sweepEvents {now : Time} {r : MeshReliable} {e : Event} :
    e ∈ sweepEvents now r ↔ (∃ key ∈ sweepAged now r, e = .aged key) ∨
      (∃ s, .finished s ∈ (sweepLoop now r).events ∧ e = .finished s) ∨
      (∃ s, .expired s ∈ (sweepLoop now r).events ∧ e = .expired s) ∨
      ∃ s key payload, .folded s key payload ∈ (sweepLoop now r).events ∧
        e = .folded key s payload := by
  simp only [sweepEvents, List.mem_append, List.mem_map]
  constructor
  · rintro (⟨key, hkey, rfl⟩ | ⟨x, hx, rfl⟩)
    · exact Or.inl ⟨key, hkey, rfl⟩
    · cases x with
      | finished s => exact Or.inr (Or.inl ⟨s, hx, rfl⟩)
      | expired s => exact Or.inr (Or.inr (Or.inl ⟨s, hx, rfl⟩))
      | folded s key payload => exact Or.inr (Or.inr (Or.inr ⟨s, key, payload, hx, rfl⟩))
  · rintro (⟨key, hkey, rfl⟩ | ⟨s, hx, rfl⟩ | ⟨s, hx, rfl⟩ | ⟨s, key, payload, hx, rfl⟩)
    · exact Or.inl ⟨key, hkey, rfl⟩
    · exact Or.inr ⟨_, hx, rfl⟩
    · exact Or.inr ⟨_, hx, rfl⟩
    · exact Or.inr ⟨_, hx, rfl⟩

theorem mem_sweepReady {now : Time} {r : MeshReliable} {value : SharedTopicConfig × Bytes} :
    value ∈ sweepReady now r ↔ ∃ key : UInt64, (sweepLoop now r).latest[key]? = some value ∧
      channelBusy (sweepLoop now r).pending key = false := by
  simp only [sweepReady, List.mem_map, List.mem_filter, Bool.not_eq_true',
    Prod.exists]
  constructor
  · rintro ⟨key, bridge, payload, ⟨hmem, hbusy⟩, rfl⟩
    exact ⟨key, Std.ExtTreeMap.mem_toList_iff_getElem?_eq_some.mp hmem, hbusy⟩
  · rintro ⟨key, hlatest, hbusy⟩
    exact ⟨key, value.1, value.2,
      ⟨Std.ExtTreeMap.mem_toList_iff_getElem?_eq_some.mpr hlatest, hbusy⟩, rfl⟩

theorem sweepState_latest (now : Time) (r : MeshReliable) (key : UInt64) :
    (sweepState now r).latest[key]? = ((sweepLoop now r).latest[key]?).filter
      (fun _ => channelBusy (sweepLoop now r).pending key) := by
  unfold sweepState
  simp only
  rw [Std.ExtTreeMap.getElem?_filter']

theorem mem_sendsOf_sweepTasks {now : Time} {r : MeshReliable} {send : Send} :
    send ∈ sendsOf (sweepTasks now r) ↔
      ∃ value ∈ sweepReady now r, send = ⟨value.1, value.2, true⟩ := by
  rw [mem_sendsOf]
  constructor
  · rintro ⟨t, ht, hs⟩
    simp only [sweepTasks, List.mem_append, List.mem_map, List.mem_singleton] at ht
    rcases ht with ((⟨_, _, rfl⟩ | rfl) | ⟨_, _, rfl⟩) | ⟨value, hvalue, rfl⟩
    · cases hs
    · cases hs
    · cases hs
    · cases hs
      exact ⟨value, hvalue, rfl⟩
  · rintro ⟨value, hvalue, rfl⟩
    refine ⟨.enter ⟨value.1, value.2, true⟩, ?_, rfl⟩
    simp only [sweepTasks, List.mem_append, List.mem_map]
    exact Or.inr ⟨value, hvalue, rfl⟩

theorem sendsOf_sweepTasks (now : Time) (r : MeshReliable) :
    sendsOf (sweepTasks now r) =
      (sweepReady now r).map fun value => ⟨value.1, value.2, true⟩ := by
  have hnone : ∀ {α : Type} (f : α → Task) (l : List α), (∀ x, (f x).send = none) →
      (l.map f).filterMap Task.send = [] := by
    intro α f l hf
    rw [List.filterMap_map, List.filterMap_eq_nil_iff]
    exact fun x _ => hf x
  unfold sendsOf sweepTasks
  rw [List.filterMap_append, List.filterMap_append, List.filterMap_append,
    hnone _ _ (fun _ => rfl), hnone _ _ (fun _ => rfl), List.filterMap_map]
  simp only [List.filterMap_cons, List.filterMap_nil, Task.send, List.nil_append]
  rw [← List.filterMap_eq_map]
  rfl

/-! ## What goes on the air -/

/-- A task that makes a daemon call for a frame. -/
inductive Transmits : Task → Frame → Prop where
  | outbound (item : Outbound) : Transmits (.transmit item) item.frame
  | fanOut (send : Send) (adm : Admission) (data : Bytes) (destination : UInt16)
      (remaining : List UInt16) (admitted : Bool) :
      Transmits (.fanOut send adm data (destination :: remaining) admitted)
        ⟨destination, send.bridge.meshAppKeyIndex, fanOutFrame adm data destination⟩
  | plain (send : Send) :
      Transmits (.plain send)
        ⟨send.bridge.meshDestination, send.bridge.meshAppKeyIndex, send.payload⟩

theorem exec_transmitted {now : Time} {view : View} {answer : Answer} {s s' : Station}
    {task : Task} {events : List Event}
    (hx : execTask now view answer s task = some (s', events)) {f : Frame}
    (hf : .transmitted f ∈ events) : Transmits task f := by
  by_cases hquiet : task.quiet = true
  · rcases (exec_quiet hquiet hx).events _ hf with ⟨_, heq⟩ | ⟨_, heq⟩ <;> cases heq
  -- The tasks that are left hand a frame to the daemon in two ways, or in none.
  cases task with
  | maintain =>
      simp only [execTask] at hx
      split at hx <;> cases hx <;> cases hf
  | clear preserveLatest =>
      cases hx
      cases List.mem_singleton.mp hf
  | sweep =>
      cases hx
      rcases mem_sweepEvents.mp hf with ⟨_, _, heq⟩ | ⟨_, _, heq⟩ | ⟨_, _, heq⟩ |
        ⟨_, _, _, _, heq⟩ <;> cases heq
  | transmit item =>
      have hitem : f = item.frame := by
        simp only [execTask] at hx
        split at hx
        · cases hx
        · split at hx
          · split at hx <;> cases hx <;> simpa using hf
          · cases hx
            cases hf
          · cases hx
            split at hf
            · simpa using hf
            · cases hf
          · cases hx
      subst hitem
      exact .outbound item
  | consume send =>
      cases hx
      cases hf
  | install meshApp coordinator =>
      cases hx
      cases hf
  | enter send =>
      simp only [execTask] at hx
      split at hx
      · cases hx
        simp at hf
      · split at hx <;> cases hx <;> cases hf
  | gate send =>
      simp only [execTask] at hx
      split at hx <;> cases hx <;> simp at hf
  | claim send addresses =>
      simp only [execTask] at hx
      split at hx
      · cases hx
        simp at hf
      · generalize (if send.resumed = true then s else
          s.withReliable (dropLatest send s.reliable)) = s₁ at hx
        split at hx
        · split at hx <;> cases hx <;> simp at hf
        · cases hx
          cases hf
  | occupied send addresses =>
      simp only [execTask] at hx
      split at hx <;> cases hx <;> simp at hf
  | arbitrate send addresses =>
      simp only [execTask] at hx
      split at hx <;> cases hx <;> simp at hf
  | admission send adm =>
      cases hx
      simp at hf
  | fanOut send adm data remaining admitted =>
      cases remaining with
      | nil =>
          simp only [execTask] at hx
          split at hx <;> cases hx <;> simp at hf
      | cons destination remaining =>
          have hframe : f = ⟨destination, send.bridge.meshAppKeyIndex,
              fanOutFrame adm data destination⟩ := by
            simp only [execTask] at hx
            split at hx
            · cases hx
            · split at hx <;> cases hx
              · simpa using hf
              · cases hf
              · split at hf
                · simpa using hf
                · cases hf
          subst hframe
          exact .fanOut send adm data destination remaining admitted
  | plain send =>
      have hframe : f = ⟨send.bridge.meshDestination, send.bridge.meshAppKeyIndex,
          send.payload⟩ := by
        simp only [execTask] at hx
        split at hx
        · cases hx
        · split at hx <;> cases hx
          · simpa using hf
          · split at hf
            · simpa using hf
            · simp at hf
      subst hframe
      exact .plain send
  | _ => exact absurd rfl hquiet

end UavBluetooth.Mesh
