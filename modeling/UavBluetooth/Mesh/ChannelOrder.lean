import UavBluetooth.Lib.InOrder
import UavBluetooth.Mesh.Calls
import UavBluetooth.Mesh.Publications

set_option autoImplicit false

/-! # The order of a channel's values

Nothing on the air orders the samples of a channel, so a receiver publishes them as they arrive.
The sender keeps a channel to one sample at a time by blocking it, but the native completion of a
transfer ends the block while the sample is still repaired. `published_in_order` says that a
receiver does not go back to an older value as long as a sample is entered only when none of its
channel is pending, and frames arrive only in the lifetime of their sample;
`published_out_of_order` is a run in which the block has ended early.
-/

namespace UavBluetooth.Mesh

open Config Arrival

/-! ## Values of a channel -/

def Event.submittedOn (key : UInt64) : Event → Option Bytes
  | .submitted k payload => if k = key then some payload else none
  | _ => none

def Event.publishedFrom (source : UInt16) (key : UInt64) : Event → Option Bytes
  | .published m => if m.source = source ∧ m.channelKey = key then some (decodedFrame m.data) else none
  | _ => none

/-- The values that the bridge submitted on the channel, oldest first. -/
def submissions (key : UInt64) (events : List Event) : List Bytes :=
  (events.filterMap (Event.submittedOn key)).reverse

/-- The values of the source's channel that were published, oldest first. -/
def channelPublications (source : UInt16) (key : UInt64) (events : List Event) : List Bytes :=
  (events.filterMap (Event.publishedFrom source key)).reverse

theorem submissions_append (key : UInt64) (events log : List Event) :
    submissions key (events.reverse ++ log) =
      submissions key log ++ events.filterMap (Event.submittedOn key) := by
  simp [submissions, List.filterMap_append, List.filterMap_reverse]

theorem channelPublications_append (source : UInt16) (key : UInt64) (events log : List Event) :
    channelPublications source key (events.reverse ++ log) =
      channelPublications source key log ++ events.filterMap (Event.publishedFrom source key) := by
  simp [channelPublications, List.filterMap_append, List.filterMap_reverse]

/-! ## Runs of one channel -/

/-- The step belongs to a run of one channel of `a` in which `b` is not reset. -/
def OneChannel (a b : UInt16) (bridge : SharedTopicConfig) (w : World) : WorldAction → Prop
  | .act node (.submit bridge' _) =>
      node = a → channelKey bridge' = channelKey bridge → bridge' = bridge
  | .act node (.exec _ _) => node = b →
      ∀ preserveLatest, (w.station b).todo.head? ≠ some (.clear preserveLatest)
  | _ => True

/-- The sender holds no sample of the channel. -/
def Unsampled (r : MeshReliable) (key : UInt64) : Prop :=
  ∀ (sequence : UInt16) (p : MeshReliablePending), r.pending[sequence]? = some p →
    p.channelKey ≠ key

/-- No data frame of the sequence is on its way. -/
def Unused (w : World) (a b : UInt16) (sequence : UInt16) : Prop :=
  ∀ p ∈ w.air, p.source = a → p.destination = b → carriesData p.data = true →
    meshReliableSequence p.data ≠ sequence

/-- The sender holds the sample of the frame, and has entered it less than 30 s ago. -/
def InLifetime (w : World) (key : UInt64) (m : ReceivedMessage) : Prop :=
  ∃ p, (w.station m.source).reliable.pending[meshReliableSequence m.data]? = some p ∧
    p.channelKey = key ∧ w.now - p.created ≤ seconds 30

/-- The step enters a sample of the channel only when none is pending and the sequence has left
the air, and a frame that the receiver does not know arrives only in the lifetime of its sample. -/
def OneSample (a b : UInt16) (key : UInt64) (w : World) : WorldAction → Prop
  | .act node (.exec _ _) => node = a → ∀ send adm,
      (w.station a).todo.head? = some (.admission send adm) → send.key = key →
        Unsampled (w.station a).reliable key ∧ Unused w a b adm.sequence
  | .deliver index _ _ => ∀ p, w.air[index]? = some p → p.source = a → p.destination = b →
      isDataFrame p.data = true → p.message.channelKey = key →
      (w.station b).reliable.seen[p.message.seenKey]? = none → InLifetime w key p.message
  | _ => True

/-! ## Marks -/

/-- Places in the sequence of submitted values: of the value that the channel's last sample was
entered with, of the value that it holds now, and of the last value published. -/
structure Marks where
  admitted : Nat := 0
  current : Nat := 0
  floor : Nat := 0

/-- The value is at a place from `i` on. -/
def ValueFrom (submitted : List Bytes) (vendor : UInt32) (i : Nat) (v : Bytes) : Prop :=
  vendorOpcode v = vendor ∧ ∃ j, i ≤ j ∧ submitted[j]? = some v

/-- Where the sender's values of the channel come from. -/
structure SenderMarks (key : UInt64) (vendor : UInt32) (submitted : List Bytes)
    (r : MeshReliable) (todo : List Task) (m : Marks) : Prop where
  admitted : m.admitted ≤ m.current
  bound : m.current ≤ submitted.length
  sample : ∀ (q : UInt16) (p : MeshReliablePending), r.pending[q]? = some p →
    p.channelKey = key → vendorOpcode (decodedFrame p.data) = vendor ∧
      submitted[m.current]? = some (decodedFrame p.data)
  unique : ∀ (q q' : UInt16) (p p' : MeshReliablePending), r.pending[q]? = some p →
    r.pending[q']? = some p' → p.channelKey = key → p'.channelKey = key → q = q'
  waiting : ∀ value, r.latest[key]? = some value → ValueFrom submitted vendor m.current value.2
  sends : ∀ send ∈ sendsOf todo, send.key = key → ValueFrom submitted vendor m.current send.payload

/-- The receipt identity under which the frames of a sample arrive. -/
def MeshReliablePending.identity (p : MeshReliablePending) (source : UInt16) :
    MeshReliableSeenKey where
  source := source
  keyIndex := p.appKeyIndex
  swarmId := meshReliableSwarmId p.data
  vendorOpcode := vendorOpcode p.data
  sequence := meshReliableSequence p.data

/-- The frames on their way carry values that their sample has had. -/
def AirMarks (a b : UInt16) (key : UInt64) (submitted : List Bytes)
    (pending : Std.ExtTreeMap UInt16 MeshReliablePending) (air : List Packet) (m : Marks) : Prop :=
  ∀ f ∈ air, f.source = a → f.destination = b → carriesData f.data = true →
    ∀ p, pending[meshReliableSequence f.data]? = some p → p.channelKey = key →
      f.message.seenKey = p.identity a ∧ ∃ i, m.admitted ≤ i ∧ i ≤ m.current ∧
        submitted[i]? = some (decodedFrame f.data)

/-- The receiver has a receipt of the sample, or has had 90 s to forget it. -/
def Receipted (now : Time) (seen : Std.ExtTreeMap MeshReliableSeenKey MeshReliableSeen)
    (source : UInt16) (p : MeshReliablePending) : Prop :=
  (∃ e, seen[p.identity source]? = some e ∧ p.created ≤ e.last) ∨ seconds 90 < now - p.created

/-- How the samples of the channel go on while the marks change from `m` to `m'`: they are the
same ones, or one is entered, of which nothing is on its way (`Fresh`). -/
structure Succession (a : UInt16) (key : UInt64) (fresh : UInt16 → Prop) (now : Time)
    (pending pending' : Std.ExtTreeMap UInt16 MeshReliablePending) (m m' : Marks) : Prop where
  current : m.current ≤ m'.current
  floor : m'.floor = m.floor
  samples : ∀ (q : UInt16) (p' : MeshReliablePending), pending'[q]? = some p' →
    p'.channelKey = key →
      (m'.admitted = m.admitted ∧ ∃ p, pending[q]? = some p ∧ p.channelKey = key ∧
        p'.identity a = p.identity a ∧ p'.created = p.created) ∨
      (m.current ≤ m'.admitted ∧ fresh q ∧ p'.created = now)

section

variable {a : UInt16} {key : UInt64} {vendor : UInt32} {submitted : List Bytes} {now : Time}
  {r r' : MeshReliable} {task : Task} {rest l : List Task} {m : Marks} {fresh : UInt16 → Prop}

theorem place_le {i : Nat} {v : Bytes} (h : submitted[i]? = some v) : i ≤ submitted.length :=
  Nat.le_of_lt (List.getElem?_eq_some_iff.mp h).1

theorem vendorOpcode_make {v : Bytes} (h : 3 ≤ v.length) (sequence swarmId : UInt16) :
    vendorOpcode (makeMeshReliableData v sequence swarmId) = vendorOpcode v := by
  rcases v with _ | ⟨_, _ | ⟨_, _ | ⟨_, v⟩⟩⟩
  · simp at h
  · simp at h
  · simp at h
  · rfl

theorem MeshReliablePending.Holds.opcode {p : MeshReliablePending} {q : UInt16} {v : Bytes}
    (h : p.Holds q v) : vendorOpcode (decodedFrame p.data) = vendorOpcode p.data := by
  rw [h.decoded]
  obtain ⟨⟨bridge, hframed⟩, swarmId, hdata⟩ := h
  rw [hdata, vendorOpcode_make hframed.length]

theorem succession_thinned {pending pending' : Std.ExtTreeMap UInt16 MeshReliablePending}
    (h : Thinned pending pending') : Succession a key fresh now pending pending' m m := by
  refine ⟨Nat.le_refl _, rfl, fun q p' hp' hkey => Or.inl ⟨rfl, ?_⟩⟩
  obtain ⟨p, hp, ht⟩ := h q p' hp'
  refine ⟨p, hp, ht.channelKey.symm.trans hkey, ?_, ht.created⟩
  rw [MeshReliablePending.identity, MeshReliablePending.identity, ht.data, ht.appKeyIndex]

/-- Samples that are at most trimmed keep their marks. -/
theorem SenderMarks.thinned (h : SenderMarks key vendor submitted r rest m)
    (hpending : Thinned r.pending r'.pending)
    (hwaiting : ∀ value, r'.latest[key]? = some value → ValueFrom submitted vendor m.current value.2)
    (hsends : ∀ send ∈ sendsOf l, send.key = key →
      ValueFrom submitted vendor m.current send.payload) :
    SenderMarks key vendor submitted r' l m where
  admitted := h.admitted
  bound := h.bound
  sample := fun q p' hp' hkey => by
    obtain ⟨p, hp, ht⟩ := hpending q p' hp'
    rw [ht.data]
    exact h.sample q p hp (ht.channelKey.symm.trans hkey)
  unique := fun q q' p p' hp hp' hkey hkey' => by
    obtain ⟨p₀, hp₀, ht⟩ := hpending q p hp
    obtain ⟨p₁, hp₁, ht'⟩ := hpending q' p' hp'
    exact h.unique q q' p₀ p₁ hp₀ hp₁ (ht.channelKey.symm.trans hkey)
      (ht'.channelKey.symm.trans hkey')
  waiting := hwaiting
  sends := hsends

/-- A stretch other than a sweep or an admission leaves the marks. -/
theorem SenderMarks.flow {s s' : Station}
    (h : SenderMarks key vendor submitted s.reliable (task :: s.todo) m)
    (hcalls : Calls s.reliable (task :: s.todo)) (hf : Flow s task l s') :
    SenderMarks key vendor submitted s'.reliable s'.todo m := by
  have hown : ∀ send, task.send = some send → send.key = key →
      ValueFrom submitted vendor m.current send.payload := fun send hs =>
    h.sends send (mem_sendsOf.mpr ⟨task, List.mem_cons_self, hs⟩)
  refine h.thinned hf.pending (fun value hv => ?_) (fun send hs hkey => ?_)
  · rcases hf.latest key value hv with hold | ⟨send, hsend, rfl, rfl, _⟩
    · exact h.waiting value hold
    · exact hown send hsend rfl
  · rw [hf.todo, sendsOf_append] at hs
    rcases List.mem_append.mp hs with hs | hs
    · rcases hf.sends with hnil | ⟨send', hsend', hone⟩
      · rw [hnil] at hs
        cases hs
      · rw [hone, List.mem_singleton] at hs
        subst hs
        exact hown send hsend' hkey
    · exact h.sends send (hcalls.tail_sends.2 send hs) hkey

/-- A sweep may give the channel's sample the waiting value. -/
theorem SenderMarks.sweep (h : SenderMarks key vendor submitted r (.sweep :: rest) m)
    (hcalls : Calls r (.sweep :: rest)) (hcalls' : Calls (sweepState now r) (sweepTasks now r ++ rest)) :
    ∃ m', SenderMarks key vendor submitted (sweepState now r) (sweepTasks now r ++ rest) m' ∧
      Succession a key fresh now r.pending (sweepState now r).pending m m' := by
  -- What is sent after the sweep has waited before.
  have hsends : ∀ send ∈ sendsOf (sweepTasks now r ++ rest), send.key = key →
      r.latest[key]? = some (send.bridge, send.payload) ∨ send ∈ sendsOf rest := by
    intro send hs hkey
    rw [sendsOf_append] at hs
    rcases List.mem_append.mp hs with hs | hs
    · rw [← hkey]
      exact Or.inl (sweep_resumed hcalls hs).2.1
    · exact Or.inr hs
  have hidentity : ∀ (q : UInt16) (p p' : MeshReliablePending), r.pending[q]? = some p →
      (sweepState now r).pending[q]? = some p' → SameSample p p' → p.channelKey = key →
      vendorOpcode (decodedFrame p'.data) = vendor →
      meshReliableSwarmId p'.data = meshReliableSwarmId p.data → p'.identity a = p.identity a := by
    intro q p p' hp hp' hsame hkey hvendor hswarm
    obtain ⟨v, hv⟩ := hcalls.samples q p hp
    obtain ⟨v', hv'⟩ := hcalls'.samples q p' hp'
    rw [MeshReliablePending.identity, MeshReliablePending.identity, hsame.appKeyIndex, hswarm,
      hv.sequence_eq, hv'.sequence_eq, ← hv.opcode, ← hv'.opcode, hvendor, (h.sample q p hp hkey).1]
  by_cases hfold : ∃ (q : UInt16) (p p' : MeshReliablePending) (value : SharedTopicConfig × Bytes),
      r.pending[q]? = some p ∧ p.channelKey = key ∧ (sweepState now r).pending[q]? = some p' ∧
      r.latest[key]? = some value ∧ p'.data = foldedData q p value.2 ∧
      (sweepState now r).latest[key]? = none
  · obtain ⟨q, p, p', value, hp, hkey, hp', hlatest, hdata, hnone⟩ := hfold
    obtain ⟨hvendor, j, hj, hplace⟩ := h.waiting value hlatest
    obtain ⟨_, hframed⟩ := hcalls.keyed key value hlatest
    have hvalue : decodedFrame p'.data = value.2 := by
      rw [hdata]
      exact decodedFrame_of_framed hframed _ _
    have hswarm : meshReliableSwarmId p'.data = meshReliableSwarmId p.data := by
      rw [hdata]
      exact meshReliableSwarmId_make _ _ _ hframed.length
    have honly : ∀ (q₁ : UInt16) (p₁ : MeshReliablePending),
        (sweepState now r).pending[q₁]? = some p₁ → p₁.channelKey = key → q₁ = q ∧ p₁ = p' := by
      intro q₁ p₁ hp₁ hkey₁
      obtain ⟨p₀, hp₀, hsame, _⟩ := sweep_sample hp₁
      have hq := h.unique q₁ q p₀ p hp₀ hp (hsame.channelKey.symm.trans hkey₁) hkey
      subst hq
      rw [hp'] at hp₁
      exact ⟨rfl, (Option.some.inj hp₁).symm⟩
    refine ⟨{ m with current := j }, ⟨Nat.le_trans h.admitted hj, place_le hplace, ?_, ?_, ?_, ?_⟩,
      hj, rfl, ?_⟩
    · intro q₁ p₁ hp₁ hkey₁
      obtain ⟨_, rfl⟩ := honly q₁ p₁ hp₁ hkey₁
      rw [hvalue]
      exact ⟨hvendor, hplace⟩
    · intro q₁ q₂ p₁ p₂ hp₁ hp₂ hkey₁ hkey₂
      rw [(honly q₁ p₁ hp₁ hkey₁).1, (honly q₂ p₂ hp₂ hkey₂).1]
    · intro value' hv
      rw [hnone] at hv
      cases hv
    · intro send hs hkey'
      rcases hsends send hs hkey' with hwaited | hs
      · rw [hlatest] at hwaited
        cases hwaited
        exact ⟨hvendor, j, Nat.le_refl _, hplace⟩
      · obtain ⟨t, ht, hs⟩ := mem_sendsOf.mp hs
        have hlayer := hcalls.below ht
        rw [layer_of_send hs] at hlayer
        exact absurd hlayer (by decide)
    · intro q₁ p₁ hp₁ hkey₁
      obtain ⟨rfl, rfl⟩ := honly q₁ p₁ hp₁ hkey₁
      obtain ⟨p₀, hp₀, hsame, _⟩ := sweep_sample hp₁
      obtain rfl : p = p₀ := Option.some.inj (hp.symm.trans hp₀)
      have hopcode : vendorOpcode (decodedFrame p₁.data) = vendor := by
        rw [hvalue]
        exact hvendor
      exact Or.inl ⟨rfl, p, hp, hkey, hidentity q₁ p p₁ hp hp₁ hsame hkey hopcode hswarm,
        hsame.created⟩
  · have hdata : ∀ (q : UInt16) (p' : MeshReliablePending),
        (sweepState now r).pending[q]? = some p' → p'.channelKey = key →
        ∃ p, r.pending[q]? = some p ∧ p.channelKey = key ∧ SameSample p p' ∧ p'.data = p.data := by
      intro q p' hp' hkey
      obtain ⟨p, hp, hsame, hor⟩ := sweep_sample hp'
      have hkey' : p.channelKey = key := hsame.channelKey.symm.trans hkey
      refine ⟨p, hp, hkey', hsame, ?_⟩
      rcases hor with hdata | ⟨value, hlatest, hdata, hnone⟩
      · exact hdata
      · rw [hkey'] at hlatest hnone
        exact absurd ⟨q, p, p', value, hp, hkey', hp', hlatest, hdata, hnone⟩ hfold
    refine ⟨m, ⟨h.admitted, h.bound, ?_, ?_, fun value hv => h.waiting value (sweep_latest hv), ?_⟩,
      Nat.le_refl _, rfl, ?_⟩
    · intro q p' hp' hkey
      obtain ⟨p, hp, hkey', _, hd⟩ := hdata q p' hp' hkey
      rw [hd]
      exact h.sample q p hp hkey'
    · intro q q' p p' hp hp' hkey hkey'
      obtain ⟨p₀, hp₀, hkey₀, _⟩ := hdata q p hp hkey
      obtain ⟨p₁, hp₁, hkey₁, _⟩ := hdata q' p' hp' hkey'
      exact h.unique q q' p₀ p₁ hp₀ hp₁ hkey₀ hkey₁
    · intro send hs hkey
      rcases hsends send hs hkey with hwaited | hs
      · exact h.waiting (send.bridge, send.payload) hwaited
      · exact h.sends send (hcalls.tail_sends.2 send hs) hkey
    · intro q p' hp' hkey
      obtain ⟨p, hp, hkey', hsame, hd⟩ := hdata q p' hp' hkey
      refine Or.inl ⟨rfl, p, hp, hkey', ?_, hsame.created⟩
      refine hidentity q p p' hp hp' hsame hkey' ?_ (by rw [hd])
      rw [hd]
      exact (h.sample q p hp hkey').1

/-- An admission moves the marks of its channel on to the value of the send. -/
theorem SenderMarks.admission {send : Send} {adm : Admission}
    (h : SenderMarks key vendor submitted r (.admission send adm :: rest) m)
    (hcalls : Calls r (.admission send adm :: rest)) (hnone : send.key = key → Unsampled r key)
    (swarmId : UInt16) :
    let data := makeMeshReliableData send.payload adm.sequence swarmId
    ∃ m', SenderMarks key vendor submitted (admitSample now send adm data r)
        (admissionTasks send adm data ++ rest) m' ∧
      Succession a key (fun q => send.key = key ∧ q = adm.sequence) now r.pending
        (admitSample now send adm data r).pending m m' := by
  intro data
  have hfree := hcalls.free send adm List.mem_cons_self
  have hmem : send ∈ sendsOf (.admission send adm :: rest) := List.mem_cons_self
  have hsends : ∀ send' ∈ sendsOf (admissionTasks send adm data ++ rest),
      send' ∈ sendsOf (.admission send adm :: rest) := by
    intro send' hs
    rw [sendsOf_append, sendsOf_admissionTasks] at hs
    exact hs
  have hlatest : (admitSample now send adm data r).latest = r.latest :=
    admitSample_latest now send adm data r
  by_cases hkey : send.key = key
  · -- The channel had no sample; its new one has the value of the send.
    obtain ⟨hvendor, j, hj, hplace⟩ := h.sends send hmem hkey
    have hvalue : decodedFrame data = send.payload :=
      decodedFrame_of_framed (hcalls.framed send hmem) _ _
    have hnew : ∀ (q : UInt16) (p : MeshReliablePending),
        (admitSample now send adm data r).pending[q]? = some p → p.channelKey = key →
          q = adm.sequence ∧ p = newSample now send adm data := by
      intro q p hp hk
      exact (admitSample_cases hfree hp).resolve_right fun hold => hnone hkey q p hold hk
    refine ⟨{ m with admitted := j, current := j },
      ⟨Nat.le_refl _, place_le hplace, ?_, ?_, ?_, ?_⟩, hj, rfl, ?_⟩
    · intro q p hp hk
      obtain ⟨_, rfl⟩ := hnew q p hp hk
      show vendorOpcode (decodedFrame data) = vendor ∧ submitted[j]? = some (decodedFrame data)
      rw [hvalue]
      exact ⟨hvendor, hplace⟩
    · intro q q' p p' hp hp' hk hk'
      rw [(hnew q p hp hk).1, (hnew q' p' hp' hk').1]
    · intro value hv
      rw [hlatest, ← hkey, hcalls.vacant _ List.mem_cons_self send rfl (Or.inr rfl)] at hv
      cases hv
    · intro send' hs hk
      have hsame : send' = send := by
        rcases List.mem_cons.mp (hsends send' hs) with heq | hs
        · exact heq
        · obtain ⟨t, ht, hs⟩ := mem_sendsOf.mp hs
          exact absurd (hk.trans hkey.symm) (hcalls.key_ne rfl ht hs)
      rw [hsame]
      exact ⟨hvendor, j, Nat.le_refl _, hplace⟩
    · intro q p hp hk
      obtain ⟨rfl, rfl⟩ := hnew q p hp hk
      exact Or.inr ⟨hj, ⟨hkey, rfl⟩, rfl⟩
  · have hold : ∀ (q : UInt16) (p : MeshReliablePending),
        (admitSample now send adm data r).pending[q]? = some p → p.channelKey = key →
          r.pending[q]? = some p := by
      intro q p hp hk
      refine (admitSample_cases hfree hp).resolve_left ?_
      rintro ⟨_, rfl⟩
      exact hkey hk
    refine ⟨m, ⟨h.admitted, h.bound, ?_, ?_, ?_, ?_⟩, Nat.le_refl _, rfl, ?_⟩
    · exact fun q p hp hk => h.sample q p (hold q p hp hk) hk
    · exact fun q q' p p' hp hp' hk hk' =>
        h.unique q q' p p' (hold q p hp hk) (hold q' p' hp' hk') hk hk'
    · rw [hlatest]
      exact h.waiting
    · exact fun send' hs hk => h.sends send' (hsends send' hs) hk
    · exact fun q p hp hk => Or.inl ⟨rfl, p, hold q p hp hk, hk, rfl, rfl⟩

/-- What the executor does to the marks: it leaves them, moves the channel's sample on to a newer
value, or enters a sample. -/
theorem senderMarks_exec {view : View} {answer : Answer} {s s' : Station} {events : List Event}
    (h : SenderMarks key vendor submitted s.reliable (task :: s.todo) m)
    (hcalls : Calls s.reliable (task :: s.todo)) (hcalls' : Calls s'.reliable s'.todo)
    (hnone : ∀ send adm, task = .admission send adm → send.key = key → Unsampled s.reliable key)
    (hx : execTask now view answer s task = some (s', events)) :
    ∃ m', SenderMarks key vendor submitted s'.reliable s'.todo m' ∧
      Succession a key (fun q => ∃ send adm, task = .admission send adm ∧ send.key = key ∧
        q = adm.sequence) now s.reliable.pending s'.reliable.pending m m' := by
  by_cases hsweep : task = .sweep
  · subst hsweep
    cases hx
    exact h.sweep hcalls hcalls'
  · by_cases hadmission : ∃ send adm, task = .admission send adm
    · obtain ⟨send, adm, rfl⟩ := hadmission
      cases hx
      obtain ⟨m', hm', hsuccession⟩ := h.admission (a := a) hcalls (hnone send adm rfl) view.swarmId
      refine ⟨m', hm', hsuccession.current, hsuccession.floor, fun q p hp hk => ?_⟩
      exact (hsuccession.samples q p hp hk).imp_right fun ⟨hle, ⟨hkey, hq⟩, hcreated⟩ =>
        ⟨hle, ⟨send, adm, rfl, hkey, hq⟩, hcreated⟩
    · obtain ⟨l, hf⟩ := exec_flow hsweep (fun send adm heq => hadmission ⟨send, adm, heq⟩) hx
      exact ⟨m, h.flow hcalls hf, succession_thinned hf.pending⟩

end

/-! ## The receiver -/

/-- What the receiver has published and is decoding, against the samples of the sender. -/
structure ReceiverMarks (a : UInt16) (key : UInt64) (submitted arrived : List Bytes) (now : Time)
    (pending : Std.ExtTreeMap UInt16 MeshReliablePending)
    (seen : Std.ExtTreeMap MeshReliableSeenKey MeshReliableSeen) (decoding : Option Decoding)
    (m : Marks) : Prop where
  arrived : InOrderUpTo submitted arrived m.floor
  floor : m.floor ≤ m.current
  created : ∀ (q : UInt16) (p : MeshReliablePending), pending[q]? = some p →
    p.channelKey = key → p.created ≤ now
  /-- What was published after the sample was entered is still known. -/
  receipt : ∀ (q : UInt16) (p : MeshReliablePending), pending[q]? = some p →
    p.channelKey = key → m.floor ≤ m.admitted ∨ Receipted now seen a p
  /-- A receipt may be taken back with the frame at hand, but not after a publication. -/
  refusable : ∀ d, decoding = some d → d.delivered ≠ some true →
    ∀ (q : UInt16) (p : MeshReliablePending), pending[q]? = some p → p.channelKey = key →
      p.identity a = d.message.seenKey → m.floor ≤ m.admitted ∨ seconds 90 < now - p.created
  decoding : ∀ d, decoding = some d → d.delivered ≠ some true → d.message.source = a →
    d.message.channelKey = key → ∃ i, m.floor ≤ i ∧ i ≤ m.current ∧
      submitted[i]? = some (decodedFrame d.message.data) ∧
      ∀ (q : UInt16) (p : MeshReliablePending), pending[q]? = some p → p.channelKey = key →
        i ≤ m.admitted ∨ Receipted now seen a p

section

variable {a : UInt16} {key : UInt64} {submitted arrived : List Bytes} {now : Time}
  {pending pending' : Std.ExtTreeMap UInt16 MeshReliablePending}
  {seen seen' : Std.ExtTreeMap MeshReliableSeenKey MeshReliableSeen} {decoding : Option Decoding}
  {m m' : Marks}

/-- The samples go on. -/
theorem ReceiverMarks.succession {fresh : UInt16 → Prop}
    (h : ReceiverMarks a key submitted arrived now pending seen decoding m)
    (hs : Succession a key fresh now pending pending' m m') :
    ReceiverMarks a key submitted arrived now pending' seen decoding m' := by
  have hfloor := hs.floor
  have hcurrent := hs.current
  have hold : ∀ {p p' : MeshReliablePending}, p'.identity a = p.identity a →
      p'.created = p.created → Receipted now seen a p → Receipted now seen a p' := by
    intro p p' hidentity hcreated hreceipted
    unfold Receipted at hreceipted ⊢
    rw [hidentity, hcreated]
    exact hreceipted
  refine ⟨by rw [hfloor]; exact h.arrived, ?_, ?_, ?_, ?_, ?_⟩
  · have := h.floor
    omega
  · intro q p' hp' hkey
    rcases hs.samples q p' hp' hkey with ⟨_, p, hp, hpkey, _, hcreated⟩ | ⟨_, _, hcreated⟩
    · rw [hcreated]
      exact h.created q p hp hpkey
    · exact Nat.le_of_eq hcreated
  · intro q p' hp' hkey
    rcases hs.samples q p' hp' hkey with ⟨hadmitted, p, hp, hpkey, hid, hcreated⟩ | ⟨hle, _, _⟩
    · rw [hfloor, hadmitted]
      exact (h.receipt q p hp hpkey).imp_right (hold hid hcreated)
    · left
      have := h.floor
      omega
  · intro d hd hdelivered q p' hp' hkey hidentity
    rcases hs.samples q p' hp' hkey with ⟨hadmitted, p, hp, hpkey, hid, hcreated⟩ | ⟨hle, _, _⟩
    · rw [hfloor, hadmitted, hcreated]
      exact h.refusable d hd hdelivered q p hp hpkey (hid.symm.trans hidentity)
    · left
      have := h.floor
      omega
  · intro d hd hdelivered hsource hchannel
    obtain ⟨i, hlow, hhigh, hplace, hsamples⟩ := h.decoding d hd hdelivered hsource hchannel
    refine ⟨i, by omega, by omega, hplace, fun q p' hp' hkey => ?_⟩
    rcases hs.samples q p' hp' hkey with ⟨hadmitted, p, hp, hpkey, hid, hcreated⟩ | ⟨hle, _, _⟩
    · rw [hadmitted]
      exact (hsamples q p hp hpkey).imp_right (hold hid hcreated)
    · left
      omega

/-- Time passes and more is submitted. -/
theorem ReceiverMarks.later (h : ReceiverMarks a key submitted arrived now pending seen decoding m)
    (duration : Time) (more : List Bytes) :
    ReceiverMarks a key (submitted ++ more) arrived (now + duration) pending seen decoding m := by
  have haged : ∀ {p : MeshReliablePending}, seconds 90 < now - p.created →
      seconds 90 < now + duration - p.created := by
    intro p hp
    exact Nat.lt_of_lt_of_le hp (Nat.sub_le_sub_right (Nat.le_add_right now duration) p.created)
  have hlater : ∀ {p : MeshReliablePending}, Receipted now seen a p →
      Receipted (now + duration) seen a p := fun hp => hp.imp_right haged
  refine ⟨h.arrived.send more, h.floor, ?_, ?_, ?_, ?_⟩
  · intro q p hp hkey
    exact Nat.le_trans (h.created q p hp hkey) (Nat.le_add_right _ _)
  · exact fun q p hp hkey => (h.receipt q p hp hkey).imp_right hlater
  · exact fun d hd hdelivered q p hp hkey hid =>
      (h.refusable d hd hdelivered q p hp hkey hid).imp_right haged
  · intro d hd hdelivered hsource hchannel
    obtain ⟨i, hlow, hhigh, hplace, hsamples⟩ := h.decoding d hd hdelivered hsource hchannel
    exact ⟨i, hlow, hhigh, getElem?_append_of_some hplace, fun q p hp hkey =>
      (hsamples q p hp hkey).imp_right hlater⟩

/-- Receipts may be renewed, and may go when they are older than 90 s. -/
theorem ReceiverMarks.aged (h : ReceiverMarks a key submitted arrived now pending seen decoding m)
    (hseen : ∀ (k : MeshReliableSeenKey) (e : MeshReliableSeen), seen[k]? = some e →
      (∃ e', seen'[k]? = some e' ∧ (e'.last = e.last ∨ e'.last = now)) ∨
        seconds 90 < now - e.last) :
    ReceiverMarks a key submitted arrived now pending seen' decoding m := by
  have hkept : ∀ {q : UInt16} {p : MeshReliablePending}, pending[q]? = some p →
      p.channelKey = key → Receipted now seen a p → Receipted now seen' a p := by
    intro q p hp hkey hreceipted
    rcases hreceipted with ⟨e, he, hlast⟩ | haged
    · rcases hseen _ e he with ⟨e', he', hsame | hnow⟩ | hold
      · exact Or.inl ⟨e', he', by rw [hsame]; exact hlast⟩
      · exact Or.inl ⟨e', he', by rw [hnow]; exact h.created q p hp hkey⟩
      · exact Or.inr (Nat.lt_of_lt_of_le hold (Nat.sub_le_sub_left hlast now))
    · exact Or.inr haged
  refine ⟨h.arrived, h.floor, h.created, ?_, h.refusable, ?_⟩
  · exact fun q p hp hkey => (h.receipt q p hp hkey).imp_right (hkept hp hkey)
  · intro d hd hdelivered hsource hchannel
    obtain ⟨i, hlow, hhigh, hplace, hsamples⟩ := h.decoding d hd hdelivered hsource hchannel
    exact ⟨i, hlow, hhigh, hplace, fun q p hp hkey => (hsamples q p hp hkey).imp_right (hkept hp hkey)⟩

/-- A frame without a receipt is opened; one of the channel belongs to a pending sample. -/
theorem ReceiverMarks.open (h : ReceiverMarks a key submitted arrived now pending seen none m)
    {message : ReceivedMessage} (hnone : seen[message.seenKey]? = none)
    (hframe : message.source = a → message.channelKey = key →
      ∃ (q : UInt16) (p : MeshReliablePending), pending[q]? = some p ∧ p.channelKey = key ∧
        now - p.created ≤ seconds 30 ∧ message.seenKey = p.identity a ∧
        (∀ (q' : UInt16) (p' : MeshReliablePending), pending[q']? = some p' →
          p'.channelKey = key → q' = q) ∧
        ∃ i, m.admitted ≤ i ∧ i ≤ m.current ∧
          submitted[i]? = some (decodedFrame message.data)) :
    ReceiverMarks a key submitted arrived now pending (seen.insert message.seenKey { last := now })
      (some { message := message }) m := by
  have hkept : ∀ {q : UInt16} {p : MeshReliablePending}, pending[q]? = some p →
      p.channelKey = key → Receipted now seen a p →
      Receipted now (seen.insert message.seenKey { last := now }) a p := by
    intro q p hp hkey hreceipted
    rcases hreceipted with ⟨e, he, hlast⟩ | haged
    · left
      rw [Std.ExtTreeMap.getElem?_insert]
      split
      · exact ⟨_, rfl, h.created q p hp hkey⟩
      · exact ⟨e, he, hlast⟩
    · exact Or.inr haged
  refine ⟨h.arrived, h.floor, h.created, ?_, ?_, ?_⟩
  · exact fun q p hp hkey => (h.receipt q p hp hkey).imp_right (hkept hp hkey)
  · intro d hd _ q p hp hkey hidentity
    cases hd
    -- The identity has no receipt, so nothing of the sample was published, or it is too old.
    rcases h.receipt q p hp hkey with hle | ⟨e, he, _⟩ | haged
    · exact Or.inl hle
    · rw [hidentity, hnone] at he
      cases he
    · exact Or.inr haged
  · intro d hd _ hsource hchannel
    cases hd
    obtain ⟨q, p, hp, hkey, hyoung, hidentity, honly, i, hlow, hhigh, hplace⟩ :=
      hframe hsource hchannel
    have hfloor : m.floor ≤ m.admitted := by
      rcases h.receipt q p hp hkey with hle | ⟨e, he, _⟩ | haged
      · exact hle
      · rw [← hidentity, hnone] at he
        cases he
      · exact absurd (Nat.lt_of_lt_of_le haged hyoung) (by decide)
    refine ⟨i, by omega, hhigh, hplace, fun q' p' hp' hkey' => Or.inr (Or.inl ?_)⟩
    have hq := honly q' p' hp' hkey'
    subst hq
    rw [hp] at hp'
    cases hp'
    refine ⟨{ last := now }, ?_, h.created q' p hp hkey⟩
    rw [← hidentity, Std.ExtTreeMap.getElem?_insert_self]

/-- The bridge publishes or refuses the frame at hand. -/
theorem ReceiverMarks.decide {message : ReceivedMessage}
    (h : ReceiverMarks a key submitted arrived now pending seen (some ⟨message, none⟩) m)
    (delivered : Bool) :
    ∃ m', m'.admitted = m.admitted ∧ m'.current = m.current ∧
      ReceiverMarks a key submitted
        (arrived ++ [if delivered then Event.published message else .refused message].filterMap
          (Event.publishedFrom a key))
        now pending seen (some ⟨message, some delivered⟩) m' := by
  cases delivered with
  | false =>
      refine ⟨m, rfl, rfl, ?_⟩
      have hnil : arrived ++ [Event.refused message].filterMap (Event.publishedFrom a key) =
          arrived := List.append_nil _
      simp only [Bool.false_eq_true, if_false]
      rw [hnil]
      refine ⟨h.arrived, h.floor, h.created, h.receipt, ?_, ?_⟩
      · intro d hd _
        cases hd
        exact h.refusable ⟨message, none⟩ rfl (by simp)
      · intro d hd _
        cases hd
        exact h.decoding ⟨message, none⟩ rfl (by simp)
  | true =>
      simp only [if_true]
      by_cases hchannel : message.source = a ∧ message.channelKey = key
      · -- The value of the frame becomes the last one published.
        obtain ⟨i, hlow, hhigh, hplace, hsamples⟩ :=
          h.decoding ⟨message, none⟩ rfl (by simp) hchannel.1 hchannel.2
        have hone : [Event.published message].filterMap (Event.publishedFrom a key) =
            [decodedFrame message.data] := by simp [Event.publishedFrom, hchannel]
        rw [hone]
        refine ⟨{ m with floor := i }, rfl, rfl, h.arrived.arrive hlow hplace, hhigh, h.created,
          hsamples, ?_, ?_⟩
        · intro d hd hdelivered
          cases hd
          exact absurd rfl hdelivered
        · intro d hd hdelivered
          cases hd
          exact absurd rfl hdelivered
      · have hnil : [Event.published message].filterMap (Event.publishedFrom a key) = [] := by
          simp [Event.publishedFrom, hchannel]
        rw [hnil, List.append_nil]
        refine ⟨m, rfl, rfl, h.arrived, h.floor, h.created, h.receipt, ?_, ?_⟩
        · intro d hd hdelivered
          cases hd
          exact absurd rfl hdelivered
        · intro d hd hdelivered
          cases hd
          exact absurd rfl hdelivered

/-- A published frame keeps its receipt, a refused one gives it up. -/
theorem ReceiverMarks.finish {message : ReceivedMessage} {delivered : Bool}
    (h : ReceiverMarks a key submitted arrived now pending seen (some ⟨message, some delivered⟩) m)
    (hkept : delivered = true → ∀ (k : MeshReliableSeenKey) (e : MeshReliableSeen),
      seen[k]? = some e → ∃ e', seen'[k]? = some e' ∧ (e'.last = e.last ∨ e'.last = now))
    (hother : ∀ k ≠ message.seenKey, seen'[k]? = seen[k]?) :
    ReceiverMarks a key submitted arrived now pending seen' none m := by
  cases delivered with
  | true =>
      have haged := h.aged fun k e he => Or.inl (hkept rfl k e he)
      refine ⟨haged.arrived, haged.floor, haged.created, haged.receipt, ?_, ?_⟩
      · intro d hd
        cases hd
      · intro d hd
        cases hd
  | false =>
      refine ⟨h.arrived, h.floor, h.created, fun q p hp hkey => ?_, ?_, ?_⟩
      · by_cases hidentity : p.identity a = message.seenKey
        · exact (h.refusable _ rfl (by simp) q p hp hkey hidentity).imp_right Or.inr
        · refine (h.receipt q p hp hkey).imp_right fun hreceipted => ?_
          unfold Receipted
          rw [hother _ hidentity]
          exact hreceipted
      · intro d hd
        cases hd
      · intro d hd
        cases hd

end

/-! ## What goes on the air -/

theorem not_carriesData_of_framed {bridge : SharedTopicConfig} {v : Bytes} (h : Framed bridge v) :
    carriesData v = false := by
  obtain ⟨body, rfl⟩ := h
  exact carriesData_of_kind 0x4d rfl (by decide) (by decide)

/-- A data frame that is transmitted under the sequence of a pending sample is a copy of it. -/
theorem transmitted_copy {s : Station} {task : Task} {f : Frame}
    (h : Calls s.reliable (task :: s.todo)) (ht : Transmits task f)
    (hcarries : carriesData f.data = true) {p : MeshReliablePending}
    (hp : s.reliable.pending[meshReliableSequence f.data]? = some p) :
    f.keyIndex = p.appKeyIndex ∧ ∃ kind, f.data = withKind kind p.data := by
  cases ht with
  | outbound item =>
      obtain ⟨hdata, happ⟩ := h.served _ List.mem_cons_self item rfl hcarries p hp
      exact ⟨happ, _, hdata⟩
  | fanOut send adm data destination remaining admitted =>
      obtain ⟨⟨swarmId, hdata⟩, hentered⟩ := h.entered _ _ _ _ _ List.mem_cons_self
      have hframed := h.framed send (mem_sendsOf.mpr ⟨_, List.mem_cons_self, rfl⟩)
      have hsequence : meshReliableSequence (fanOutFrame adm data destination) = adm.sequence := by
        rw [fanOutFrame, meshReliableSequence_withKind, hdata]
        exact meshReliableSequence_make _ _ _ hframed.length
      have hp' : s.reliable.pending[adm.sequence]? = some p := by
        rw [← hsequence]
        exact hp
      obtain ⟨_, hsame, happ⟩ := hentered p hp'
      exact ⟨happ.symm, _, by rw [hsame]; rfl⟩
  | plain send =>
      have hframed := h.framed send (mem_sendsOf.mpr ⟨_, List.mem_cons_self, rfl⟩)
      have hnot : carriesData send.payload = false := not_carriesData_of_framed hframed
      have hyes : carriesData send.payload = true := hcarries
      rw [hnot] at hyes
      cases hyes

/-- A task that transmits does not touch the samples otherwise. -/
theorem transmits_thinned {now : Time} {view : View} {answer : Answer} {s s' : Station}
    {task : Task} {events : List Event} {f : Frame} (ht : Transmits task f)
    (hx : execTask now view answer s task = some (s', events)) :
    Thinned s.reliable.pending s'.reliable.pending := by
  have hsweep : task ≠ .sweep := by
    rintro rfl
    cases ht
  have hadmission : ∀ send adm, task ≠ .admission send adm := by
    rintro send adm rfl
    cases ht
  obtain ⟨l, hf⟩ := exec_flow hsweep hadmission hx
  exact hf.pending

/-! ## Steps of the network -/

theorem publishedFrom_quiet {source : UInt16} {key : UInt64} {events : List Event}
    (h : ∀ e ∈ events, e.receiving = false) :
    events.filterMap (Event.publishedFrom source key) = [] := by
  rw [List.filterMap_eq_nil_iff]
  intro e he
  have hquiet := h e he
  cases e with
  | published m => cases hquiet
  | _ => rfl

/-- A receipt outlives the publication of a frame, and may be renewed by it. -/
theorem finishData_kept {r : MeshReliable} (now : Time) (localAddress : UInt16)
    (members : List UInt16) (m : ReceivedMessage) {k : MeshReliableSeenKey} {e : MeshReliableSeen}
    (h : r.seen[k]? = some e) :
    ∃ e', (finishData now true localAddress members m r).seen[k]? = some e' ∧
      (e'.last = e.last ∨ e'.last = now) := by
  have hinsert : ∀ seen : MeshReliableSeen, ∃ e',
      (r.seen.insert m.seenKey { seen with delivered := true, last := now })[k]? = some e' ∧
        (e'.last = e.last ∨ e'.last = now) := by
    intro seen
    rw [Std.ExtTreeMap.getElem?_insert]
    split
    · exact ⟨_, rfl, Or.inr rfl⟩
    · exact ⟨e, h, Or.inl rfl⟩
  unfold finishData
  split
  · exact ⟨e, h, Or.inl rfl⟩
  · rename_i seen _
    simp only [if_true]
    split
    · rw [(bookkeeping_queueAck m _).seen]
      exact hinsert seen
    · show ∃ e', (queueAck m _).seen[k]? = some e' ∧ _
      rw [(bookkeeping_queueAck m _).seen]
      exact hinsert seen

/-- The other receipts stay as they are. -/
theorem finishData_other (now : Time) (delivered : Bool) (localAddress : UInt16)
    (members : List UInt16) {m : ReceivedMessage} (r : MeshReliable) {k : MeshReliableSeenKey}
    (hk : k ≠ m.seenKey) :
    (finishData now delivered localAddress members m r).seen[k]? = r.seen[k]? := by
  have hne : m.seenKey ≠ k := Ne.symm hk
  unfold finishData
  split
  · rfl
  · split
    · simp only
      split
      · rw [(bookkeeping_queueAck m _).seen]
        simp [Std.ExtTreeMap.getElem?_insert, hne]
      · show (queueAck m _).seen[k]? = _
        rw [(bookkeeping_queueAck m _).seen]
        simp [Std.ExtTreeMap.getElem?_insert, hne]
    · simp [Std.ExtTreeMap.getElem?_erase, hne]

/-- The order of the channel's values at all of its places. -/
structure OrderMarks (a b : UInt16) (bridge : SharedTopicConfig) (w : World) (m : Marks) :
    Prop where
  sender : SenderMarks (channelKey bridge) (vendorOpcode (bridgePayload bridge []))
    (submissions (channelKey bridge) (w.at a)) (w.station a).reliable (w.station a).todo m
  air : AirMarks a b (channelKey bridge) (submissions (channelKey bridge) (w.at a))
    (w.station a).reliable.pending w.air m
  receiver : ReceiverMarks a (channelKey bridge) (submissions (channelKey bridge) (w.at a))
    (channelPublications a (channelKey bridge) (w.at b)) w.now (w.station a).reliable.pending
    (w.station b).reliable.seen (w.station b).decoding m

/-- The sender's places do not depend on what was published. -/
theorem SenderMarks.floor {key : UInt64} {vendor : UInt32} {submitted : List Bytes}
    {r : MeshReliable} {todo : List Task} {m m' : Marks}
    (h : SenderMarks key vendor submitted r todo m) (hadmitted : m'.admitted = m.admitted)
    (hcurrent : m'.current = m.current) : SenderMarks key vendor submitted r todo m' := by
  refine ⟨?_, ?_, ?_, h.unique, ?_, ?_⟩
  · rw [hadmitted, hcurrent]
    exact h.admitted
  · rw [hcurrent]
    exact h.bound
  · rw [hcurrent]
    exact h.sample
  · rw [hcurrent]
    exact h.waiting
  · rw [hcurrent]
    exact h.sends

theorem valueFrom_append {submitted : List Bytes} {vendor : UInt32} {i : Nat} {v : Bytes}
    (h : ValueFrom submitted vendor i v) (more : List Bytes) :
    ValueFrom (submitted ++ more) vendor i v := by
  obtain ⟨hvendor, j, hj, hplace⟩ := h
  exact ⟨hvendor, j, hj, getElem?_append_of_some hplace⟩

theorem SenderMarks.more {key : UInt64} {vendor : UInt32} {submitted : List Bytes}
    {r : MeshReliable} {todo : List Task} {m : Marks}
    (h : SenderMarks key vendor submitted r todo m) (values : List Bytes) :
    SenderMarks key vendor (submitted ++ values) r todo m where
  admitted := h.admitted
  bound := by
    rw [List.length_append]
    exact Nat.le_trans h.bound (Nat.le_add_right _ _)
  sample := fun q p hp hkey =>
    (h.sample q p hp hkey).imp_right fun hplace => getElem?_append_of_some hplace
  unique := h.unique
  waiting := fun value hv => valueFrom_append (h.waiting value hv) values
  sends := fun send hs hkey => valueFrom_append (h.sends send hs hkey) values

/-- Every step of a node leaves the sender's marks, moves its sample on or enters one. -/
theorem senderMarks_step {a : UInt16} {bridge : SharedTopicConfig} {submitted : List Bytes}
    {now : Time} {s s' : Station} {action : Action} {events : List Event} {m : Marks}
    (h : SenderMarks (channelKey bridge) (vendorOpcode (bridgePayload bridge [])) submitted
      s.reliable s.todo m)
    (hcalls : Calls s.reliable s.todo) (hcalls' : Calls s'.reliable s'.todo)
    (hsubmit : ∀ bridge' body, action = .submit bridge' body →
      channelKey bridge' = channelKey bridge → bridge' = bridge)
    (hnone : ∀ view answer, action = .exec view answer → ∀ send adm,
      s.todo.head? = some (.admission send adm) → send.key = channelKey bridge →
        Unsampled s.reliable (channelKey bridge))
    (hx : s.step now action = some (s', events)) :
    ∃ m', SenderMarks (channelKey bridge) (vendorOpcode (bridgePayload bridge []))
        (submitted ++ events.filterMap (Event.submittedOn (channelKey bridge)))
        s'.reliable s'.todo m' ∧
      Succession a (channelKey bridge) (fun q => (∃ view answer, action = .exec view answer) ∧
        ∃ send adm, s.todo.head? = some (.admission send adm) ∧ send.key = channelKey bridge ∧
          q = adm.sequence) now s.reliable.pending s'.reliable.pending m m' := by
  have hkept : SamplesKept s.reliable s'.reliable →
      (∀ send ∈ sendsOf s'.todo, send ∈ sendsOf s.todo) →
      ∃ m', SenderMarks (channelKey bridge) (vendorOpcode (bridgePayload bridge []))
          (submitted ++ events.filterMap (Event.submittedOn (channelKey bridge)))
          s'.reliable s'.todo m' ∧
        Succession a (channelKey bridge) (fun q => (∃ view answer, action = .exec view answer) ∧
          ∃ send adm, s.todo.head? = some (.admission send adm) ∧ send.key = channelKey bridge ∧
            q = adm.sequence) now s.reliable.pending s'.reliable.pending m m' := by
    intro hsamples hsends
    refine ⟨m, SenderMarks.more ?_ _, succession_thinned hsamples.pending.back⟩
    refine h.thinned hsamples.pending.back ?_ fun send hs => h.sends send (hsends send hs)
    rw [hsamples.latest]
    exact h.waiting
  have hrefl : SamplesKept s.reliable s.reliable := (Bookkeeping.refl s.reliable).samplesKept
  cases action with
  | submit bridge' body =>
      simp only [Station.step] at hx
      split at hx
      · rename_i hidle
        cases hx
        refine ⟨m, ?_, succession_thinned (.refl _)⟩
        refine (SenderMarks.more h _).thinned (.refl _) (SenderMarks.more h _).waiting ?_
        intro send hs hkey
        have hsend : send = ⟨bridge', bridgePayload bridge' body, false⟩ := by
          have htodo : sendsOf (s.push [.enter ⟨bridge', bridgePayload bridge' body, false⟩]).todo =
              [⟨bridge', bridgePayload bridge' body, false⟩] := by
            show sendsOf (_ :: s.todo) = _
            rw [hidle]
            rfl
          rw [htodo] at hs
          exact List.mem_singleton.mp hs
        subst hsend
        -- The new value stands behind all others.
        obtain rfl := hsubmit bridge' body rfl hkey
        refine ⟨rfl, submitted.length, h.bound, ?_⟩
        simp [Event.submittedOn]
      · cases hx
  | tick =>
      simp only [Station.step] at hx
      split at hx
      · split at hx
        · cases hx
          exact hkept hrefl fun send hs => hs
        · cases hx
      · cases hx
  | exec view answer =>
      simp only [Station.step] at hx
      split at hx
      · cases hx
      · rename_i task todo htodo
        rw [htodo] at h hcalls
        have hhead : ∀ send adm, task = .admission send adm →
            s.todo.head? = some (.admission send adm) := by
          rintro send adm rfl
          rw [htodo]
          rfl
        obtain ⟨m', hm', hsuccession⟩ := senderMarks_exec (a := a) (s := { s with todo := todo }) h
          hcalls hcalls' (fun send adm heq hkey => hnone view answer rfl send adm (hhead send adm heq) hkey) hx
        refine ⟨m', hm'.more _, hsuccession.current, hsuccession.floor, fun q p hp hkey => ?_⟩
        refine (hsuccession.samples q p hp hkey).imp_right ?_
        rintro ⟨hle, ⟨send, adm, heq, hsend, hq⟩, hcreated⟩
        exact ⟨hle, ⟨⟨view, answer, rfl⟩, send, adm, hhead send adm heq, hsend, hq⟩, hcreated⟩
  | receive policy message =>
      simp only [Station.step] at hx
      split at hx
      · have hs' : (s.receive now policy message).1 = s' := congrArg Prod.fst (Option.some.inj hx)
        refine hkept ?_ fun send hs => ?_
        · rw [← hs']
          exact samplesKept_receive now policy message s
        · rw [← hs', receive_todo] at hs
          exact hs
      · cases hx
  | decode delivered =>
      simp only [Station.step] at hx
      split at hx
      · cases hx
        exact hkept hrefl fun send hs => hs
      · cases hx
  | finish view =>
      simp only [Station.step] at hx
      split at hx
      · cases hx
        exact hkept (samplesKept_finishData now _ _ view.members _ s.reliable) fun send hs => hs
      · cases hx
  | requestReset =>
      cases hx
      exact hkept hrefl fun send hs => hs
  | reconfigure meshApp coordinator =>
      simp only [Station.step] at hx
      split at hx
      · cases hx
        exact hkept hrefl fun send hs => hs
      · cases hx

/-- The receiver's marks in a step of its node. -/
theorem receiverMarks_step {a : UInt16} {key : UInt64} {submitted arrived : List Bytes} {now : Time}
    {pending : Std.ExtTreeMap UInt16 MeshReliablePending} {s s' : Station} {action : Action}
    {events : List Event} {m : Marks}
    (h : ReceiverMarks a key submitted arrived now pending s.reliable.seen s.decoding m)
    (hclear : ∀ view answer, action = .exec view answer → ∀ preserveLatest,
      s.todo.head? ≠ some (.clear preserveLatest))
    (hopen : ∀ policy message, action = .receive policy message →
      isDataFrame message.data = true → s.reliable.seen[message.seenKey]? = none →
      message.source = a → message.channelKey = key →
      ∃ (q : UInt16) (p : MeshReliablePending), pending[q]? = some p ∧ p.channelKey = key ∧
        now - p.created ≤ seconds 30 ∧ message.seenKey = p.identity a ∧
        (∀ (q' : UInt16) (p' : MeshReliablePending), pending[q']? = some p' →
          p'.channelKey = key → q' = q) ∧
        ∃ i, m.admitted ≤ i ∧ i ≤ m.current ∧
          submitted[i]? = some (decodedFrame message.data))
    (hx : s.step now action = some (s', events)) :
    ∃ m', m'.admitted = m.admitted ∧ m'.current = m.current ∧
      ReceiverMarks a key submitted (arrived ++ events.filterMap (Event.publishedFrom a key)) now
        pending s'.reliable.seen s'.decoding m' := by
  -- Steps that publish nothing and leave receipts and decoding.
  have hkept : s'.reliable.seen = s.reliable.seen → s'.decoding = s.decoding →
      (∀ e ∈ events, e.receiving = false) →
      ∃ m', m'.admitted = m.admitted ∧ m'.current = m.current ∧
        ReceiverMarks a key submitted (arrived ++ events.filterMap (Event.publishedFrom a key)) now
          pending s'.reliable.seen s'.decoding m' := by
    intro hseen hdecoding hevents
    rw [hseen, hdecoding, publishedFrom_quiet hevents, List.append_nil]
    exact ⟨m, rfl, rfl, h⟩
  cases action with
  | submit bridge' body =>
      simp only [Station.step] at hx
      split at hx <;> cases hx
      exact hkept rfl rfl (by simp [Event.receiving])
  | tick =>
      simp only [Station.step] at hx
      split at hx
      · split at hx <;> cases hx
        exact hkept rfl rfl (by simp)
      · cases hx
  | exec view answer =>
      simp only [Station.step] at hx
      split at hx
      · cases hx
      · rename_i task todo htodo
        have hstep := exec_receiver hx
        rcases hstep.seen with hseen | rfl | ⟨preserveLatest, rfl⟩
        · exact hkept hseen hstep.decoding hstep.events
        · have hdecoding := hstep.decoding
          rw [publishedFrom_quiet hstep.events, List.append_nil, hdecoding]
          refine ⟨m, rfl, rfl, h.aged fun k e he => ?_⟩
          cases hx
          show (∃ e', (s.reliable.seen.filter _)[k]? = some e' ∧ _) ∨ _
          by_cases haged : receiptAged now e = true
          · exact Or.inr (by simpa [receiptAged] using haged)
          · refine Or.inl ⟨e, ?_, Or.inl rfl⟩
            rw [Std.ExtTreeMap.getElem?_filter', he]
            simp [Bool.eq_false_of_not_eq_true haged]
        · exact absurd (by rw [htodo]; rfl) (hclear view answer rfl preserveLatest)
  | receive policy message =>
      simp only [Station.step] at hx
      split at hx
      · rename_i hidle
        have hreceived := receive_cases (Option.some.inj hx)
        cases hreceived with
        | ignored => exact hkept rfl rfl (by simp)
        | passed => exact hkept rfl rfl (by simp [Event.receiving])
        | ack _ _ =>
            have hnil : (if ackReleases message s.reliable then
                [Event.acked (meshReliableSequence message.data) message.source]
                else []).filterMap (Event.publishedFrom a key) = [] := by
              split <;> rfl
            rw [hnil, List.append_nil]
            refine ⟨m, rfl, rfl, ?_⟩
            show ReceiverMarks a key submitted arrived now pending
              (receiveAck message s.reliable).seen s.decoding m
            rw [(receiveAck_receiver message s.reliable).1]
            exact h
        | known seen _ _ =>
            refine hkept ?_ rfl (by simp)
            show (if seen.delivered then queueAck message s.reliable else s.reliable).seen = _
            split
            · exact (bookkeeping_queueAck message s.reliable).seen
            · rfl
        | opened hframe hseen =>
            have hnil : [Event.opened message.seenKey].filterMap (Event.publishedFrom a key) = [] :=
              rfl
            rw [hnil, List.append_nil]
            rw [hidle] at h
            exact ⟨m, rfl, rfl, h.open hseen (hopen policy message rfl hframe hseen)⟩
      · cases hx
  | decode delivered =>
      simp only [Station.step] at hx
      split at hx
      · rename_i message hdecoding
        cases hx
        rw [hdecoding] at h
        exact h.decide delivered
      · cases hx
  | finish view =>
      simp only [Station.step] at hx
      split at hx
      · rename_i message delivered hdecoding
        cases hx
        rw [hdecoding] at h
        have hnil : ([] : List Event).filterMap (Event.publishedFrom a key) = [] := rfl
        rw [hnil, List.append_nil]
        refine ⟨m, rfl, rfl, h.finish ?_ ?_⟩
        · rintro rfl k e he
          exact finishData_kept now _ view.members message he
        · intro k hk
          exact finishData_other now _ _ view.members s.reliable hk
      · cases hx
  | requestReset =>
      cases hx
      exact hkept rfl rfl (by simp)
  | reconfigure meshApp coordinator =>
      simp only [Station.step] at hx
      split at hx <;> cases hx
      exact hkept rfl rfl (by simp)

section

variable {a b : UInt16} {bridge : SharedTopicConfig} {w w' : World} {m : Marks}

theorem NodeStep.submissions {node : UInt16} {action : Action} {s' : Station} {events : List Event}
    (hstep : NodeStep w w' node action s' events) (a : UInt16) (key : UInt64) :
    submissions key (w'.at a) = submissions key (w.at a) ++
      (if node = a then events.filterMap (Event.submittedOn key) else []) := by
  split
  · rename_i ha
    subst ha
    rw [hstep.at_self, submissions_append]
  · rename_i ha
    rw [hstep.at_other ha, List.append_nil]

theorem NodeStep.channelPublications {node : UInt16} {action : Action} {s' : Station}
    {events : List Event} (hstep : NodeStep w w' node action s' events) (a b : UInt16)
    (key : UInt64) :
    channelPublications a key (w'.at b) = channelPublications a key (w.at b) ++
      (if node = b then events.filterMap (Event.publishedFrom a key) else []) := by
  split
  · rename_i hb
    subst hb
    rw [hstep.at_self, channelPublications_append]
  · rename_i hb
    rw [hstep.at_other hb, List.append_nil]

/-- The frame that a frame in the air is opened as belongs to the channel's pending sample. -/
theorem OrderMarks.opens (h : OrderMarks a b bridge w m) {f : Packet} (hf : f ∈ w.air)
    (hdestination : f.destination = b) (hframe : isDataFrame f.data = true)
    (hlifetime : f.source = a → InLifetime w (channelKey bridge) f.message) :
    f.message.source = a → f.message.channelKey = channelKey bridge →
      ∃ (q : UInt16) (p : MeshReliablePending), (w.station a).reliable.pending[q]? = some p ∧
        p.channelKey = channelKey bridge ∧ w.now - p.created ≤ seconds 30 ∧
        f.message.seenKey = p.identity a ∧
        (∀ (q' : UInt16) (p' : MeshReliablePending), (w.station a).reliable.pending[q']? = some p' →
          p'.channelKey = channelKey bridge → q' = q) ∧
        ∃ i, m.admitted ≤ i ∧ i ≤ m.current ∧
          (submissions (channelKey bridge) (w.at a))[i]? = some (decodedFrame f.message.data) := by
  intro hsource _
  have hcarries : carriesData f.data = true := by
    simp only [isDataFrame, Bool.and_eq_true] at hframe
    exact hframe.1
  obtain ⟨p, hp, hkey, hyoung⟩ := hlifetime hsource
  rw [hsource] at hp
  obtain ⟨hidentity, hplace⟩ := h.air f hf hsource hdestination hcarries p hp hkey
  refine ⟨_, p, hp, hkey, hyoung, hidentity, fun q' p' hp' hkey' => ?_, hplace⟩
  exact h.sender.unique _ _ p' p hp' hp hkey' hkey

/-- Only the executor transmits. -/
theorem step_transmitted {now : Time} {s s' : Station} {action : Action} {events : List Event}
    {f : Frame} (hx : s.step now action = some (s', events)) (hf : .transmitted f ∈ events) :
    ∃ view answer task todo, s.todo = task :: todo ∧
      execTask now view answer { s with todo := todo } task = some (s', events) := by
  cases action with
  | exec view answer =>
      simp only [Station.step] at hx
      split at hx
      · cases hx
      · rename_i task todo htodo
        exact ⟨view, answer, task, todo, htodo, hx⟩
  | receive policy message =>
      simp only [Station.step] at hx
      split at hx
      · have hevents : (s.receive now policy message).2 = events :=
          congrArg Prod.snd (Option.some.inj hx)
        rw [← hevents] at hf
        rcases receive_events hf with ⟨_, _, heq⟩ | heq | heq <;> cases heq
      · cases hx
  | requestReset =>
      cases hx
      cases hf
  | tick =>
      simp only [Station.step] at hx
      split at hx
      · split at hx <;> cases hx
        cases hf
      · cases hx
  | decode delivered =>
      simp only [Station.step] at hx
      split at hx <;> cases hx
      cases delivered <;> simp at hf
  | _ =>
      simp only [Station.step] at hx
      split at hx <;> cases hx
      simp at hf

/-- A new frame in the air is a copy of its sample as it is now. -/
theorem transmitted_fits {now : Time} {s s' : Station} {action : Action} {events : List Event}
    {key : UInt64} {vendor : UInt32} {submitted : List Bytes} {f : Packet}
    (hcalls : Calls s.reliable s.todo) (hx : s.step now action = some (s', events))
    (hm : SenderMarks key vendor submitted s'.reliable s'.todo m)
    (hf : f ∈ events.filterMap (Event.packet a)) (hcarries : carriesData f.data = true)
    {p' : MeshReliablePending}
    (hp' : s'.reliable.pending[meshReliableSequence f.data]? = some p') (hkey : p'.channelKey = key) :
    f.message.seenKey = p'.identity a ∧ ∃ i, m.admitted ≤ i ∧ i ≤ m.current ∧
      submitted[i]? = some (decodedFrame f.data) := by
  obtain ⟨e, he, hpacket⟩ := List.mem_filterMap.mp hf
  cases e with
  | transmitted frame =>
      cases hpacket
      obtain ⟨view, answer, task, todo, htodo, hx⟩ := step_transmitted hx he
      rw [htodo] at hcalls
      have ht := exec_transmitted hx he
      obtain ⟨p, hp, htrim⟩ := transmits_thinned ht hx _ p' hp'
      obtain ⟨happ, kind, hdata⟩ :=
        transmitted_copy (s := { s with todo := todo }) hcalls ht hcarries hp
      have hcopy : frame.data = withKind kind p'.data := by
        rw [htrim.data]
        exact hdata
      obtain ⟨_, hplace⟩ := hm.sample _ p' hp' hkey
      refine ⟨?_, m.current, hm.admitted, Nat.le_refl _, ?_⟩
      · simp [ReceivedMessage.seenKey, Packet.message, MeshReliablePending.identity, hcopy, happ,
          htrim.appKeyIndex]
      · rw [hplace]
        simp [hcopy]
  | _ => cases hpacket

/-- A node's step keeps the order. -/
theorem OrderMarks.nodeStep {node : UInt16} {action : Action} {s' : Station} {events : List Event}
    (h : OrderMarks a b bridge w m) (settled : Settled w) (settled' : Settled w')
    (hstep : NodeStep w w' node action s' events)
    (hsubmit : node = a → ∀ bridge' body, action = .submit bridge' body →
      channelKey bridge' = channelKey bridge → bridge' = bridge)
    (hclear : node = b → ∀ view answer, action = .exec view answer →
      ∀ preserveLatest, (w.station b).todo.head? ≠ some (.clear preserveLatest))
    (hadmission : node = a → ∀ view answer, action = .exec view answer → ∀ send adm,
      (w.station a).todo.head? = some (.admission send adm) → send.key = channelKey bridge →
        Unsampled (w.station a).reliable (channelKey bridge) ∧ Unused w a b adm.sequence)
    (hopen : node = b → ∀ policy message, action = .receive policy message →
      isDataFrame message.data = true →
      (w.station b).reliable.seen[message.seenKey]? = none →
      message.source = a → message.channelKey = channelKey bridge →
        InLifetime w (channelKey bridge) message) :
    ∃ m', OrderMarks a b bridge w' m' := by
  -- The receiver moves first, against the samples as they are.
  obtain ⟨m₁, hadmitted, hcurrent, hreceiver⟩ : ∃ m₁ : Marks, m₁.admitted = m.admitted ∧
      m₁.current = m.current ∧
      ReceiverMarks a (channelKey bridge) (submissions (channelKey bridge) (w.at a))
        (channelPublications a (channelKey bridge) (w'.at b)) w.now
        (w.station a).reliable.pending (w'.station b).reliable.seen (w'.station b).decoding m₁ := by
    rw [hstep.channelPublications a b, hstep.station]
    by_cases hb : node = b
    · subst hb
      rw [if_pos rfl, Function.update_self]
      refine receiverMarks_step h.receiver (hclear rfl) ?_ hstep.step
      intro policy message haction hframe hseen hsource hchannel
      obtain ⟨f, hf, hdestination, rfl⟩ := hstep.received policy message haction
      exact h.opens hf hdestination hframe
        (fun _ => hopen rfl policy _ haction hframe hseen hsource hchannel) hsource hchannel
    · rw [if_neg hb, List.append_nil, Function.update_of_ne (Ne.symm hb)]
      exact ⟨m, rfl, rfl, h.receiver⟩
  -- Then the samples go on.
  obtain ⟨m₂, hsender, hsuccession⟩ : ∃ m₂,
      SenderMarks (channelKey bridge) (vendorOpcode (bridgePayload bridge []))
        (submissions (channelKey bridge) (w'.at a)) (w'.station a).reliable (w'.station a).todo m₂ ∧
      Succession a (channelKey bridge) (Unused w a b) w.now (w.station a).reliable.pending
        (w'.station a).reliable.pending m₁ m₂ := by
    have hm₁ := h.sender.floor hadmitted hcurrent
    have hcalls' := settled'.calls a
    rw [hstep.submissions a]
    rw [hstep.station] at hcalls' ⊢
    by_cases ha : node = a
    · subst ha
      rw [if_pos rfl]
      rw [Function.update_self] at hcalls' ⊢
      obtain ⟨m₂, hm₂, hsuccession⟩ := senderMarks_step (a := node) hm₁ (settled.calls node) hcalls'
        (hsubmit rfl) (fun view answer hexec send adm hhead hkey =>
          (hadmission rfl view answer hexec send adm hhead hkey).1) hstep.step
      refine ⟨m₂, hm₂, hsuccession.current, hsuccession.floor, fun q p hp hkey => ?_⟩
      refine (hsuccession.samples q p hp hkey).imp_right ?_
      rintro ⟨hle, ⟨⟨view, answer, hexec⟩, send, adm, hhead, hsend, rfl⟩, hcreated⟩
      exact ⟨hle, (hadmission rfl view answer hexec send adm hhead hsend).2, hcreated⟩
    · rw [if_neg ha, List.append_nil]
      rw [Function.update_of_ne (Ne.symm ha)]
      exact ⟨m₁, hm₁, succession_thinned (.refl _)⟩
  refine ⟨m₂, hsender, ?_, ?_⟩
  · intro f hf hsource hdestination hcarries p' hp' hkey
    rcases hstep.air f hf with hold | hnew
    · rcases hsuccession.samples _ p' hp' hkey with
        ⟨heq, p, hp, hpkey, hidentity, _⟩ | ⟨_, hunused, _⟩
      · obtain ⟨hseen, i, hlow, hhigh, hplace⟩ := h.air f hold hsource hdestination hcarries p hp hpkey
        have hle := hsuccession.current
        refine ⟨hseen.trans hidentity.symm, i, by omega, by omega, ?_⟩
        rw [hstep.submissions a]
        exact getElem?_append_of_some hplace
      · exact absurd rfl (hunused f hold hsource hdestination hcarries)
    · have ha : node = a := by
        obtain ⟨e, _, hpacket⟩ := List.mem_filterMap.mp hnew
        cases e with
        | transmitted frame =>
            cases hpacket
            exact hsource
        | _ => cases hpacket
      subst ha
      rw [hstep.station, Function.update_self] at hp' hsender
      exact transmitted_fits (settled.calls node) hstep.step hsender hnew hcarries hp' hkey
  · rw [hstep.now]
    refine ReceiverMarks.succession ?_ hsuccession
    rw [hstep.submissions a]
    exact hreceiver.later 0 _

/-- The delivery of the frame at `index`. -/
theorem World.deliver_cases {index : Nat} {keep : Bool} {policy : Admittance}
    (h : w.step (.deliver index keep policy) = some w') :
    ∃ f s' events, w.air[index]? = some f ∧
      NodeStep w w' f.destination (.receive policy f.message) s' events := by
  simp only [World.step] at h
  split at h
  · cases h
  · rename_i f hf
    obtain ⟨⟨s', events⟩, hstep, rfl⟩ := Option.map_eq_some_iff.mp h
    refine ⟨f, s', events, hf, hstep, rfl, rfl, rfl, fun p hp => Or.inl ?_, ?_⟩
    · simp only at hp
      split at hp
      · exact hp
      · exact List.mem_of_mem_eraseIdx hp
    · intro policy' message heq
      cases heq
      exact ⟨f, List.mem_of_getElem? hf, rfl, rfl⟩

/-- A step of the network keeps the order. -/
theorem OrderMarks.step {action : WorldAction} (h : OrderMarks a b bridge w m) (settled : Settled w)
    (settled' : Settled w') (hchannel : OneChannel a b bridge w action)
    (hsample : OneSample a b (channelKey bridge) w action) (hx : w.step action = some w') :
    ∃ m', OrderMarks a b bridge w' m' := by
  rcases World.step_cases hx with ⟨duration, _, rfl⟩ | ⟨index, _, rfl⟩ |
    ⟨node, action', s', events, rfl, hstep⟩ | ⟨index, keep, policy, f, s', events, rfl, hf, hstep⟩
  · refine ⟨m, h.sender, h.air, ?_⟩
    have hlater := h.receiver.later duration []
    rw [List.append_nil] at hlater
    exact hlater
  · exact ⟨m, h.sender, fun f hf => h.air f (List.mem_of_mem_eraseIdx hf), h.receiver⟩
  · refine h.nodeStep settled settled' hstep ?_ ?_ ?_ ?_
    · rintro rfl bridge' body rfl hkey
      exact hchannel rfl hkey
    · rintro rfl view answer rfl
      exact hchannel rfl
    · rintro rfl view answer rfl
      exact hsample rfl
    · rintro rfl policy message rfl
      cases hx
  · obtain ⟨f, s', events, hf, hstep⟩ := World.deliver_cases hx
    refine h.nodeStep settled settled' hstep ?_ ?_ ?_ ?_
    · rintro - bridge' body heq
      cases heq
    · rintro - view answer heq
      cases heq
    · rintro - view answer heq
      cases heq
    · rintro rfl policy' message heq hframe hseen hsource hkey
      cases heq
      exact hsample f hf hsource rfl hframe hkey hseen

/-- Nothing has been submitted or published. -/
theorem orderMarks_initial (hinit : w.Initial) : OrderMarks a b bridge w {} := by
  obtain ⟨hstation, hair, hlog⟩ := hinit
  obtain ⟨_, _, _, ha⟩ := hstation a
  obtain ⟨_, _, _, hb⟩ := hstation b
  have hat : ∀ node, w.at node = [] := by
    intro node
    rw [World.at, hlog]
    rfl
  refine ⟨?_, ?_, ?_⟩
  · rw [ha, hat]
    refine ⟨Nat.le_refl _, Nat.zero_le _, ?_, ?_, ?_, ?_⟩
    all_goals simp [sendsOf]
  · rw [AirMarks, hair]
    intro f hf
    cases hf
  · rw [ha, hb, hat, hat]
    refine ⟨inOrderUpTo_nil _ _, Nat.le_refl _, ?_, ?_, ?_, ?_⟩
    all_goals simp

/-- **A receiver does not go back to an older value.** In every run of a channel in which the
receiver is not reset, a sample is entered only when none of its channel is pending, and frames
that the receiver does not know arrive only in the lifetime of their sample, the values of the
channel are published in the order in which the bridge submitted them. -/
theorem published_in_order
    (h : Run.ReachableUnder World.step
      (fun w action => OneChannel a b bridge w action ∧ OneSample a b (channelKey bridge) w action)
      World.Initial w) :
    InOrder (submissions (channelKey bridge) (w.at a))
      (channelPublications a (channelKey bridge) (w.at b)) := by
  have hmarks : ∃ m, OrderMarks a b bridge w m := by
    refine h.invariant_of (J := Settled) (P := fun w => ∃ m, OrderMarks a b bridge w m)
      (fun w hw => settled_reachable hw)
      (fun w hinit => ⟨{}, orderMarks_initial hinit⟩) ?_
    rintro w action w' settled settled' ⟨m, hm⟩ ⟨hchannel, hsample⟩ hx
    exact hm.step settled settled' hchannel hsample hx
  obtain ⟨m, hm⟩ := hmarks
  exact hm.receiver.arrived.inOrder

end

/-! ## Two samples of a channel -/

/-- A test for the steps of `published_in_order`. -/
def orderly (a b : UInt16) (bridge : SharedTopicConfig) (w : World) : WorldAction → Bool
  | .act node (.submit bridge' _) =>
      node != a || channelKey bridge' != channelKey bridge || bridge' == bridge
  | .act node (.exec _ _) =>
      (node != b || match (w.station b).todo.head? with
        | some (.clear _) => false
        | _ => true) &&
      (node != a || match (w.station a).todo.head? with
        | some (.admission _ adm) =>
            (w.station a).reliable.pending.toList.isEmpty &&
              w.air.all fun f => meshReliableSequence f.data != adm.sequence
        | _ => true)
  | .deliver index _ _ =>
      match w.air[index]? with
      | some f =>
          !carriesData f.data ||
            match (w.station f.source).reliable.pending[meshReliableSequence f.data]? with
            | some p => p.channelKey == channelKey bridge &&
                decide (w.now - p.created ≤ seconds 30)
            | none => false
      | none => true
  | _ => true

theorem orderly_sound {a b : UInt16} {bridge : SharedTopicConfig} {w : World} {action : WorldAction}
    (h : orderly a b bridge w action = true) :
    OneChannel a b bridge w action ∧ OneSample a b (channelKey bridge) w action := by
  cases action with
  | act node action =>
      cases action with
      | submit bridge' body =>
          refine ⟨fun hnode hkey => ?_, trivial⟩
          simpa [orderly, hnode, hkey] using h
      | exec view answer =>
          simp only [orderly, Bool.and_eq_true, Bool.or_eq_true, bne_iff_ne] at h
          obtain ⟨hclear, hadmission⟩ := h
          constructor
          · intro hnode preserveLatest hhead
            have hfalse := hclear.resolve_left fun hne => hne hnode
            rw [hhead] at hfalse
            cases hfalse
          · intro hnode send adm hhead _
            have hfree := hadmission.resolve_left fun hne => hne hnode
            rw [hhead] at hfree
            simp only [Bool.and_eq_true, List.isEmpty_iff, List.all_eq_true, bne_iff_ne] at hfree
            refine ⟨fun q p hp _ => ?_, fun f hf _ _ _ => hfree.2 f hf⟩
            have hmem := Std.ExtTreeMap.mem_toList_iff_getElem?_eq_some.mpr hp
            rw [hfree.1] at hmem
            cases hmem
      | _ => exact ⟨trivial, trivial⟩
  | deliver index keep policy =>
      refine ⟨trivial, fun f hf _ _ hframe _ _ => ?_⟩
      simp only [isDataFrame, Bool.and_eq_true] at hframe
      have hcarries : carriesData f.data = true := hframe.1
      simp only [orderly, hf, hcarries, Bool.not_true, Bool.false_or] at h
      split at h
      · rename_i p hp
        simp only [Bool.and_eq_true, beq_iff_eq, decide_eq_true_eq] at h
        exact ⟨p, hp, h.1, h.2⟩
      · cases h
  | _ => exact ⟨trivial, trivial⟩

def onePeer : View := { addresses := [1], members := [2] }

/-- Node 1 sends a value; the frame is in the air. -/
def sendsValue (value : UInt8) (handle : SendHandle) : List WorldAction :=
  .act 1 (.submit reliableChannel [value]) :: List.replicate 7 (WorldAction.act 1 (.exec onePeer .ok)) ++
  [WorldAction.act 1 (.exec onePeer (.handle handle)), .act 1 (.exec onePeer .ok),
    .act 1 (.exec onePeer .ok)]

/-- A value is published and acknowledged, and a second one is sent when the turn is back. -/
def twoValuesRun : List WorldAction :=
  sendsValue 7 ⟨11, 1⟩ ++
  [WorldAction.deliver 0 false {}, .act 2 (.decode true), .act 2 (.finish {}), .act 2 .tick] ++
  List.replicate 5 (WorldAction.act 2 (.exec {} .ok)) ++
  [WorldAction.act 2 (.exec {} (.handle ⟨21, 1⟩)), .deliver 0 false {}, .act 1 .tick] ++
  List.replicate 5 (WorldAction.act 1 (.exec {} .ok)) ++
  [WorldAction.advance (seconds 12)] ++ sendsValue 8 ⟨12, 1⟩ ++
  [WorldAction.deliver 0 false {}, .act 2 (.decode true)]

theorem published_in_order_twoValuesRun :
    ∃ w : World, (channelPublications 1 (channelKey reliableChannel) (w.at 2)).length = 2 ∧
      InOrder (submissions (channelKey reliableChannel) (w.at 1))
        (channelPublications 1 (channelKey reliableChannel) (w.at 2)) := by
  have hguard : Run.allowed World.step (orderly 1 2 reliableChannel) {} twoValuesRun = true := by
    decide +kernel
  have hrun : ((Run.exec World.step {} twoValuesRun).map fun (w : World) =>
      (channelPublications 1 (channelKey reliableChannel) (w.at 2)).length) = some 2 := by
    decide +kernel
  obtain ⟨w, hw, hlength⟩ := Option.map_eq_some_iff.mp hrun
  have hguarded := Run.guarded_of_allowed (J := fun _ => True)
    (fun _ _ _ htest => orderly_sound htest) (fun _ _ _ _ _ _ => trivial) trivial hguard
  exact ⟨w, hlength, published_in_order
    (Run.ReachableUnder.exec (.start initial_network) hguarded hw)⟩

def Event.clears : Event → Bool
  | .cleared _ => true
  | _ => false

/-- The daemon reports the transfer of the first value complete, so the second one is sent while
the first is still pending, and overtakes it. -/
def overtakingRun : List WorldAction :=
  sendsValue 7 ⟨11, 1⟩ ++
  [WorldAction.advance (milliseconds 100), .act 1 .tick, .act 1 (.exec {} .ok),
    .act 1 (.exec {} .ok), .act 1 (.exec {} (.pending false)), .act 1 (.exec {} .ok), .act 1 (.exec {} .ok),
    .act 1 (.exec {} .ok), .advance (seconds 12)] ++
  sendsValue 8 ⟨12, 1⟩ ++
  [WorldAction.deliver 1 false {}, .act 2 (.decode true), .act 2 (.finish {}), .deliver 0 false {},
    .act 2 (.decode true)]

/-- In a run without a reset the receiver goes back to the older value. -/
theorem published_out_of_order :
    ∃ w, Run.Reachable World.step World.Initial w ∧
      (∀ node preserveLatest, (node, .cleared preserveLatest) ∉ w.log) ∧
      ¬ InOrder (submissions (channelKey reliableChannel) (w.at 1))
        (channelPublications 1 (channelKey reliableChannel) (w.at 2)) := by
  have hrun : ((Run.exec World.step {} overtakingRun).map fun (w : World) =>
      (w.log.all fun item => !item.2.clears,
       submissions (channelKey reliableChannel) (w.at 1),
       channelPublications 1 (channelKey reliableChannel) (w.at 2))) =
      some (true, [bridgePayload reliableChannel [7], bridgePayload reliableChannel [8]],
        [bridgePayload reliableChannel [8], bridgePayload reliableChannel [7]]) := by
    decide +kernel
  obtain ⟨w, hw, hval⟩ := Option.map_eq_some_iff.mp hrun
  simp only [Prod.mk.injEq] at hval
  obtain ⟨hall, hsubmitted, harrived⟩ := hval
  refine ⟨w, Run.Reachable.exec (.start initial_network) hw, fun node preserveLatest hmem => ?_, ?_⟩
  · exact absurd (List.all_eq_true.mp hall _ hmem) (by simp [Event.clears])
  · rw [hsubmitted, harrived]
    exact not_inOrder_swap (by decide)

end UavBluetooth.Mesh
