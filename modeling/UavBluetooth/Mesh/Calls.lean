import UavBluetooth.Mesh.Receipts
import UavBluetooth.Mesh.Retention

set_option autoImplicit false

/-! # Sends in progress

What holds of the executor's stack in every run, whatever the daemon answers (`Calls`): frames
come before sends, a channel has at most one send, and its waiting place is empty once the send
has claimed the channel. `Flow` is what one stretch of the executor does to samples, waiting
values and sends; only the sweep and the admission of a sample do more.
-/

namespace UavBluetooth.Mesh

open Config

/-! ## Samples and frames -/

/-- The sample of the sequence holds the value. -/
def MeshReliablePending.Holds (p : MeshReliablePending) (sequence : UInt16) (v : Bytes) : Prop :=
  (∃ bridge, Framed bridge v) ∧ ∃ swarmId, p.data = makeMeshReliableData v sequence swarmId

section

variable {p : MeshReliablePending} {sequence : UInt16} {v : Bytes}

theorem Framed.length {bridge : SharedTopicConfig} (h : Framed bridge v) : 3 ≤ v.length := by
  obtain ⟨body, rfl⟩ := h
  simp [bridgePayload, u16Bytes]

theorem decodedFrame_of_framed {bridge : SharedTopicConfig} (h : Framed bridge v)
    (sequence swarmId : UInt16) :
    decodedFrame (makeMeshReliableData v sequence swarmId) = v := by
  obtain ⟨body, rfl⟩ := h
  exact decodedFrame_make bridge body sequence swarmId

theorem MeshReliablePending.Holds.decoded (h : p.Holds sequence v) : decodedFrame p.data = v := by
  obtain ⟨⟨bridge, hframed⟩, swarmId, hdata⟩ := h
  rw [hdata]
  exact decodedFrame_of_framed hframed sequence swarmId

theorem MeshReliablePending.Holds.sequence_eq (h : p.Holds sequence v) :
    meshReliableSequence p.data = sequence := by
  obtain ⟨⟨bridge, hframed⟩, swarmId, hdata⟩ := h
  rw [hdata]
  exact meshReliableSequence_make v sequence swarmId hframed.length

theorem MeshReliablePending.Holds.length (h : p.Holds sequence v) : 3 < p.data.length := by
  obtain ⟨_, swarmId, hdata⟩ := h
  rw [hdata]
  exact length_makeMeshReliableData v sequence swarmId

theorem MeshReliablePending.Holds.congr {p' : MeshReliablePending} (h : p.Holds sequence v)
    (hdata : p'.data = p.data) : p'.Holds sequence v := by
  obtain ⟨hframed, swarmId, heq⟩ := h
  exact ⟨hframed, swarmId, hdata.trans heq⟩

end

theorem carriesData_of_kind {data : Bytes} (kind : UInt8) (hkind : frameKind data = kind)
    (hd : kind ≠ reliableData) (hn : kind ≠ reliableDataNoTurn) : carriesData data = false := by
  simp [carriesData, hkind, hd, hn]

/-- A query carries no value. -/
theorem carriesData_receiptQueryOf {data : Bytes} (h : 3 < data.length) :
    carriesData (receiptQueryOf data) = false := by
  refine carriesData_of_kind reliableReceiptQuery ?_ (by decide) (by decide)
  refine frameKind_withKind _ ?_
  rw [List.length_take]
  have : reliableAckHeaderBytes = 8 := rfl
  omega

/-- No sample is entered, and those that stay are at most trimmed. -/
def Thinned (a b : Std.ExtTreeMap UInt16 MeshReliablePending) : Prop :=
  ∀ (sequence : UInt16) (p' : MeshReliablePending), b[sequence]? = some p' →
    ∃ p, a[sequence]? = some p ∧ Trimmed p p'

theorem Thinned.refl (a : Std.ExtTreeMap UInt16 MeshReliablePending) : Thinned a a :=
  fun _ p h => ⟨p, h, .refl p⟩

theorem Thinned.of_eq {a b : Std.ExtTreeMap UInt16 MeshReliablePending} (h : b = a) :
    Thinned a b := by
  subst h
  exact .refl b

theorem thinned_erase (a : Std.ExtTreeMap UInt16 MeshReliablePending) (sequence : UInt16) :
    Thinned a (a.erase sequence) := by
  intro s p hp
  rw [Std.ExtTreeMap.getElem?_erase] at hp
  split at hp
  · cases hp
  · exact ⟨p, hp, .refl p⟩

theorem Thinned.not_mem {a b : Std.ExtTreeMap UInt16 MeshReliablePending} (h : Thinned a b)
    {sequence : UInt16} (hs : sequence ∉ a) : sequence ∉ b := by
  rw [Std.ExtTreeMap.mem_iff_isSome_getElem?, Option.isSome_iff_exists] at hs ⊢
  rintro ⟨p', hp'⟩
  obtain ⟨p, hp, _⟩ := h sequence p' hp'
  exact hs ⟨p, hp⟩

/-! ## The stack -/

/-- The frames of a sweep come before its sends, and both before what starts another sweep. -/
def Task.layer : Task → Nat
  | .maintain => 2
  | .sweep => 2
  | .install _ _ => 2
  | task => if task.send.isSome then 1 else 0

/-- The frame that a task is about for maintenance. -/
def Task.item : Task → Option Outbound
  | .outbound item => some item
  | .transmit item => some item
  | _ => none

theorem layer_of_send {t : Task} {send : Send} (h : t.send = some send) : t.layer = 1 := by
  cases t <;> simp_all [Task.layer, Task.send]

theorem layer_of_item {t : Task} {item : Outbound} (h : t.item = some item) : t.layer = 0 := by
  cases t with
  | outbound item => rfl
  | transmit item => rfl
  | _ => cases h

theorem sendsOf_append (a b : List Task) : sendsOf (a ++ b) = sendsOf a ++ sendsOf b :=
  List.filterMap_append

theorem sendsOf_cons_of_send {t : Task} {send : Send} (h : t.send = some send) (rest : List Task) :
    sendsOf (t :: rest) = send :: sendsOf rest :=
  List.filterMap_cons_some h

theorem sendsOf_cons_of_none {t : Task} (h : t.send = none) (rest : List Task) :
    sendsOf (t :: rest) = sendsOf rest :=
  List.filterMap_cons_none h

/-- The executor's stack against the reliability state. -/
structure Calls (r : MeshReliable) (todo : List Task) : Prop where
  layered : todo.Pairwise fun t u => t.layer ≤ u.layer
  distinct : ((sendsOf todo).map Send.key).Nodup
  framed : ∀ send ∈ sendsOf todo, Framed send.bridge send.payload
  keyed : ∀ (key : UInt64) (value : SharedTopicConfig × Bytes), r.latest[key]? = some value →
    channelKey value.1 = key ∧ Framed value.1 value.2
  vacant : ∀ t ∈ todo, ∀ send, t.send = some send → send.resumed = true ∨ t.dropped = true →
    r.latest[send.key]? = none
  samples : ∀ (sequence : UInt16) (p : MeshReliablePending), r.pending[sequence]? = some p →
    ∃ v, p.Holds sequence v
  free : ∀ send adm, .admission send adm ∈ todo → adm.sequence ∉ r.pending
  entered : ∀ send adm data remaining admitted, .fanOut send adm data remaining admitted ∈ todo →
    (∃ swarmId, data = makeMeshReliableData send.payload adm.sequence swarmId) ∧
      ∀ p, r.pending[adm.sequence]? = some p →
        p.channelKey = send.key ∧ p.data = data ∧ p.appKeyIndex = send.bridge.meshAppKeyIndex
  served : ∀ t ∈ todo, ∀ item, t.item = some item → carriesData item.data = true →
    ∀ p, r.pending[meshReliableSequence item.data]? = some p →
      item.data = repairFrame p item.destination ∧ item.appKeyIndex = p.appKeyIndex

/-! ## One stretch of the executor -/

/-- What a stretch other than a sweep or an admission does: `s` is the node without the task. -/
structure Flow (s : Station) (task : Task) (l : List Task) (s' : Station) : Prop where
  todo : s'.todo = l ++ s.todo
  pending : Thinned s.reliable.pending s'.reliable.pending
  latest : ∀ (key : UInt64) (value : SharedTopicConfig × Bytes),
    s'.reliable.latest[key]? = some value → s.reliable.latest[key]? = some value ∨
      ∃ send, task.send = some send ∧ key = send.key ∧ value = (send.bridge, send.payload) ∧
        sendsOf l = []
  layered : l.Pairwise fun t u => t.layer ≤ u.layer
  below : ∀ t ∈ l, t.layer ≤ task.layer
  sends : sendsOf l = [] ∨ ∃ send, task.send = some send ∧ sendsOf l = [send]
  dropped : ∀ t ∈ l, t.dropped = true → ∀ send, t.send = some send →
    task.dropped = true ∨ s'.reliable.latest[send.key]? = none
  free : ∀ send adm, .admission send adm ∈ l → adm.sequence ∉ s'.reliable.pending
  fanOut : ∀ send adm data remaining admitted, .fanOut send adm data remaining admitted ∈ l →
    ∃ remaining' admitted', task = .fanOut send adm data remaining' admitted'
  items : ∀ t ∈ l, ∀ item, t.item = some item → task.item = some item

section

variable {s s' : Station} {task : Task} {l : List Task}

theorem sendsOf_eq_nil (h : ∀ t ∈ l, t.send = none) : sendsOf l = [] :=
  List.filterMap_eq_nil_iff.mpr h

/-- A stretch that goes on without a send. -/
theorem flow_idle (htodo : s'.todo = l ++ s.todo)
    (hpending : Thinned s.reliable.pending s'.reliable.pending)
    (hlatest : ∀ (key : UInt64) (value : SharedTopicConfig × Bytes),
      s'.reliable.latest[key]? = some value → s.reliable.latest[key]? = some value)
    (hidle : ∀ t ∈ l, t.send = none ∧ (t.item = none ∨ t.item = task.item))
    (hlayered : l.Pairwise fun t u => t.layer ≤ u.layer) (hbelow : ∀ t ∈ l, t.layer ≤ task.layer) :
    Flow s task l s' where
  todo := htodo
  pending := hpending
  latest := fun key value h => Or.inl (hlatest key value h)
  layered := hlayered
  below := hbelow
  sends := Or.inl (sendsOf_eq_nil fun t ht => (hidle t ht).1)
  dropped := fun t ht _ send hs => by
    rw [(hidle t ht).1] at hs
    cases hs
  free := fun send adm ht => by cases (hidle _ ht).1
  fanOut := fun send adm data remaining admitted ht => by cases (hidle _ ht).1
  items := fun t ht item hitem => by
    rcases (hidle t ht).2 with hnone | hsame
    · rw [hnone] at hitem
      cases hitem
    · rw [← hsame, hitem]

/-- A stretch at the end of a call, which may store the call's value. -/
theorem flow_end (htodo : s'.todo = s.todo)
    (hpending : Thinned s.reliable.pending s'.reliable.pending)
    (hlatest : ∀ (key : UInt64) (value : SharedTopicConfig × Bytes),
      s'.reliable.latest[key]? = some value → s.reliable.latest[key]? = some value ∨
        ∃ send, task.send = some send ∧ key = send.key ∧ value = (send.bridge, send.payload)) :
    Flow s task [] s' where
  todo := htodo
  pending := hpending
  latest := fun key value h => (hlatest key value h).imp_right fun ⟨send, hs, hkey, hvalue⟩ =>
    ⟨send, hs, hkey, hvalue, rfl⟩
  layered := List.Pairwise.nil
  below := by simp
  sends := Or.inl rfl
  dropped := by simp
  free := by simp
  fanOut := by simp
  items := by simp

/-- A stretch after which the call goes on. -/
theorem flow_on (before : List Task) (t : Task) {send : Send} (hsend : task.send = some send)
    (ht : t.send = some send) (htodo : s'.todo = (before ++ [t]) ++ s.todo)
    (hpending : Thinned s.reliable.pending s'.reliable.pending)
    (hlatest : ∀ (key : UInt64) (value : SharedTopicConfig × Bytes),
      s'.reliable.latest[key]? = some value → s.reliable.latest[key]? = some value)
    (hbefore : ∀ u ∈ before, u.send = none ∧ u.item = none ∧ u.layer = 0)
    (hdropped : t.dropped = true → task.dropped = true ∨ s'.reliable.latest[send.key]? = none)
    (hfree : ∀ send adm, t = .admission send adm → adm.sequence ∉ s'.reliable.pending)
    (hfanOut : ∀ send adm data remaining admitted, t = .fanOut send adm data remaining admitted →
      ∃ remaining' admitted', task = .fanOut send adm data remaining' admitted') :
    Flow s task (before ++ [t]) s' := by
  have hsplit : ∀ {u : Task}, u ∈ before ++ [t] → u ∈ before ∨ u = t := by
    intro u hu
    simpa using hu
  have hnone : sendsOf before = [] := sendsOf_eq_nil fun u hu => (hbefore u hu).1
  refine ⟨htodo, hpending, fun key value h => Or.inl (hlatest key value h), ?_, ?_,
    Or.inr ⟨send, hsend, ?_⟩, ?_, ?_, ?_, ?_⟩
  · refine List.pairwise_append.mpr ⟨?_, List.pairwise_singleton _ _, fun u hu v hv => ?_⟩
    · refine List.pairwise_of_forall_mem_list fun u hu v hv => ?_
      rw [(hbefore u hu).2.2]
      exact Nat.zero_le _
    · rw [(hbefore u hu).2.2]
      exact Nat.zero_le _
  · intro u hu
    rw [layer_of_send hsend]
    rcases hsplit hu with hu | rfl
    · rw [(hbefore u hu).2.2]
      exact Nat.zero_le _
    · exact Nat.le_of_eq (layer_of_send ht)
  · rw [sendsOf_append, hnone, sendsOf_cons_of_send ht]
    rfl
  · intro u hu hd send' hs
    rcases hsplit hu with hu | rfl
    · rw [(hbefore u hu).1] at hs
      cases hs
    · rw [ht] at hs
      cases hs
      exact hdropped hd
  · intro send' adm hu
    rcases hsplit hu with hu | hu
    · cases (hbefore _ hu).1
    · exact hfree send' adm hu.symm
  · intro send' adm data remaining admitted hu
    rcases hsplit hu with hu | hu
    · cases (hbefore _ hu).1
    · exact hfanOut send' adm data remaining admitted hu.symm
  · intro u hu item hitem
    rcases hsplit hu with hu | rfl
    · rw [(hbefore u hu).2.1] at hitem
      cases hitem
    · have hzero := layer_of_item hitem
      rw [layer_of_send ht] at hzero
      cases hzero

end

theorem dropLatest_cases {send : Send} {r : MeshReliable} {key : UInt64}
    {value : SharedTopicConfig × Bytes} (h : (dropLatest send r).latest[key]? = some value) :
    r.latest[key]? = some value ∧ key ≠ send.key := by
  unfold dropLatest at h
  simp only at h
  rw [Std.ExtTreeMap.getElem?_erase] at h
  split at h
  · cases h
  · rename_i hne
    exact ⟨h, fun heq => hne (by simp [heq])⟩

/-- **What one stretch of the executor does**, but for the sweep and the admission. -/
theorem exec_flow {now : Time} {view : View} {answer : Answer} {s s' : Station} {task : Task}
    {events : List Event} (hsweep : task ≠ .sweep) (hadmission : ∀ send adm, task ≠ .admission send adm)
    (hx : execTask now view answer s task = some (s', events)) : ∃ l, Flow s task l s' := by
  by_cases hquiet : task.quiet = true
  · have hstep := exec_quiet hquiet hx
    obtain ⟨l, htodo, hl⟩ := hstep.todo
    have hidle : ∀ t ∈ l, t.layer = 0 ∧ t.send = none ∧ (t.item = none ∨ t.item = task.item) := by
      intro t ht
      rcases hl t ht with hhandling | ⟨item, rfl, rfl⟩
      · cases t with
        | cancel batch => exact ⟨rfl, rfl, Or.inl rfl⟩
        | requeue batch => exact ⟨rfl, rfl, Or.inl rfl⟩
        | completed check => exact ⟨rfl, rfl, Or.inl rfl⟩
        | _ => cases hhandling
      · exact ⟨rfl, rfl, Or.inr rfl⟩
    refine ⟨l, flow_idle htodo hstep.reliable.pending.back ?_ (fun t ht => (hidle t ht).2) ?_ ?_⟩
    · intro key value h
      rw [← hstep.reliable.latest]
      exact h
    · refine List.pairwise_of_forall_mem_list fun t ht u hu => ?_
      rw [(hidle t ht).1]
      exact Nat.zero_le _
    · intro t ht
      rw [(hidle t ht).1]
      exact Nat.zero_le _
  -- Tasks without a send that leave samples and waiting values.
  have hpush : ∀ l : List Task, s' = s.push l →
      (∀ t ∈ l, t.send = none ∧ (t.item = none ∨ t.item = task.item)) →
      (l.Pairwise fun t u => t.layer ≤ u.layer) → (∀ t ∈ l, t.layer ≤ task.layer) →
      ∃ l, Flow s task l s' := by
    intro l hs' hl hlayered hbelow
    subst hs'
    exact ⟨l, flow_idle rfl (.refl _) (fun _ _ h => h) hl hlayered hbelow⟩
  -- The end of a call that stores its value or leaves everything.
  have hstay : s' = s → ∃ l, Flow s task l s' := fun hs' =>
    ⟨[], flow_end (by rw [hs']) (.of_eq (by rw [hs'])) (fun _ _ h => Or.inl (by rwa [hs'] at h))⟩
  have hstore : ∀ send, task.send = some send →
      s' = s.withReliable (storeLatest send s.reliable) → ∃ l, Flow s task l s' := by
    intro send hsend hs'
    subst hs'
    refine ⟨[], flow_end rfl (.refl _) fun key value h => ?_⟩
    exact (storeLatest_cases h).imp_right fun ⟨hkey, hvalue⟩ => ⟨send, hsend, hkey, hvalue⟩
  cases task with
  | maintain =>
      simp only [execTask] at hx
      split at hx <;> cases hx
      · exact ⟨[.clear true, .flush, .sweep], flow_idle rfl (.refl _) (fun _ _ h => h)
          (by simp [Task.send, Task.item]) (by simp [Task.layer, Task.send]) (by simp [Task.layer, Task.send])⟩
      · exact hpush [.sweep] rfl (by simp [Task.send, Task.item]) (List.pairwise_singleton _ _)
          (by simp [Task.layer])
  | clear preserveLatest =>
      cases hx
      refine ⟨[], flow_end rfl ?_ ?_⟩
      · intro q p hp
        cases (Std.ExtTreeMap.getElem?_empty (α := UInt16) (β := MeshReliablePending)).symm.trans hp
      · intro key value h
        cases preserveLatest with
        | true => exact Or.inl h
        | false => cases h
  | sweep => exact absurd rfl hsweep
  | transmit item =>
      have hone : ∀ t : Task, s' = s.push [t] → t.send = none → t.item = none → t.layer = 0 →
          ∃ l, Flow s (.transmit item) l s' := by
        intro t hs' hsend hitem hlayer
        refine hpush [t] hs' ?_ (List.pairwise_singleton _ _) ?_
        · intro u hu
          rw [List.mem_singleton.mp hu]
          exact ⟨hsend, Or.inl hitem⟩
        · intro u hu
          rw [List.mem_singleton.mp hu, hlayer]
          exact Nat.zero_le _
      simp only [execTask] at hx
      split at hx
      · cases hx
      · split at hx
        · split at hx <;> cases hx
          · exact hone _ rfl rfl rfl rfl
          · exact hstay rfl
        · cases hx
          exact hone _ rfl rfl rfl rfl
        · cases hx
          by_cases hack : item.acknowledgement = true
          · exact hone (.requeueAck item) (if_pos hack) rfl rfl rfl
          · exact hstay (if_neg hack)
        · cases hx
  | consume send =>
      cases hx
      exact ⟨[], flow_end rfl (.refl _) fun _ _ h => Or.inl h⟩
  | install meshApp coordinator =>
      cases hx
      exact ⟨[], flow_end rfl (.refl _) fun _ _ h => Or.inl h⟩
  | enter send =>
      simp only [execTask] at hx
      split at hx
      · cases hx
        exact hstay rfl
      · split at hx <;> cases hx
        · exact ⟨_, flow_on [.clear true, .flush] (.gate send) rfl rfl rfl (.refl _)
            (fun _ _ h => h) (by simp [Task.send, Task.item, Task.layer]) (fun h => by cases h)
            (fun _ _ h => by cases h) (fun _ _ _ _ _ h => by cases h)⟩
        · exact ⟨_, flow_on [] (.gate send) rfl rfl rfl (.refl _) (fun _ _ h => h)
            (by simp) (fun h => by cases h) (fun _ _ h => by cases h)
            (fun _ _ _ _ _ h => by cases h)⟩
  | gate send =>
      simp only [execTask] at hx
      split at hx <;> cases hx
      · exact ⟨_, flow_on [] (.claim send view.addresses) rfl rfl rfl (.refl _)
          (fun _ _ h => h) (by simp) (fun h => by cases h) (fun _ _ h => by cases h)
          (fun _ _ _ _ _ h => by cases h)⟩
      · exact hstore send rfl rfl
  | claim send addresses =>
      simp only [execTask] at hx
      split at hx
      · cases hx
        exact hstay rfl
      · rename_i hclaim
        have hs₁ : ∃ r₁, (if send.resumed = true then s else
            s.withReliable (dropLatest send s.reliable)) = s.withReliable r₁ ∧
            r₁.pending = s.reliable.pending ∧ r₁.latest[send.key]? = none ∧
            ∀ (key : UInt64) (value : SharedTopicConfig × Bytes),
              r₁.latest[key]? = some value → s.reliable.latest[key]? = some value := by
          split
          · rename_i hresumed
            refine ⟨s.reliable, rfl, rfl, ?_, fun _ _ h => h⟩
            rw [hresumed, Bool.true_and, Bool.not_eq_true,
              Std.ExtTreeMap.contains_eq_isSome_getElem?, Option.isSome_eq_false_iff,
              Option.isNone_iff_eq_none] at hclaim
            exact hclaim
          · refine ⟨_, rfl, rfl, ?_, fun _ _ h => (dropLatest_cases h).1⟩
            simp [dropLatest]
        obtain ⟨r₁, hr₁, hpending, hvacant, hlatest⟩ := hs₁
        rw [hr₁] at hx
        have hgo : ∀ t : Task, s' = (s.withReliable r₁).push [t] → t.send = some send →
            (∀ send adm, t ≠ .admission send adm) →
            (∀ send adm data remaining admitted, t ≠ .fanOut send adm data remaining admitted) →
            ∃ l, Flow s (.claim send addresses) l s' := by
          intro t hs' ht hnot hnot'
          subst hs'
          exact ⟨_, flow_on [] t rfl ht rfl (.of_eq hpending) hlatest (by simp)
            (fun _ => Or.inr hvacant) (fun send adm h => absurd h (hnot send adm))
            (fun send adm data remaining admitted h =>
              absurd h (hnot' send adm data remaining admitted))⟩
        split at hx
        · split at hx <;> cases hx
          · exact hgo (.occupied send addresses) rfl rfl (by simp) (by simp)
          · exact ⟨[], flow_end rfl (.of_eq hpending) fun _ _ h => Or.inl (hlatest _ _ h)⟩
        · cases hx
          exact hgo (.plain send) rfl rfl (by simp) (by simp)
  | occupied send addresses =>
      simp only [execTask] at hx
      split at hx <;> cases hx
      · exact hstore send rfl rfl
      · exact ⟨_, flow_on [] (.arbitrate send addresses) rfl rfl rfl (.refl _)
          (fun _ _ h => h) (by simp) (fun _ => Or.inl rfl) (fun _ _ h => by cases h)
          (fun _ _ _ _ _ h => by cases h)⟩
  | arbitrate send addresses =>
      simp only [execTask] at hx
      split at hx
      · cases hx
      · rename_i r harbitrate
        cases hx
        refine ⟨[], flow_end rfl (.of_eq (arbitrate_custody harbitrate).1) fun key value h => ?_⟩
        have hlatest := arbitrate_latest harbitrate
        simp only [Option.isSome_none, Bool.false_eq_true, if_false] at hlatest
        have h' : r.latest[key]? = some value := h
        rw [hlatest] at h'
        exact (storeLatest_cases h').imp_right fun ⟨hkey, hvalue⟩ => ⟨send, rfl, hkey, hvalue⟩
      · rename_i r adm harbitrate
        cases hx
        obtain ⟨hpending, _, hfree⟩ := arbitrate_custody harbitrate
        have hlatest := arbitrate_latest harbitrate
        simp only [Option.isSome_some, if_true] at hlatest
        refine ⟨_, flow_on [] (.admission send adm) rfl rfl rfl
          (.of_eq hpending) ?_ (by simp) (fun _ => Or.inl rfl) ?_ (fun _ _ _ _ _ h => by cases h)⟩
        · intro key value h
          have h' : r.latest[key]? = some value := h
          rwa [hlatest] at h'
        · intro send' adm' h
          cases h
          exact hfree adm rfl
  | admission send adm => exact absurd rfl (hadmission send adm)
  | fanOut send adm data remaining admitted =>
      cases remaining with
      | nil =>
          simp only [execTask] at hx
          split at hx <;> cases hx
          · exact hstay rfl
          · refine ⟨[], flow_end rfl ?_ fun key value h => ?_⟩
            · show Thinned _ (rollBack send adm s.reliable).pending
              rw [rollBack_pending]
              exact thinned_erase _ _
            · have h' : (rollBack send adm s.reliable).latest[key]? = some value := h
              rw [rollBack_latest] at h'
              exact (storeLatest_cases h').imp_right fun ⟨hkey, hvalue⟩ =>
                ⟨send, rfl, hkey, hvalue⟩
      | cons destination remaining =>
          have hgo : ∀ (t : Task) (admitted' : Bool), t.send = none → t.item = none →
              t.layer = 0 → s' = s.push [t, .fanOut send adm data remaining admitted'] →
              ∃ l, Flow s (.fanOut send adm data (destination :: remaining) admitted) l s' := by
            intro t admitted' hsend hitem hlayer hs'
            subst hs'
            refine ⟨_, flow_on [t] (.fanOut send adm data remaining admitted')
              rfl rfl rfl (.refl _) (fun _ _ h => h) ?_ (fun _ => Or.inl rfl)
              (fun _ _ h => by cases h) ?_⟩
            · intro u hu
              rw [List.mem_singleton.mp hu]
              exact ⟨hsend, hitem, hlayer⟩
            · intro send' adm' data' remaining' admitted'' h
              cases h
              exact ⟨_, _, rfl⟩
          simp only [execTask] at hx
          split at hx
          · cases hx
          · split at hx <;> cases hx
            · exact hgo _ true rfl rfl rfl rfl
            · exact hgo _ admitted rfl rfl rfl rfl
            · exact hgo _ admitted rfl rfl rfl rfl
  | plain send =>
      simp only [execTask] at hx
      split at hx
      · cases hx
      · split at hx <;> cases hx <;> exact hstay rfl
  | _ => exact absurd rfl hquiet

/-! ## The invariant -/

section

variable {r r' : MeshReliable} {task : Task} {rest l : List Task}

theorem Calls.key_ne (h : Calls r (task :: rest)) {t : Task} {send send' : Send}
    (hsend : task.send = some send) (ht : t ∈ rest) (hs : t.send = some send') :
    send'.key ≠ send.key := by
  have hd := h.distinct
  rw [sendsOf_cons_of_send hsend, List.map_cons, List.nodup_cons] at hd
  intro heq
  exact hd.1 (heq ▸ List.mem_map_of_mem (mem_sendsOf.mpr ⟨t, ht, hs⟩))

theorem Calls.below (h : Calls r (task :: rest)) {t : Task} (ht : t ∈ rest) :
    task.layer ≤ t.layer :=
  (List.pairwise_cons.mp h.layered).1 t ht

theorem Calls.tail_sends (h : Calls r (task :: rest)) :
    ((sendsOf rest).map Send.key).Nodup ∧ ∀ send ∈ sendsOf rest, send ∈ sendsOf (task :: rest) := by
  cases hsend : task.send with
  | none =>
      rw [sendsOf_cons_of_none hsend]
      exact ⟨by rw [← sendsOf_cons_of_none hsend]; exact h.distinct, fun _ hs => hs⟩
  | some send =>
      have hd := h.distinct
      rw [sendsOf_cons_of_send hsend, List.map_cons, List.nodup_cons] at hd
      rw [sendsOf_cons_of_send hsend]
      exact ⟨hd.2, fun _ hs => List.mem_cons_of_mem _ hs⟩

/-- A stretch other than a sweep or an admission keeps the calls in order. -/
theorem Calls.flow {s s' : Station} (h : Calls s.reliable (task :: s.todo))
    (hf : Flow s task l s') : Calls s'.reliable s'.todo := by
  rw [hf.todo]
  -- A waiting place that was empty stays so, unless the call stores its value there.
  have hempty : ∀ key : UInt64, s.reliable.latest[key]? = none →
      (∀ send, task.send = some send → key = send.key → sendsOf l ≠ []) →
      s'.reliable.latest[key]? = none := by
    intro key hkey hnot
    cases hv : s'.reliable.latest[key]? with
    | none => rfl
    | some value =>
        rcases hf.latest key value hv with hold | ⟨send, hs, heq, _, hnil⟩
        · rw [hkey] at hold
          cases hold
        · exact absurd hnil (hnot send hs heq)
  have hmem : ∀ send ∈ sendsOf l, task.send = some send ∧ sendsOf l = [send] := by
    intro send hs
    rcases hf.sends with hnil | ⟨send', hsend', hone⟩
    · rw [hnil] at hs
      cases hs
    · rw [hone, List.mem_singleton] at hs
      subst hs
      exact ⟨hsend', hone⟩
  have hown : ∀ send, task.send = some send → send ∈ sendsOf (task :: s.todo) := fun send hs =>
    mem_sendsOf.mpr ⟨task, List.mem_cons_self, hs⟩
  refine ⟨?_, ?_, ?_, ?_, ?_, ?_, ?_, ?_, ?_⟩
  · refine List.pairwise_append.mpr ⟨hf.layered, (List.pairwise_cons.mp h.layered).2, ?_⟩
    intro t ht u hu
    exact Nat.le_trans (hf.below t ht) (h.below hu)
  · rw [sendsOf_append, List.map_append]
    rcases hf.sends with hnil | ⟨send, hsend, hone⟩
    · rw [hnil]
      exact h.tail_sends.1
    · have hd := h.distinct
      rw [sendsOf_cons_of_send hsend] at hd
      rw [hone]
      exact hd
  · intro send hs
    rw [sendsOf_append] at hs
    rcases List.mem_append.mp hs with hs | hs
    · exact h.framed send (hown send (hmem send hs).1)
    · exact h.framed send (h.tail_sends.2 send hs)
  · intro key value hv
    rcases hf.latest key value hv with hold | ⟨send, hs, rfl, rfl, _⟩
    · exact h.keyed key value hold
    · exact ⟨rfl, h.framed send (hown send hs)⟩
  · intro t ht send hs hor
    rcases List.mem_append.mp ht with ht | ht
    · obtain ⟨hsend, hone⟩ := hmem send (mem_sendsOf.mpr ⟨t, ht, hs⟩)
      have hkeep : task.dropped = true ∨ send.resumed = true →
          s'.reliable.latest[send.key]? = none := by
        intro hvacant
        refine hempty _ (h.vacant task List.mem_cons_self send hsend hvacant.symm) ?_
        intro _ _ _
        rw [hone]
        exact List.cons_ne_nil _ _
      rcases hor with hresumed | hdropped
      · exact hkeep (Or.inr hresumed)
      · rcases hf.dropped t ht hdropped send hs with hd | hn
        · exact hkeep (Or.inl hd)
        · exact hn
    · refine hempty _ (h.vacant t (List.mem_cons_of_mem _ ht) send hs hor) ?_
      intro send' hsend' heq
      exact absurd heq (h.key_ne hsend' ht hs)
  · intro q p' hp'
    obtain ⟨p, hp, htrim⟩ := hf.pending q p' hp'
    obtain ⟨v, hv⟩ := h.samples q p hp
    exact ⟨v, hv.congr htrim.data⟩
  · intro send adm ht
    rcases List.mem_append.mp ht with ht | ht
    · exact hf.free send adm ht
    · exact hf.pending.not_mem (h.free send adm (List.mem_cons_of_mem _ ht))
  · intro send adm data remaining admitted ht
    have hold : ∃ remaining' admitted',
        Task.fanOut send adm data remaining' admitted' ∈ task :: s.todo := by
      rcases List.mem_append.mp ht with ht | ht
      · obtain ⟨remaining', admitted', heq⟩ := hf.fanOut _ _ _ _ _ ht
        exact ⟨remaining', admitted', heq ▸ List.mem_cons_self⟩
      · exact ⟨remaining, admitted, List.mem_cons_of_mem _ ht⟩
    obtain ⟨remaining', admitted', hold⟩ := hold
    obtain ⟨hdata, hentered⟩ := h.entered _ _ _ _ _ hold
    refine ⟨hdata, fun p' hp' => ?_⟩
    obtain ⟨p, hp, htrim⟩ := hf.pending adm.sequence p' hp'
    obtain ⟨hkey, hd, happ⟩ := hentered p hp
    exact ⟨htrim.channelKey.trans hkey, htrim.data.trans hd, htrim.appKeyIndex.trans happ⟩
  · intro t ht item hitem hcarries p' hp'
    have hold : ∃ t₀ ∈ task :: s.todo, t₀.item = some item := by
      rcases List.mem_append.mp ht with ht | ht
      · exact ⟨task, List.mem_cons_self, hf.items t ht item hitem⟩
      · exact ⟨t, List.mem_cons_of_mem _ ht, hitem⟩
    obtain ⟨t₀, ht₀, hitem₀⟩ := hold
    obtain ⟨p, hp, htrim⟩ := hf.pending _ p' hp'
    obtain ⟨hdata, happ⟩ := h.served t₀ ht₀ item hitem₀ hcarries p hp
    refine ⟨?_, happ.trans htrim.appKeyIndex.symm⟩
    rw [hdata, repairFrame, repairFrame, htrim.data, htrim.turnSuccessor]

/-- A sample after the sweep is one from before it, with its value or the channel's waiting one. -/
theorem sweep_sample {now : Time} {r : MeshReliable} {sequence : UInt16} {p' : MeshReliablePending}
    (h : (sweepState now r).pending[sequence]? = some p') :
    ∃ p, r.pending[sequence]? = some p ∧ SameSample p p' ∧
      (p'.data = p.data ∨ ∃ value, r.latest[p.channelKey]? = some value ∧
        p'.data = foldedData sequence p value.2 ∧
        (sweepState now r).latest[p.channelKey]? = none) := by
  obtain ⟨done, hloop, _⟩ := sweepLoop_spec now r
  obtain ⟨p, hp, hsame, hdata | ⟨bridge, payload, hlatest, hdata, hfold⟩⟩ := hloop.kept sequence p' h
  · exact ⟨p, hp, hsame, Or.inl hdata⟩
  · refine ⟨p, hp, hsame, Or.inr ⟨(bridge, payload), hlatest, hdata, ?_⟩⟩
    rw [sweepState_latest, (hloop.folded sequence p.channelKey payload hfold).2.1]
    rfl

/-- A value that waits after the sweep did so before. -/
theorem sweep_latest {now : Time} {r : MeshReliable} {key : UInt64}
    {value : SharedTopicConfig × Bytes} (h : (sweepState now r).latest[key]? = some value) :
    r.latest[key]? = some value := by
  obtain ⟨done, hloop, _⟩ := sweepLoop_spec now r
  rw [sweepState_latest, Option.filter_eq_some_iff] at h
  exact hloop.latest_sub key value h.1

/-- A value that the sweep resumes waited before, and no longer does. -/
theorem sweep_resumed (h : Calls r (.sweep :: rest)) {now : Time} {send : Send}
    (hs : send ∈ sendsOf (sweepTasks now r)) :
    send.resumed = true ∧ r.latest[send.key]? = some (send.bridge, send.payload) ∧
      (sweepState now r).latest[send.key]? = none := by
  obtain ⟨done, hloop, _⟩ := sweepLoop_spec now r
  obtain ⟨value, hvalue, rfl⟩ := mem_sendsOf_sweepTasks.mp hs
  obtain ⟨key, hlatest, hbusy⟩ := mem_sweepReady.mp hvalue
  have hold := hloop.latest_sub key value hlatest
  obtain ⟨rfl, _⟩ := h.keyed key value hold
  refine ⟨rfl, hold, ?_⟩
  show (sweepState now r).latest[channelKey value.1]? = none
  rw [sweepState_latest, hlatest, hbusy]
  rfl

theorem sendsOf_sweepTasks_nodup (h : Calls r (.sweep :: rest)) (now : Time) :
    ((sendsOf (sweepTasks now r)).map Send.key).Nodup := by
  obtain ⟨done, hloop, _⟩ := sweepLoop_spec now r
  have hkeys : (sendsOf (sweepTasks now r)).map Send.key =
      ((sweepLoop now r).latest.toList.filter fun item =>
        !channelBusy (sweepLoop now r).pending item.1).map (·.1) := by
    rw [sendsOf_sweepTasks]
    unfold sweepReady
    simp only [List.map_map]
    apply List.map_congr_left
    intro item hitem
    have hitem' := Std.ExtTreeMap.mem_toList_iff_getElem?_eq_some.mp (List.mem_filter.mp hitem).1
    exact (h.keyed item.1 item.2 (hloop.latest_sub _ _ hitem')).1
  rw [hkeys]
  refine List.Nodup.sublist (List.Sublist.map _ List.filter_sublist) ?_
  rw [List.nodup_iff_pairwise_ne, List.pairwise_map]
  exact (Std.ExtTreeMap.distinct_keys_toList (t := (sweepLoop now r).latest)).imp
    (fun hab heq => hab (by simp [heq]))

theorem layered_sweepTasks (now : Time) (r : MeshReliable) :
    (sweepTasks now r).Pairwise (fun t u => t.layer ≤ u.layer) ∧
      ∀ t ∈ sweepTasks now r, t.layer ≤ 1 := by
  have hzero : ∀ t ∈ (sweepLoop now r).checks.map Task.check ++ [.flush] ++
      (sweepLoop now r).outbound.map Task.outbound, t.layer = 0 := by
    intro t ht
    simp only [List.mem_append, List.mem_map, List.mem_singleton] at ht
    rcases ht with (⟨_, _, rfl⟩ | rfl) | ⟨_, _, rfl⟩ <;> rfl
  have hone : ∀ t ∈ (sweepReady now r).map fun value => Task.enter ⟨value.1, value.2, true⟩,
      t.layer = 1 := by
    intro t ht
    obtain ⟨value, _, rfl⟩ := List.mem_map.mp ht
    rfl
  constructor
  · refine List.pairwise_append.mpr ⟨?_, ?_, fun t ht u _ => ?_⟩
    · refine List.pairwise_of_forall_mem_list fun t ht u _ => ?_
      rw [hzero t ht]
      exact Nat.zero_le _
    · refine List.pairwise_of_forall_mem_list fun t ht u hu => ?_
      rw [hone t ht, hone u hu]
    · rw [hzero t ht]
      exact Nat.zero_le _
  · intro t ht
    rcases List.mem_append.mp ht with ht | ht
    · rw [hzero t ht]
      exact Nat.zero_le _
    · exact Nat.le_of_eq (hone t ht)

/-- The frames that a sweep schedules with a value are repairs of its samples. -/
theorem sweep_served {now : Time}
    (hacks : ∀ ack ∈ r.acks, frameKind ack.data = reliableAck)
    (hsamples : ∀ (sequence : UInt16) (p : MeshReliablePending),
      (sweepState now r).pending[sequence]? = some p → ∃ v, p.Holds sequence v)
    {item : Outbound} (hitem : .outbound item ∈ sweepTasks now r)
    (hcarries : carriesData item.data = true) :
    ∃ p, (sweepState now r).pending[meshReliableSequence item.data]? = some p ∧
      item.data = repairFrame p item.destination ∧ item.appKeyIndex = p.appKeyIndex := by
  obtain ⟨done, hloop, _⟩ := sweepLoop_spec now r
  have hmem : item ∈ (sweepLoop now r).outbound := by
    simp only [sweepTasks, List.mem_append, List.mem_map, List.mem_singleton] at hitem
    rcases hitem with ((⟨_, _, heq⟩ | heq) | ⟨item', hmem, heq⟩) | ⟨_, _, heq⟩
    · cases heq
    · cases heq
    · cases heq
      exact hmem
    · cases heq
  rcases hloop.outbound item hmem with hold | ⟨q, _, p, hp, hserves⟩
  · obtain ⟨ack, hack, rfl⟩ := List.mem_map.mp hold
    have hkind := hacks ack (List.mem_of_mem_take hack)
    have hnone : carriesData (ackOutbound ack).data = false :=
      carriesData_of_kind reliableAck hkind (by decide) (by decide)
    rw [hnone] at hcarries
    cases hcarries
  · obtain ⟨v, hv⟩ := hsamples q p hp
    obtain ⟨_, happ, _, _, hdata⟩ := hserves
    rcases hdata with ⟨hquery, _⟩ | ⟨hrepair, _⟩
    · rw [hquery, carriesData_receiptQueryOf hv.length] at hcarries
      cases hcarries
    · refine ⟨p, ?_, hrepair, happ⟩
      rw [hrepair, repairFrame, meshReliableSequence_withKind, hv.sequence_eq]
      exact hp

/-- The sweep keeps the calls in order. -/
theorem Calls.sweep (h : Calls r (.sweep :: rest)) (now : Time)
    (hacks : ∀ ack ∈ r.acks, frameKind ack.data = reliableAck) :
    Calls (sweepState now r) (sweepTasks now r ++ rest) := by
  -- Nothing is left below a sweep but what makes another one.
  have hrest : ∀ t ∈ rest, t.send = none ∧ t.item = none := by
    intro t ht
    have hlayer := h.below ht
    refine ⟨?_, ?_⟩
    · cases hs : t.send with
      | none => rfl
      | some send =>
          rw [layer_of_send hs] at hlayer
          exact absurd hlayer (by decide)
    · cases hi : t.item with
      | none => rfl
      | some item =>
          rw [layer_of_item hi] at hlayer
          exact absurd hlayer (by decide)
  have hsends : sendsOf (sweepTasks now r ++ rest) = sendsOf (sweepTasks now r) := by
    rw [sendsOf_append, sendsOf_eq_nil fun t ht => (hrest t ht).1, List.append_nil]
  have hnew : ∀ t ∈ sweepTasks now r ++ rest, ∀ send, t.send = some send →
      send ∈ sendsOf (sweepTasks now r) := by
    intro t ht send hs
    rw [← hsends]
    exact mem_sendsOf.mpr ⟨t, ht, hs⟩
  have hbase : ∀ t ∈ sweepTasks now r ++ rest, ∀ send, t.send = some send → t.base = true := by
    intro t ht send hs
    rcases List.mem_append.mp ht with ht | ht
    · exact base_sweepTasks now r t ht
    · rw [(hrest t ht).1] at hs
      cases hs
  have hsamples : ∀ (sequence : UInt16) (p : MeshReliablePending),
      (sweepState now r).pending[sequence]? = some p → ∃ v, p.Holds sequence v := by
    intro q p' hp'
    obtain ⟨p, hp, _, hdata | ⟨value, hlatest, hdata, _⟩⟩ := sweep_sample hp'
    · obtain ⟨v, hv⟩ := h.samples q p hp
      exact ⟨v, hv.congr hdata⟩
    · exact ⟨value.2, ⟨value.1, (h.keyed _ value hlatest).2⟩, _, hdata⟩
  have hlayered := layered_sweepTasks now r
  refine ⟨?_, ?_, ?_, ?_, ?_, hsamples, ?_, ?_, ?_⟩
  · refine List.pairwise_append.mpr ⟨hlayered.1, (List.pairwise_cons.mp h.layered).2, ?_⟩
    intro t ht u hu
    exact Nat.le_trans (hlayered.2 t ht) (Nat.le_trans (by decide) (h.below hu))
  · rw [hsends]
    exact sendsOf_sweepTasks_nodup h now
  · intro send hs
    rw [hsends] at hs
    exact (h.keyed _ _ (sweep_resumed h hs).2.1).2
  · exact fun key value hv => h.keyed key value (sweep_latest hv)
  · exact fun t ht send hs _ => (sweep_resumed h (hnew t ht send hs)).2.2
  · intro send adm ht
    cases hbase _ ht send rfl
  · intro send adm data remaining admitted ht
    cases hbase _ ht send rfl
  · intro t ht item hitem hcarries p hp
    rcases List.mem_append.mp ht with ht | ht
    · have houtbound : t = .outbound item := by
        have hb := base_sweepTasks now r t ht
        cases t with
        | outbound item' =>
            cases hitem
            rfl
        | transmit item' => cases hb
        | _ => cases hitem
      subst houtbound
      obtain ⟨p₀, hp₀, hdata, happ⟩ := sweep_served hacks hsamples ht hcarries
      rw [hp₀] at hp
      cases hp
      exact ⟨hdata, happ⟩
    · rw [(hrest t ht).2] at hitem
      cases hitem

/-- What an admission pushes: the turn to be given away and the transmissions. -/
def admissionTasks (send : Send) (adm : Admission) (data : Bytes) : List Task :=
  (if adm.consumesTurn then [.consume send] else []) ++ [.fanOut send adm data adm.targets false]

theorem sendsOf_admissionTasks (send : Send) (adm : Admission) (data : Bytes) :
    sendsOf (admissionTasks send adm data) = [send] := by
  unfold admissionTasks
  rw [sendsOf_append]
  split <;> rfl

theorem mem_admissionTasks {send : Send} {adm : Admission} {data : Bytes} {t : Task}
    (h : t ∈ admissionTasks send adm data) :
    t = .consume send ∨ t = .fanOut send adm data adm.targets false := by
  unfold admissionTasks at h
  split at h
  · simpa using h
  · exact Or.inr (by simpa using h)

/-- A sample after the admission is the new one or was pending before. -/
theorem admitSample_cases {now : Time} {send : Send} {adm : Admission} {data : Bytes}
    (hfree : adm.sequence ∉ r.pending) {q : UInt16} {p : MeshReliablePending}
    (h : (admitSample now send adm data r).pending[q]? = some p) :
    (q = adm.sequence ∧ p = newSample now send adm data) ∨ r.pending[q]? = some p := by
  rw [admitSample_pending now send adm data hfree] at h
  split at h
  · rename_i hq
    exact Or.inl ⟨hq, (Option.some.inj h).symm⟩
  · split at h
    · cases h
    · exact Or.inr h

/-- An admission keeps the calls in order. -/
theorem Calls.admission {send : Send} {adm : Admission} (h : Calls r (.admission send adm :: rest))
    (hbase : ∀ t ∈ rest, t.base = true) (now : Time) (swarmId : UInt16) :
    Calls (admitSample now send adm (makeMeshReliableData send.payload adm.sequence swarmId) r)
      (admissionTasks send adm (makeMeshReliableData send.payload adm.sequence swarmId) ++ rest) := by
  set data := makeMeshReliableData send.payload adm.sequence swarmId with hdata
  have hfree := h.free send adm List.mem_cons_self
  have hpending := admitSample_pending now send adm data hfree
  have hlatest := admitSample_latest now send adm data r
  have hframed := h.framed send (mem_sendsOf.mpr ⟨_, List.mem_cons_self, rfl⟩)
  refine ⟨?_, ?_, ?_, ?_, ?_, ?_, ?_, ?_, ?_⟩
  · refine List.pairwise_append.mpr ⟨?_, (List.pairwise_cons.mp h.layered).2, fun t ht u hu => ?_⟩
    · unfold admissionTasks
      split <;> simp [Task.layer, Task.send]
    · refine Nat.le_trans ?_ (h.below hu)
      rcases mem_admissionTasks ht with rfl | rfl
      · exact Nat.zero_le _
      · exact Nat.le_refl _
  · rw [sendsOf_append, sendsOf_admissionTasks]
    exact h.distinct
  · intro send' hs
    rw [sendsOf_append, sendsOf_admissionTasks] at hs
    exact h.framed send' hs
  · rw [hlatest]
    exact h.keyed
  · rw [hlatest]
    intro t ht send' hs hor
    rcases List.mem_append.mp ht with ht | ht
    · rcases mem_admissionTasks ht with rfl | rfl
      · cases hs
      · cases hs
        exact h.vacant _ List.mem_cons_self send rfl (Or.inr rfl)
    · exact h.vacant t (List.mem_cons_of_mem _ ht) send' hs hor
  · intro q p hp
    rcases admitSample_cases hfree hp with ⟨rfl, rfl⟩ | hp
    · exact ⟨send.payload, ⟨send.bridge, hframed⟩, swarmId, rfl⟩
    · exact h.samples q p hp
  · intro send' adm' ht
    rcases List.mem_append.mp ht with ht | ht
    · rcases mem_admissionTasks ht with heq | heq <;> cases heq
    · cases hbase _ ht
  · intro send' adm' data' remaining admitted ht
    rcases List.mem_append.mp ht with ht | ht
    · rcases mem_admissionTasks ht with heq | heq
      · cases heq
      · cases heq
        refine ⟨⟨swarmId, hdata⟩, fun p hp => ?_⟩
        rw [hpending, if_pos rfl] at hp
        cases hp
        exact ⟨rfl, rfl, rfl⟩
    · cases hbase _ ht
  · intro t ht item hitem
    rcases List.mem_append.mp ht with ht | ht
    · rcases mem_admissionTasks ht with rfl | rfl <;> cases hitem
    · have hlayer := h.below ht
      rw [layer_of_item hitem] at hlayer
      exact absurd hlayer (Nat.not_succ_le_zero 0)

/-- **Every stretch of the executor keeps the calls in order.** -/
theorem calls_exec {now : Time} {view : View} {answer : Answer} {s s' : Station} {task : Task}
    {events : List Event} (h : Calls s.reliable (task :: s.todo)) (hstack : Stacked (task :: s.todo))
    (hacks : ∀ ack ∈ s.reliable.acks, frameKind ack.data = reliableAck)
    (hx : execTask now view answer s task = some (s', events)) : Calls s'.reliable s'.todo := by
  by_cases hsweep : task = .sweep
  · subst hsweep
    cases hx
    exact h.sweep now hacks
  · by_cases hadmission : ∃ send adm, task = .admission send adm
    · obtain ⟨send, adm, rfl⟩ := hadmission
      cases hx
      exact h.admission (hstack.below rfl) now view.swarmId
    · obtain ⟨l, hf⟩ := exec_flow hsweep
        (fun send adm heq => hadmission ⟨send, adm, heq⟩) hx
      exact h.flow hf

/-- What leaves the stack, the samples and the waiting values keeps the calls in order. -/
theorem Calls.kept {todo : List Task} (h : Calls r todo) (hkept : SamplesKept r r') :
    Calls r' todo where
  layered := h.layered
  distinct := h.distinct
  framed := h.framed
  keyed := by
    rw [hkept.latest]
    exact h.keyed
  vacant := by
    rw [hkept.latest]
    exact h.vacant
  samples := fun q p' hp' => by
    obtain ⟨p, hp, htrim⟩ := hkept.pending.back q p' hp'
    obtain ⟨v, hv⟩ := h.samples q p hp
    exact ⟨v, hv.congr htrim.data⟩
  free := fun send adm ht hmem =>
    h.free send adm ht ((hkept.pending.mem_iff adm.sequence).mp hmem)
  entered := fun send adm data remaining admitted ht => by
    obtain ⟨hdata, hentered⟩ := h.entered send adm data remaining admitted ht
    refine ⟨hdata, fun p' hp' => ?_⟩
    obtain ⟨p, hp, htrim⟩ := hkept.pending.back adm.sequence p' hp'
    obtain ⟨hkey, hd, happ⟩ := hentered p hp
    exact ⟨htrim.channelKey.trans hkey, htrim.data.trans hd, htrim.appKeyIndex.trans happ⟩
  served := fun t ht item hitem hcarries p' hp' => by
    obtain ⟨p, hp, htrim⟩ := hkept.pending.back _ p' hp'
    obtain ⟨hdata, happ⟩ := h.served t ht item hitem hcarries p hp
    refine ⟨?_, happ.trans htrim.appKeyIndex.symm⟩
    rw [hdata, repairFrame, repairFrame, htrim.data, htrim.turnSuccessor]

/-- An idle executor takes up tasks. -/
theorem Calls.start (h : Calls r []) (hlayered : l.Pairwise fun t u => t.layer ≤ u.layer)
    (hsends : sendsOf l = [] ∨ ∃ send, l = [.enter send] ∧ send.resumed = false ∧
      Framed send.bridge send.payload) (hitems : ∀ t ∈ l, t.item = none) : Calls r l := by
  have hone : ∀ t ∈ l, ∀ send, t.send = some send →
      t = .enter send ∧ send.resumed = false ∧ Framed send.bridge send.payload := by
    intro t ht send hs
    rcases hsends with hnil | ⟨send', rfl, hfresh, hframed⟩
    · have hmem := mem_sendsOf.mpr ⟨t, ht, hs⟩
      rw [hnil] at hmem
      cases hmem
    · rw [List.mem_singleton.mp ht] at hs ⊢
      cases hs
      exact ⟨rfl, hfresh, hframed⟩
  refine ⟨hlayered, ?_, ?_, h.keyed, ?_, h.samples, ?_, ?_, ?_⟩
  · rcases hsends with hnil | ⟨send, rfl, _, _⟩
    · rw [hnil]
      exact List.nodup_nil
    · exact List.nodup_singleton _
  · intro send hs
    obtain ⟨t, ht, hs⟩ := mem_sendsOf.mp hs
    exact (hone t ht send hs).2.2
  · intro t ht send hs hor
    obtain ⟨rfl, hfresh, _⟩ := hone t ht send hs
    rcases hor with hresumed | hdropped
    · rw [hfresh] at hresumed
      cases hresumed
    · cases hdropped
  · intro send adm ht
    cases (hone _ ht send rfl).1
  · intro send adm data remaining admitted ht
    cases (hone _ ht send rfl).1
  · intro t ht item hitem
    rw [hitems t ht] at hitem
    cases hitem

/-- **Every step of a node keeps its calls in order.** -/
theorem calls_step {now : Time} {s s' : Station} {a : Action} {events : List Event}
    (h : Calls s.reliable s.todo) (hstack : Stacked s.todo)
    (hacks : ∀ ack ∈ s.reliable.acks, frameKind ack.data = reliableAck)
    (hx : s.step now a = some (s', events)) : Calls s'.reliable s'.todo := by
  cases a with
  | submit bridge body =>
      simp only [Station.step] at hx
      split at hx
      · rename_i hidle
        cases hx
        rw [hidle] at h
        show Calls s.reliable (_ :: s.todo)
        rw [hidle]
        exact h.start (List.pairwise_singleton _ _) (Or.inr ⟨_, rfl, rfl, body, rfl⟩)
          (by simp [Task.item])
      · cases hx
  | tick =>
      simp only [Station.step] at hx
      split at hx
      · rename_i hidle
        split at hx
        · cases hx
          rw [hidle] at h
          show Calls s.reliable (_ :: s.todo)
          rw [hidle]
          exact h.start (List.pairwise_singleton _ _) (Or.inl rfl) (by simp [Task.item])
        · cases hx
      · cases hx
  | exec view answer =>
      simp only [Station.step] at hx
      split at hx
      · cases hx
      · rename_i task todo htodo
        rw [htodo] at h hstack
        exact calls_exec (s := { s with todo := todo }) h hstack hacks hx
  | receive policy message =>
      simp only [Station.step] at hx
      split at hx
      · have hs' : (s.receive now policy message).1 = s' := congrArg Prod.fst (Option.some.inj hx)
        rw [← hs', receive_todo]
        exact h.kept (samplesKept_receive now policy message s)
      · cases hx
  | decode delivered =>
      simp only [Station.step] at hx
      split at hx <;> cases hx
      exact h
  | finish view =>
      simp only [Station.step] at hx
      split at hx
      · cases hx
        exact h.kept (samplesKept_finishData now _ _ view.members _ s.reliable)
      · cases hx
  | requestReset =>
      cases hx
      exact h
  | reconfigure meshApp coordinator =>
      simp only [Station.step] at hx
      split at hx
      · rename_i hidle
        cases hx
        rw [hidle] at h
        show Calls s.reliable (_ ++ s.todo)
        rw [hidle]
        exact h.start (by simp [Task.layer, Task.send]) (Or.inl rfl) (by simp [Task.item])
      · cases hx

end

/-! ## Runs of the network -/

/-- The stack and the calls of every node are in order. -/
structure Settled (w : World) : Prop where
  stacked : ∀ a, Stacked (w.station a).todo
  calls : ∀ a, Calls (w.station a).reliable (w.station a).todo

theorem settled_reachable {ok : World → WorldAction → Prop} {w : World}
    (h : Run.ReachableUnder World.step ok World.Initial w) : Settled w := by
  refine h.invariant_of (J := Honest) (fun w hw => honest_reachable hw) (fun w hinit => ?_)
    (fun w action w' honest _ hw _ hx => ?_)
  · refine ⟨fun a => ?_, fun a => ?_⟩
    · obtain ⟨_, _, _, hs⟩ := hinit.1 a
      rw [hs]
      exact .nil
    · obtain ⟨_, _, _, hs⟩ := hinit.1 a
      rw [hs]
      refine ⟨List.Pairwise.nil, List.nodup_nil, ?_, ?_, ?_, ?_, ?_, ?_, ?_⟩
      all_goals simp [sendsOf]
  · have hnode : ∀ node action' s' events, NodeStep w w' node action' s' events → Settled w' := by
      intro node action' s' events hstep
      have hacks : ∀ ack ∈ (w.station node).reliable.acks, frameKind ack.data = reliableAck :=
        fun ack hack => ((honest.stations node).acks ack hack).1
      refine ⟨fun a => ?_, fun a => ?_⟩
      all_goals
        rw [hstep.station]
        by_cases ha : a = node
      · subst ha
        rw [Function.update_self]
        exact stacked_step (hw.stacked a) hstep.step
      · rw [Function.update_of_ne ha]
        exact hw.stacked a
      · subst ha
        rw [Function.update_self]
        exact calls_step (hw.calls a) (hw.stacked a) hacks hstep.step
      · rw [Function.update_of_ne ha]
        exact hw.calls a
    rcases World.step_cases hx with ⟨duration, _, rfl⟩ | ⟨index, _, rfl⟩ |
      ⟨node, action', s', events, _, hstep⟩ | ⟨index, keep, policy, p, s', events, _, _, hstep⟩
    · exact ⟨hw.stacked, hw.calls⟩
    · exact ⟨hw.stacked, hw.calls⟩
    · exact hnode _ _ _ _ hstep
    · exact hnode _ _ _ _ hstep

end UavBluetooth.Mesh
