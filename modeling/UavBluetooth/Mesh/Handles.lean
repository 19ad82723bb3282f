import UavBluetooth.Lib.Custody
import UavBluetooth.Mesh.Stack
import UavBluetooth.Mesh.Sweep

set_option autoImplicit false

/-! # Custody of transfer handles

A native transfer handle is kept in a target of a pending sample, as the primary transfer of a
sample, or in the cancellation queue (a batch that `flush_mesh_transfer_cancellations` has
swapped out still counts as queued). Every critical section relocates handles between these
places, except that `remember_mesh_transfer` writes over whatever its slot held, and a flush
without the daemon application drops its batch. In runs without these two
(`Conserving`) each remembered handle stays in exactly one place until it is released
(`handle_conservation`); `overwritten_handle` is a run with the first.
-/

namespace UavBluetooth.Mesh

open Config

/-! ## Places -/

/-- A slot for a handle: of a target, or of the sample as a whole. -/
abbrev Slot := UInt16 × Option UInt16

def slotOf (sample : MeshReliablePending) : Option UInt16 → Option SendHandle
  | none => sample.primaryTransfer
  | some destination => (sample.awaiting[destination]?).bind (·.transfer)

def slots (pending : Std.ExtTreeMap UInt16 MeshReliablePending) (slot : Slot) :
    Option SendHandle :=
  (pending[slot.1]?).bind fun sample => slotOf sample slot.2

def MeshReliable.custody (r : MeshReliable) : Custody Slot SendHandle :=
  ⟨slots r.pending, r.transferCancellations⟩

/-- The cancellations that a task carries. -/
def Task.batch : Task → List SendHandle
  | .cancel batch => batch
  | .requeue batch => batch
  | _ => []

def Station.custody (s : Station) : Custody Slot SendHandle :=
  ⟨slots s.reliable.pending, s.reliable.transferCancellations ++ s.todo.flatMap Task.batch⟩

/-- The slots of one sample. -/
def sampleSlots (sequence : UInt16) (sample : MeshReliablePending) : List Slot :=
  (sequence, none) :: sample.awaiting.toList.map fun item => (sequence, some item.1)

theorem slots_insert (pending : Std.ExtTreeMap UInt16 MeshReliablePending)
    (sequence : UInt16) (sample : MeshReliablePending) (slot : Slot) :
    slots (pending.insert sequence sample) slot =
      if slot.1 = sequence then slotOf sample slot.2 else slots pending slot := by
  unfold slots
  rw [Std.ExtTreeMap.getElem?_insert]
  by_cases h : slot.1 = sequence
  · simp [h]
  · simp [h, Ne.symm h]

theorem slots_erase (pending : Std.ExtTreeMap UInt16 MeshReliablePending) (sequence : UInt16)
    (slot : Slot) :
    slots (pending.erase sequence) slot =
      if slot.1 = sequence then none else slots pending slot := by
  unfold slots
  rw [Std.ExtTreeMap.getElem?_erase]
  by_cases h : slot.1 = sequence
  · simp [h]
  · simp [h, Ne.symm h]

theorem slots_of_mem {pending : Std.ExtTreeMap UInt16 MeshReliablePending}
    {sequence : UInt16} {sample : MeshReliablePending} (h : pending[sequence]? = some sample)
    (x : Option UInt16) : slots pending (sequence, x) = slotOf sample x := by
  simp [slots, h]

/-- Samples with the same transfers have the same slots. -/
theorem slotOf_same {p p' : MeshReliablePending} (h : SameSample p p') (x : Option UInt16) :
    slotOf p' x = slotOf p x := by
  cases x with
  | none => exact h.primaryTransfer
  | some d =>
      have ht := h.transfers d
      unfold slotOf
      cases hp : p.awaiting[d]? <;> cases hp' : p'.awaiting[d]? <;> simp_all

theorem mem_sampleSlots {sequence : UInt16} {sample : MeshReliablePending} {slot : Slot} :
    slot ∈ sampleSlots sequence sample ↔
      slot.1 = sequence ∧ (slot.2 = none ∨ ∃ d ∈ sample.awaiting, slot.2 = some d) := by
  obtain ⟨s, x⟩ := slot
  simp only [sampleSlots, List.mem_cons, List.mem_map, Prod.mk.injEq]
  constructor
  · rintro (⟨rfl, rfl⟩ | ⟨⟨d, target⟩, hd, rfl, rfl⟩)
    · exact ⟨rfl, Or.inl rfl⟩
    · refine ⟨rfl, Or.inr ⟨d, ?_, rfl⟩⟩
      rw [Std.ExtTreeMap.mem_iff_isSome_getElem?,
        Std.ExtTreeMap.mem_toList_iff_getElem?_eq_some.mp hd]
      rfl
  · rintro ⟨rfl, rfl | ⟨d, hd, rfl⟩⟩
    · exact Or.inl ⟨rfl, rfl⟩
    · rw [Std.ExtTreeMap.mem_iff_isSome_getElem?, Option.isSome_iff_exists] at hd
      obtain ⟨target, htarget⟩ := hd
      exact Or.inr ⟨(d, target), Std.ExtTreeMap.mem_toList_iff_getElem?_eq_some.mpr htarget,
        rfl, rfl⟩

theorem nodup_sampleSlots (sequence : UInt16) (sample : MeshReliablePending) :
    (sampleSlots sequence sample).Nodup := by
  unfold sampleSlots
  rw [List.nodup_cons]
  refine ⟨by simp, ?_⟩
  rw [List.nodup_iff_pairwise_ne, List.pairwise_map]
  refine (Std.ExtTreeMap.distinct_keys_toList (t := sample.awaiting)).imp ?_
  intro a b hab heq
  simp only [Prod.mk.injEq, Option.some.injEq, true_and] at heq
  exact hab (by simp [heq])

/-- The handles in a sample's slots: the primary transfer, then those of the targets. -/
theorem filterMap_sampleSlots {pending : Std.ExtTreeMap UInt16 MeshReliablePending}
    {sequence : UInt16} {sample : MeshReliablePending}
    (h : pending[sequence]? = some sample) :
    (sampleSlots sequence sample).filterMap (slots pending) =
      sample.primaryTransfer.toList ++ targetTransfers sample := by
  have htargets : (sample.awaiting.toList.map fun item => ((sequence, some item.1) : Slot)).filterMap
      (slots pending) = targetTransfers sample := by
    rw [List.filterMap_map]
    apply List.filterMap_congr
    intro item hitem
    have := Std.ExtTreeMap.mem_toList_iff_getElem?_eq_some.mp hitem
    simp [slots_of_mem h, slotOf, this]
  unfold sampleSlots
  have hprimary : slots pending (sequence, none) = sample.primaryTransfer := slots_of_mem h none
  cases hp : sample.primaryTransfer with
  | none =>
      rw [List.filterMap_cons_none (hprimary.trans hp), htargets]
      rfl
  | some x =>
      rw [List.filterMap_cons_some (hprimary.trans hp), htargets]
      rfl

/-- Erasing a sample whose handles are queued is a relocation. -/
theorem relocates_erase {pending : Std.ExtTreeMap UInt16 MeshReliablePending}
    {sequence : UInt16} {sample : MeshReliablePending} {queue queue' : List SendHandle}
    (h : pending[sequence]? = some sample)
    (hq : queue'.Perm (queue ++ (sample.primaryTransfer.toList ++ targetTransfers sample))) :
    Custody.Relocates ⟨slots pending, queue⟩ ⟨slots (pending.erase sequence), queue'⟩ := by
  refine Custody.relocates_release_list _ (nodup_sampleSlots sequence sample) (fun slot => ?_) ?_
  · show slots (pending.erase sequence) slot = _
    rw [slots_erase]
    by_cases hseq : slot.1 = sequence
    · rw [if_pos hseq]
      split
      · rfl
      · rename_i hmem
        rw [mem_sampleSlots, not_and_or, not_or] at hmem
        rcases hmem with hne | ⟨hsome, hnot⟩
        · exact absurd hseq hne
        · -- A slot of no target is empty.
          obtain ⟨s, x⟩ := slot
          simp only at hseq
          subst hseq
          cases x with
          | none => exact absurd rfl hsome
          | some d =>
              show none = slots pending (s, some d)
              have hd : d ∉ sample.awaiting := fun hd => hnot ⟨d, hd, rfl⟩
              rw [slots_of_mem h, slotOf, Std.ExtTreeMap.getElem?_eq_none hd]
              rfl
    · rw [if_neg hseq, if_neg]
      rw [mem_sampleSlots]
      exact fun hmem => hseq hmem.1
  · rw [filterMap_sampleSlots h]
    exact hq

/-- Changing a sample without its transfers is a relocation. -/
theorem relocates_same {pending : Std.ExtTreeMap UInt16 MeshReliablePending}
    {sequence : UInt16} {p p' : MeshReliablePending} {queue : List SendHandle}
    (h : pending[sequence]? = some p) (hsame : ∀ x, slotOf p' x = slotOf p x) :
    Custody.Relocates ⟨slots pending, queue⟩ ⟨slots (pending.insert sequence p'), queue⟩ := by
  refine Custody.relocates_perm (fun slot => ?_) (List.Perm.refl _)
  show slots (pending.insert sequence p') slot = slots pending slot
  obtain ⟨s, x⟩ := slot
  rw [slots_insert]
  by_cases hs : s = sequence
  · subst hs
    rw [if_pos rfl, hsame, slots_of_mem h]
  · rw [if_neg hs]

/-! ## The critical sections -/

theorem relocates_of_pending_eq {r r' : MeshReliable} (hp : r'.pending = r.pending)
    (hq : r'.transferCancellations = r.transferCancellations) :
    Custody.Relocates r.custody r'.custody := by
  unfold MeshReliable.custody
  rw [hp, hq]
  exact Custody.Relocates.refl _

theorem relocates_sweepState (now : Time) (r : MeshReliable) :
    Custody.Relocates r.custody (sweepState now r).custody := by
  obtain ⟨_, h, _⟩ := @sweepLoop_induct now r
    (fun _ acc => Custody.Relocates r.custody ⟨slots acc.pending, acc.transferCancellations⟩)
    (Custody.Relocates.refl _)
    (fun done acc sequence sample h _ _ hsample => by
      refine h.trans ?_
      unfold sweepSample
      simp only
      split
      · rename_i hempty
        have hnone : targetTransfers sample = [] := by
          have : sample.awaiting = ∅ := by simpa using hempty
          rw [targetTransfers, this]
          rfl
        exact relocates_erase hsample (by rw [hnone, List.append_nil])
      · split
        · refine relocates_erase hsample ?_
          rw [List.append_assoc]
          exact List.Perm.append_left _ List.perm_append_comm
        · refine relocates_same hsample (fun x => ?_)
          have hsame : SameSample sample { foldLatest acc.latest sequence sample with
              awaiting := (sweepTargets now sequence
                (foldLatest acc.latest sequence sample) acc).awaiting } := by
            have hf := foldLatest_same acc.latest sequence sample
            have ht := targetSwept_sweepTargets now sequence
              (foldLatest acc.latest sequence sample) acc
            exact ⟨hf.channelKey, fun d => (ht.transfers d).trans (hf.transfers d),
              hf.primaryTransfer, hf.appKeyIndex, hf.elementIndex, hf.turnSuccessor,
              hf.nativeCompletionReleasesChannel, hf.blocksChannel, hf.created⟩
          exact slotOf_same hsame x)
  exact h

theorem relocates_clear (preserveLatest : Bool) (r : MeshReliable) :
    Custody.Relocates r.custody (clearMeshReliableState preserveLatest r).custody := by
  have hitems : ∀ item ∈ r.pending.toList, r.pending[item.1]? = some item.2 :=
    fun item hitem => Std.ExtTreeMap.mem_toList_iff_getElem?_eq_some.mp hitem
  let keys := r.pending.toList.flatMap fun item => sampleSlots item.1 item.2
  have hkeys : ∀ slot, slot ∉ keys → slots r.pending slot = none := by
    intro slot hslot
    obtain ⟨s, x⟩ := slot
    cases hp : r.pending[s]? with
    | none => simp [slots, hp]
    | some sample =>
        rw [slots_of_mem hp]
        have hnot : (s, x) ∉ sampleSlots s sample := fun hmem => hslot
          (List.mem_flatMap.mpr ⟨(s, sample),
            Std.ExtTreeMap.mem_toList_iff_getElem?_eq_some.mpr hp, hmem⟩)
        rw [mem_sampleSlots] at hnot
        cases x with
        | none => exact absurd ⟨rfl, Or.inl rfl⟩ hnot
        | some d =>
            have hd : d ∉ sample.awaiting := fun hd => hnot ⟨rfl, Or.inr ⟨d, hd, rfl⟩⟩
            rw [slotOf, Std.ExtTreeMap.getElem?_eq_none hd]
            rfl
  refine Custody.relocates_release_list keys ?_ (fun slot => ?_) ?_
  · show (r.pending.toList.flatMap fun item => sampleSlots item.1 item.2).Nodup
    rw [List.nodup_flatMap]
    refine ⟨fun item _ => nodup_sampleSlots item.1 item.2, ?_⟩
    refine (Std.ExtTreeMap.distinct_keys_toList (t := r.pending)).imp ?_
    intro a b hab slot ha hb
    rw [mem_sampleSlots] at ha hb
    exact hab (by simp [← ha.1, ← hb.1])
  · show slots (∅ : Std.ExtTreeMap UInt16 MeshReliablePending) slot = _
    have hempty : slots (∅ : Std.ExtTreeMap UInt16 MeshReliablePending) slot = none := by
      simp [slots]
    rw [hempty]
    split
    · rfl
    · exact (hkeys slot ‹_›).symm
  · have hfilter : keys.filterMap (slots r.pending) = r.pending.toList.flatMap
        fun item => item.2.primaryTransfer.toList ++ targetTransfers item.2 := by
      show List.filterMap _ (List.flatMap _ _) = _
      rw [List.filterMap_flatMap]
      apply List.flatMap_congr
      intro item hitem
      exact filterMap_sampleSlots (hitems item hitem)
    show (r.transferCancellations ++ r.pending.toList.flatMap fun item =>
      item.2.primaryTransfer.toList ++ targetTransfers item.2).Perm _
    rw [← hfilter]
    exact List.Perm.refl _

theorem slotOf_insert_awaiting {sample : MeshReliablePending} {destination : UInt16}
    {target target' : MeshReliableTarget} (h : sample.awaiting[destination]? = some target)
    (htransfer : target'.transfer = target.transfer) (x : Option UInt16) :
    slotOf { sample with awaiting := sample.awaiting.insert destination target' } x =
      slotOf sample x := by
  cases x with
  | none => rfl
  | some d =>
      unfold slotOf
      simp only [Std.ExtTreeMap.getElem?_insert]
      split
      · rename_i heq
        have hd : destination = d := by simpa using heq
        rw [← hd, h]
        simp [htransfer]
      · rfl

theorem relocates_retryTarget (sequence destination : UInt16)
    {f : MeshReliableTarget → MeshReliableTarget} (hf : ∀ t, (f t).transfer = t.transfer)
    (r : MeshReliable) :
    Custody.Relocates r.custody (retryTarget sequence destination f r).custody := by
  unfold retryTarget
  split
  · exact Custody.Relocates.refl _
  · rename_i sample hsample
    split
    · exact Custody.Relocates.refl _
    · rename_i target htarget
      exact relocates_same hsample (slotOf_insert_awaiting htarget (hf target))

theorem relocates_outboundBusy (item : Outbound) (now : Time) (r : MeshReliable) :
    Custody.Relocates r.custody (outboundBusy item now r).custody := by
  have hpeer : Custody.Relocates r.custody
      (deferPeer item.destination (now + meshQueueRetryDelay) r).custody :=
    relocates_of_pending_eq rfl rfl
  refine hpeer.trans ?_
  exact relocates_retryTarget _ _ (f := fun target =>
    { target with attempts := target.attempts - 1, retryAt := now + meshQueueRetryDelay })
    (fun _ => rfl) _

theorem relocates_requeueAck (item : Outbound) (r : MeshReliable) :
    Custody.Relocates r.custody (requeueAck item r).custody := by
  unfold requeueAck
  split
  · exact relocates_of_pending_eq rfl rfl
  · exact Custody.Relocates.refl _

theorem relocates_receiveAck (m : ReceivedMessage) (r : MeshReliable) :
    Custody.Relocates r.custody (receiveAck m r).custody := by
  unfold receiveAck
  simp only
  split
  · exact Custody.Relocates.refl _
  · rename_i sample hsample
    split
    · split
      · exact relocates_of_pending_eq rfl rfl
      · rename_i target htarget
        refine Custody.relocates_release
          (k := (meshReliableSequence m.data, some m.source)) (fun slot => ?_) ?_
        · show slots (r.pending.insert _ _) slot = _
          obtain ⟨s, x⟩ := slot
          rw [slots_insert]
          by_cases hs : s = meshReliableSequence m.data
          · subst hs
            simp only [if_true, Prod.mk.injEq, true_and]
            show _ = if x = some m.source then none else slots r.pending _
            rw [slots_of_mem hsample]
            cases x with
            | none => rfl
            | some d =>
                unfold slotOf
                simp only [Std.ExtTreeMap.getElem?_erase, Option.some.injEq]
                by_cases hd : d = m.source
                · simp [hd]
                · simp [hd, Ne.symm hd]
          · simp [hs, MeshReliable.custody]
        · show (r.transferCancellations ++ target.transfer.toList).Perm _
          have : r.custody.slot (meshReliableSequence m.data, some m.source) =
              target.transfer := by
            show slots r.pending _ = _
            rw [slots_of_mem hsample, slotOf, htarget]
            rfl
          rw [this]
          exact List.Perm.refl _
    · exact Custody.Relocates.refl _

theorem relocates_queueAck (m : ReceivedMessage) (r : MeshReliable) :
    Custody.Relocates r.custody (queueAck m r).custody := by
  unfold queueAck
  simp only
  split
  · exact Custody.Relocates.refl _
  · split
    · exact Custody.Relocates.refl _
    · exact relocates_of_pending_eq rfl rfl

theorem relocates_receiveQuery (m : ReceivedMessage) (r : MeshReliable) :
    Custody.Relocates r.custody (receiveQuery m r).custody := by
  unfold receiveQuery
  split
  · split
    · exact relocates_queueAck m r
    · exact Custody.Relocates.refl _
  · exact Custody.Relocates.refl _

theorem relocates_receiveData (now : Time) (m : ReceivedMessage) (r : MeshReliable) :
    Custody.Relocates r.custody (receiveData now m r).1.custody := by
  unfold receiveData
  split
  · simp only
    split
    · exact relocates_queueAck m r
    · exact Custody.Relocates.refl _
  · exact relocates_of_pending_eq rfl rfl

theorem relocates_finishData (now : Time) (delivered : Bool) (localAddress : UInt16)
    (members : List UInt16) (m : ReceivedMessage) (r : MeshReliable) :
    Custody.Relocates r.custody (finishData now delivered localAddress members m r).custody := by
  unfold finishData
  split
  · exact Custody.Relocates.refl _
  · split
    · simp only
      split
      · refine Custody.Relocates.trans ?_ (relocates_queueAck m _)
        exact relocates_of_pending_eq rfl rfl
      · refine Custody.Relocates.trans ?_ (relocates_of_pending_eq (r := queueAck m _) rfl rfl)
        refine Custody.Relocates.trans ?_ (relocates_queueAck m _)
        exact relocates_of_pending_eq rfl rfl
    · exact relocates_of_pending_eq rfl rfl

theorem chooseTargets_custody (now : Time) (members probes : List UInt16) (r : MeshReliable) :
    (chooseTargets now members probes r).2.pending = r.pending ∧
      (chooseTargets now members probes r).2.transferCancellations =
        r.transferCancellations := by
  unfold chooseTargets
  split
  · split <;> exact ⟨rfl, rfl⟩
  · exact ⟨rfl, rfl⟩

theorem arbitrateTurn_custody (now : Time) (send : Send)
    (addresses members targets : List UInt16) (sequence : UInt16) (r : MeshReliable) :
    (arbitrateTurn now send addresses members targets sequence r).1.pending = r.pending ∧
      (arbitrateTurn now send addresses members targets sequence r).1.transferCancellations =
        r.transferCancellations := by
  unfold arbitrateTurn
  split
  · simp only
    split <;> exact ⟨rfl, rfl⟩
  · exact ⟨rfl, rfl⟩

theorem arbitrateTurn_sequence {now : Time} {send : Send}
    {addresses members targets : List UInt16} {sequence : UInt16} {r r' : MeshReliable}
    {adm : Admission}
    (h : arbitrateTurn now send addresses members targets sequence r = (r', some adm)) :
    adm.sequence = sequence := by
  unfold arbitrateTurn at h
  split at h
  · simp only at h
    split at h
    · cases h
      rfl
    · cases h
  · cases h
    rfl

theorem nextFreeSequence_not_mem {pending : Std.ExtTreeMap UInt16 MeshReliablePending}
    {fuel : Nat} {next result : UInt32} (h : nextFreeSequence pending fuel next = some result) :
    result.toUInt16 ∉ pending := by
  induction fuel generalizing next with
  | zero => cases h
  | succ fuel ih =>
      unfold nextFreeSequence at h
      split at h
      · exact ih h
      · rename_i hfree
        cases h
        exact hfree

/-- Arbitration moves no handle, and the sequence it allocates is free. -/
theorem arbitrate_custody {now : Time} {send : Send} {addresses members probes : List UInt16}
    {r r' : MeshReliable} {adm : Option Admission}
    (h : arbitrate now send addresses members probes r = some (r', adm)) :
    r'.pending = r.pending ∧ r'.transferCancellations = r.transferCancellations ∧
      ∀ a, adm = some a → a.sequence ∉ r'.pending := by
  obtain ⟨hp, hq⟩ := chooseTargets_custody now members probes r
  unfold arbitrate at h
  simp only at h
  split at h
  · cases h
    exact ⟨hp, hq, fun a ha => by cases ha⟩
  · obtain ⟨next, hnext, h⟩ := Option.map_eq_some_iff.mp h
    set r₁ : MeshReliable :=
      { (chooseTargets now members probes r).2 with nextSequence := next }
    obtain ⟨hp', hq'⟩ := arbitrateTurn_custody now send addresses members
      (chooseTargets now members probes r).1 next.toUInt16 r₁
    rw [h] at hp' hq'
    refine ⟨hp'.trans hp, hq'.trans hq, fun a ha => ?_⟩
    subst ha
    rw [arbitrateTurn_sequence h]
    have hr' : r'.pending = (chooseTargets now members probes r).2.pending := hp'
    rw [hr']
    exact nextFreeSequence_not_mem hnext

theorem oldestSample_mem {items : List (UInt16 × MeshReliablePending)}
    {item : UInt16 × MeshReliablePending} (h : oldestSample items = some item) :
    item ∈ items := by
  induction items generalizing item with
  | nil => cases h
  | cons a items ih =>
      unfold oldestSample at h
      split at h
      · cases h
        exact List.mem_cons_self
      · rename_i other hother
        split at h
        · cases h
          exact List.mem_cons_of_mem _ (ih hother)
        · cases h
          exact List.mem_cons_self

theorem relocates_evictOldest (r : MeshReliable) :
    Custody.Relocates r.custody (evictOldest r).custody := by
  unfold evictOldest
  split
  · exact Custody.Relocates.refl _
  · split
    · exact Custody.Relocates.refl _
    · rename_i sequence sample hold
      have hsample := Std.ExtTreeMap.mem_toList_iff_getElem?_eq_some.mp (oldestSample_mem hold)
      exact relocates_erase hsample (by
        show (r.transferCancellations ++ _ ++ _).Perm _
        rw [List.append_assoc])

/-- Eviction adds no sample. -/
theorem evictOldest_pending {r : MeshReliable} {sequence : UInt16}
    {sample : MeshReliablePending} (h : (evictOldest r).pending[sequence]? = some sample) :
    r.pending[sequence]? = some sample := by
  unfold evictOldest at h
  split at h
  · exact h
  · split at h
    · exact h
    · simp only [Std.ExtTreeMap.getElem?_erase] at h
      split at h
      · cases h
      · exact h

theorem awaiting_newSample (now : Time) (send : Send) (adm : Admission) (data : Bytes)
    {d : UInt16} {target : MeshReliableTarget}
    (h : (newSample now send adm data).awaiting[d]? = some target) :
    target = freshTarget now := by
  unfold newSample at h
  simp only at h
  have hstart : ∀ (d : UInt16) (target : MeshReliableTarget),
      (∅ : Std.ExtTreeMap UInt16 MeshReliableTarget)[d]? = some target →
        target = freshTarget now := by simp
  generalize (∅ : Std.ExtTreeMap UInt16 MeshReliableTarget) = start at h hstart
  generalize adm.targets = targets at h
  induction targets generalizing start with
  | nil => exact hstart d target h
  | cons peer targets ih =>
      refine ih _ (fun d target h => ?_) h
      rw [Std.ExtTreeMap.getElem?_insertIfNew] at h
      split at h
      · exact (Option.some.inj h).symm
      · exact hstart d target h

/-- A new sample has no handles. -/
theorem slotOf_newSample (now : Time) (send : Send) (adm : Admission) (data : Bytes)
    (x : Option UInt16) : slotOf (newSample now send adm data) x = none := by
  cases x with
  | none => rfl
  | some d =>
      unfold slotOf
      simp only
      cases h : (newSample now send adm data).awaiting[d]? with
      | none => rfl
      | some target =>
          rw [awaiting_newSample now send adm data h]
          rfl

theorem slots_admitSample (now : Time) (send : Send) (adm : Admission) (data : Bytes)
    (r : MeshReliable) (slot : Slot) :
    slots (admitSample now send adm data r).pending slot =
      slots (evictOldest r).pending slot := by
  obtain ⟨s, x⟩ := slot
  unfold admitSample slots
  simp only [Std.ExtTreeMap.getElem?_insertIfNew]
  split
  · rename_i h
    obtain ⟨heq, hnot⟩ := h
    have hs : adm.sequence = s := by simpa using heq
    subst hs
    rw [Std.ExtTreeMap.getElem?_eq_none hnot]
    exact slotOf_newSample now send adm data x
  · rfl

theorem relocates_admitSample (now : Time) (send : Send) (adm : Admission) (data : Bytes)
    (r : MeshReliable) :
    Custody.Relocates r.custody (admitSample now send adm data r).custody :=
  (relocates_evictOldest r).trans
    (Custody.relocates_perm (slots_admitSample now send adm data r) (List.Perm.refl _))

/-- Rolling back a sample without handles is a relocation. -/
theorem relocates_rollBack (send : Send) (adm : Admission) {r : MeshReliable}
    (h : ∀ x, slots r.pending (adm.sequence, x) = none) :
    Custody.Relocates r.custody (rollBack send adm r).custody := by
  have hp : (rollBack send adm r).pending = r.pending.erase adm.sequence := by
    unfold rollBack storeLatest
    simp only
    split <;> rfl
  have hq : (rollBack send adm r).transferCancellations = r.transferCancellations := by
    unfold rollBack storeLatest
    simp only
    split <;> rfl
  refine Custody.relocates_perm (fun slot => ?_) (by unfold MeshReliable.custody; rw [hq])
  show slots (rollBack send adm r).pending slot = slots r.pending slot
  obtain ⟨s, x⟩ := slot
  rw [hp, slots_erase]
  by_cases hs : s = adm.sequence
  · subst hs
    rw [if_pos rfl, h x]
  · rw [if_neg hs]

/-! ## Entering and leaving -/

/-- The slot that `remember_mesh_transfer` writes, if the sample is still there. -/
def rememberSlot (sequence destination : UInt16) (r : MeshReliable) : Option Slot :=
  (r.pending[sequence]?).map fun sample =>
    (sequence, if destination ∈ sample.awaiting then some destination else none)

theorem turnover_remember {sequence destination : UInt16} {handle : SendHandle} {now : Time}
    {r : MeshReliable} {left : SendHandle → Prop} (extra : List SendHandle)
    (h : ∀ slot x, rememberSlot sequence destination r = some slot →
      slots r.pending slot = some x → left x) :
    Custody.Turnover ⟨slots r.pending, r.transferCancellations ++ extra⟩
      ⟨slots (rememberMeshTransfer sequence destination handle now r).pending,
        (rememberMeshTransfer sequence destination handle now r).transferCancellations ++ extra⟩
      (some handle) left := by
  unfold rememberMeshTransfer
  split
  · rename_i sample hsample
    split
    · rename_i target htarget
      have hmem : destination ∈ sample.awaiting := by
        rw [Std.ExtTreeMap.mem_iff_isSome_getElem?, htarget]
        rfl
      refine Custody.turnover_place (k := (sequence, some destination))
        (fun x => h _ x (by simp [rememberSlot, hsample, hmem])) (fun slot => ?_) rfl
      show slots (r.pending.insert _ _) slot = if slot = _ then _ else slots r.pending slot
      obtain ⟨s, x⟩ := slot
      rw [slots_insert]
      by_cases hs : s = sequence
      · subst hs
        rw [if_pos rfl, slots_of_mem hsample]
        cases x with
        | none => simp [slotOf]
        | some d =>
            simp only [slotOf, Std.ExtTreeMap.getElem?_insert, Prod.mk.injEq, Option.some.injEq,
              true_and]
            by_cases hd : d = destination
            · simp [hd]
            · simp [hd, Ne.symm hd]
      · simp [hs]
    · rename_i hnone
      have hmem : destination ∉ sample.awaiting := by
        rw [Std.ExtTreeMap.mem_iff_isSome_getElem?, hnone]
        simp
      refine Custody.turnover_place (k := (sequence, none))
        (fun x => h _ x (by simp [rememberSlot, hsample, hmem])) (fun slot => ?_) rfl
      show slots (r.pending.insert _ _) slot = if slot = _ then _ else slots r.pending slot
      obtain ⟨s, x⟩ := slot
      rw [slots_insert]
      by_cases hs : s = sequence
      · subst hs
        rw [if_pos rfl, slots_of_mem hsample]
        cases x <;> simp [slotOf]
      · simp [hs]
  · refine Custody.turnover_enqueue (fun _ => rfl) ?_
    show ((r.transferCancellations ++ [handle]) ++ extra).Perm _
    rw [List.append_assoc]
    exact List.perm_middle

theorem turnover_completed {check : TransferCheck} {r : MeshReliable}
    {left : SendHandle → Prop} (extra : List SendHandle) (h : left check.handle) :
    Custody.Turnover ⟨slots r.pending, r.transferCancellations ++ extra⟩
      ⟨slots (transferCompleted check r).pending,
        (transferCompleted check r).transferCancellations ++ extra⟩ none left := by
  have hsame := (Custody.Relocates.refl
    (⟨slots r.pending, r.transferCancellations ++ extra⟩ : Custody Slot SendHandle)).turnover left
  unfold transferCompleted
  split
  · exact hsame
  · rename_i sample hsample
    split
    · exact hsame
    · rename_i target htarget
      split
      · rename_i hheld
        have hslot : slots r.pending (check.sequence, some check.destination) =
            some check.handle := by
          rw [slots_of_mem hsample, slotOf, htarget]
          exact hheld
        refine Custody.turnover_remove (k := (check.sequence, some check.destination))
          (fun x hx => ?_) (fun slot => ?_) rfl
        · have hx' : slots r.pending (check.sequence, some check.destination) = some x := hx
          rw [hslot] at hx'
          cases hx'
          exact h
        · show slots (r.pending.insert _ _) slot = if slot = _ then _ else slots r.pending slot
          obtain ⟨s, x⟩ := slot
          rw [slots_insert]
          by_cases hs : s = check.sequence
          · subst hs
            rw [if_pos rfl, slots_of_mem hsample]
            cases x with
            | none => simp [slotOf]
            | some d =>
                simp only [slotOf, Std.ExtTreeMap.getElem?_insert, Prod.mk.injEq,
                  Option.some.injEq, true_and]
                by_cases hd : d = check.destination
                · simp [hd]
                · simp [hd, Ne.symm hd]
          · simp [hs]
      · exact hsame

/-! ## Steps -/

/-- What a task on the executor's stack relies on: an issued handle is not remembered yet, a
completed transfer was released, and a sample without an accepted copy has no handles. -/
def Task.Ready (r : MeshReliable) (log : List Event) : Task → Prop
  | .remember _ _ handle =>
      handle.transfer ≠ 0 → .issued handle ∈ log ∧ .remembered handle ∉ log
  | .completed item => .released item.handle ∈ log
  | .admission _ adm => ∀ x, slots r.pending (adm.sequence, x) = none
  | .fanOut _ adm _ _ false => ∀ x, slots r.pending (adm.sequence, x) = none
  | _ => True

theorem ready_of_base {r : MeshReliable} {log : List Event} {task : Task}
    (h : task.base = true) : task.Ready r log := by
  cases task <;> trivial

theorem Task.Ready.mono {r r' : MeshReliable} {log events : List Event} {task : Task}
    (h : task.Ready r log)
    (hslots : ∀ slot, slots r.pending slot = none → slots r'.pending slot = none)
    (hevents : ∀ x, .remembered x ∉ events) : task.Ready r' (events ++ log) := by
  cases task with
  | remember sequence destination handle =>
      intro hne
      obtain ⟨hissued, hnot⟩ := h hne
      refine ⟨List.mem_append_right _ hissued, fun hmem => ?_⟩
      rcases List.mem_append.mp hmem with hmem | hmem
      · exact hevents handle hmem
      · exact hnot hmem
  | completed check => exact List.mem_append_right _ h
  | admission send adm => exact fun x => hslots _ (h x)
  | fanOut send adm data remaining admitted =>
      cases admitted with
      | true => trivial
      | false => exact fun x => hslots _ (h x)
  | _ => trivial

/-- The handle of a transfer that the daemon has just created. -/
def Answer.transfer : Answer → Option SendHandle
  | .handle h => some h
  | _ => none

/-- The condition for a task to conserve handles: a transfer is remembered where there is none
or one already released, the batch of cancellations is not dropped, and the daemon gives a new
transfer a new handle. -/
def Task.Conserving (log : List Event) (s : Station) (answer : Answer) : Task → Prop
  | .remember sequence destination handle =>
      handle.transfer = 0 ∨ ∀ slot ∈ rememberSlot sequence destination s.reliable,
        ∀ x ∈ slots s.reliable.pending slot, .released x ∈ log
  | .flush => s.meshApp = true ∨ s.reliable.transferCancellations = []
  | .transmit _ => ∀ handle ∈ answer.transfer, handle.transfer = 0 ∨ .issued handle ∉ log
  | .fanOut _ _ _ _ _ => ∀ handle ∈ answer.transfer, handle.transfer = 0 ∨ .issued handle ∉ log
  | _ => True

instance (log : List Event) (s : Station) (answer : Answer) (task : Task) :
    Decidable (task.Conserving log s answer) := by
  unfold Task.Conserving
  split
  · refine @instDecidableOr _ _ inferInstance ?_
    -- look at the one slot, not at all of them
    exact @Option.decidableForallMem _ _ (fun _ => Option.decidableForallMem _) _
  all_goals infer_instance

/-- The condition for a step to conserve handles. -/
def Conserving (n : Node) : NodeAction → Prop
  | .act (.exec _ answer) =>
      ∀ task ∈ n.station.todo.head?, task.Conserving n.log n.station answer
  | _ => True

instance (n : Node) (a : NodeAction) : Decidable (Conserving n a) := by
  unfold Conserving
  split <;> infer_instance

/-- The turnover of a stretch of the executor: only `remember_mesh_transfer` takes a handle in,
and what is given up has been released. -/
structure ExecTurnover (log : List Event) (s : Station) (task : Task) (s' : Station)
    (events : List Event) (entry : Option SendHandle) : Prop where
  turnover : Custody.Turnover { s with todo := task :: s.todo }.custody s'.custody entry
    (fun x => .released x ∈ events.reverse ++ log)
  entered : ∀ x, .remembered x ∈ events ↔ entry = some x
  fresh : ∀ x, entry = some x → .issued x ∈ log ∧ .remembered x ∉ log
  ready : ∀ t ∈ s'.todo, t.Ready s'.reliable (events.reverse ++ log)

/-- A stretch that only relocates handles. -/
theorem execTurnover_of_relocates {log : List Event} {s s' : Station} {task : Task}
    {events : List Event}
    (h : Custody.Relocates { s with todo := task :: s.todo }.custody s'.custody)
    (hevents : ∀ x, .remembered x ∉ events)
    (hready : ∀ t ∈ s.todo, t.Ready s.reliable log) {tasks : List Task}
    (htodo : s'.todo = tasks ++ s.todo)
    (htasks : ∀ t ∈ tasks, t.Ready s'.reliable (events.reverse ++ log)) :
    ∃ entry, ExecTurnover log s task s' events entry := by
  refine ⟨none, h.turnover _, fun x => by simp [hevents x], (fun _ heq => by cases heq), fun t ht => ?_⟩
  rw [htodo] at ht
  rcases List.mem_append.mp ht with ht | ht
  · exact htasks t ht
  · exact (hready t ht).mono h.slot (fun x hx => hevents x (List.mem_reverse.mp hx))

/-- A stretch that changes the reliability state and pushes tasks without handles. -/
theorem relocates_push {s : Station} {r' : MeshReliable} {task : Task} {tasks : List Task}
    {s' : Station} (htodo : s'.todo = tasks ++ s.todo) (hr : s'.reliable = r')
    (h : Custody.Relocates s.reliable.custody r'.custody) (htask : task.batch = [])
    (htasks : tasks.flatMap Task.batch = []) :
    Custody.Relocates { s with todo := task :: s.todo }.custody s'.custody := by
  have hbefore : { s with todo := task :: s.todo }.custody =
      ⟨slots s.reliable.pending,
        s.reliable.transferCancellations ++ s.todo.flatMap Task.batch⟩ := by
    simp [Station.custody, List.flatMap_cons, htask]
  have hafter : s'.custody = ⟨slots r'.pending,
      r'.transferCancellations ++ s.todo.flatMap Task.batch⟩ := by
    simp [Station.custody, htodo, hr, htasks]
  rw [hbefore, hafter]
  exact h.append _

theorem exec_turnover {now : Time} {view : View} {answer : Answer} {s s' : Station}
    {task : Task} {log events : List Event} (hstack : Stacked (task :: s.todo))
    (hready : ∀ t ∈ task :: s.todo, t.Ready s.reliable log)
    (hissued : ∀ x, .remembered x ∈ log → .issued x ∈ log)
    (hok : task.Conserving log s answer)
    (hx : execTask now view answer s task = some (s', events)) :
    ∃ entry, ExecTurnover log s task s' events entry := by
  have hsame : Custody.Relocates s.reliable.custody s.reliable.custody := .refl _
  have hrest : ∀ t ∈ s.todo, t.Ready s.reliable log :=
    fun t ht => hready t (List.mem_cons_of_mem _ ht)
  have hmoved : ∀ (tasks : List Task) (r' : MeshReliable), s'.todo = tasks ++ s.todo →
      s'.reliable = r' → Custody.Relocates s.reliable.custody r'.custody → task.batch = [] →
      tasks.flatMap Task.batch = [] → (∀ x, .remembered x ∉ events) →
      (∀ t ∈ tasks, t.Ready s'.reliable (events.reverse ++ log)) →
      ∃ entry, ExecTurnover log s task s' events entry :=
    fun tasks r' htodo hr h htask htasks hevents =>
      execTurnover_of_relocates (relocates_push htodo hr h htask htasks) hevents hrest htodo
  -- The daemon's new handle is not remembered yet.
  have hnew : ∀ handle before after,
      (∀ h ∈ answer.transfer, h.transfer = 0 ∨ .issued h ∉ log) →
      answer = .handle handle → (∀ x, .remembered x ∉ before) → (∀ x, .remembered x ∉ after) →
      handle.transfer ≠ 0 → .issued handle ∈ before ++ .issued handle :: (after ++ log) ∧
        .remembered handle ∉ before ++ .issued handle :: (after ++ log) := by
    intro handle before after hfresh hanswer hbefore hafter hne
    refine ⟨by simp, fun hmem => ?_⟩
    simp only [List.mem_append, List.mem_cons, reduceCtorEq, false_or] at hmem
    rcases hmem with hmem | hmem | hmem
    · exact hbefore handle hmem
    · exact hafter handle hmem
    · rcases hfresh handle (by rw [hanswer]; rfl) with hzero | hnot
      · exact hne hzero
      · exact hnot (hissued handle hmem)
  cases task with
  | maintain =>
      simp only [execTask] at hx
      split at hx <;> cases hx
      · exact hmoved [.clear true, .flush, .sweep] _ rfl rfl hsame rfl rfl (by simp) (by simp [Task.Ready])
      · exact hmoved [.sweep] _ rfl rfl hsame rfl rfl (by simp) (by simp [Task.Ready])
  | clear preserveLatest =>
      cases hx
      exact hmoved [] _ rfl rfl (relocates_clear preserveLatest s.reliable) rfl rfl (by simp) (by simp)
  | flush =>
      simp only [execTask] at hx
      split at hx <;> cases hx
      · refine execTurnover_of_relocates (Custody.relocates_perm (fun _ => rfl) ?_) (by simp)
          hrest (show _ = [.cancel _] ++ s.todo from rfl) (by simp [Task.Ready])
        show ([] ++ (s.reliable.transferCancellations ++ s.todo.flatMap Task.batch)).Perm _
        exact List.Perm.refl _
      · rename_i happ
        refine hmoved [] _ rfl rfl ?_ rfl rfl (by simp) (by simp)
        have hempty : s.reliable.transferCancellations = [] := by
          rcases hok with h | h
          · exact absurd h happ
          · exact h
        exact relocates_of_pending_eq rfl hempty.symm
  | cancel batch =>
      cases batch with
      | nil =>
          cases hx
          exact hmoved [] _ rfl rfl hsame rfl rfl (by simp) (by simp)
      | cons handle batch =>
          simp only [execTask] at hx
          split at hx <;> cases hx
          · refine ⟨none, Custody.turnover_dequeue (x := handle) (by simp) (fun _ => rfl) ?_,
              by simp, (fun _ heq => by cases heq), ?_⟩
            rotate_left
            · intro t ht
              rcases List.mem_cons.mp ht with rfl | ht
              · trivial
              · exact (hrest t ht).mono (fun _ => id) (by simp)
            show (s.reliable.transferCancellations ++
              ((handle :: batch) ++ s.todo.flatMap Task.batch)).Perm (handle ::
                (s.reliable.transferCancellations ++ (batch ++ s.todo.flatMap Task.batch)))
            exact List.perm_middle
          · exact execTurnover_of_relocates
              (Custody.relocates_perm (fun _ => rfl) (List.Perm.refl _)) (by simp) hrest
              (show _ = [.requeue _] ++ s.todo from rfl) (by simp [Task.Ready])
  | requeue batch =>
      cases hx
      refine execTurnover_of_relocates (Custody.relocates_perm (fun _ => rfl) ?_) (by simp)
        hrest (show _ = [] ++ s.todo from rfl) (by simp)
      show ((s.reliable.transferCancellations ++ batch) ++ s.todo.flatMap Task.batch).Perm
        (s.reliable.transferCancellations ++ (batch ++ s.todo.flatMap Task.batch))
      rw [List.append_assoc]
  | sweep =>
      cases hx
      refine hmoved (sweepTasks now s.reliable) _ rfl rfl (relocates_sweepState now s.reliable)
        rfl ?_ ?_ (fun t ht => ready_of_base (base_sweepTasks now s.reliable t ht))
      · rw [List.flatMap_eq_nil_iff]
        intro t ht
        simp only [sweepTasks, List.mem_append, List.mem_map, List.mem_singleton] at ht
        rcases ht with ((⟨_, _, rfl⟩ | rfl) | ⟨_, _, rfl⟩) | ⟨_, _, rfl⟩ <;> rfl
      · intro x hmem
        simp only [sweepEvents, List.mem_append, List.mem_map, reduceCtorEq, and_false,
          exists_false, false_or] at hmem
        obtain ⟨e, _, he⟩ := hmem
        cases e <;> cases he
  | check check =>
      simp only [execTask] at hx
      split at hx <;> cases hx
      · exact hmoved [] _ rfl rfl hsame rfl rfl (by simp) (by simp)
      · exact hmoved [.completed check] _ rfl rfl hsame rfl rfl (by simp) (by simp [Task.Ready])
      · exact hmoved [] _ rfl rfl hsame rfl rfl (by simp) (by simp)
  | completed check =>
      cases hx
      exact ⟨none, turnover_completed _ (hready _ List.mem_cons_self), by simp,
        (fun _ heq => by cases heq), fun t ht => ready_of_base (hstack.below rfl t ht)⟩
  | outbound item =>
      simp only [execTask] at hx
      split at hx
      · split at hx
        · split at hx <;> cases hx
          · exact hmoved [] _ rfl rfl hsame rfl rfl (by simp) (by simp)
          · exact hmoved [.transmit item] _ rfl rfl hsame rfl rfl (by simp) (by simp [Task.Ready])
          · exact hmoved [] _ rfl rfl hsame rfl rfl (by simp) (by simp)
        · cases hx
          exact hmoved [.transmit item] _ rfl rfl hsame rfl rfl (by simp) (by simp [Task.Ready])
      · cases hx
        exact hmoved [.transmit item] _ rfl rfl hsame rfl rfl (by simp) (by simp [Task.Ready])
  | transmit item =>
      simp only [execTask] at hx
      split at hx
      · cases hx
      · split at hx
        · split at hx <;> cases hx
          · refine hmoved [.remember _ _ _] _ rfl rfl hsame rfl rfl (by simp) ?_
            intro t ht
            rw [List.mem_singleton] at ht
            subst ht
            exact hnew _ [.accepted _ _] [.transmitted _] hok rfl (by simp) (by simp)
          · exact hmoved [] _ rfl rfl hsame rfl rfl (by simp) (by simp)
        · cases hx
          exact hmoved [.outboundBusy item] _ rfl rfl hsame rfl rfl (by simp) (by simp [Task.Ready])
        · cases hx
          have hevents : ∀ (sent : Bool) (x : SendHandle), Event.remembered x ∉
              (if sent = true then [Event.transmitted item.frame] else []) := by
            intro sent x
            cases sent <;> simp
          by_cases hack : item.acknowledgement = true
          · exact hmoved [.requeueAck item] _ (by simp [hack]; rfl) (by simp [hack]; rfl) hsame
              rfl rfl (hevents _) (by simp [Task.Ready])
          · exact hmoved [] _ (by simp [hack]) (by simp [hack]) hsame rfl rfl (hevents _) (by simp)
        · cases hx
  | outboundBusy item =>
      cases hx
      exact hmoved [] _ rfl rfl (relocates_outboundBusy item now s.reliable) rfl rfl (by simp) (by simp)
  | requeueAck item =>
      cases hx
      exact hmoved [] _ rfl rfl (relocates_requeueAck item s.reliable) rfl rfl (by simp) (by simp)
  | remember sequence destination handle =>
      simp only [execTask] at hx
      split at hx
      · cases hx
        exact hmoved [] _ rfl rfl hsame rfl rfl (by simp) (by simp)
      · rename_i hne
        cases hx
        refine ⟨some handle, turnover_remember _ (fun slot x hslot hxs => ?_),
          fun x => by simp [eq_comm], fun x hx => ?_, fun t ht => ?_⟩
        · rcases hok with h | h
          · exact absurd h hne
          · exact List.mem_append_right _ (h slot hslot x hxs)
        · cases hx
          exact hready _ List.mem_cons_self hne
        · rcases hstack.remember_below t ht with hbase | ⟨_, _, _, _, rfl⟩
          · exact ready_of_base hbase
          · trivial
  | enter send =>
      simp only [execTask] at hx
      split at hx
      · cases hx
        exact hmoved [] _ rfl rfl hsame rfl rfl (by simp) (by simp)
      · split at hx <;> cases hx
        · exact hmoved [.clear true, .flush, .gate send] _ rfl rfl hsame rfl rfl (by simp) (by simp [Task.Ready])
        · exact hmoved [.gate send] _ rfl rfl hsame rfl rfl (by simp) (by simp [Task.Ready])
  | gate send =>
      simp only [execTask] at hx
      split at hx <;> cases hx
      · exact hmoved [.claim _ _] _ rfl rfl hsame rfl rfl (by simp) (by simp [Task.Ready])
      · exact hmoved [] _ rfl rfl (relocates_of_pending_eq rfl rfl) rfl rfl (by simp) (by simp)
  | claim send addresses =>
      simp only [execTask] at hx
      split at hx
      · cases hx
        exact hmoved [] _ rfl rfl hsame rfl rfl (by simp) (by simp)
      · generalize hs₁ : (if send.resumed = true then s else
          s.withReliable (dropLatest send s.reliable)) = s₁ at hx
        have htodo : s₁.todo = s.todo := by
          rw [← hs₁]
          split <;> rfl
        have hr : Custody.Relocates s.reliable.custody s₁.reliable.custody := by
          rw [← hs₁]
          split
          · exact hsame
          · exact relocates_of_pending_eq rfl rfl
        split at hx
        · split at hx <;> cases hx
          · exact hmoved [.occupied _ _] _ (congrArg _ htodo) rfl hr rfl rfl (by simp) (by simp [Task.Ready])
          · exact hmoved [] _ htodo rfl hr rfl rfl (by simp) (by simp)
        · cases hx
          exact hmoved [.plain _] _ (congrArg _ htodo) rfl hr rfl rfl (by simp) (by simp [Task.Ready])
  | occupied send addresses =>
      simp only [execTask] at hx
      split at hx <;> cases hx
      · exact hmoved [] _ rfl rfl (relocates_of_pending_eq rfl rfl) rfl rfl (by simp) (by simp)
      · exact hmoved [.arbitrate _ _] _ rfl rfl hsame rfl rfl (by simp) (by simp [Task.Ready])
  | arbitrate send addresses =>
      simp only [execTask] at hx
      split at hx
      · cases hx
      · rename_i r harb
        cases hx
        obtain ⟨hp, hq, _⟩ := arbitrate_custody harb
        exact hmoved [] _ rfl rfl (relocates_of_pending_eq hp hq) rfl rfl (by simp) (by simp)
      · rename_i r adm harb
        cases hx
        obtain ⟨hp, hq, hfree⟩ := arbitrate_custody harb
        refine hmoved [.admission _ _] _ rfl rfl (relocates_of_pending_eq hp hq) rfl rfl (by simp) ?_
        intro t ht
        rw [List.mem_singleton] at ht
        subst ht
        intro x
        show slots r.pending (adm.sequence, x) = none
        unfold slots
        rw [Std.ExtTreeMap.getElem?_eq_none (hfree adm rfl)]
        rfl
  | admission send adm =>
      cases hx
      have hadmission := relocates_admitSample now send adm
        (makeMeshReliableData send.payload adm.sequence view.swarmId) s.reliable
      refine hmoved _ _ rfl rfl hadmission rfl ?_ (by simp) ?_
      · split <;> rfl
      · intro t ht
        have ht' : t = .consume send ∨ t = .fanOut send adm
            (makeMeshReliableData send.payload adm.sequence view.swarmId) adm.targets false := by
          split at ht
          · simpa using ht
          · exact Or.inr (by simpa using ht)
        rcases ht' with rfl | rfl
        · trivial
        · exact fun x => hadmission.slot _ (hready _ List.mem_cons_self x)
  | consume send =>
      cases hx
      exact hmoved [] _ rfl rfl (relocates_of_pending_eq rfl rfl) rfl rfl (by simp) (by simp)
  | fanOut send adm data remaining admitted =>
      cases remaining with
      | nil =>
          simp only [execTask] at hx
          split at hx
          · cases hx
            exact hmoved [] _ rfl rfl hsame rfl rfl (by simp) (by simp)
          · rename_i hadm
            cases hx
            have hfalse : admitted = false := by simpa using hadm
            subst hfalse
            exact hmoved [] _ rfl rfl 
              (relocates_rollBack send adm (hready _ List.mem_cons_self)) rfl rfl (by simp) (by simp)
      | cons destination remaining =>
          have hsend : ∀ log', (Task.fanOut send adm data remaining admitted).Ready
              s.reliable log' := by
            intro log'
            have h := hready _ List.mem_cons_self
            cases admitted with
            | false => exact h
            | true => trivial
          simp only [execTask] at hx
          split at hx
          · cases hx
          · split at hx <;> cases hx
            · refine hmoved [.remember _ _ _, .fanOut _ _ _ _ _] _ rfl rfl hsame rfl rfl
                (by simp) ?_
              intro t ht
              rcases List.mem_cons.mp ht with rfl | ht
              · exact hnew _ [.accepted _ _] [.transmitted _] hok rfl (by simp) (by simp)
              · rw [List.mem_singleton] at ht
                subst ht
                trivial
            · refine hmoved [.deferred _ _ _, .fanOut _ _ _ _ _] _ rfl rfl hsame rfl rfl
                (by simp) ?_
              intro t ht
              rcases List.mem_cons.mp ht with rfl | ht
              · trivial
              · rw [List.mem_singleton] at ht
                subst ht
                exact hsend _
            · refine hmoved [.deferred _ _ _, .fanOut _ _ _ _ _] _ rfl rfl hsame rfl rfl
                (fun x => by split <;> simp) ?_
              intro t ht
              rcases List.mem_cons.mp ht with rfl | ht
              · trivial
              · rw [List.mem_singleton] at ht
                subst ht
                exact hsend _
  | deferred sequence destination busy =>
      cases hx
      refine hmoved [] _ rfl rfl ?_ rfl rfl (by simp) (by simp)
      refine Custody.Relocates.trans ?_ (relocates_retryTarget sequence destination
        (f := fun target => { target with retryAt := now + meshQueueRetryDelay })
        (fun _ => rfl) _)
      split
      · exact relocates_of_pending_eq rfl rfl
      · exact hsame
  | plain send =>
      simp only [execTask] at hx
      split at hx
      · cases hx
      · split at hx <;> cases hx
        · exact hmoved [] _ rfl rfl hsame rfl rfl (by simp) (by simp)
        · exact hmoved [] _ rfl rfl hsame rfl rfl (fun x => by split <;> simp) (by simp)
  | install meshApp coordinator =>
      cases hx
      exact hmoved [] _ rfl rfl hsame rfl rfl (by simp) (by simp)

/-- The handles of a node, against its record. -/
structure HandleInv (n : Node) : Prop where
  ledger : Custody.Ledger n.station.custody (fun x => .remembered x ∈ n.log)
    (fun x => .released x ∈ n.log)
  issued : ∀ x, .remembered x ∈ n.log → .issued x ∈ n.log
  ready : ∀ t ∈ n.station.todo, t.Ready n.station.reliable n.log
  stacked : Stacked n.station.todo

theorem handleInv_initial {n : Node} (h : n.Initial) : HandleInv n := by
  obtain ⟨meshApp, coordinator, nextSequence, hs, hlog⟩ := h
  have hslot : ∀ slot, n.station.custody.slot slot = none := by
    intro slot
    rw [hs]
    simp [Station.custody, slots]
  have hqueue : n.station.custody.queue = [] := by
    rw [hs]
    rfl
  have hheld : ∀ x, ¬ n.station.custody.Held x := by
    rintro x (⟨k, hk⟩ | hmem)
    · rw [hslot] at hk
      cases hk
    · rw [hqueue] at hmem
      cases hmem
  refine ⟨⟨⟨?_, ?_, ?_⟩, fun x hx => absurd hx (hheld x), ?_⟩, ?_, ?_, ?_⟩
  · intro k l x hk
    rw [hslot] at hk
    cases hk
  · intro k x hk
    rw [hslot] at hk
    cases hk
  · rw [hqueue]
    exact List.nodup_nil
  · intro x hx
    rw [hlog] at hx
    cases hx
  · intro x hx
    rw [hlog] at hx
    cases hx
  · rw [hs]
    simp
  · rw [hs]
    exact .nil

/-- A step that relocates handles, and pushes tasks that rely on nothing, keeps the
invariant. -/
theorem HandleInv.relocate {n : Node} {s' : Station} {events : List Event} (h : HandleInv n)
    (hr : Custody.Relocates n.station.custody s'.custody)
    (hevents : ∀ x, .remembered x ∉ events) {l : List Task}
    (htodo : s'.todo = l ++ n.station.todo) (hbase : ∀ t ∈ l, t.base = true)
    (hstack : Stacked s'.todo) :
    HandleInv { n with station := s', log := events.reverse ++ n.log } := by
  refine ⟨h.ledger.turnover (hr.turnover _) (fun _ heq => by cases heq) (fun x => ?_)
    (fun x hx => List.mem_append_right _ hx), fun x hx => ?_, fun t ht => ?_, hstack⟩
  · simp [hevents x]
  · have hx' : .remembered x ∈ n.log := by simpa [hevents x] using hx
    exact List.mem_append_right _ (h.issued x hx')
  · rw [htodo] at ht
    rcases List.mem_append.mp ht with ht | ht
    · exact ready_of_base (hbase t ht)
    · exact (h.ready t ht).mono hr.slot (fun x hx => hevents x (List.mem_reverse.mp hx))

theorem relocates_receive (now : Time) (policy : Admittance) (m : ReceivedMessage)
    (s : Station) :
    Custody.Relocates s.reliable.custody (s.receive now policy m).1.reliable.custody := by
  unfold Station.receive
  split
  · exact .refl _
  · split
    · split
      · exact relocates_receiveAck m s.reliable
      · split
        · exact relocates_receiveQuery m s.reliable
        · split
          · have h := relocates_receiveData now m s.reliable
            simp only
            split <;> exact h
          · exact .refl _
    · split <;> exact .refl _

theorem receive_remembered (now : Time) (policy : Admittance) (m : ReceivedMessage)
    (s : Station) (x : SendHandle) : .remembered x ∉ (s.receive now policy m).2 := by
  unfold Station.receive
  split_ifs <;> first | simp; done | (simp only; split <;> simp)

/-- Every step with the condition keeps the invariant. -/
theorem handleInv_step {n n' : Node} {a : NodeAction} (h : HandleInv n)
    (hok : Conserving n a) (hx : n.step a = some n') : HandleInv n' := by
  cases a with
  | advance duration =>
      cases hx
      exact ⟨h.ledger, h.issued, h.ready, h.stacked⟩
  | act action =>
      obtain ⟨⟨s', events⟩, hstep, rfl⟩ := Option.map_eq_some_iff.mp hx
      have hstack := stacked_step h.stacked hstep
      -- A step that leaves the stack and moves handles only within the reliability state.
      have hreliable : s'.todo = n.station.todo →
          Custody.Relocates n.station.reliable.custody s'.reliable.custody →
          (∀ x, .remembered x ∉ events) →
          HandleInv { n with station := s', log := events.reverse ++ n.log } := by
        intro htodo hr hevents
        refine h.relocate (l := []) ?_ hevents htodo (by simp) hstack
        unfold Station.custody
        rw [htodo]
        exact hr.append _
      cases action with
      | submit bridge body =>
          simp only [Station.step] at hstep
          split at hstep <;> cases hstep
          exact h.relocate (l := [.enter _]) (.refl _) (by simp) rfl (by simp [Task.base])
            hstack
      | tick =>
          simp only [Station.step] at hstep
          split at hstep
          · split at hstep <;> cases hstep
            exact h.relocate (l := [.maintain]) (.refl _) (by simp) rfl
              (by simp [Task.base]) hstack
          · cases hstep
      | exec view answer =>
          simp only [Station.step] at hstep
          split at hstep
          · cases hstep
          · rename_i task todo htodo
            have hready := h.ready
            have hstacked := h.stacked
            have hcustody : { n.station with todo := task :: todo } = n.station := by rw [← htodo]
            rw [htodo] at hready hstacked
            obtain ⟨entry, hturn⟩ := exec_turnover (s := { n.station with todo := todo })
              hstacked hready h.issued (hok task (by rw [htodo]; rfl)) hstep
            have hbefore : Custody.Turnover n.station.custody s'.custody entry
                (fun x => .released x ∈ events.reverse ++ n.log) := by
              have := hturn.turnover
              rwa [show ({ ({ n.station with todo := todo } : Station) with
                todo := task :: todo } : Station) = n.station from hcustody] at this
            refine ⟨h.ledger.turnover hbefore (fun x hx => (hturn.fresh x hx).2) (fun x => ?_)
              (fun x hx => List.mem_append_right _ hx), fun x hx => ?_, hturn.ready, hstack⟩
            · rw [List.mem_append, List.mem_reverse, hturn.entered x, or_comm]
            · rw [List.mem_append, List.mem_reverse, hturn.entered x] at hx
              rcases hx with hx | hx
              · exact List.mem_append_right _ (hturn.fresh x hx).1
              · exact List.mem_append_right _ (h.issued x hx)
      | receive policy message =>
          simp only [Station.step] at hstep
          split at hstep
          · have heq := Option.some.inj hstep
            have hs : (n.station.receive n.now policy message).1 = s' := congrArg Prod.fst heq
            have he : (n.station.receive n.now policy message).2 = events := congrArg Prod.snd heq
            subst hs he
            exact hreliable (receive_todo _ _ _ _) (relocates_receive _ _ _ _)
              (receive_remembered _ _ _ _)
          · cases hstep
      | decode delivered =>
          simp only [Station.step] at hstep
          split at hstep <;> cases hstep
          exact hreliable rfl (.refl _) (fun x => by split <;> simp)
      | finish view =>
          simp only [Station.step] at hstep
          split at hstep <;> cases hstep
          exact hreliable rfl (relocates_finishData _ _ _ _ _ _) (by simp)
      | requestReset =>
          cases hstep
          exact hreliable rfl (.refl _) (by simp)
      | reconfigure meshApp coordinator =>
          simp only [Station.step] at hstep
          split at hstep <;> cases hstep
          exact h.relocate (l := [.clear false, .flush, .install meshApp coordinator])
            (.refl _) (by simp) rfl (by simp [Task.base]) hstack

theorem handleInv_reachable {n : Node}
    (h : Run.ReachableUnder Node.step Conserving Node.Initial n) : HandleInv n :=
  h.invariant (fun _ => handleInv_initial) (fun _ _ _ => handleInv_step)

/-- **Custody of transfer handles.** In every run whose steps conserve handles, a handle that
has been remembered and neither cancelled nor observed finished is in exactly one place. -/
theorem handle_conservation {n : Node}
    (h : Run.ReachableUnder Node.step Conserving Node.Initial n) {handle : SendHandle}
    (hremembered : .remembered handle ∈ n.log) (hheld : .released handle ∉ n.log) :
    n.station.custody.HeldOnce handle :=
  (handleInv_reachable h).ledger.heldOnce hremembered hheld

/-! ## Runs of a sender with two peers -/

/-- The handles in the slots. -/
def slotHandles (pending : Std.ExtTreeMap UInt16 MeshReliablePending) : List SendHandle :=
  pending.toList.flatMap fun item => item.2.primaryTransfer.toList ++ targetTransfers item.2

theorem mem_slotHandles {pending : Std.ExtTreeMap UInt16 MeshReliablePending} {slot : Slot}
    {x : SendHandle} (h : slots pending slot = some x) : x ∈ slotHandles pending := by
  obtain ⟨sample, hsample, hx⟩ := Option.bind_eq_some_iff.mp h
  refine List.mem_flatMap.mpr ⟨(slot.1, sample),
    Std.ExtTreeMap.mem_toList_iff_getElem?_eq_some.mpr hsample, ?_⟩
  rw [List.mem_append, Option.mem_toList]
  cases hd : slot.2 with
  | none =>
      rw [hd] at hx
      exact Or.inl hx
  | some d =>
      rw [hd] at hx
      obtain ⟨target, htarget, hx⟩ := Option.bind_eq_some_iff.mp hx
      exact Or.inr (List.mem_filterMap.mpr ⟨(d, target),
        Std.ExtTreeMap.mem_toList_iff_getElem?_eq_some.mpr htarget, hx⟩)

/-- A sender with two live peers. -/
def twoPeers : View := { addresses := [1], members := [2, 3] }

def reliableChannel : SharedTopicConfig :=
  { transport := .mesh, channelId := 5, meshSwarmReliable := true }

/-- The acknowledgement of the first sample. -/
def firstAck (source : UInt16) : NodeAction :=
  .act (.receive {} ⟨0, source, 1, 0,
    acknowledgementOf (makeMeshReliableData (bridgePayload reliableChannel [7]) 1 0)⟩)

/-- The call, up to the transmissions of the fan-out. -/
def sendUntilFanOut : List NodeAction :=
  .act (.submit reliableChannel [7]) :: List.replicate 7 (.act (.exec twoPeers .ok))

/-- The first peer acknowledges the sample while its transfer is in progress. -/
def ackedRun : List NodeAction :=
  sendUntilFanOut ++
  [NodeAction.act (.exec twoPeers (.handle ⟨11, 1⟩)), .act (.exec twoPeers .ok), firstAck 2,
    .act (.exec twoPeers (.handle ⟨12, 1⟩)), .act (.exec twoPeers .ok)]

theorem handle_conservation_ackedRun :
    ∃ n, Run.ReachableUnder Node.step Conserving Node.Initial n ∧
      n.station.custody.HeldOnce ⟨11, 1⟩ ∧ n.station.custody.HeldOnce ⟨12, 1⟩ := by
  have hrun : ((Run.exec Node.step {} ackedRun).map fun n =>
      [SendHandle.mk 11 1, ⟨12, 1⟩].all fun handle =>
        decide (.remembered handle ∈ n.log) && decide (.released handle ∉ n.log)) =
      some true := by decide +kernel
  obtain ⟨n, hn, hval⟩ := Option.map_eq_some_iff.mp hrun
  simp only [List.all_cons, List.all_nil, Bool.and_true, Bool.and_eq_true,
    decide_eq_true_eq] at hval
  have hinit : Node.Initial {} := ⟨true, true, 0, rfl, rfl⟩
  have hguard : Run.allowed Node.step (fun n a => decide (Conserving n a)) {} ackedRun = true := by
    decide +kernel
  have hreach : Run.ReachableUnder Node.step Conserving Node.Initial n :=
    Run.ReachableUnder.exec (.start hinit) (Run.guarded_of_decide hguard) hn
  exact ⟨n, hreach, handle_conservation hreach hval.1.1 hval.1.2,
    handle_conservation hreach hval.2.1 hval.2.2⟩

/-- Both peers acknowledge before the sender remembers their transfers. -/
def earlyAcksRun : List NodeAction :=
  sendUntilFanOut ++
  [NodeAction.act (.exec twoPeers (.handle ⟨11, 1⟩)), firstAck 2, .act (.exec twoPeers .ok),
    .act (.exec twoPeers (.handle ⟨12, 1⟩)), firstAck 3, .act (.exec twoPeers .ok),
    .act (.exec twoPeers .ok)]

/-- The second early acknowledgement overwrites the handle that the first one left in
`primary_transfer`. -/
theorem overwritten_handle :
    ∃ n handle, Run.Reachable Node.step Node.Initial n ∧ .remembered handle ∈ n.log ∧
      .released handle ∉ n.log ∧ ¬ n.station.custody.HeldOnce handle := by
  have hrun : ((Run.exec Node.step {} earlyAcksRun).map fun n =>
      (decide (.remembered ⟨11, 1⟩ ∈ n.log), decide (.released ⟨11, 1⟩ ∈ n.log),
        slotHandles n.station.reliable.pending, n.station.custody.queue)) =
      some (true, false, [⟨12, 1⟩], []) := by decide +kernel
  obtain ⟨n, hn, hval⟩ := Option.map_eq_some_iff.mp hrun
  simp only [Prod.mk.injEq, decide_eq_true_eq, decide_eq_false_iff_not] at hval
  obtain ⟨hremembered, hreleased, hslots, hqueue⟩ := hval
  have hinit : Node.Initial {} := ⟨true, true, 0, rfl, rfl⟩
  refine ⟨n, ⟨11, 1⟩, Run.Reachable.exec (.start hinit) hn, hremembered, hreleased, ?_⟩
  rintro (⟨⟨slot, hslot, _⟩, _⟩ | ⟨_, hcount⟩)
  · have hmem := mem_slotHandles hslot
    rw [hslots] at hmem
    exact absurd hmem (by decide)
  · rw [hqueue] at hcount
    cases hcount

end UavBluetooth.Mesh
