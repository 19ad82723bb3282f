import UavBluetooth.Mesh.Bookkeeping
import UavBluetooth.Mesh.Handles

set_option autoImplicit false

/-! # Bounds of the reliability queues

The loop that allocates a sequence ends because at most 32 samples are pending; this has to hold
again after every insertion, and the lock is not held between the allocation of a sequence and
the insertion under it (`limits_reachable`). The queue of acknowledgements holds at most 128. It
holds none twice only as long as no acknowledgement is put back after an equal one was queued
while it was being sent (`queues_bounded_iff`).
-/

namespace UavBluetooth.Mesh

open Config

/-! ## The allocation of a sequence -/

/-- A map with no other keys is no larger. -/
theorem size_le_of_keys {a b : Std.ExtTreeMap UInt16 MeshReliablePending}
    (h : ∀ sequence : UInt16, sequence ∈ a → sequence ∈ b) : a.size ≤ b.size := by
  have hsub : a.keys ⊆ b.keys := by
    intro sequence hmem
    rw [Std.ExtTreeMap.mem_keys] at hmem ⊢
    exact h sequence hmem
  have hnodup : a.keys.Nodup := Std.ExtTreeMap.nodup_keys
  calc a.size = a.keys.length := Std.ExtTreeMap.length_keys.symm
    _ ≤ b.keys.length := (hnodup.subperm hsub).length_le
    _ = b.size := Std.ExtTreeMap.length_keys

/-- The sequence that the loop tries after `i` others. -/
def triedSequence (next : UInt32) (i : Nat) : UInt16 := (next + 1 + UInt32.ofNat i).toUInt16

/-- Fewer tries than sequences do not try one twice, even if the counter wraps. -/
theorem triedSequence_inj {next : UInt32} {i j : Nat} (hi : i < sequenceCount)
    (hj : j < sequenceCount) (h : triedSequence next i = triedSequence next j) : i = j := by
  have hnat := congrArg UInt16.toNat h
  simp only [triedSequence, UInt32.toNat_toUInt16, UInt32.toNat_add, UInt32.toNat_ofNat',
    UInt32.toNat_one] at hnat
  unfold sequenceCount at hi hj
  omega

/-- Among one try more than there are samples one is free. -/
theorem exists_free {pending : Std.ExtTreeMap UInt16 MeshReliablePending} {bound : Nat}
    (hsize : pending.size ≤ bound) (hbound : bound < sequenceCount) (next : UInt32) :
    ∃ i < bound + 1, triedSequence next i ∉ pending := by
  by_contra hnone
  simp only [not_exists, not_and, not_not] at hnone
  have hcard : (Finset.range (bound + 1)).card ≤ pending.keys.toFinset.card := by
    refine Finset.card_le_card_of_injOn (triedSequence next) (fun i hi => ?_) ?_
    · rw [Finset.mem_coe, List.mem_toFinset, Std.ExtTreeMap.mem_keys]
      exact hnone i (Finset.mem_range.mp hi)
    · intro i hi j hj heq
      have hi' := Finset.mem_range.mp (Finset.mem_coe.mp hi)
      have hj' := Finset.mem_range.mp (Finset.mem_coe.mp hj)
      exact triedSequence_inj (by omega) (by omega) heq
  have hkeys : pending.keys.toFinset.card ≤ pending.size := by
    rw [← Std.ExtTreeMap.length_keys]
    exact List.toFinset_card_le _
  rw [Finset.card_range] at hcard
  omega

/-- The loop finds a sequence that is free. -/
theorem nextFreeSequence_of_free {pending : Std.ExtTreeMap UInt16 MeshReliablePending}
    {fuel : Nat} {next : UInt32} (h : ∃ i < fuel, triedSequence next i ∉ pending) :
    ∃ found, nextFreeSequence pending fuel next = some found := by
  induction fuel generalizing next with
  | zero =>
      obtain ⟨i, hi, _⟩ := h
      exact absurd hi (Nat.not_lt_zero i)
  | succ fuel ih =>
      unfold nextFreeSequence
      split
      · rename_i hused
        obtain ⟨i, hi, hfree⟩ := h
        obtain ⟨j, rfl⟩ : ∃ j, i = j + 1 := by
          refine Nat.exists_eq_add_one_of_ne_zero fun hzero => hfree ?_
          rw [hzero, triedSequence]
          simpa using hused
        refine ih ⟨j, by omega, ?_⟩
        have hsame : triedSequence (next + 1) j = triedSequence next (j + 1) := by
          have hone : UInt32.ofNat 1 = 1 := rfl
          rw [triedSequence, triedSequence, UInt32.ofNat_add, hone,
            UInt32.add_comm (UInt32.ofNat j) 1, ← UInt32.add_assoc]
        rw [hsame]
        exact hfree
      · exact ⟨_, rfl⟩

/-- More tries find the same sequence. -/
theorem nextFreeSequence_mono {pending : Std.ExtTreeMap UInt16 MeshReliablePending}
    {fuel fuel' : Nat} {next found : UInt32} (hle : fuel ≤ fuel')
    (h : nextFreeSequence pending fuel next = some found) :
    nextFreeSequence pending fuel' next = some found := by
  induction fuel generalizing next fuel' with
  | zero => cases h
  | succ fuel ih =>
      obtain ⟨more, rfl⟩ : ∃ more, fuel' = more + 1 :=
        Nat.exists_eq_add_one_of_ne_zero (by omega)
      unfold nextFreeSequence at h ⊢
      split at h
      · rename_i hused
        rw [if_pos hused]
        exact ih (by omega) h
      · rename_i hfree
        rw [if_neg hfree]
        exact h

/-- The loop ends within one iteration more than there may be samples, and what it finds is
free. -/
def Allocates (pending : Std.ExtTreeMap UInt16 MeshReliablePending) : Prop :=
  ∀ next : UInt32, ∃ found,
    nextFreeSequence pending (maxPendingMeshSamples + 1) next = some found ∧
      nextFreeSequence pending sequenceCount next = some found ∧ found.toUInt16 ∉ pending

theorem allocates_of_size {pending : Std.ExtTreeMap UInt16 MeshReliablePending}
    (hsize : pending.size ≤ maxPendingMeshSamples) : Allocates pending := by
  intro next
  obtain ⟨found, hfound⟩ := nextFreeSequence_of_free (exists_free hsize (by decide) next)
  exact ⟨found, hfound, nextFreeSequence_mono (by decide) hfound, nextFreeSequence_not_mem hfound⟩

/-! ## Critical sections -/

/-- No sample is entered, and no acknowledgement queued. -/
structure Shrinks (r r' : MeshReliable) : Prop where
  pending : ∀ sequence : UInt16, sequence ∈ r'.pending → sequence ∈ r.pending
  acks : r'.acks.Sublist r.acks

theorem Shrinks.of_eq {r r' : MeshReliable} (hpending : r'.pending = r.pending)
    (hacks : r'.acks = r.acks) : Shrinks r r' :=
  ⟨fun _ h => hpending ▸ h, hacks ▸ List.Sublist.refl _⟩

theorem Bookkeeping.shrinks {r r' : MeshReliable} (h : Bookkeeping r r')
    (hacks : r'.acks = r.acks) : Shrinks r r' :=
  ⟨fun sequence hmem => (h.pending.mem_iff sequence).mp hmem, hacks ▸ List.Sublist.refl _⟩

theorem shrinks_storeLatest (send : Send) (r : MeshReliable) : Shrinks r (storeLatest send r) :=
  .of_eq rfl rfl

theorem shrinks_clear (preserveLatest : Bool) (r : MeshReliable) :
    Shrinks r (clearMeshReliableState preserveLatest r) := by
  refine ⟨fun sequence h => ?_, List.nil_sublist _⟩
  exact absurd h Std.ExtTreeMap.not_mem_empty

theorem shrinks_sweepState (now : Time) (r : MeshReliable) : Shrinks r (sweepState now r) := by
  obtain ⟨done, hloop, _⟩ := sweepLoop_spec now r
  refine ⟨fun sequence hmem => ?_, List.drop_sublist 4 r.acks⟩
  rw [Std.ExtTreeMap.mem_iff_isSome_getElem?, Option.isSome_iff_exists] at hmem ⊢
  obtain ⟨sample, hsample⟩ := hmem
  obtain ⟨before, hbefore, _⟩ := hloop.kept sequence sample hsample
  exact ⟨before, hbefore⟩

theorem shrinks_rollBack (send : Send) (adm : Admission) (r : MeshReliable) :
    Shrinks r (rollBack send adm r) := by
  refine ⟨fun sequence hmem => ?_, ?_⟩
  · rw [rollBack_pending, Std.ExtTreeMap.mem_erase] at hmem
    exact hmem.2
  · unfold rollBack storeLatest
    dsimp only
    split
    · exact List.Sublist.refl _
    · exact List.Sublist.refl _

theorem chooseTargets_acks (now : Time) (members probes : List UInt16) (r : MeshReliable) :
    (chooseTargets now members probes r).2.acks = r.acks := by
  unfold chooseTargets
  split
  · split <;> rfl
  · rfl

theorem arbitrateTurn_acks (now : Time) (send : Send) (addresses members targets : List UInt16)
    (sequence : UInt16) (r : MeshReliable) :
    (arbitrateTurn now send addresses members targets sequence r).1.acks = r.acks := by
  unfold arbitrateTurn
  split
  · dsimp only
    split <;> rfl
  · rfl

theorem arbitrate_acks {now : Time} {send : Send} {addresses members probes : List UInt16}
    {r r' : MeshReliable} {adm : Option Admission}
    (h : arbitrate now send addresses members probes r = some (r', adm)) : r'.acks = r.acks := by
  unfold arbitrate at h
  dsimp only at h
  split at h
  · cases h
    exact chooseTargets_acks now members probes r
  · obtain ⟨next, _, h⟩ := Option.map_eq_some_iff.mp h
    have hturn := arbitrateTurn_acks now send addresses members
      (chooseTargets now members probes r).1 next.toUInt16
      { (chooseTargets now members probes r).2 with nextSequence := next }
    rw [h] at hturn
    exact hturn.trans (chooseTargets_acks now members probes r)

/-- The queue has room for one more sample after the eviction. -/
theorem size_evictOldest {r : MeshReliable} (h : r.pending.size ≤ maxPendingMeshSamples) :
    (evictOldest r).pending.size < maxPendingMeshSamples := by
  unfold evictOldest
  split
  · assumption
  · rename_i hfull
    cases holdest : oldestSample r.pending.toList with
    | none =>
        -- Only an empty queue has no oldest sample.
        have hempty : r.pending.toList = [] := by
          cases hitems : r.pending.toList with
          | nil => rfl
          | cons item rest =>
              rw [hitems, oldestSample] at holdest
              split at holdest
              · cases holdest
              · split at holdest <;> cases holdest
        have hsize : r.pending.size = 0 := by
          rw [← Std.ExtTreeMap.length_toList, hempty]
          rfl
        rw [hsize] at hfull
        exact absurd (by decide) hfull
    | some item =>
        have hmem : item.1 ∈ r.pending := by
          rw [Std.ExtTreeMap.mem_iff_isSome_getElem?,
            Std.ExtTreeMap.mem_toList_iff_getElem?_eq_some.mp (oldestSample_mem holdest)]
          rfl
        show (r.pending.erase item.1).size < maxPendingMeshSamples
        rw [Std.ExtTreeMap.size_erase, if_pos (Std.ExtTreeMap.mem_iff_contains.mp hmem)]
        unfold maxPendingMeshSamples at h hfull ⊢
        omega

theorem size_admitSample (now : Time) (send : Send) (adm : Admission) (data : Bytes)
    {r : MeshReliable} (h : r.pending.size ≤ maxPendingMeshSamples) :
    (admitSample now send adm data r).pending.size ≤ maxPendingMeshSamples :=
  Nat.le_trans Std.ExtTreeMap.size_insertIfNew_le (size_evictOldest h)

theorem evictOldest_acks (r : MeshReliable) : (evictOldest r).acks = r.acks := by
  unfold evictOldest
  split
  · rfl
  · split <;> rfl

theorem evictOldest_mem {r : MeshReliable} {sequence : UInt16}
    (h : sequence ∈ (evictOldest r).pending) : sequence ∈ r.pending := by
  rw [Std.ExtTreeMap.mem_iff_isSome_getElem?, (evictOldest_eq r).2] at h
  rw [Std.ExtTreeMap.mem_iff_isSome_getElem?]
  split at h
  · cases h
  · exact h

/-- Queued once, and never beyond the limit. -/
theorem queueAck_limits (m : ReceivedMessage) {r : MeshReliable}
    (h : r.acks.length ≤ maxQueuedMeshAcks) :
    (queueAck m r).acks.length ≤ maxQueuedMeshAcks ∧
      (r.acks.Nodup → (queueAck m r).acks.Nodup) := by
  unfold queueAck
  dsimp only
  split
  · exact ⟨h, id⟩
  · rename_i hroom
    split
    · exact ⟨h, id⟩
    · rename_i hnew
      refine ⟨?_, fun hnodup => ?_⟩
      · rw [List.length_append, List.length_singleton]
        omega
      · refine List.nodup_append.mpr ⟨hnodup, List.nodup_singleton _, fun ack hack other hother => ?_⟩
        rw [List.mem_singleton.mp hother]
        rintro rfl
        exact hnew hack

/-! ## The executor -/

/-- A task that enters a sample or puts an acknowledgement back. -/
def Task.enters : Task → Bool
  | .admission _ _ => true
  | .requeueAck _ => true
  | _ => false

/-- A quiet task queues no acknowledgement, unless it puts one back. -/
theorem exec_quiet_acks {now : Time} {view : View} {answer : Answer} {s s' : Station}
    {task : Task} {events : List Event} (hquiet : task.quiet = true)
    (henters : task.enters = false)
    (hx : execTask now view answer s task = some (s', events)) :
    s'.reliable.acks = s.reliable.acks := by
  cases task with
  | flush =>
      simp only [execTask] at hx
      split at hx <;> cases hx <;> rfl
  | cancel batch =>
      cases batch with
      | nil =>
          cases hx
          rfl
      | cons handle batch =>
          simp only [execTask] at hx
          split at hx <;> cases hx <;> rfl
  | requeue batch =>
      cases hx
      rfl
  | check check =>
      simp only [execTask] at hx
      split at hx <;> cases hx <;> rfl
  | completed check =>
      cases hx
      exact transferCompleted_acks check s.reliable
  | outbound item =>
      simp only [execTask] at hx
      split at hx
      · split at hx
        · split at hx <;> cases hx <;> rfl
        · cases hx
          rfl
      · cases hx
        rfl
  | outboundBusy item =>
      cases hx
      exact retryTarget_acks _ _ _ _
  | requeueAck item => cases henters
  | remember sequence destination handle =>
      simp only [execTask] at hx
      split at hx <;> cases hx
      · rfl
      · exact rememberMeshTransfer_acks sequence destination handle now s.reliable
  | deferred sequence destination busy =>
      cases hx
      show (retryTarget _ _ _ _).acks = _
      rw [retryTarget_acks]
      split <;> rfl
  | _ => cases hquiet

/-- What a task that enters nothing leaves: the queues shrink, and a sequence that it allocates
is free. -/
structure Allocation (s s' : Station) : Prop where
  reliable : Shrinks s.reliable s'.reliable
  free : ∀ send adm, .admission send adm ∈ s'.todo →
    .admission send adm ∈ s.todo ∨ adm.sequence ∉ s'.reliable.pending

/-- A task with tasks to follow, none of which is an admission. -/
theorem allocation_push {s s' : Station} (tasks : List Task)
    (hreliable : Shrinks s.reliable s'.reliable) (htodo : s'.todo = tasks ++ s.todo)
    (htasks : ∀ send adm, .admission send adm ∉ tasks) : Allocation s s' := by
  refine ⟨hreliable, fun send adm hmem => Or.inl ?_⟩
  rw [htodo] at hmem
  exact (List.mem_append.mp hmem).resolve_left (htasks send adm)

theorem exec_allocation {now : Time} {view : View} {answer : Answer} {s s' : Station}
    {task : Task} {events : List Event} (henters : task.enters = false)
    (hx : execTask now view answer s task = some (s', events)) : Allocation s s' := by
  have hsame : Shrinks s.reliable s.reliable := .of_eq rfl rfl
  by_cases hquiet : task.quiet = true
  · have hstep := exec_quiet hquiet hx
    obtain ⟨tasks, htodo, htasks⟩ := hstep.todo
    refine allocation_push tasks (hstep.reliable.shrinks (exec_quiet_acks hquiet henters hx)) htodo ?_
    intro send adm hmem
    rcases htasks _ hmem with hhandling | ⟨item, _, htransmit⟩
    · cases hhandling
    · cases htransmit
  · cases task with
    | maintain =>
        simp only [execTask] at hx
        split at hx <;> cases hx
        · exact allocation_push [.clear true, .flush, .sweep] hsame rfl (by simp)
        · exact allocation_push [.sweep] hsame rfl (by simp)
    | clear preserveLatest =>
        cases hx
        exact allocation_push [] (shrinks_clear preserveLatest s.reliable) rfl (by simp)
    | sweep =>
        cases hx
        refine allocation_push (sweepTasks now s.reliable) (shrinks_sweepState now s.reliable) rfl
          fun send adm hmem => ?_
        have hbase := base_sweepTasks now s.reliable _ hmem
        cases hbase
    | transmit item =>
        simp only [execTask] at hx
        split at hx
        · cases hx
        · split at hx
          · split at hx <;> cases hx
            · exact allocation_push [.remember _ _ _] hsame rfl (by simp)
            · exact allocation_push [] hsame rfl (by simp)
          · cases hx
            exact allocation_push [.outboundBusy item] hsame rfl (by simp)
          · cases hx
            split
            · exact allocation_push [.requeueAck item] hsame rfl (by simp)
            · exact allocation_push [] hsame rfl (by simp)
          · cases hx
    | enter send =>
        simp only [execTask] at hx
        split at hx
        · cases hx
          exact allocation_push [] hsame rfl (by simp)
        · split at hx <;> cases hx
          · exact allocation_push [.clear true, .flush, .gate send] hsame rfl (by simp)
          · exact allocation_push [.gate send] hsame rfl (by simp)
    | gate send =>
        simp only [execTask] at hx
        split at hx <;> cases hx
        · exact allocation_push [.claim send view.addresses] hsame rfl (by simp)
        · exact allocation_push [] (shrinks_storeLatest send s.reliable) rfl (by simp)
    | claim send addresses =>
        simp only [execTask] at hx
        split at hx
        · cases hx
          exact allocation_push [] hsame rfl (by simp)
        · generalize hs₁ : (if send.resumed = true then s else
            s.withReliable (dropLatest send s.reliable)) = s₁ at hx
          have hdropped : Shrinks s.reliable s₁.reliable ∧ s₁.todo = s.todo := by
            rw [← hs₁]
            split
            · exact ⟨hsame, rfl⟩
            · exact ⟨.of_eq rfl rfl, rfl⟩
          have hgo : ∀ tasks, (∀ send adm, Task.admission send adm ∉ tasks) →
              Allocation s (s₁.push tasks) := fun tasks htasks =>
            allocation_push tasks hdropped.1 (by rw [← hdropped.2]; rfl) htasks
          split at hx
          · split at hx <;> cases hx
            · exact hgo [.occupied send addresses] (by simp)
            · exact hgo [] (by simp)
          · cases hx
            exact hgo [.plain send] (by simp)
    | occupied send addresses =>
        simp only [execTask] at hx
        split at hx <;> cases hx
        · exact allocation_push [] (shrinks_storeLatest send s.reliable) rfl (by simp)
        · exact allocation_push [.arbitrate send addresses] hsame rfl (by simp)
    | arbitrate send addresses =>
        simp only [execTask] at hx
        split at hx
        · cases hx
        · rename_i r harbitrate
          cases hx
          have hkept := (arbitrate_custody harbitrate).1
          exact allocation_push []
            (.of_eq hkept (arbitrate_acks harbitrate)) rfl (by simp)
        · rename_i r adm harbitrate
          cases hx
          obtain ⟨hkept, _, hfree⟩ := arbitrate_custody harbitrate
          refine ⟨.of_eq hkept (arbitrate_acks harbitrate), fun send' adm' hmem => ?_⟩
          rcases List.mem_cons.mp hmem with hsame | hmem
          · cases hsame
            exact Or.inr (hfree adm rfl)
          · exact Or.inl hmem
    | admission send adm => cases henters
    | consume send =>
        cases hx
        exact allocation_push [] (.of_eq rfl rfl) rfl (by simp)
    | fanOut send adm data remaining admitted =>
        cases remaining with
        | nil =>
            simp only [execTask] at hx
            split at hx <;> cases hx
            · exact allocation_push [] hsame rfl (by simp)
            · exact allocation_push [] (shrinks_rollBack send adm s.reliable) rfl
                (by simp)
        | cons destination remaining =>
            simp only [execTask] at hx
            split at hx
            · cases hx
            · split at hx <;> cases hx
              · exact allocation_push [.remember _ _ _, .fanOut _ _ _ _ _] hsame rfl
                  (by simp)
              · exact allocation_push [.deferred _ _ _, .fanOut _ _ _ _ _] hsame rfl
                  (by simp)
              · exact allocation_push [.deferred _ _ _, .fanOut _ _ _ _ _] hsame rfl
                  (by simp)
    | plain send =>
        simp only [execTask] at hx
        split at hx
        · cases hx
        · split at hx <;> cases hx <;> exact allocation_push [] hsame rfl (by simp)
    | install meshApp coordinator =>
        cases hx
        exact allocation_push [] hsame rfl (by simp)
    | _ => exact absurd rfl hquiet

/-! ## The receive thread -/

theorem receiveAck_acks (m : ReceivedMessage) (r : MeshReliable) :
    (receiveAck m r).acks = r.acks := by
  unfold receiveAck
  dsimp only
  split
  · rfl
  · split
    · split <;> rfl
    · rfl

theorem receive_limits (now : Time) (policy : Admittance) (m : ReceivedMessage) {s : Station}
    (h : s.reliable.acks.length ≤ maxQueuedMeshAcks) :
    (s.receive now policy m).1.reliable.acks.length ≤ maxQueuedMeshAcks ∧
      (s.reliable.acks.Nodup → (s.receive now policy m).1.reliable.acks.Nodup) := by
  generalize hr : s.receive now policy m = result
  obtain ⟨s', events⟩ := result
  cases receive_cases hr with
  | ignored => exact ⟨h, id⟩
  | passed => exact ⟨h, id⟩
  | ack _ _ =>
      show (receiveAck m s.reliable).acks.length ≤ _ ∧ (_ → (receiveAck m s.reliable).acks.Nodup)
      rw [receiveAck_acks]
      exact ⟨h, id⟩
  | known seen _ _ =>
      show (if seen.delivered then queueAck m s.reliable else s.reliable).acks.length ≤ _ ∧
        (_ → (if seen.delivered then queueAck m s.reliable else s.reliable).acks.Nodup)
      split
      · exact queueAck_limits m h
      · exact ⟨h, id⟩
  | opened _ _ => exact ⟨h, id⟩

theorem finishData_limits (now : Time) (delivered : Bool) (localAddress : UInt16)
    (members : List UInt16) (m : ReceivedMessage) {r : MeshReliable}
    (h : r.acks.length ≤ maxQueuedMeshAcks) :
    (finishData now delivered localAddress members m r).acks.length ≤ maxQueuedMeshAcks ∧
      (r.acks.Nodup → (finishData now delivered localAddress members m r).acks.Nodup) := by
  unfold finishData
  split
  · exact ⟨h, id⟩
  · rename_i seen _
    split
    · have hqueued := @queueAck_limits m { r with
        seen := r.seen.insert m.seenKey { seen with delivered := true, last := now } } h
      dsimp only
      split
      · exact hqueued
      · exact hqueued
    · exact ⟨h, id⟩

/-! ## One step -/

/-- What limits the queues in every run. -/
structure Limits (s : Station) : Prop where
  stacked : Stacked s.todo
  samples : s.reliable.pending.size ≤ maxPendingMeshSamples
  acks : s.reliable.acks.length ≤ maxQueuedMeshAcks
  free : ∀ send adm, .admission send adm ∈ s.todo → adm.sequence ∉ s.reliable.pending

variable {s s' : Station}

/-- What only shrinks the queues keeps the limits. -/
theorem Limits.shrink (h : Limits s) (hstacked : Stacked s'.todo)
    (hreliable : Shrinks s.reliable s'.reliable)
    (hfree : ∀ send adm, .admission send adm ∈ s'.todo →
      .admission send adm ∈ s.todo ∨ adm.sequence ∉ s'.reliable.pending) : Limits s' where
  stacked := hstacked
  samples := Nat.le_trans (size_le_of_keys hreliable.pending) h.samples
  acks := Nat.le_trans hreliable.acks.length_le h.acks
  free := fun send adm hmem hused =>
    (hfree send adm hmem).elim (fun hold => h.free send adm hold (hreliable.pending _ hused))
      fun hnew => hnew hused

/-- What keeps the tasks and the samples keeps the limits if the acknowledgements are limited. -/
theorem Limits.receive (h : Limits s) (htodo : s'.todo = s.todo)
    (hpending : ∀ sequence : UInt16, sequence ∈ s'.reliable.pending →
      sequence ∈ s.reliable.pending)
    (hacks : s'.reliable.acks.length ≤ maxQueuedMeshAcks) : Limits s' where
  stacked := by
    rw [htodo]
    exact h.stacked
  samples := Nat.le_trans (size_le_of_keys hpending) h.samples
  acks := hacks
  free := fun send adm hmem hused => h.free send adm (htodo ▸ hmem) (hpending _ hused)

/-- The limits in a step of the executor. -/
theorem limits_exec {now : Time} {view : View} {answer : Answer} {task : Task} {todo : List Task}
    {events : List Event} (h : Limits s) (htodo : s.todo = task :: todo)
    (hx : execTask now view answer { s with todo := todo } task = some (s', events)) :
    Limits s' := by
  have hbelow : Stacked (task :: todo) := by
    rw [← htodo]
    exact h.stacked
  have hstacked := stacked_exec (s := { s with todo := todo }) hbelow hx
  cases henters : task.enters with
  | false =>
      have hstep := exec_allocation henters hx
      refine h.shrink hstacked hstep.reliable fun send adm hmem => ?_
      rw [htodo]
      exact (hstep.free send adm hmem).imp_left fun hold => List.mem_cons_of_mem _ hold
  | true =>
      cases task with
      | admission send adm =>
          have hbase := hbelow.below rfl
          cases hx
          refine ⟨hstacked, size_admitSample now send adm _ h.samples, ?_, ?_⟩
          · show (evictOldest s.reliable).acks.length ≤ _
            rw [evictOldest_acks]
            exact h.acks
          · -- No other admission is waiting.
            intro send' adm' hmem
            have hpushed : Task.admission send' adm' ∈ todo := by
              refine (List.mem_append.mp hmem).resolve_left ?_
              split <;> simp
            have hother := hbase _ hpushed
            cases hother
      | requeueAck item =>
          cases hx
          refine ⟨hstacked, ?_, ?_, fun send adm hmem => ?_⟩
          · exact Nat.le_trans (size_le_of_keys fun sequence hused =>
              ((bookkeeping_requeueAck item s.reliable).pending.mem_iff sequence).mp hused) h.samples
          · show (requeueAck item s.reliable).acks.length ≤ _
            unfold requeueAck
            split
            · rename_i hroom
              exact hroom
            · exact h.acks
          · have hkept := (bookkeeping_requeueAck item s.reliable).pending.mem_iff adm.sequence
            have hold : Task.admission send adm ∈ s.todo := by
              rw [htodo]
              exact List.mem_cons_of_mem _ hmem
            exact fun hused => h.free send adm hold (hkept.mp hused)
      | _ => cases henters

/-- **Every step keeps the limits.** -/
theorem Limits.step {now : Time} {a : Action} {events : List Event} (h : Limits s)
    (hx : s.step now a = some (s', events)) : Limits s' := by
  have hstacked := stacked_step h.stacked hx
  have hsame : Shrinks s.reliable s.reliable := .of_eq rfl rfl
  cases a with
  | submit bridge body =>
      simp only [Station.step] at hx
      split at hx <;> cases hx
      exact h.shrink hstacked hsame fun send adm hmem => Or.inl (by simpa [Station.push] using hmem)
  | tick =>
      simp only [Station.step] at hx
      split at hx
      · split at hx <;> cases hx
        exact h.shrink hstacked hsame fun send adm hmem =>
          Or.inl (by simpa [Station.push] using hmem)
      · cases hx
  | exec view answer =>
      simp only [Station.step] at hx
      split at hx
      · cases hx
      · rename_i task todo htodo
        exact limits_exec h htodo hx
  | receive policy message =>
      simp only [Station.step] at hx
      split at hx
      · have hs' : (s.receive now policy message).1 = s' := congrArg Prod.fst (Option.some.inj hx)
        rw [← hs']
        exact h.receive (receive_todo now policy message s)
          (fun sequence hused =>
            ((samplesKept_receive now policy message s).pending.mem_iff sequence).mp hused)
          (receive_limits now policy message h.acks).1
      · cases hx
  | decode delivered =>
      simp only [Station.step] at hx
      split at hx <;> cases hx
      exact h.receive rfl (fun _ hused => hused) h.acks
  | finish view =>
      simp only [Station.step] at hx
      split at hx <;> cases hx
      exact h.receive rfl
        (fun sequence hused => ((samplesKept_finishData _ _ _ _ _ _).pending.mem_iff sequence).mp hused)
        (finishData_limits _ _ _ _ _ h.acks).1
  | requestReset =>
      cases hx
      exact h.receive rfl (fun _ hused => hused) h.acks
  | reconfigure meshApp coordinator =>
      simp only [Station.step] at hx
      split at hx <;> cases hx
      exact h.shrink hstacked hsame fun send adm hmem => Or.inl (by simpa [Station.push] using hmem)

/-! ## Acknowledgements put back -/

/-- The acknowledgement that a step puts back into the queue. -/
def Node.putsBack (n : Node) : NodeAction → Option MeshReliableAck
  | .act (.exec _ _) =>
      match n.station.todo with
      | .requeueAck item :: _ =>
          if n.station.reliable.acks.length < maxQueuedMeshAcks then some item.ack else none
      | _ => none
  | _ => none

/-- No equal acknowledgement has been queued while this one was being sent. -/
def PutsBackNew (n : Node) (a : NodeAction) : Prop :=
  ∀ ack ∈ n.putsBack a, ack ∉ n.station.reliable.acks

instance (n : Node) (a : NodeAction) : Decidable (PutsBackNew n a) :=
  inferInstanceAs (Decidable (∀ ack ∈ n.putsBack a, ack ∉ n.station.reliable.acks))

theorem requeueAck_nodup {item : Outbound} {r : MeshReliable} (h : r.acks.Nodup)
    (hnew : r.acks.length < maxQueuedMeshAcks → item.ack ∉ r.acks) :
    (requeueAck item r).acks.Nodup := by
  unfold requeueAck
  split
  · rename_i hroom
    exact List.nodup_cons.mpr ⟨hnew hroom, h⟩
  · exact h

theorem nodup_exec {now : Time} {view : View} {answer : Answer} {task : Task} {todo : List Task}
    {events : List Event} (h : s.reliable.acks.Nodup)
    (hnew : ∀ item, task = .requeueAck item →
      s.reliable.acks.length < maxQueuedMeshAcks → item.ack ∉ s.reliable.acks)
    (hx : execTask now view answer { s with todo := todo } task = some (s', events)) :
    s'.reliable.acks.Nodup := by
  cases henters : task.enters with
  | false => exact (exec_allocation henters hx).reliable.acks.nodup h
  | true =>
      cases task with
      | admission send adm =>
          cases hx
          show (evictOldest s.reliable).acks.Nodup
          rw [evictOldest_acks]
          exact h
      | requeueAck item =>
          cases hx
          exact requeueAck_nodup h (hnew item rfl)
      | _ => cases henters

/-- A step that puts back at most a new acknowledgement keeps the queue free of duplicates. -/
theorem nodup_step {n n' : Node} {a : NodeAction} (hlimits : Limits n.station)
    (h : n.station.reliable.acks.Nodup) (hnew : PutsBackNew n a) (hstep : n.step a = some n') :
    n'.station.reliable.acks.Nodup := by
  cases a with
  | advance duration =>
      cases hstep
      exact h
  | act action =>
      obtain ⟨⟨s', events⟩, hx, rfl⟩ := Option.map_eq_some_iff.mp hstep
      dsimp only
      cases action with
      | submit bridge body =>
          simp only [Station.step] at hx
          split at hx <;> cases hx
          exact h
      | tick =>
          simp only [Station.step] at hx
          split at hx
          · split at hx <;> cases hx
            exact h
          · cases hx
      | exec view answer =>
          simp only [Station.step] at hx
          split at hx
          · cases hx
          · rename_i task todo htodo
            refine nodup_exec h (fun item htask hroom => hnew item.ack ?_) hx
            simp only [Node.putsBack, htodo, htask, if_pos hroom]
            rfl
      | receive policy message =>
          simp only [Station.step] at hx
          split at hx
          · have hs' : (n.station.receive n.now policy message).1 = s' :=
              congrArg Prod.fst (Option.some.inj hx)
            rw [← hs']
            exact (receive_limits n.now policy message hlimits.acks).2 h
          · cases hx
      | decode delivered =>
          simp only [Station.step] at hx
          split at hx <;> cases hx
          exact h
      | finish view =>
          simp only [Station.step] at hx
          split at hx <;> cases hx
          exact (finishData_limits _ _ _ _ _ hlimits.acks).2 h
      | requestReset =>
          cases hx
          exact h
      | reconfigure meshApp coordinator =>
          simp only [Station.step] at hx
          split at hx <;> cases hx
          exact h

/-! ## Whole runs -/

/-- The queues are bounded, and a sequence can be allocated and used. -/
structure QueuesBounded (s : Station) : Prop where
  samples : s.reliable.pending.size ≤ maxPendingMeshSamples
  acks : s.reliable.acks.length ≤ maxQueuedMeshAcks
  distinct : s.reliable.acks.Nodup
  allocates : Allocates s.reliable.pending
  /-- The sample that is entered next has a sequence of its own. -/
  inserts : ∀ send adm rest, s.todo = .admission send adm :: rest →
    adm.sequence ∉ (evictOldest s.reliable).pending

theorem Limits.bounded (h : Limits s) (hdistinct : s.reliable.acks.Nodup) : QueuesBounded s where
  samples := h.samples
  acks := h.acks
  distinct := hdistinct
  allocates := allocates_of_size h.samples
  inserts := fun send adm rest htodo hused =>
    h.free send adm (by rw [htodo]; exact List.mem_cons_self) (evictOldest_mem hused)

theorem Limits.node {n n' : Node} {a : NodeAction} (h : Limits n.station)
    (hstep : n.step a = some n') : Limits n'.station := by
  cases a with
  | advance duration =>
      cases hstep
      exact h
  | act action =>
      obtain ⟨⟨s', events⟩, hx, rfl⟩ := Option.map_eq_some_iff.mp hstep
      exact h.step hx

theorem limits_initial {n : Node} (h : n.Initial) : Limits n.station := by
  obtain ⟨_, _, _, hs, _⟩ := h
  rw [hs]
  refine ⟨.nil, ?_, Nat.zero_le _, fun send adm hmem => (List.not_mem_nil hmem).elim⟩
  show (∅ : Std.ExtTreeMap UInt16 MeshReliablePending).size ≤ _
  rw [Std.ExtTreeMap.size_empty]
  exact Nat.zero_le _

/-- **The limits hold in every run**, whatever arrives and whatever the daemon answers. -/
theorem limits_reachable {n : Node} (h : Run.Reachable Node.step Node.Initial n) :
    Limits n.station :=
  h.invariant (P := fun n => Limits n.station) (fun _ hinit => limits_initial hinit)
    fun _ _ _ hlimits _ hstep => hlimits.node hstep

/-- Putting back an acknowledgement that is queued makes it queued twice. -/
theorem duplicate_of_not_putsBackNew {n : Node} {a : NodeAction} (h : ¬ PutsBackNew n a) :
    ∃ n', n.step a = some n' ∧ ¬ n'.station.reliable.acks.Nodup := by
  simp only [PutsBackNew, not_forall, not_not] at h
  obtain ⟨ack, hback, hqueued⟩ := h
  unfold Node.putsBack at hback
  split at hback
  · rename_i view answer
    split at hback
    · rename_i item rest htodo
      split at hback
      · rename_i hroom
        cases hback
        let reliable := requeueAck item n.station.reliable
        have hstep : n.step (.act (.exec view answer)) =
            some { n with station := { n.station with reliable := reliable, todo := rest } } := by
          simp only [Node.step, Station.step, htodo, execTask, Option.map_some]
          rfl
        refine ⟨_, hstep, ?_⟩
        show ¬ (requeueAck item n.station.reliable).acks.Nodup
        unfold requeueAck
        rw [if_pos hroom]
        exact fun hnodup => (List.nodup_cons.mp hnodup).1 hqueued
      · cases hback
    · cases hback
  · cases hback

/-- **When the queues are bounded and free of duplicates**: in every state of a run if and only
if no step of it puts back an acknowledgement that is in the queue again. -/
theorem queues_bounded_iff {n₀ : Node} (h₀ : n₀.Initial) (actions : List NodeAction) :
    Run.Guarded Node.step PutsBackNew n₀ actions ↔
      ∀ done, done <+: actions → ∀ n, Run.exec Node.step n₀ done = some n →
        QueuesBounded n.station := by
  have hdistinct : n₀.station.reliable.acks.Nodup := by
    obtain ⟨_, _, _, hs, _⟩ := h₀
    rw [hs]
    exact List.nodup_nil
  refine Run.guarded_iff_prefixes
    (J := fun n => Limits n.station ∧ n.station.reliable.acks.Nodup)
    (P := fun n => QueuesBounded n.station) ⟨limits_initial h₀, hdistinct⟩
    (fun n h => h.1.bounded h.2)
    (fun n a n' h hnew hstep => ⟨h.1.node hstep, nodup_step h.1 h.2 hnew hstep⟩)
    fun n a _ hold => ?_
  obtain ⟨n', hstep, hduplicate⟩ := duplicate_of_not_putsBackNew hold
  exact ⟨n', hstep, fun hbounded => hduplicate hbounded.distinct⟩

/-- A sample of another node. -/
def foreignSample : ReceivedMessage :=
  ⟨0, 2, 1, 0, makeMeshReliableData (bridgePayload reliableChannel [7]) 1 0⟩

/-- The sample is published, and maintenance comes to send its acknowledgement. -/
def acknowledging : List NodeAction :=
  [NodeAction.act (.receive {} foreignSample), .act (.decode true), .act (.finish twoPeers),
    .act .tick] ++ List.replicate 5 (NodeAction.act (.exec twoPeers .ok))

/-- The daemon call throws, and the acknowledgement is put back. -/
def puttingBack : List NodeAction :=
  [.act (.exec twoPeers (.error false)), .act (.exec twoPeers .ok)]

theorem queues_bounded_puttingBack :
    ∃ n, Run.exec Node.step {} (acknowledging ++ puttingBack) = some n ∧
      n.station.reliable.acks = [⟨2, 0, acknowledgementOf foreignSample.data⟩] ∧
      QueuesBounded n.station := by
  generalize hactions : acknowledging ++ puttingBack = actions
  have hinit : Node.Initial {} := ⟨true, true, 0, rfl, rfl⟩
  have hguard : Run.allowed Node.step (fun n a => decide (PutsBackNew n a)) {} actions = true := by
    rw [← hactions]
    decide +kernel
  have hrun : (Run.exec Node.step {} actions).any (fun n =>
      n.station.reliable.acks == [⟨2, 0, acknowledgementOf foreignSample.data⟩]) = true := by
    rw [← hactions]
    decide +kernel
  obtain ⟨n, hn, hacks⟩ := (Option.any_eq_true _ _).mp hrun
  exact ⟨n, hn, eq_of_beq hacks, (queues_bounded_iff hinit actions).mp
    (Run.guarded_of_decide hguard) actions List.prefix_rfl n hn⟩

/-- The sample arrives again while its acknowledgement is being sent. -/
theorem acknowledgement_queued_twice :
    ¬ ∀ n, Run.Reachable Node.step Node.Initial n → QueuesBounded n.station := by
  intro hclaim
  generalize hactions : acknowledging ++ .act (.receive {} foreignSample) :: puttingBack = actions
  have hinit : Node.Initial {} := ⟨true, true, 0, rfl, rfl⟩
  have hrun : (Run.exec Node.step {} actions).any (fun n =>
      !decide n.station.reliable.acks.Nodup) = true := by
    rw [← hactions]
    decide +kernel
  obtain ⟨n, hn, htwice⟩ := (Option.any_eq_true _ _).mp hrun
  have hbounded := hclaim n (Run.Reachable.exec (.start hinit) hn)
  rw [decide_eq_true hbounded.distinct] at htwice
  cases htwice

end UavBluetooth.Mesh
