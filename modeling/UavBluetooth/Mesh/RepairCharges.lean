import UavBluetooth.Mesh.Receipts

set_option autoImplicit false

/-! # Attempts charged to the targets of a sample

Maintenance counts the repairs of a target in `attempts`: the sweep charges a repair when it
schedules it, and the refusal branch takes an attempt back, finding the target by the sequence
of the frame and its destination. Every other critical section leaves the attempts of the
targets it keeps (`ChargesKept`).
-/

namespace UavBluetooth.Mesh

open Config

/-! ## Repairs and the targets they are charged to -/

/-- A sample's sequence and one of its destinations. -/
abbrev Copy := UInt16 × UInt16

/-- A full data frame, rather than a receipt query or an acknowledgement. -/
def Outbound.repairs (item : Outbound) : Bool := !item.acknowledgement && carriesData item.data

/-- Where the refusal branch looks for the sample. -/
def Outbound.copy (item : Outbound) : Copy := (meshReliableSequence item.data, item.destination)

def MeshReliable.target (r : MeshReliable) (c : Copy) : Option MeshReliableTarget :=
  (r.pending[c.1]?).bind fun sample => sample.awaiting[c.2]?

/-- The repairs among outgoing frames. -/
def repairsOf (outbound : List Outbound) : List Copy :=
  (outbound.filter Outbound.repairs).map Outbound.copy

/-- The repair that a task is about to transmit, or that the daemon has just refused. -/
def Task.repair : Task → List Copy
  | .outbound item => repairsOf [item]
  | .transmit item => repairsOf [item]
  | .outboundBusy item => repairsOf [item]
  | _ => []

/-- A task that comes before the last repair of its sweep. -/
def Task.early : Task → Bool
  | .flush => true
  | .cancel _ => true
  | .requeue _ => true
  | .check _ => true
  | .completed _ => true
  | .outbound _ => true
  | .transmit _ => true
  | .outboundBusy _ => true
  | .requeueAck _ => true
  | .remember _ _ _ => true
  | _ => false

/-- No repair is left below a task that is not about one sweep's frames. -/
def Ordered (todo : List Task) : Prop :=
  todo.Pairwise fun a b => a.early = false → b.repair = []

@[simp] theorem repairsOf_nil : repairsOf [] = [] := rfl

@[simp] theorem repairsOf_append (a b : List Outbound) :
    repairsOf (a ++ b) = repairsOf a ++ repairsOf b := by
  simp [repairsOf]

theorem repairsOf_singleton (item : Outbound) :
    repairsOf [item] = if item.repairs then [item.copy] else [] := by
  unfold repairsOf
  split <;> simp [*]

theorem flatMap_repair_outbound (outbound : List Outbound) :
    (outbound.map Task.outbound).flatMap Task.repair = repairsOf outbound := by
  induction outbound with
  | nil => rfl
  | cons item outbound ih =>
      rw [List.map_cons, List.flatMap_cons, ih]
      exact (repairsOf_append [item] outbound).symm

theorem ordered_of_unrepaired {tasks : List Task} (h : ∀ t ∈ tasks, t.repair = []) :
    Ordered tasks :=
  List.pairwise_of_forall_mem_list fun _ _ b hb _ => h b hb

theorem ordered_of_early {tasks : List Task} (h : ∀ t ∈ tasks, t.early = true) :
    Ordered tasks := by
  refine List.pairwise_of_forall_mem_list fun a ha b _ hlate => ?_
  rw [h a ha] at hlate
  cases hlate

theorem ordered_append {a b : List Task} (ha : ∀ t ∈ a, t.early = true)
    (hb : ∀ t ∈ b, t.repair = []) : Ordered (a ++ b) :=
  List.pairwise_append.mpr ⟨ordered_of_early ha, ordered_of_unrepaired hb,
    fun _ _ t ht _ => hb t ht⟩

/-- A task makes way for others: those are about one sweep's frames if it is. -/
theorem Ordered.replace {task : Task} {tasks rest : List Task} (h : Ordered (task :: rest))
    (htasks : Ordered tasks) (hearly : task.early = true → ∀ t ∈ tasks, t.early = true) :
    Ordered (tasks ++ rest) := by
  have hrest := List.pairwise_cons.mp h
  refine List.pairwise_append.mpr ⟨htasks, hrest.2, fun a ha b hb hlate => ?_⟩
  cases htask : task.early with
  | true =>
      rw [hearly htask a ha] at hlate
      cases hlate
  | false => exact hrest.1 b hb htask

/-! ## Samples that keep their charges -/

/-- The same value, for some of its targets, with the attempts they had. -/
structure Uncharged (p p' : MeshReliablePending) : Prop where
  data : p'.data = p.data
  attempts : ∀ (d : UInt16) (target' : MeshReliableTarget), p'.awaiting[d]? = some target' →
    ∃ target, p.awaiting[d]? = some target ∧ target'.attempts = target.attempts

theorem Uncharged.refl (p : MeshReliablePending) : Uncharged p p :=
  ⟨rfl, fun _ target h => ⟨target, h, rfl⟩⟩

/-- Updating a target that is there, but for its attempts. -/
theorem uncharged_insert {p p' : MeshReliablePending} {d : UInt16}
    {target target' : MeshReliableTarget} (hd : p.awaiting[d]? = some target)
    (hawaiting : p'.awaiting = p.awaiting.insert d target') (hdata : p'.data = p.data)
    (hattempts : target'.attempts = target.attempts) :
    Uncharged p p' := by
  refine ⟨hdata, fun e t he => ?_⟩
  rw [hawaiting, Std.ExtTreeMap.getElem?_insert] at he
  split at he
  · rename_i heq
    have hde : d = e := by simpa using heq
    cases he
    exact ⟨target, hde ▸ hd, hattempts⟩
  · exact ⟨t, he, rfl⟩

/-- No sample is entered, and no target of those that stay is charged or refunded. -/
def ChargesKept (r r' : MeshReliable) : Prop :=
  ∀ (q : UInt16) (p' : MeshReliablePending), r'.pending[q]? = some p' →
    ∃ p, r.pending[q]? = some p ∧ Uncharged p p'

section

variable {r r' r'' : MeshReliable} {q : UInt16} {p p' : MeshReliablePending}

theorem chargesKept_of_eq (h : r'.pending = r.pending) : ChargesKept r r' := by
  intro q p hp
  rw [h] at hp
  exact ⟨p, hp, .refl p⟩

theorem ChargesKept.trans (h : ChargesKept r r') (h' : ChargesKept r' r'') :
    ChargesKept r r'' := by
  intro q p'' hp''
  obtain ⟨p', hp', hu'⟩ := h' q p'' hp''
  obtain ⟨p, hp, hu⟩ := h q p' hp'
  refine ⟨p, hp, hu'.data.trans hu.data, fun d t'' ht'' => ?_⟩
  obtain ⟨t', ht', heq'⟩ := hu'.attempts d t'' ht''
  obtain ⟨t, ht, heq⟩ := hu.attempts d t' ht'
  exact ⟨t, ht, heq'.trans heq⟩

theorem chargesKept_insert (hp : r.pending[q]? = some p) (hu : Uncharged p p')
    (hr' : r'.pending = r.pending.insert q p') : ChargesKept r r' := by
  intro s p'' hs
  rw [hr', Std.ExtTreeMap.getElem?_insert] at hs
  split at hs
  · rename_i heq
    have hqs : q = s := by simpa using heq
    cases hs
    exact ⟨p, hqs ▸ hp, hu⟩
  · exact ⟨p'', hs, .refl p''⟩

theorem chargesKept_erase (hr' : r'.pending = r.pending.erase q) : ChargesKept r r' := by
  intro s p hs
  rw [hr', Std.ExtTreeMap.getElem?_erase] at hs
  split at hs
  · cases hs
  · exact ⟨p, hs, .refl p⟩

/-- A target that is still there has the attempts it had. -/
theorem ChargesKept.target (h : ChargesKept r r') {c : Copy} {target' : MeshReliableTarget}
    (ht : r'.target c = some target') :
    ∃ target, r.target c = some target ∧ target'.attempts = target.attempts := by
  obtain ⟨p', hp', ht'⟩ := Option.bind_eq_some_iff.mp ht
  obtain ⟨p, hp, hu⟩ := h c.1 p' hp'
  obtain ⟨target, htarget, heq⟩ := hu.attempts c.2 target' ht'
  exact ⟨target, Option.bind_eq_some_iff.mpr ⟨p, hp, htarget⟩, heq⟩

end

/-! ## Critical sections that keep the charges -/

theorem chargesKept_remember (sequence destination : UInt16) (handle : SendHandle) (now : Time)
    (r : MeshReliable) : ChargesKept r (rememberMeshTransfer sequence destination handle now r) := by
  unfold rememberMeshTransfer
  split
  · rename_i sample hsample
    split
    · rename_i target htarget
      refine chargesKept_insert hsample ?_ rfl
      exact uncharged_insert htarget rfl rfl rfl
    · refine chargesKept_insert hsample ?_ rfl
      exact ⟨rfl, fun _ t h => ⟨t, h, rfl⟩⟩
  · exact chargesKept_of_eq rfl

theorem chargesKept_completed (check : TransferCheck) (r : MeshReliable) :
    ChargesKept r (transferCompleted check r) := by
  unfold transferCompleted
  split
  · exact chargesKept_of_eq rfl
  · rename_i sample hsample
    split
    · exact chargesKept_of_eq rfl
    · rename_i target htarget
      split
      · refine chargesKept_insert hsample ?_ rfl
        exact uncharged_insert htarget rfl rfl rfl
      · exact chargesKept_of_eq rfl

theorem chargesKept_retryTarget {f : MeshReliableTarget → MeshReliableTarget}
    (hf : ∀ target, (f target).attempts = target.attempts) (sequence destination : UInt16)
    (r : MeshReliable) : ChargesKept r (retryTarget sequence destination f r) := by
  unfold retryTarget
  split
  · exact chargesKept_of_eq rfl
  · rename_i sample hsample
    split
    · exact chargesKept_of_eq rfl
    · rename_i target htarget
      refine chargesKept_insert hsample ?_ rfl
      exact uncharged_insert htarget rfl rfl (hf target)

theorem chargesKept_receiveAck (m : ReceivedMessage) (r : MeshReliable) :
    ChargesKept r (receiveAck m r) := by
  unfold receiveAck
  simp only
  split
  · exact chargesKept_of_eq rfl
  · rename_i sample hsample
    split
    · split
      · exact chargesKept_of_eq rfl
      · refine chargesKept_insert hsample ?_ rfl
        refine ⟨rfl, fun d t ht => ?_⟩
        rw [Std.ExtTreeMap.getElem?_erase] at ht
        split at ht
        · cases ht
        · exact ⟨t, ht, rfl⟩
    · exact chargesKept_of_eq rfl

theorem queueAck_pending (m : ReceivedMessage) (r : MeshReliable) :
    (queueAck m r).pending = r.pending := by
  unfold queueAck
  simp only
  split
  · rfl
  · split <;> rfl

theorem chargesKept_receive (now : Time) (policy : Admittance) (m : ReceivedMessage)
    (s : Station) : ChargesKept s.reliable (s.receive now policy m).1.reliable := by
  generalize hr : s.receive now policy m = result
  obtain ⟨s', events⟩ := result
  cases receive_cases hr with
  | ignored => exact chargesKept_of_eq rfl
  | passed => exact chargesKept_of_eq rfl
  | ack _ _ => exact chargesKept_receiveAck m s.reliable
  | known seen _ _ =>
      apply chargesKept_of_eq
      show (if seen.delivered then queueAck m s.reliable else s.reliable).pending = _
      split
      · exact queueAck_pending m s.reliable
      · rfl
  | opened _ _ => exact chargesKept_of_eq rfl

theorem finishData_pending (now : Time) (delivered : Bool) (localAddress : UInt16)
    (members : List UInt16) (m : ReceivedMessage) (r : MeshReliable) :
    (finishData now delivered localAddress members m r).pending = r.pending := by
  unfold finishData
  split
  · rfl
  · rename_i seen _
    split
    · have hq := queueAck_pending m { r with
        seen := r.seen.insert m.seenKey { seen with delivered := true, last := now } }
      simp only
      split <;> exact hq
    · rfl

theorem chargesKept_evictOldest (r : MeshReliable) : ChargesKept r (evictOldest r) :=
  fun _ p hp => ⟨p, evictOldest_pending hp, .refl p⟩

/-! ## The refusal branch -/

theorem target_retryTarget (q d : UInt16) (f : MeshReliableTarget → MeshReliableTarget)
    (r : MeshReliable) (c : Copy) :
    (retryTarget q d f r).target c =
      if c = (q, d) then (r.target c).map f else r.target c := by
  obtain ⟨s, e⟩ := c
  simp only [Prod.mk.injEq]
  cases hsample : r.pending[q]? with
  | none =>
      have hkeep : retryTarget q d f r = r := by simp only [retryTarget, hsample]
      rw [hkeep]
      split
      · rename_i heq
        rw [heq.1, MeshReliable.target, hsample]
        rfl
      · rfl
  | some sample =>
      cases htarget : sample.awaiting[d]? with
      | none =>
          have hkeep : retryTarget q d f r = r := by simp only [retryTarget, hsample, htarget]
          rw [hkeep]
          split
          · rename_i heq
            have hnone : r.target (s, e) = none := by
              rw [heq.1, heq.2]
              simp [MeshReliable.target, hsample, htarget]
            rw [hnone]
            rfl
          · rfl
      | some target =>
          have hput : (retryTarget q d f r).pending = r.pending.insert q
              { sample with awaiting := sample.awaiting.insert d (f target) } := by
            simp only [retryTarget, hsample, htarget]
          unfold MeshReliable.target
          rw [hput, Std.ExtTreeMap.getElem?_insert]
          by_cases hq : q = s
          · subst hq
            by_cases hd : d = e
            · subst hd
              simp [hsample, htarget]
            · simp [hsample, Std.ExtTreeMap.getElem?_insert, hd, Ne.symm hd]
          · simp [hq, Ne.symm hq]

/-- The refusal of a frame takes back an attempt of the target it names, whatever the frame. -/
theorem target_outboundBusy (item : Outbound) (now : Time) (r : MeshReliable) (c : Copy) :
    (outboundBusy item now r).target c =
      if c = item.copy then
        (r.target c).map fun target =>
          { target with attempts := target.attempts - 1, retryAt := now + meshQueueRetryDelay }
      else r.target c :=
  (target_retryTarget _ _ _ _ c).trans rfl

/-! ## What a sweep charges -/

/-- The pending samples are data frames of their sequences, and so is what may be folded into
them. -/
structure Sized (r : MeshReliable) : Prop where
  pending : ∀ (q : UInt16) (p : MeshReliablePending), r.pending[q]? = some p →
    3 < p.data.length ∧ meshReliableSequence p.data = q
  latest : ∀ (key : UInt64) (value : SharedTopicConfig × Bytes),
    r.latest[key]? = some value → 3 ≤ value.2.length

theorem repairs_ackOutbound (acks : List MeshReliableAck) :
    repairsOf (acks.map ackOutbound) = [] := by
  induction acks with
  | nil => rfl
  | cons ack acks ih =>
      rw [List.map_cons, ← List.singleton_append, repairsOf_append, ih]
      rfl

theorem repairs_query {item : Outbound} {data : Bytes} (hlength : 3 < data.length)
    (hdata : item.data = receiptQueryOf data) : item.repairs = false := by
  have hkind : frameKind item.data = reliableReceiptQuery := by
    rw [hdata, receiptQueryOf, frameKind_withKind _ (by simp [reliableAckHeaderBytes]; omega)]
  simp only [Outbound.repairs, carriesData, hkind]
  cases item.acknowledgement <;> rfl

theorem repairs_repairFrame {item : Outbound} {sample : MeshReliablePending} {peer : UInt16}
    (hlength : 3 < sample.data.length) (hack : item.acknowledgement = false)
    (hdata : item.data = repairFrame sample peer) : item.repairs = true := by
  simp only [Outbound.repairs, hack, carriesData, hdata, repairFrame, Bool.not_false,
    Bool.true_and, frameKind_withKind _ hlength]
  split <;> rfl

@[simp] theorem afterCheck_attempts (now : Time) (sample : MeshReliablePending)
    (target : MeshReliableTarget) :
    (afterCheck now sample target).attempts = target.attempts := by
  unfold afterCheck
  split <;> rfl

/-- What one iteration does to the target it visits: nothing that counts, or a repair that is
charged within the budget. -/
inductive TargetCharged (q : UInt16) (acc : TargetSweep) (item : UInt16 × MeshReliableTarget)
    (acc' : TargetSweep) (target' : MeshReliableTarget) : Prop where
  | spared (hrepairs : repairsOf acc'.outbound = repairsOf acc.outbound)
      (hattempts : target'.attempts = item.2.attempts)
  | charged (hrepairs : repairsOf acc'.outbound = repairsOf acc.outbound ++ [(q, item.1)])
      (hattempts : target'.attempts = item.2.attempts + 1) (hbudget : item.2.attempts < 3)

theorem sweepTarget_charged (now : Time) (peers : UInt16 → MeshReliablePeerState) {q : UInt16}
    {sample : MeshReliablePending} {acc : TargetSweep} {item : UInt16 × MeshReliableTarget}
    (hlength : 3 < sample.data.length) (hsequence : meshReliableSequence sample.data = q)
    (hitem : acc.awaiting[item.1]? = some item.2) :
    ∃ target', TargetCharged q acc item (sweepTarget now peers q sample acc item) target' ∧
      ∀ d : UInt16, (sweepTarget now peers q sample acc item).awaiting[d]? =
        if d = item.1 then some target' else acc.awaiting[d]? := by
  have hput : ∀ (target' : MeshReliableTarget) (d : UInt16),
      (acc.awaiting.insert item.1 target')[d]? =
        if d = item.1 then some target' else acc.awaiting[d]? := by
    intro target' d
    rw [Std.ExtTreeMap.getElem?_insert]
    by_cases hd : d = item.1
    · simp [hd]
    · simp [hd, Ne.symm hd]
  unfold sweepTarget
  split
  · -- Six frames are scheduled: the loop is over.
    refine ⟨item.2, .spared rfl rfl, fun d => ?_⟩
    split
    · rename_i hd
      rw [hd, hitem]
    · rfl
  · simp only
    split
    · -- A receipt query.
      refine ⟨_, .spared ?_ ?_, hput _⟩
      rotate_left
      · exact afterCheck_attempts now sample item.2
      rw [repairsOf_append, repairsOf_singleton, repairs_query hlength rfl]
      simp
    · split
      · exact ⟨_, .spared rfl (afterCheck_attempts now sample item.2), hput _⟩
      · -- A repair.
        rename_i hdue
        rw [afterCheck_attempts, not_or, not_or] at hdue
        refine ⟨_, .charged ?_ ?_ (by omega), hput _⟩
        rotate_left
        · exact congrArg (· + 1) (afterCheck_attempts now sample item.2)
        rw [repairsOf_append, repairsOf_singleton, repairs_repairFrame hlength rfl rfl]
        simp [Outbound.copy, repairFrame, hsequence]

/-- The repairs that a loop has scheduled for one copy. -/
def scheduled (outbound : List Outbound) (c : Copy) : Nat := (repairsOf outbound).count c

/-- `k` repairs are charged to the target, within the budget. -/
def Charges (target target' : MeshReliableTarget) (k : Nat) : Prop :=
  target'.attempts = target.attempts + k ∧ (k = 0 ∨ target.attempts + k ≤ 3)

theorem TargetCharged.scheduled_of_ne {q : UInt16} {acc acc' : TargetSweep}
    {item : UInt16 × MeshReliableTarget} {target' : MeshReliableTarget}
    (h : TargetCharged q acc item acc' target') {c : Copy} (hc : c ≠ (q, item.1)) :
    scheduled acc'.outbound c = scheduled acc.outbound c := by
  unfold scheduled
  cases h with
  | spared hrepairs _ => rw [hrepairs]
  | charged hrepairs _ _ => rw [hrepairs, List.count_append, List.count_singleton]; simp [hc.symm]

theorem TargetCharged.charges {q : UInt16} {acc acc' : TargetSweep}
    {item : UInt16 × MeshReliableTarget} {target' : MeshReliableTarget}
    (h : TargetCharged q acc item acc' target') :
    ∃ k, scheduled acc'.outbound (q, item.1) = scheduled acc.outbound (q, item.1) + k ∧
      Charges item.2 target' k := by
  unfold scheduled
  cases h with
  | spared hrepairs hattempts => exact ⟨0, by rw [hrepairs, Nat.add_zero], hattempts, Or.inl rfl⟩
  | charged hrepairs hattempts hbudget =>
      refine ⟨1, ?_, hattempts, Or.inr (by omega)⟩
      rw [hrepairs, List.count_append, List.count_singleton_self]

section

variable (now : Time) (peers : UInt16 → MeshReliablePeerState) {q : UInt16}
  {sample : MeshReliablePending} (hlength : 3 < sample.data.length)
  (hsequence : meshReliableSequence sample.data = q)

include hlength hsequence

/-- An iteration leaves the targets that are still to come. -/
theorem items_after_sweepTarget {acc : TargetSweep} {item : UInt16 × MeshReliableTarget}
    {items : List (UInt16 × MeshReliableTarget)}
    (hdistinct : (item :: items).Pairwise fun a b => a.1 ≠ b.1)
    (hitems : ∀ i ∈ item :: items, acc.awaiting[i.1]? = some i.2) :
    ∀ i ∈ items,
      (sweepTarget now peers q sample acc item).awaiting[i.1]? = some i.2 := by
  intro i hi
  obtain ⟨target', _, hawaiting⟩ := sweepTarget_charged now peers
    hlength hsequence (hitems item List.mem_cons_self)
  rw [hawaiting, if_neg (Ne.symm ((List.pairwise_cons.mp hdistinct).1 i hi))]
  exact hitems i (List.mem_cons_of_mem _ hi)

/-- The loop leaves the copies it does not visit. -/
theorem foldl_sweepTarget_elsewhere (items : List (UInt16 × MeshReliableTarget))
    (acc : TargetSweep) (hdistinct : items.Pairwise fun a b => a.1 ≠ b.1)
    (hitems : ∀ item ∈ items, acc.awaiting[item.1]? = some item.2) {c : Copy}
    (hc : ∀ item ∈ items, c ≠ (q, item.1)) :
    scheduled (items.foldl (sweepTarget now peers q sample) acc).outbound c =
        scheduled acc.outbound c ∧
      (c.1 = q → (items.foldl (sweepTarget now peers q sample) acc).awaiting[c.2]? =
        acc.awaiting[c.2]?) := by
  induction items generalizing acc with
  | nil => exact ⟨rfl, fun _ => rfl⟩
  | cons item items ih =>
      obtain ⟨target', hcharged, hawaiting⟩ := sweepTarget_charged now peers
        hlength hsequence (hitems item List.mem_cons_self)
      have hne := hc item List.mem_cons_self
      obtain ⟨hscheduled, hkept⟩ := ih (sweepTarget now peers q sample acc item)
        (List.pairwise_cons.mp hdistinct).2
        (items_after_sweepTarget now peers hlength hsequence hdistinct hitems)
        (fun i hi => hc i (List.mem_cons_of_mem _ hi))
      refine ⟨hscheduled.trans (hcharged.scheduled_of_ne hne), fun hq => ?_⟩
      have hd : c.2 ≠ item.1 := fun hd => hne (Prod.ext hq hd)
      rw [List.foldl_cons, hkept hq, hawaiting, if_neg hd]

/-- The loop charges a target what it schedules for it. -/
theorem foldl_sweepTarget_charged (items : List (UInt16 × MeshReliableTarget))
    (acc : TargetSweep) (hdistinct : items.Pairwise fun a b => a.1 ≠ b.1)
    (hitems : ∀ item ∈ items, acc.awaiting[item.1]? = some item.2) {d : UInt16}
    {target : MeshReliableTarget} (hmem : (d, target) ∈ items) :
    ∃ k target', scheduled (items.foldl (sweepTarget now peers q sample) acc).outbound (q, d) =
        scheduled acc.outbound (q, d) + k ∧
      (items.foldl (sweepTarget now peers q sample) acc).awaiting[d]? = some target' ∧
      Charges target target' k := by
  induction items generalizing acc with
  | nil => cases hmem
  | cons item items ih =>
      obtain ⟨target', hcharged, hawaiting⟩ := sweepTarget_charged now peers
        hlength hsequence (hitems item List.mem_cons_self)
      have hrest := items_after_sweepTarget now peers hlength hsequence
        hdistinct hitems
      have hlater := List.pairwise_cons.mp hdistinct
      rcases List.mem_cons.mp hmem with rfl | hmem
      · -- This is the visit; the rest of the loop goes to other targets.
        obtain ⟨k, hk, hcharges⟩ := hcharged.charges
        obtain ⟨hscheduled, hkept⟩ := foldl_sweepTarget_elsewhere now peers
          hlength hsequence items _ hlater.2 hrest (c := (q, d))
          (fun i hi heq => hlater.1 i hi (Prod.ext_iff.mp heq).2)
        refine ⟨k, target', hscheduled.trans hk, ?_, hcharges⟩
        rw [List.foldl_cons, hkept rfl, hawaiting, if_pos rfl]
      · obtain ⟨k, t', hk, ht', hcharges⟩ := ih _ hlater.2 hrest hmem
        have hne : (q, d) ≠ (q, item.1) :=
          fun heq => hlater.1 _ hmem (Prod.ext_iff.mp heq).2.symm
        exact ⟨k, t', by rw [List.foldl_cons, hk, hcharged.scheduled_of_ne hne], ht', hcharges⟩

end

/-- The targets of one sample, swept: each is charged what is scheduled for it. -/
theorem sweepTargets_charged (now : Time) {q : UInt16} {sample : MeshReliablePending}
    (hlength : 3 < sample.data.length) (hsequence : meshReliableSequence sample.data = q)
    (acc : Sweep) :
    (∀ c : Copy, c.1 ≠ q ∨ sample.awaiting[c.2]? = none →
      scheduled (sweepTargets now q sample acc).outbound c = scheduled acc.outbound c) ∧
    (∀ (d : UInt16) (target : MeshReliableTarget), sample.awaiting[d]? = some target →
      ∃ k target', scheduled (sweepTargets now q sample acc).outbound (q, d) =
          scheduled acc.outbound (q, d) + k ∧
        (sweepTargets now q sample acc).awaiting[d]? = some target' ∧
        Charges target target' k) ∧
    ∀ d : UInt16, sample.awaiting[d]? = none → (sweepTargets now q sample acc).awaiting[d]? = none := by
  have hdistinct : sample.awaiting.toList.Pairwise fun a b => a.1 ≠ b.1 := by
    refine (Std.ExtTreeMap.distinct_keys_toList (t := sample.awaiting)).imp fun {a b} h => ?_
    simpa using h
  have hmem : ∀ {d : UInt16} {target : MeshReliableTarget},
      (d, target) ∈ sample.awaiting.toList ↔ sample.awaiting[d]? = some target :=
    Std.ExtTreeMap.mem_toList_iff_getElem?_eq_some
  have hitems : ∀ item ∈ sample.awaiting.toList,
      sample.awaiting[item.1]? = some item.2 := fun item h => hmem.mp h
  have helsewhere : ∀ c : Copy, c.1 ≠ q ∨ sample.awaiting[c.2]? = none →
      ∀ item ∈ sample.awaiting.toList, c ≠ (q, item.1) := by
    rintro c hc item hitem rfl
    rcases hc with hq | hnone
    · exact hq rfl
    · rw [hitems item hitem] at hnone
      cases hnone
  refine ⟨fun c hc => ?_, fun d target hd => ?_, fun d hd => ?_⟩
  · exact (foldl_sweepTarget_elsewhere _ _ hlength hsequence _ _ hdistinct hitems
      (helsewhere c hc)).1
  · exact foldl_sweepTarget_charged _ _ hlength hsequence _ _ hdistinct hitems (hmem.mpr hd)
  · have hkept := (foldl_sweepTarget_elsewhere now
      (fun peer => acc.peers[peer]?.getD {}) hlength hsequence _
      ⟨sample.awaiting, acc.outbound, acc.checks, acc.scheduledRepairs⟩ hdistinct hitems
      (helsewhere (q, d) (Or.inr hd))).2 rfl
    exact hkept.trans hd

/-- The loop over the samples: a target is charged what is scheduled for it, and nothing is
scheduled beyond the budget. -/
structure SweepCharged (r : MeshReliable) (done : List UInt16) (acc : Sweep) : Prop where
  latest : ∀ (key : UInt64) (value : SharedTopicConfig × Bytes),
    acc.latest[key]? = some value → r.latest[key]? = some value
  sized : ∀ (q : UInt16) (p : MeshReliablePending), acc.pending[q]? = some p →
    3 < p.data.length ∧ meshReliableSequence p.data = q
  unvisited : ∀ c : Copy, c.1 ∉ done → scheduled acc.outbound c = 0
  bounded : ∀ c : Copy, scheduled acc.outbound c = 0 ∨
    ∃ target, r.target c = some target ∧ target.attempts + scheduled acc.outbound c ≤ 3
  charged : ∀ (q : UInt16) (p' : MeshReliablePending), acc.pending[q]? = some p' →
    ∃ p, r.pending[q]? = some p ∧ ∀ (d : UInt16) (target' : MeshReliableTarget),
      p'.awaiting[d]? = some target' → ∃ target, p.awaiting[d]? = some target ∧
        target'.attempts = target.attempts + scheduled acc.outbound (q, d)

theorem SweepCharged.drop {r : MeshReliable} {done : List UInt16} {acc acc' : Sweep}
    {q : UInt16} (h : SweepCharged r done acc) (hlatest : acc'.latest = acc.latest)
    (hpending : acc'.pending = acc.pending.erase q) (houtbound : acc'.outbound = acc.outbound) :
    SweepCharged r (q :: done) acc' := by
  have hsub : ∀ (s : UInt16) (p : MeshReliablePending), acc'.pending[s]? = some p →
      acc.pending[s]? = some p := by
    intro s p hs
    rw [hpending, Std.ExtTreeMap.getElem?_erase] at hs
    split at hs
    · cases hs
    · exact hs
  constructor
  · rw [hlatest]
    exact h.latest
  · exact fun s p hs => h.sized s p (hsub s p hs)
  · intro c hc
    rw [houtbound]
    exact h.unvisited c (fun hmem => hc (List.mem_cons_of_mem _ hmem))
  · rw [houtbound]
    exact h.bounded
  · rw [houtbound]
    exact fun s p hs => h.charged s p (hsub s p hs)

theorem foldLatest_sized {latest : Std.ExtTreeMap UInt64 (SharedTopicConfig × Bytes)}
    {q : UInt16} {sample : MeshReliablePending}
    (hlatest : ∀ (key : UInt64) (value : SharedTopicConfig × Bytes),
      latest[key]? = some value → 3 ≤ value.2.length)
    (hsample : 3 < sample.data.length ∧ meshReliableSequence sample.data = q) :
    3 < (foldLatest latest q sample).data.length ∧
      meshReliableSequence (foldLatest latest q sample).data = q ∧
      (foldLatest latest q sample).awaiting = sample.awaiting := by
  unfold foldLatest
  split
  · rename_i bridge payload hvalue
    exact ⟨length_makeMeshReliableData _ _ _,
      meshReliableSequence_make _ _ _ (hlatest _ _ hvalue), rfl⟩
  · exact ⟨hsample.1, hsample.2, rfl⟩

theorem SweepCharged.serve {r : MeshReliable} {done : List UInt16} {acc acc' : Sweep}
    {now : Time} {q : UInt16} {sample folded : MeshReliablePending} {key : UInt64}
    (h : SweepCharged r done acc) (hfresh : q ∉ done) (hr : r.pending[q]? = some sample)
    (hlength : 3 < folded.data.length) (hsequence : meshReliableSequence folded.data = q)
    (hawaiting : folded.awaiting = sample.awaiting)
    (hlatest : acc'.latest = acc.latest.erase key)
    (hpending : acc'.pending = acc.pending.insert q
      { folded with awaiting := (sweepTargets now q folded acc).awaiting })
    (houtbound : acc'.outbound = (sweepTargets now q folded acc).outbound) :
    SweepCharged r (q :: done) acc' := by
  obtain ⟨helsewhere, hvisit, hgone⟩ := sweepTargets_charged now hlength hsequence acc
  have hput : ∀ s : UInt16, acc'.pending[s]? =
      if s = q then some { folded with awaiting := (sweepTargets now q folded acc).awaiting }
      else acc.pending[s]? := by
    intro s
    rw [hpending, Std.ExtTreeMap.getElem?_insert]
    by_cases hs : s = q
    · simp [hs]
    · simp [hs, Ne.symm hs]
  -- Nothing was scheduled for the sample before.
  have hzero : ∀ d : UInt16, scheduled acc.outbound (q, d) = 0 :=
    fun d => h.unvisited (q, d) hfresh
  have htarget : ∀ d : UInt16, r.target (q, d) = folded.awaiting[d]? := by
    intro d
    rw [hawaiting, MeshReliable.target, hr]
    rfl
  constructor
  · intro key' value hvalue
    rw [hlatest, Std.ExtTreeMap.getElem?_erase] at hvalue
    split at hvalue
    · cases hvalue
    · exact h.latest key' value hvalue
  · intro s p hs
    rw [hput] at hs
    split at hs
    · rename_i heq
      cases hs
      exact ⟨hlength, heq ▸ hsequence⟩
    · exact h.sized s p hs
  · intro c hc
    rw [List.mem_cons, not_or] at hc
    rw [houtbound, helsewhere c (Or.inl hc.1)]
    exact h.unvisited c hc.2
  · rintro ⟨s, d⟩
    rw [houtbound]
    by_cases hs : s = q
    · subst hs
      cases hd : folded.awaiting[d]? with
      | none =>
          left
          rw [helsewhere (s, d) (Or.inr hd)]
          exact hzero d
      | some target =>
          obtain ⟨k, target', hk, _, hcharges⟩ := hvisit d target hd
          rw [hk, hzero, Nat.zero_add]
          exact hcharges.2.imp_right fun hle => ⟨target, (htarget d).trans hd, hle⟩
    · rw [helsewhere (s, d) (Or.inl hs)]
      exact h.bounded (s, d)
  · intro s p' hp'
    rw [hput] at hp'
    split at hp'
    · rename_i heq
      subst heq
      cases hp'
      refine ⟨sample, hr, fun d target' ht' => ?_⟩
      have ht : (sweepTargets now s folded acc).awaiting[d]? = some target' := ht'
      cases hd : folded.awaiting[d]? with
      | none =>
          rw [hgone d hd] at ht
          cases ht
      | some target =>
          obtain ⟨k, target'', hk, ht'', hcharges⟩ := hvisit d target hd
          rw [ht] at ht''
          cases ht''
          refine ⟨target, hawaiting ▸ hd, ?_⟩
          rw [houtbound, hk, hzero, Nat.zero_add]
          exact hcharges.1
    · rename_i hs
      obtain ⟨p, hp, hp''⟩ := h.charged s p' hp'
      refine ⟨p, hp, fun d target' ht' => ?_⟩
      rw [houtbound, helsewhere (s, d) (Or.inl hs)]
      exact hp'' d target' ht'

/-- **The sweep charges each target the repairs it schedules for it**, three at most. -/
theorem sweepLoop_charged (now : Time) {r : MeshReliable} (hr : Sized r) :
    ∃ done, SweepCharged r done (sweepLoop now r) := by
  refine (sweepLoop_induct (P := SweepCharged r) ?_ ?_).imp fun _ h => h.1
  · have hacks : ∀ c : Copy, scheduled ((r.acks.take 4).map ackOutbound) c = 0 := by
      intro c
      rw [scheduled, repairs_ackOutbound, List.count_nil]
    refine ⟨fun _ _ h => h, hr.pending, fun c _ => hacks c, fun c => Or.inl (hacks c),
      fun q p hp => ⟨p, hp, fun d target ht => ⟨target, ht, ?_⟩⟩⟩
    rw [hacks, Nat.add_zero]
  · intro done acc q sample h hfresh hsample hacc
    by_cases hempty : sample.awaiting.isEmpty = true
    · apply h.drop (q := q) <;> simp [sweepSample, hempty]
    · by_cases hold : seconds 30 < now - sample.created
      · apply h.drop (q := q) <;> simp [sweepSample, hempty, hold]
      · obtain ⟨hlength, hsequence, hawaiting⟩ := foldLatest_sized
          (fun key value hv => hr.latest key value (h.latest key value hv))
          (hr.pending q sample hsample)
        have hserved : sweepSample now acc (q, sample) = { acc with
            pending := acc.pending.insert q { foldLatest acc.latest q sample with
              awaiting := (sweepTargets now q (foldLatest acc.latest q sample) acc).awaiting }
            latest := acc.latest.erase sample.channelKey
            outbound := (sweepTargets now q (foldLatest acc.latest q sample) acc).outbound
            checks := (sweepTargets now q (foldLatest acc.latest q sample) acc).checks
            scheduledRepairs :=
              (sweepTargets now q (foldLatest acc.latest q sample) acc).scheduledRepairs
            events := acc.events ++ (acc.latest[sample.channelKey]?).toList.map
              fun value => .folded q sample.channelKey value.2 } := by
          simp [sweepSample, hempty, hold]
        rw [hserved]
        exact h.serve hfresh hsample hlength hsequence hawaiting rfl rfl rfl

end UavBluetooth.Mesh
