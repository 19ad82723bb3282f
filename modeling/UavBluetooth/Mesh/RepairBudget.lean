import UavBluetooth.Mesh.RepairCharges

set_option autoImplicit false

/-! # The repair budget of a reliable sample

A ledger beside a run counts, for each sequence and destination, the repairs that the daemon
admitted and those whose call failed. At most three are admitted as long as every attempt is in
the ledger or still on the executor's stack (`Budgeted`); the refusal branch breaks this when
it takes an attempt back for a frame that is no repair (`Spares`).
-/

namespace UavBluetooth.Mesh

open Config

/-! ## Stretches that neither charge nor refund -/

/-- A stretch that schedules, transmits or refunds repairs, or enters a sample. -/
def Task.metered : Task → Bool
  | .sweep => true
  | .transmit _ => true
  | .outboundBusy _ => true
  | .admission _ _ => true
  | _ => false

/-- What the other stretches do to attempts, waiting values and repairs on the stack. -/
structure Unmetered (s : Station) (task : Task) (s' : Station) : Prop where
  kept : ChargesKept s.reliable s'.reliable
  latest : ∀ (key : UInt64) (value : SharedTopicConfig × Bytes),
    s'.reliable.latest[key]? = some value → s.reliable.latest[key]? = some value ∨
      ∃ send, task.send = some send ∧ value = (send.bridge, send.payload)
  todo : ∃ tasks, s'.todo = tasks ++ s.todo ∧ tasks.flatMap Task.repair = task.repair ∧
    Ordered tasks ∧ (task.early = true → ∀ t ∈ tasks, t.early = true) ∧
    ∀ t ∈ tasks, ∀ send, t.send = some send → task.send = some send

theorem exec_unmetered {now : Time} {view : View} {answer : Answer} {s s' : Station}
    {task : Task} {events : List Event} (hmetered : task.metered = false)
    (hx : execTask now view answer s task = some (s', events)) : Unmetered s task s' := by
  -- Tasks that carry no repair make way for others that carry none.
  have hgo : ∀ l, ChargesKept s.reliable s'.reliable →
      (∀ (key : UInt64) (value : SharedTopicConfig × Bytes),
        s'.reliable.latest[key]? = some value → s.reliable.latest[key]? = some value ∨
          ∃ send, task.send = some send ∧ value = (send.bridge, send.payload)) →
      s'.todo = l ++ s.todo → (∀ t ∈ l, t.repair = []) → task.repair = [] →
      (task.early = true → ∀ t ∈ l, t.early = true) →
      (∀ t ∈ l, ∀ send, t.send = some send → task.send = some send) →
      Unmetered s task s' := by
    intro l hkept hlatest htodo hrepair htask hearly hsends
    refine ⟨hkept, hlatest, l, htodo, ?_, ordered_of_unrepaired hrepair, hearly, hsends⟩
    rw [htask, List.flatMap_eq_nil_iff]
    exact hrepair
  have hsame : s'.reliable = s.reliable →
      (∀ (key : UInt64) (value : SharedTopicConfig × Bytes),
        s'.reliable.latest[key]? = some value → s.reliable.latest[key]? = some value ∨
          ∃ send, task.send = some send ∧ value = (send.bridge, send.payload)) := by
    intro hr key value hv
    rw [hr] at hv
    exact Or.inl hv
  have hstored : ∀ send, task.send = some send →
      s'.reliable.latest = (storeLatest send s.reliable).latest →
      (∀ (key : UInt64) (value : SharedTopicConfig × Bytes),
        s'.reliable.latest[key]? = some value → s.reliable.latest[key]? = some value ∨
          ∃ send, task.send = some send ∧ value = (send.bridge, send.payload)) := by
    intro send hsend hl key value hv
    rw [hl] at hv
    exact (storeLatest_cases hv).imp_right fun heq => ⟨send, hsend, heq.2⟩
  cases task with
  | maintain =>
      simp only [execTask] at hx
      split at hx <;> cases hx
      · exact hgo [.clear true, .flush, .sweep] (chargesKept_of_eq rfl) (hsame rfl) rfl
          (by simp [Task.repair]) rfl (by simp [Task.early]) (by simp [Task.send])
      · exact hgo [.sweep] (chargesKept_of_eq rfl) (hsame rfl) rfl (by simp [Task.repair]) rfl
          (by simp [Task.early]) (by simp [Task.send])
  | clear preserveLatest =>
      cases hx
      refine hgo [] (fun q p hp => ?_) (fun key value hv => ?_) rfl (by simp) rfl
        (by simp) (by simp)
      · simp [Station.withReliable, clearMeshReliableState] at hp
      · cases preserveLatest
        · simp [Station.withReliable, clearMeshReliableState] at hv
        · exact Or.inl hv
  | flush =>
      simp only [execTask] at hx
      split at hx <;> cases hx
      · exact hgo [.cancel _] (chargesKept_of_eq rfl) (fun _ _ h => Or.inl h) rfl
          (by simp [Task.repair]) rfl (by simp [Task.early]) (by simp [Task.send])
      · exact hgo [] (chargesKept_of_eq rfl) (fun _ _ h => Or.inl h) rfl (by simp) rfl
          (by simp) (by simp)
  | cancel batch =>
      cases batch with
      | nil =>
          cases hx
          exact hgo [] (chargesKept_of_eq rfl) (hsame rfl) rfl (by simp) rfl (by simp) (by simp)
      | cons handle batch =>
          simp only [execTask] at hx
          split at hx <;> cases hx
          · exact hgo [.cancel batch] (chargesKept_of_eq rfl) (hsame rfl) rfl
              (by simp [Task.repair]) rfl (by simp [Task.early]) (by simp [Task.send])
          · exact hgo [.requeue (handle :: batch)] (chargesKept_of_eq rfl) (hsame rfl) rfl
              (by simp [Task.repair]) rfl (by simp [Task.early]) (by simp [Task.send])
  | requeue batch =>
      cases hx
      exact hgo [] (chargesKept_of_eq rfl) (fun _ _ h => Or.inl h) rfl (by simp) rfl (by simp)
        (by simp)
  | check check =>
      simp only [execTask] at hx
      split at hx <;> cases hx
      · exact hgo [] (chargesKept_of_eq rfl) (hsame rfl) rfl (by simp) rfl (by simp) (by simp)
      · exact hgo [.completed check] (chargesKept_of_eq rfl) (hsame rfl) rfl
          (by simp [Task.repair]) rfl (by simp [Task.early]) (by simp [Task.send])
      · exact hgo [] (chargesKept_of_eq rfl) (hsame rfl) rfl (by simp) rfl (by simp) (by simp)
  | completed check =>
      cases hx
      have hlatest := (bookkeeping_completed check s.reliable).latest
      refine hgo [] (chargesKept_completed check s.reliable) (fun key value hv => ?_) rfl
        (by simp) rfl (by simp) (by simp)
      exact Or.inl (hlatest ▸ hv)
  | outbound item =>
      have hpass : s' = s.push [.transmit item] → Unmetered s (.outbound item) s' := by
        rintro rfl
        exact ⟨chargesKept_of_eq rfl, hsame rfl, [.transmit item], rfl,
          List.append_nil _, ordered_of_early (by simp [Task.early]), by simp [Task.early],
          by simp [Task.send]⟩
      -- A receipt query is no repair, so nothing is lost when it is not sent.
      have hskip : frameKind item.data = reliableReceiptQuery → s' = s →
          Unmetered s (.outbound item) s' := by
        rintro hkind rfl
        refine hgo [] (chargesKept_of_eq rfl) (hsame rfl) rfl (by simp) ?_ (by simp) (by simp)
        have hrepairs : item.repairs = false := by
          simp only [Outbound.repairs, carriesData, hkind]
          cases item.acknowledgement <;> rfl
        rw [Task.repair, repairsOf_singleton, hrepairs]
        simp
      simp only [execTask] at hx
      split at hx
      · split at hx
        · rename_i hkind
          split at hx <;> cases hx
          · exact hskip hkind rfl
          · exact hpass rfl
          · exact hskip hkind rfl
        · cases hx
          exact hpass rfl
      · cases hx
        exact hpass rfl
  | requeueAck item =>
      cases hx
      have hbook := bookkeeping_requeueAck item s.reliable
      have hpending : (requeueAck item s.reliable).pending = s.reliable.pending := by
        unfold requeueAck
        split <;> rfl
      refine hgo [] (chargesKept_of_eq hpending) (fun key value hv => ?_) rfl (by simp) rfl
        (by simp) (by simp)
      exact Or.inl (hbook.latest ▸ hv)
  | remember sequence destination handle =>
      simp only [execTask] at hx
      split at hx <;> cases hx
      · exact hgo [] (chargesKept_of_eq rfl) (hsame rfl) rfl (by simp) rfl (by simp) (by simp)
      · have hlatest := (bookkeeping_remember sequence destination handle now s.reliable).latest
        refine hgo [] (chargesKept_remember sequence destination handle now s.reliable)
          (fun key value hv => ?_) rfl (by simp) rfl (by simp) (by simp)
        exact Or.inl (hlatest ▸ hv)
  | enter send =>
      simp only [execTask] at hx
      split at hx
      · cases hx
        exact hgo [] (chargesKept_of_eq rfl) (hsame rfl) rfl (by simp) rfl (by simp) (by simp)
      · split at hx <;> cases hx
        · exact hgo [.clear true, .flush, .gate send] (chargesKept_of_eq rfl) (hsame rfl) rfl
            (by simp [Task.repair]) rfl (by simp [Task.early]) (by simp [Task.send])
        · exact hgo [.gate send] (chargesKept_of_eq rfl) (hsame rfl) rfl (by simp [Task.repair])
            rfl (by simp [Task.early]) (by simp [Task.send])
  | gate send =>
      simp only [execTask] at hx
      split at hx <;> cases hx
      · exact hgo [.claim send _] (chargesKept_of_eq rfl) (hsame rfl) rfl (by simp [Task.repair])
          rfl (by simp [Task.early]) (by simp [Task.send])
      · exact hgo [] (chargesKept_of_eq rfl) (hstored send rfl rfl) rfl (by simp) rfl (by simp)
          (by simp)
  | claim send addresses =>
      simp only [execTask] at hx
      split at hx
      · cases hx
        exact hgo [] (chargesKept_of_eq rfl) (hsame rfl) rfl (by simp) rfl (by simp) (by simp)
      · generalize hs₁ : (if send.resumed = true then s else
          s.withReliable (dropLatest send s.reliable)) = s₁ at hx
        have hfields : s₁.todo = s.todo ∧ s₁.reliable.pending = s.reliable.pending ∧
            ∀ (key : UInt64) (value : SharedTopicConfig × Bytes),
              s₁.reliable.latest[key]? = some value → s.reliable.latest[key]? = some value := by
          rw [← hs₁]
          split
          · exact ⟨rfl, rfl, fun _ _ h => h⟩
          · refine ⟨rfl, rfl, fun key value hv => ?_⟩
            have hv' : (s.reliable.latest.erase send.key)[key]? = some value := hv
            rw [Std.ExtTreeMap.getElem?_erase] at hv'
            split at hv'
            · cases hv'
            · exact hv'
        obtain ⟨htodo, hp, hl⟩ := hfields
        have hnext : ∀ l, s' = s₁.push l → (∀ t ∈ l, t.repair = []) →
            (∀ t ∈ l, ∀ send', t.send = some send' → send = send') →
            Unmetered s (.claim send addresses) s' := by
          rintro l rfl hrepair hsends
          refine hgo l (chargesKept_of_eq hp) (fun key value hv => Or.inl (hl key value hv))
            ?_ hrepair rfl (by simp [Task.early]) (fun t ht send' hs => ?_)
          · show l ++ s₁.todo = l ++ s.todo
            rw [htodo]
          · rw [hsends t ht send' hs]
            rfl
        split at hx
        · split at hx <;> cases hx
          · exact hnext [.occupied send addresses] rfl (by simp [Task.repair])
              (by simp [Task.send])
          · exact hnext [] rfl (by simp) (by simp)
        · cases hx
          exact hnext [.plain send] rfl (by simp [Task.repair]) (by simp [Task.send])
  | occupied send addresses =>
      simp only [execTask] at hx
      split at hx <;> cases hx
      · exact hgo [] (chargesKept_of_eq rfl) (hstored send rfl rfl) rfl (by simp) rfl (by simp)
          (by simp)
      · exact hgo [.arbitrate send addresses] (chargesKept_of_eq rfl) (hsame rfl) rfl
          (by simp [Task.repair]) rfl (by simp [Task.early]) (by simp [Task.send])
  | arbitrate send addresses =>
      simp only [execTask] at hx
      split at hx
      · cases hx
      · rename_i r harb
        cases hx
        exact hgo [] (chargesKept_of_eq (arbitrate_custody harb).1)
          (hstored send rfl (arbitrate_latest harb)) rfl (by simp) rfl (by simp) (by simp)
      · rename_i r adm harb
        cases hx
        have hlatest : r.latest = s.reliable.latest := arbitrate_latest harb
        refine hgo [.admission send adm] (chargesKept_of_eq (arbitrate_custody harb).1)
          (fun key value hv => ?_) rfl (by simp [Task.repair]) rfl (by simp [Task.early])
          (by simp [Task.send])
        exact Or.inl (hlatest ▸ hv)
  | consume send =>
      cases hx
      exact hgo [] (chargesKept_of_eq rfl) (fun _ _ h => Or.inl h) rfl (by simp) rfl (by simp)
        (by simp)
  | fanOut send adm data remaining admitted =>
      cases remaining with
      | nil =>
          simp only [execTask] at hx
          split at hx <;> cases hx
          · exact hgo [] (chargesKept_of_eq rfl) (hsame rfl) rfl (by simp) rfl (by simp)
              (by simp)
          · exact hgo [] (chargesKept_erase (rollBack_pending send adm s.reliable))
              (hstored send rfl (rollBack_latest send adm s.reliable)) rfl (by simp) rfl
              (by simp) (by simp)
      | cons destination remaining =>
          simp only [execTask] at hx
          split at hx
          · cases hx
          · split at hx <;> cases hx
            · exact hgo [.remember _ _ _, .fanOut send adm data remaining true]
                (chargesKept_of_eq rfl) (hsame rfl) rfl (by simp [Task.repair]) rfl
                (by simp [Task.early]) (by simp [Task.send])
            · exact hgo [.deferred _ _ _, .fanOut send adm data remaining admitted]
                (chargesKept_of_eq rfl) (hsame rfl) rfl (by simp [Task.repair]) rfl
                (by simp [Task.early]) (by simp [Task.send])
            · exact hgo [.deferred _ _ _, .fanOut send adm data remaining admitted]
                (chargesKept_of_eq rfl) (hsame rfl) rfl (by simp [Task.repair]) rfl
                (by simp [Task.early]) (by simp [Task.send])
  | deferred sequence destination busy =>
      cases hx
      have hpeer : ∀ r, r = (if busy then
          deferPeer destination (now + meshQueueRetryDelay) s.reliable else s.reliable) →
          r.pending = s.reliable.pending ∧ r.latest = s.reliable.latest := by
        rintro r rfl
        split <;> exact ⟨rfl, rfl⟩
      obtain ⟨hp, hl⟩ := hpeer _ rfl
      refine hgo [] ((chargesKept_of_eq hp).trans ?_) (fun key value hv => ?_) rfl (by simp) rfl
        (by simp) (by simp)
      · apply chargesKept_retryTarget
        exact fun _ => rfl
      have hretry := (bookkeeping_retryTarget sequence destination
        (fun target => { target with retryAt := now + meshQueueRetryDelay })
        (if busy then deferPeer destination (now + meshQueueRetryDelay) s.reliable
          else s.reliable)).latest
      exact Or.inl ((hretry.trans hl) ▸ hv)
  | plain send =>
      simp only [execTask] at hx
      split at hx
      · cases hx
      · split at hx <;> cases hx <;>
          exact hgo [] (chargesKept_of_eq rfl) (hsame rfl) rfl (by simp) rfl (by simp) (by simp)
  | install meshApp coordinator =>
      cases hx
      exact hgo [] (chargesKept_of_eq rfl) (hsame rfl) rfl (by simp) rfl (by simp) (by simp)
  | sweep => cases hmetered
  | transmit item => cases hmetered
  | outboundBusy item => cases hmetered
  | admission send adm => cases hmetered

/-! ## The ledger -/

/-- The repairs of one sample for one destination: the attempts counted when the record
begins, the repairs the daemon admitted since, and those whose call failed. -/
structure Account where
  opening : Nat := 0
  admitted : Nat := 0
  failed : Nat := 0
  deriving DecidableEq, Repr

structure Ledger where
  account : Copy → Account
  /-- Some refusal of an acknowledgement or a query changed a target. -/
  disturbed : Bool := false

/-- The ledger of a state that is there already. -/
def Ledger.of (r : MeshReliable) : Ledger where
  account c := { opening := ((r.target c).map (·.attempts)).getD 0 }

def Ledger.book (l : Ledger) (c : Copy) (f : Account → Account) : Ledger :=
  { l with account := Function.update l.account c (f (l.account c)) }

/-- A new sample begins with empty accounts. -/
def Ledger.opened (l : Ledger) (sequence : UInt16) : Ledger :=
  { l with account := fun c => if c.1 = sequence then {} else l.account c }

/-- The attempts and the retry time of every target. -/
def budgets (r : MeshReliable) : List (Copy × Nat × Time) :=
  r.pending.toList.flatMap fun (q, sample) =>
    sample.awaiting.toList.map fun (d, target) => ((q, d), target.attempts, target.retryAt)

/-- The ledger after a stretch of the executor. -/
def Ledger.after (now : Time) (answer : Answer) (r : MeshReliable) (l : Ledger) : Task → Ledger
  | .transmit item =>
      if item.repairs then
        match answer with
        | .handle _ => l.book item.copy fun a => { a with admitted := a.admitted + 1 }
        | .error _ => l.book item.copy fun a => { a with failed := a.failed + 1 }
        | _ => l
      else l
  | .outboundBusy item =>
      if item.repairs then l
      else { l with
        disturbed := l.disturbed || decide (budgets (outboundBusy item now r) ≠ budgets r) }
  | .admission _ adm =>
      if adm.sequence ∈ (evictOldest r).pending then l else l.opened adm.sequence
  | _ => l

/-- A node with the ledger of its repairs. -/
structure Metered where
  node : Node
  ledger : Ledger

def Metered.next (m : Metered) : NodeAction → Ledger
  | .act (.exec _ answer) =>
      match m.node.station.todo with
      | task :: _ => m.ledger.after m.node.now answer m.node.station.reliable task
      | [] => m.ledger
  | _ => m.ledger

def Metered.step (m : Metered) (a : NodeAction) : Option Metered :=
  (m.node.step a).map fun node => ⟨node, m.next a⟩

/-- Any pending samples, waiting values and acknowledgements, between two turns of the
executor. -/
structure Metered.Initial (m : Metered) : Prop where
  idle : m.node.station.todo = []
  sized : Sized m.node.station.reliable
  ledger : m.ledger = .of m.node.station.reliable

/-- The repairs of a copy that are still on the stack. -/
def queued (todo : List Task) (c : Copy) : Nat := (todo.flatMap Task.repair).count c

/-- The budget is kept: at most three repairs of a copy leave the node, a target is charged
those and the ones still on the stack but none that was refused, and no refusal of an
acknowledgement or a query changed a target. -/
structure KeepsBudget (m : Metered) : Prop where
  admitted : ∀ c, (m.ledger.account c).admitted + (m.ledger.account c).failed ≤
    3 - (m.ledger.account c).opening
  charged : ∀ c target, m.node.station.reliable.target c = some target →
    target.attempts = (m.ledger.account c).opening + (m.ledger.account c).admitted +
      (m.ledger.account c).failed + queued m.node.station.todo c
  undisturbed : m.ledger.disturbed = false

/-- The refusal of a frame that is no repair finds no target to change. -/
def Task.Spares (now : Time) (r : MeshReliable) : Task → Prop
  | .outboundBusy item =>
      item.repairs = true ∨ ∀ target ∈ r.target item.copy,
        target.attempts = 0 ∧ target.retryAt = now + meshQueueRetryDelay
  | _ => True

instance (now : Time) (r : MeshReliable) (task : Task) : Decidable (task.Spares now r) :=
  match task with
  | .outboundBusy item =>
      inferInstanceAs (Decidable (item.repairs = true ∨ ∀ target ∈ r.target item.copy,
        target.attempts = 0 ∧ target.retryAt = now + meshQueueRetryDelay))
  | .maintain | .clear _ | .flush | .cancel _ | .requeue _ | .sweep | .check _ | .completed _
  | .outbound _ | .transmit _ | .requeueAck _ | .remember _ _ _ | .enter _ | .gate _
  | .claim _ _ | .occupied _ _ | .arbitrate _ _ | .admission _ _ | .consume _
  | .fanOut _ _ _ _ _ | .deferred _ _ _ | .plain _ | .install _ _ => isTrue trivial

def Spares (m : Metered) : NodeAction → Prop
  | .act (.exec _ _) => ∀ task ∈ m.node.station.todo.head?,
      task.Spares m.node.now m.node.station.reliable
  | _ => True

instance (m : Metered) (a : NodeAction) : Decidable (Spares m a) :=
  match a with
  | .act (.exec _ _) => inferInstanceAs (Decidable (∀ task ∈ m.node.station.todo.head?,
      task.Spares m.node.now m.node.station.reliable))
  | .advance _ | .act (.submit _ _) | .act .tick | .act (.receive _ _) | .act (.decode _)
  | .act (.finish _) | .act .requestReset | .act (.reconfigure _ _) => isTrue trivial

/-! ## The refusal of a frame that is no repair -/

theorem mem_budgets {r : MeshReliable} {c : Copy} {attempts : Nat} {retryAt : Time} :
    (c, attempts, retryAt) ∈ budgets r ↔
      ∃ target, r.target c = some target ∧ target.attempts = attempts ∧ target.retryAt = retryAt := by
  obtain ⟨q, d⟩ := c
  simp only [budgets, List.mem_flatMap, List.mem_map, Prod.exists, Prod.mk.injEq]
  constructor
  · rintro ⟨s, sample, hsample, e, target, htarget, ⟨rfl, rfl⟩, hattempts, hretry⟩
    refine ⟨target, Option.bind_eq_some_iff.mpr ⟨sample, ?_, ?_⟩, hattempts, hretry⟩
    · exact Std.ExtTreeMap.mem_toList_iff_getElem?_eq_some.mp hsample
    · exact Std.ExtTreeMap.mem_toList_iff_getElem?_eq_some.mp htarget
  · rintro ⟨target, htarget, hattempts, hretry⟩
    obtain ⟨sample, hsample, htarget⟩ := Option.bind_eq_some_iff.mp htarget
    exact ⟨q, sample, Std.ExtTreeMap.mem_toList_iff_getElem?_eq_some.mpr hsample, d, target,
      Std.ExtTreeMap.mem_toList_iff_getElem?_eq_some.mpr htarget, ⟨rfl, rfl⟩, hattempts, hretry⟩

theorem insert_of_getElem? {β : Type} {t : Std.ExtTreeMap UInt16 β} {k : UInt16} {v : β}
    (h : t[k]? = some v) : t.insert k v = t := by
  apply Std.ExtTreeMap.ext_getElem?
  intro j
  rw [Std.ExtTreeMap.getElem?_insert]
  split
  · rename_i heq
    have hkj : k = j := by simpa using heq
    rw [← hkj, h]
  · rfl

theorem retryTarget_pending_of_fixed {q d : UInt16} {f : MeshReliableTarget → MeshReliableTarget}
    {r : MeshReliable} (h : ∀ target, r.target (q, d) = some target → f target = target) :
    (retryTarget q d f r).pending = r.pending := by
  unfold retryTarget
  split
  · rfl
  · rename_i sample hsample
    split
    · rfl
    · rename_i target htarget
      have hfixed := h target (Option.bind_eq_some_iff.mpr ⟨sample, hsample, htarget⟩)
      rw [hfixed, insert_of_getElem? htarget]
      exact insert_of_getElem? hsample

/-- A refusal leaves all attempts and retry times exactly when the condition holds. -/
theorem budgets_outboundBusy (item : Outbound) (now : Time) (r : MeshReliable) :
    budgets (outboundBusy item now r) = budgets r ↔ ∀ target, r.target item.copy = some target →
      target.attempts = 0 ∧ target.retryAt = now + meshQueueRetryDelay := by
  constructor
  · intro h target htarget
    have hbusy : (outboundBusy item now r).target item.copy = some { target with
        attempts := target.attempts - 1, retryAt := now + meshQueueRetryDelay } := by
      rw [target_outboundBusy, if_pos rfl, htarget]
      rfl
    have hmem : (item.copy, target.attempts - 1, now + meshQueueRetryDelay) ∈ budgets r := by
      rw [← h, mem_budgets]
      exact ⟨_, hbusy, rfl, rfl⟩
    obtain ⟨target', htarget', hattempts, hretry⟩ := mem_budgets.mp hmem
    rw [htarget] at htarget'
    cases htarget'
    exact ⟨by omega, hretry⟩
  · intro h
    have hpending : (outboundBusy item now r).pending = r.pending := by
      refine retryTarget_pending_of_fixed fun target htarget => ?_
      obtain ⟨hattempts, hretry⟩ := h target htarget
      obtain ⟨attempts, transfer, retryAt, receiptQueryAt, transferCheckAt⟩ := target
      simp only at hattempts hretry
      simp [hattempts, hretry]
    unfold budgets
    rw [hpending]

/-! ## The invariant -/

@[simp] theorem queued_nil (c : Copy) : queued [] c = 0 := rfl

theorem queued_append (a b : List Task) (c : Copy) :
    queued (a ++ b) c = queued a c + queued b c := by
  rw [queued, List.flatMap_append, List.count_append]
  rfl

theorem queued_cons (task : Task) (todo : List Task) (c : Copy) :
    queued (task :: todo) c = task.repair.count c + queued todo c := by
  rw [queued, List.flatMap_cons, List.count_append]
  rfl

theorem queued_of_unrepaired {todo : List Task} (h : ∀ t ∈ todo, t.repair = []) (c : Copy) :
    queued todo c = 0 := by
  rw [queued, List.flatMap_eq_nil_iff.mpr h, List.count_nil]

/-- Every attempt is in the ledger or on the stack, and they are within the budget. -/
structure Budgeted (s : Station) (l : Ledger) : Prop where
  bounded : ∀ c, (l.account c).admitted + (l.account c).failed + queued s.todo c ≤
    3 - (l.account c).opening
  charged : ∀ c target, s.reliable.target c = some target →
    target.attempts = (l.account c).opening + (l.account c).admitted + (l.account c).failed +
      queued s.todo c
  undisturbed : l.disturbed = false
  ordered : Ordered s.todo
  sized : Sized s.reliable
  sends : ∀ t ∈ s.todo, ∀ send, t.send = some send → 3 ≤ send.payload.length

theorem Budgeted.keepsBudget {m : Metered} (h : Budgeted m.node.station m.ledger) :
    KeepsBudget m := by
  refine ⟨fun c => ?_, h.charged, h.undisturbed⟩
  have hc := h.bounded c
  omega

theorem ChargesKept.sized {r r' : MeshReliable} (h : ChargesKept r r') (hr : Sized r)
    (hlatest : ∀ (key : UInt64) (value : SharedTopicConfig × Bytes),
      r'.latest[key]? = some value → 3 ≤ value.2.length) : Sized r' := by
  refine ⟨fun q p' hp' => ?_, hlatest⟩
  obtain ⟨p, hp, hu⟩ := h q p' hp'
  rw [hu.data]
  exact hr.pending q p hp

section

variable {now : Time} {view : View} {answer : Answer} {s s' : Station} {task : Task}
  {events : List Event} {l l' : Ledger}

/-- A stretch whose charges balance, account by account. -/
theorem Budgeted.balance {tasks : List Task} (h : Budgeted { s with todo := task :: s.todo } l)
    (hkept : ChargesKept s.reliable s'.reliable)
    (hlatest : ∀ (key : UInt64) (value : SharedTopicConfig × Bytes),
      s'.reliable.latest[key]? = some value → 3 ≤ value.2.length)
    (htodo : s'.todo = tasks ++ s.todo) (hordered : Ordered tasks)
    (hearly : task.early = true → ∀ t ∈ tasks, t.early = true)
    (hsends : ∀ t ∈ tasks, ∀ send, t.send = some send → 3 ≤ send.payload.length)
    (hopening : ∀ c, (l'.account c).opening = (l.account c).opening)
    (hbalance : ∀ c, (l'.account c).admitted + (l'.account c).failed + queued tasks c =
      (l.account c).admitted + (l.account c).failed + task.repair.count c)
    (hundisturbed : l'.disturbed = l.disturbed) : Budgeted s' l' := by
  refine ⟨fun c => ?_, fun c target' ht' => ?_, hundisturbed.trans h.undisturbed, ?_,
    hkept.sized h.sized hlatest, fun t ht => ?_⟩
  · have hc := h.bounded c
    rw [queued_cons] at hc
    rw [htodo, queued_append, hopening]
    have hb := hbalance c
    omega
  · obtain ⟨target, ht, heq⟩ := hkept.target ht'
    have hc := h.charged c target ht
    rw [queued_cons] at hc
    rw [htodo, queued_append, hopening, heq, hc]
    have hb := hbalance c
    omega
  · rw [htodo]
    exact h.ordered.replace hordered hearly
  · rw [htodo] at ht
    rcases List.mem_append.mp ht with ht | ht
    · exact hsends t ht
    · exact h.sends t (List.mem_cons_of_mem _ ht)

theorem after_unmetered (hmetered : task.metered = false) (r : MeshReliable) :
    l.after now answer r task = l := by
  cases task <;> first | rfl | cases hmetered

/-- The stretches that neither charge nor refund keep the accounts. -/
theorem budgeted_unmetered (h : Budgeted { s with todo := task :: s.todo } l)
    (hmetered : task.metered = false)
    (hx : execTask now view answer s task = some (s', events)) : Budgeted s' l := by
  have hstep := exec_unmetered hmetered hx
  obtain ⟨tasks, htodo, hrepair, hordered, hearly, hsends⟩ := hstep.todo
  have hown := h.sends task List.mem_cons_self
  refine h.balance hstep.kept (fun key value hv => ?_) htodo hordered hearly
    (fun t ht send hs => hown send (hsends t ht send hs)) (fun _ => rfl) (fun c => ?_) rfl
  · rcases hstep.latest key value hv with hold | ⟨send, hsend, rfl⟩
    · exact h.sized.latest key value hold
    · exact hown send hsend
  · rw [queued, hrepair]

/-- The daemon's answer to a repair moves it from the stack to the ledger, or back to the
refusal branch. -/
theorem budgeted_transmit {item : Outbound}
    (h : Budgeted { s with todo := .transmit item :: s.todo } l)
    (hx : execTask now view answer s (.transmit item) = some (s', events)) :
    Budgeted s' (l.after now answer s.reliable (.transmit item)) := by
  have hmove : ∀ tasks l', s'.reliable = s.reliable → s'.todo = tasks ++ s.todo →
      (∀ t ∈ tasks, t.early = true ∧ t.send = none) →
      (∀ c, (l'.account c).opening = (l.account c).opening ∧
        (l'.account c).admitted + (l'.account c).failed + queued tasks c =
          (l.account c).admitted + (l.account c).failed + (repairsOf [item]).count c) →
      l'.disturbed = l.disturbed → Budgeted s' l' := by
    intro tasks l' hr htodo htasks hbalance hdisturbed
    refine h.balance (chargesKept_of_eq (by rw [hr])) (by rw [hr]; exact h.sized.latest) htodo
      (ordered_of_early fun t ht => (htasks t ht).1) (fun _ t ht => (htasks t ht).1)
      (fun t ht send hs => ?_) (fun c => (hbalance c).1) (fun c => (hbalance c).2) hdisturbed
    rw [(htasks t ht).2] at hs
    cases hs
  -- Booking an answer to a repair counts for its copy only.
  have hbook : ∀ (f : Account → Account), item.repairs = true →
      (∀ a, (f a).opening = a.opening ∧ (f a).admitted + (f a).failed = a.admitted + a.failed + 1) →
      ∀ c, ((l.book item.copy f).account c).opening = (l.account c).opening ∧
        ((l.book item.copy f).account c).admitted + ((l.book item.copy f).account c).failed + 0 =
          (l.account c).admitted + (l.account c).failed + (repairsOf [item]).count c := by
    intro f hrepairs hf c
    rw [repairsOf_singleton, if_pos hrepairs, List.count_singleton]
    by_cases hc : c = item.copy
    · subst hc
      simpa [Ledger.book] using hf _
    · simp [Ledger.book, hc, Ne.symm hc]
  have hnone : item.repairs = false → ∀ c, (repairsOf [item]).count c = 0 := by
    intro hrepairs c
    rw [repairsOf_singleton, hrepairs]
    rfl
  simp only [execTask] at hx
  split at hx
  · cases hx
  · split at hx
    · -- The daemon admitted the frame.
      have hcases : ∃ tasks, s'.reliable = s.reliable ∧ s'.todo = tasks ++ s.todo ∧
          (∀ t ∈ tasks, t.early = true ∧ t.send = none) ∧ ∀ c, queued tasks c = 0 := by
        split at hx <;> cases hx
        · exact ⟨[.remember _ _ _], rfl, rfl, by simp [Task.early, Task.send],
            queued_of_unrepaired (by simp [Task.repair])⟩
        · exact ⟨[], rfl, rfl, by simp, fun _ => rfl⟩
      obtain ⟨tasks, hr, htodo, htasks, hqueued⟩ := hcases
      cases hrepairs : item.repairs with
      | true =>
          simp only [Ledger.after, hrepairs, if_true]
          refine hmove tasks _ hr htodo htasks (fun c => ?_) rfl
          rw [hqueued]
          refine hbook _ hrepairs ?_ c
          exact fun a => ⟨rfl, Nat.add_right_comm _ _ _⟩
      | false =>
          simp only [Ledger.after, hrepairs, Bool.false_eq_true, if_false]
          refine hmove tasks l hr htodo htasks (fun c => ⟨rfl, ?_⟩) rfl
          rw [hqueued, hnone hrepairs]
    · -- The daemon refused it: the refusal branch is next.
      cases hx
      have hafter : l.after now .busy s.reliable (.transmit item) = l := by
        simp only [Ledger.after]
        split <;> rfl
      rw [hafter]
      refine hmove [.outboundBusy item] l rfl rfl (by simp [Task.early, Task.send])
        (fun c => ⟨rfl, ?_⟩) rfl
      rw [queued_cons, queued_nil]
      rfl
    · -- The call failed.
      rename_i sent
      have hcases : ∃ tasks, s'.reliable = s.reliable ∧ s'.todo = tasks ++ s.todo ∧
          (∀ t ∈ tasks, t.early = true ∧ t.send = none) ∧ ∀ c, queued tasks c = 0 := by
        cases hx
        split
        · exact ⟨[.requeueAck item], rfl, rfl, by simp [Task.early, Task.send],
            queued_of_unrepaired (by simp [Task.repair])⟩
        · exact ⟨[], rfl, rfl, by simp, fun _ => rfl⟩
      obtain ⟨tasks, hr, htodo, htasks, hqueued⟩ := hcases
      cases hrepairs : item.repairs with
      | true =>
          simp only [Ledger.after, hrepairs, if_true]
          refine hmove tasks _ hr htodo htasks (fun c => ?_) rfl
          rw [hqueued]
          refine hbook _ hrepairs ?_ c
          exact fun a => ⟨rfl, rfl⟩
      | false =>
          simp only [Ledger.after, hrepairs, Bool.false_eq_true, if_false]
          refine hmove tasks l hr htodo htasks (fun c => ⟨rfl, ?_⟩) rfl
          rw [hqueued, hnone hrepairs]
    · cases hx

/-- A refused repair leaves the stack and its attempt is taken back; another refused frame
changes nothing, under the condition. -/
theorem budgeted_outboundBusy {item : Outbound}
    (h : Budgeted { s with todo := .outboundBusy item :: s.todo } l)
    (hspares : (Task.outboundBusy item).Spares now s.reliable)
    (hx : execTask now view answer s (.outboundBusy item) = some (s', events)) :
    Budgeted s' (l.after now answer s.reliable (.outboundBusy item)) := by
  cases hx
  have hbook := bookkeeping_outboundBusy item now s.reliable
  have hordered : Ordered s.todo := (List.pairwise_cons.mp h.ordered).2
  have hsends : ∀ t ∈ s.todo, ∀ send, t.send = some send → 3 ≤ send.payload.length :=
    fun t ht => h.sends t (List.mem_cons_of_mem _ ht)
  have hsized : Sized (outboundBusy item now s.reliable) := by
    refine ⟨fun q p' hp' => ?_, fun key value hv => ?_⟩
    · obtain ⟨p, hp, htrim⟩ := hbook.pending.back q p' hp'
      rw [htrim.data]
      exact h.sized.pending q p hp
    · rw [hbook.latest] at hv
      exact h.sized.latest key value hv
  have hqueued : ∀ c, queued (.outboundBusy item :: s.todo) c =
      (repairsOf [item]).count c + queued s.todo c := queued_cons _ _
  cases hrepairs : item.repairs with
  | true =>
      simp only [Ledger.after, hrepairs, if_true]
      rw [repairsOf_singleton, if_pos hrepairs] at hqueued
      refine ⟨fun c => ?_, fun c target' ht' => ?_, h.undisturbed, hordered, hsized, hsends⟩
      · have hc := h.bounded c
        rw [hqueued] at hc
        show _ + _ + queued s.todo c ≤ _
        omega
      · have ht : (outboundBusy item now s.reliable).target c = some target' := ht'
        rw [target_outboundBusy] at ht
        split at ht
        · -- The attempt was counted while the repair was on the stack.
          rename_i hcopy
          subst hcopy
          obtain ⟨target, htarget, rfl⟩ := Option.map_eq_some_iff.mp ht
          have hc := h.charged _ target htarget
          rw [hqueued, List.count_singleton_self] at hc
          show target.attempts - 1 = _ + _ + _ + queued s.todo item.copy
          omega
        · rename_i hcopy
          have hc := h.charged c target' ht
          rw [hqueued, List.count_singleton] at hc
          show _ = _ + _ + _ + queued s.todo c
          simpa [Ne.symm hcopy] using hc
  | false =>
      rw [repairsOf_singleton, hrepairs] at hqueued
      have hfixed : ∀ target, s.reliable.target item.copy = some target →
          target.attempts = 0 ∧ target.retryAt = now + meshQueueRetryDelay := by
        rcases hspares with hrep | hspares
        · rw [hrepairs] at hrep
          cases hrep
        · exact fun target ht => hspares target ht
      have hdisturbed : (l.after now answer s.reliable (.outboundBusy item)) = l := by
        simp only [Ledger.after, hrepairs, Bool.false_eq_true, if_false,
          (budgets_outboundBusy item now s.reliable).mpr hfixed, ne_eq, not_true_eq_false,
          decide_false, Bool.or_false]
      rw [hdisturbed]
      refine ⟨fun c => ?_, fun c target' ht' => ?_, h.undisturbed, hordered, hsized, hsends⟩
      · have hc := h.bounded c
        rw [hqueued] at hc
        show _ + _ + queued s.todo c ≤ _
        simpa using hc
      · have ht : (outboundBusy item now s.reliable).target c = some target' := ht'
        rw [target_outboundBusy] at ht
        have hold : ∃ target, s.reliable.target c = some target ∧
            target'.attempts = target.attempts := by
          split at ht
          · rename_i hcopy
            subst hcopy
            obtain ⟨target, htarget, rfl⟩ := Option.map_eq_some_iff.mp ht
            refine ⟨target, htarget, ?_⟩
            rw [(hfixed target htarget).1]
          · exact ⟨target', ht, rfl⟩
        obtain ⟨target, htarget, heq⟩ := hold
        have hc := h.charged c target htarget
        rw [hqueued] at hc
        show _ = _ + _ + _ + queued s.todo c
        rw [heq]
        simpa using hc

/-- A new sample begins with no attempts and no repairs on the stack. -/
theorem budgeted_admission {send : Send} {adm : Admission}
    (h : Budgeted { s with todo := .admission send adm :: s.todo } l)
    (hx : execTask now view answer s (.admission send adm) = some (s', events)) :
    Budgeted s' (l.after now answer s.reliable (.admission send adm)) := by
  cases hx
  set data := makeMeshReliableData send.payload adm.sequence view.swarmId with hdata
  have hpayload : 3 ≤ send.payload.length := h.sends _ List.mem_cons_self send rfl
  have hnone : ∀ t ∈ s.todo, t.repair = [] := by
    intro t ht
    exact (List.pairwise_cons.mp h.ordered).1 t ht rfl
  set tasks := (if adm.consumesTurn = true then [Task.consume send] else []) ++
    [.fanOut send adm data adm.targets false] with htasks
  have hnew : ∀ t ∈ tasks, t.repair = [] ∧ (t.send = none ∨ t.send = some send) := by
    intro t ht
    rw [htasks] at ht
    rcases List.mem_append.mp ht with ht | ht
    · split at ht
      · rw [List.mem_singleton.mp ht]
        exact ⟨rfl, Or.inl rfl⟩
      · cases ht
    · rw [List.mem_singleton.mp ht]
      exact ⟨rfl, Or.inr rfl⟩
  have hall : ∀ t ∈ tasks ++ s.todo, t.repair = [] := by
    intro t ht
    rcases List.mem_append.mp ht with ht | ht
    · exact (hnew t ht).1
    · exact hnone t ht
  have hold : ∀ c, queued (.admission send adm :: s.todo) c = 0 := by
    intro c
    rw [queued_cons, queued_of_unrepaired hnone]
    rfl
  have hentered : ∀ q : UInt16, (admitSample now send adm data s.reliable).pending[q]? =
      if adm.sequence = q ∧ adm.sequence ∉ (evictOldest s.reliable).pending then
        some (newSample now send adm data)
      else (evictOldest s.reliable).pending[q]? := by
    intro q
    unfold admitSample
    simp only [Std.ExtTreeMap.getElem?_insertIfNew, Std.LawfulEqCmp.compare_eq_iff_eq]
  have hkept := chargesKept_evictOldest s.reliable
  -- A target of the old samples has the attempts it had; one of the new sample has none.
  have htarget : ∀ c target', (admitSample now send adm data s.reliable).target c = some target' →
      (adm.sequence = c.1 ∧ adm.sequence ∉ (evictOldest s.reliable).pending ∧
        target'.attempts = 0) ∨
      (¬ (adm.sequence = c.1 ∧ adm.sequence ∉ (evictOldest s.reliable).pending) ∧
        ∃ target, s.reliable.target c = some target ∧ target'.attempts = target.attempts) := by
    intro c target' ht
    obtain ⟨sample, hsample, ht⟩ := Option.bind_eq_some_iff.mp ht
    rw [hentered] at hsample
    split at hsample
    · rename_i hin
      cases hsample
      rw [awaiting_newSample now send adm data ht]
      exact Or.inl ⟨hin.1, hin.2, rfl⟩
    · rename_i hout
      exact Or.inr ⟨hout, hkept.target (Option.bind_eq_some_iff.mpr ⟨sample, hsample, ht⟩)⟩
  refine ⟨fun c => ?_, fun c target' ht' => ?_, ?_, ?_, ⟨fun q p hp => ?_, ?_⟩,
    fun t ht send' hs => ?_⟩
  · show _ + _ + queued (tasks ++ s.todo) c ≤ _
    rw [queued_of_unrepaired hall]
    have hc := h.bounded c
    rw [hold] at hc
    simp only [Ledger.after, Ledger.opened]
    split
    · exact hc
    · simp only
      split
      · exact Nat.zero_le _
      · exact hc
  · show _ = _ + _ + _ + queued (tasks ++ s.todo) c
    rw [queued_of_unrepaired hall]
    rcases htarget c target' ht' with ⟨hq, hfree, hzero⟩ | ⟨hout, target, ht, heq⟩
    · rw [hzero]
      simp [Ledger.after, Ledger.opened, hfree, hq.symm]
    · have hc := h.charged c target ht
      rw [hold] at hc
      rw [heq, hc]
      simp only [Ledger.after, Ledger.opened]
      split
      · rfl
      · rename_i hfree
        simp only
        rw [if_neg (fun hq => hout ⟨hq.symm, hfree⟩)]
  · simp only [Ledger.after]
    split <;> exact h.undisturbed
  · exact ordered_of_unrepaired hall
  · have hp' : (admitSample now send adm data s.reliable).pending[q]? = some p := hp
    rw [hentered] at hp'
    split at hp'
    · rename_i hin
      cases hp'
      exact ⟨length_makeMeshReliableData _ _ _,
        (meshReliableSequence_make _ _ _ hpayload).trans hin.1⟩
    · exact h.sized.pending q p (evictOldest_pending hp')
  · show ∀ (key : UInt64) value, (admitSample now send adm data s.reliable).latest[key]? =
      some value → _
    rw [admitSample_latest]
    exact h.sized.latest
  · rcases List.mem_append.mp ht with ht | ht
    · rcases (hnew t ht).2 with hnone | hsome
      · rw [hnone] at hs
        cases hs
      · rw [hsome] at hs
        cases hs
        exact hpayload
    · exact h.sends t (List.mem_cons_of_mem _ ht) send' hs

theorem repair_sweepTasks (now : Time) (r : MeshReliable) :
    (sweepTasks now r).flatMap Task.repair = repairsOf (sweepLoop now r).outbound := by
  have hnone : ∀ {α : Type} (f : α → Task) (items : List α), (∀ x, (f x).repair = []) →
      (items.map f).flatMap Task.repair = [] := by
    intro α f items hf
    simp [List.flatMap_map, hf]
  unfold sweepTasks
  rw [List.flatMap_append, List.flatMap_append, List.flatMap_append, flatMap_repair_outbound,
    hnone _ _ (fun _ => rfl), hnone _ _ (fun _ => rfl), List.append_nil]
  rfl

/-- The sweep charges what it puts on the stack. -/
theorem budgeted_sweep (h : Budgeted { s with todo := .sweep :: s.todo } l)
    (hx : execTask now view answer s .sweep = some (s', events)) : Budgeted s' l := by
  cases hx
  have hsized : Sized s.reliable := h.sized
  obtain ⟨done, hloop⟩ := sweepLoop_charged now hsized
  have hnone : ∀ t ∈ s.todo, t.repair = [] := by
    intro t ht
    exact (List.pairwise_cons.mp h.ordered).1 t ht rfl
  have hold : ∀ c, queued (.sweep :: s.todo) c = 0 := by
    intro c
    rw [queued_cons, queued_of_unrepaired hnone]
    rfl
  have hqueued : ∀ c, queued (sweepTasks now s.reliable ++ s.todo) c =
      scheduled (sweepLoop now s.reliable).outbound c := by
    intro c
    rw [queued_append, queued_of_unrepaired hnone, Nat.add_zero, queued, repair_sweepTasks]
    rfl
  refine ⟨fun c => ?_, fun c target' ht' => ?_, h.undisturbed, ?_, ⟨hloop.sized, ?_⟩,
    fun t ht send hs => ?_⟩
  · show _ + _ + queued (sweepTasks now s.reliable ++ s.todo) c ≤ _
    rw [hqueued]
    have hb := h.bounded c
    rw [hold] at hb
    rcases hloop.bounded c with hzero | ⟨target, ht, hle⟩
    · rw [hzero]
      exact hb
    · have hc := h.charged c target ht
      rw [hold] at hc
      omega
  · show _ = _ + _ + _ + queued (sweepTasks now s.reliable ++ s.todo) c
    rw [hqueued]
    obtain ⟨p', hp', hawait⟩ := Option.bind_eq_some_iff.mp ht'
    obtain ⟨p, hp, hcharged⟩ := hloop.charged c.1 p' hp'
    obtain ⟨target, htarget, heq⟩ := hcharged c.2 target' hawait
    have hc := h.charged c target (Option.bind_eq_some_iff.mpr ⟨p, hp, htarget⟩)
    rw [hold] at hc
    rw [heq, hc]
    rfl
  · show Ordered (sweepTasks now s.reliable ++ s.todo)
    rw [sweepTasks, List.append_assoc]
    refine ordered_append (fun t ht => ?_) (fun t ht => ?_)
    · simp only [List.mem_append, List.mem_map, List.mem_singleton] at ht
      rcases ht with (⟨_, _, rfl⟩ | rfl) | ⟨_, _, rfl⟩ <;> rfl
    · rcases List.mem_append.mp ht with ht | ht
      · obtain ⟨_, _, rfl⟩ := List.mem_map.mp ht
        rfl
      · exact hnone t ht
  · intro key value hv
    have hv' : (sweepState now s.reliable).latest[key]? = some value := hv
    rw [sweepState_latest, Option.filter_eq_some_iff] at hv'
    exact h.sized.latest key value (hloop.latest key value hv'.1)
  · rcases List.mem_append.mp ht with ht | ht
    · obtain ⟨value, hvalue, rfl⟩ := mem_sendsOf_sweepTasks.mp (mem_sendsOf.mpr ⟨t, ht, hs⟩)
      obtain ⟨key, hkey, _⟩ := mem_sweepReady.mp hvalue
      exact h.sized.latest key value (hloop.latest key value hkey)
    · exact h.sends t (List.mem_cons_of_mem _ ht) send hs

/-- Every stretch of the executor keeps the invariant, under the condition. -/
theorem budgeted_exec (h : Budgeted { s with todo := task :: s.todo } l)
    (hspares : task.Spares now s.reliable)
    (hx : execTask now view answer s task = some (s', events)) :
    Budgeted s' (l.after now answer s.reliable task) := by
  cases hmetered : task.metered with
  | false =>
      rw [after_unmetered hmetered]
      exact budgeted_unmetered h hmetered hx
  | true =>
      cases task with
      | sweep => exact budgeted_sweep h hx
      | transmit item => exact budgeted_transmit h hx
      | outboundBusy item => exact budgeted_outboundBusy h hspares hx
      | admission send adm => exact budgeted_admission h hx
      | _ => cases hmetered

/-- A section of the receive thread. -/
theorem Budgeted.received {r' : MeshReliable} (decoding : Option Decoding) (h : Budgeted s l)
    (hkept : ChargesKept s.reliable r') (hlatest : r'.latest = s.reliable.latest) :
    Budgeted { s with reliable := r', decoding := decoding } l := by
  refine ⟨h.bounded, fun c target' ht' => ?_, h.undisturbed, h.ordered, ?_, h.sends⟩
  · obtain ⟨target, ht, heq⟩ := hkept.target ht'
    rw [heq]
    exact h.charged c target ht
  · refine hkept.sized h.sized ?_
    rw [hlatest]
    exact h.sized.latest

/-- Tasks pushed on the idle executor. -/
theorem Budgeted.pushed {tasks : List Task} (h : Budgeted s l) (hidle : s.todo = [])
    (hrepair : ∀ t ∈ tasks, t.repair = [])
    (hsends : ∀ t ∈ tasks, ∀ send, t.send = some send → 3 ≤ send.payload.length) :
    Budgeted (s.push tasks) l := by
  have htodo : (s.push tasks).todo = tasks := by
    rw [Station.push, hidle, List.append_nil]
  have hqueued : ∀ c, queued (s.push tasks).todo c = queued s.todo c := by
    intro c
    rw [htodo, hidle, queued_of_unrepaired hrepair, queued_nil]
  refine ⟨fun c => ?_, fun c target ht => ?_, h.undisturbed, ?_, h.sized, ?_⟩
  · rw [hqueued]
    exact h.bounded c
  · rw [hqueued]
    exact h.charged c target ht
  · rw [htodo]
    exact ordered_of_unrepaired hrepair
  · rw [htodo]
    exact hsends

end

theorem budgeted_initial {m : Metered} (h : m.Initial) : Budgeted m.node.station m.ledger := by
  rw [h.ledger]
  refine ⟨fun c => ?_, fun c target ht => ?_, rfl, ?_, h.sized, ?_⟩
  · rw [h.idle]
    exact Nat.zero_le _
  · rw [h.idle]
    simp [Ledger.of, ht]
  · rw [h.idle]
    exact List.Pairwise.nil
  · rw [h.idle]
    simp

theorem length_bridgePayload (bridge : SharedTopicConfig) (body : Bytes) :
    3 ≤ (bridgePayload bridge body).length := by
  simp only [bridgePayload, u16Bytes, List.length_append, List.length_cons, List.length_nil]
  omega

theorem budgeted_step {m m' : Metered} {a : NodeAction}
    (h : Budgeted m.node.station m.ledger) (hspares : Spares m a) (hx : m.step a = some m') :
    Budgeted m'.node.station m'.ledger := by
  obtain ⟨node, hnode, rfl⟩ := Option.map_eq_some_iff.mp hx
  cases a with
  | advance duration =>
      cases hnode
      exact h
  | act action =>
      obtain ⟨⟨s', events⟩, hstep, rfl⟩ := Option.map_eq_some_iff.mp hnode
      cases action with
      | submit bridge body =>
          simp only [Station.step] at hstep
          split at hstep <;> cases hstep
          refine h.pushed ‹_› (by simp [Task.repair]) (fun t ht send hs => ?_)
          rw [List.mem_singleton.mp ht] at hs
          cases hs
          exact length_bridgePayload bridge body
      | tick =>
          simp only [Station.step] at hstep
          split at hstep
          · split at hstep <;> cases hstep
            exact h.pushed ‹_› (by simp [Task.repair]) (by simp [Task.send])
          · cases hstep
      | exec view answer =>
          simp only [Station.step] at hstep
          split at hstep
          · cases hstep
          · rename_i task todo htodo
            have hbefore : Budgeted { ({ m.node.station with todo := todo } : Station) with
                todo := task :: todo } m.ledger := by
              rw [← htodo]
              exact h
            have hnext : m.next (.act (.exec view answer)) =
                m.ledger.after m.node.now answer m.node.station.reliable task := by
              simp only [Metered.next, htodo]
            show Budgeted s' (m.next (.act (.exec view answer)))
            rw [hnext]
            refine budgeted_exec (s := { m.node.station with todo := todo }) hbefore ?_ hstep
            exact hspares task (by rw [htodo]; rfl)
      | receive policy message =>
          simp only [Station.step] at hstep
          split at hstep
          · have hs' := Option.some.inj hstep
            have hkept := chargesKept_receive m.node.now policy message m.node.station
            have hlatest := (samplesKept_receive m.node.now policy message m.node.station).latest
            have htodo := receive_todo m.node.now policy message m.node.station
            rw [hs'] at hkept hlatest htodo
            have hrec := h.received s'.decoding hkept hlatest
            exact ⟨by rw [htodo]; exact hrec.bounded, by rw [htodo]; exact hrec.charged,
              hrec.undisturbed, by rw [htodo]; exact hrec.ordered, hrec.sized,
              by rw [htodo]; exact hrec.sends⟩
          · cases hstep
      | decode delivered =>
          simp only [Station.step] at hstep
          split at hstep <;> cases hstep
          exact h.received _ (chargesKept_of_eq rfl) rfl
      | finish view =>
          simp only [Station.step] at hstep
          split at hstep <;> cases hstep
          exact h.received _ (chargesKept_of_eq (finishData_pending _ _ _ _ _ _))
            (samplesKept_finishData _ _ _ _ _ _).latest
      | requestReset =>
          cases hstep
          exact ⟨h.bounded, h.charged, h.undisturbed, h.ordered, h.sized, h.sends⟩
      | reconfigure meshApp coordinator =>
          simp only [Station.step] at hstep
          split at hstep <;> cases hstep
          exact h.pushed ‹_› (by simp [Task.repair]) (by simp [Task.send])

/-- A step that does not meet the condition changes a target for a frame that is no repair. -/
theorem disturbed_of_not_spares {m m' : Metered} {a : NodeAction} (hspares : ¬ Spares m a)
    (hx : m.step a = some m') : m'.ledger.disturbed = true := by
  obtain ⟨node, _, rfl⟩ := Option.map_eq_some_iff.mp hx
  cases a with
  | advance duration => exact absurd trivial hspares
  | act action =>
      cases action with
      | exec view answer =>
          simp only [Spares, not_forall] at hspares
          obtain ⟨task, hhead, htask⟩ := hspares
          obtain ⟨todo, htodo⟩ := List.head?_eq_some_iff.mp hhead
          cases task with
          | outboundBusy item =>
              simp only [Task.Spares, not_or, Bool.not_eq_true] at htask
              have hbudgets : budgets (outboundBusy item m.node.now m.node.station.reliable) ≠
                  budgets m.node.station.reliable :=
                fun heq => htask.2 ((budgets_outboundBusy item _ _).mp heq)
              simp only [Metered.next, htodo, Ledger.after, htask.1, Bool.false_eq_true, if_false,
                hbudgets, ne_eq, not_false_eq_true, decide_true, Bool.or_true]
          | _ => exact absurd trivial htask
      | _ => exact absurd trivial hspares

/-- **The repair budget.** As long as no refused acknowledgement or query finds a target to
change, at most three repairs of a sample leave the node for each destination, refused repairs
are not charged, and nothing else is refunded; the next step keeps this exactly under the same
condition. -/
theorem repair_budget {m : Metered}
    (h : Run.ReachableUnder Metered.step Spares Metered.Initial m) :
    KeepsBudget m ∧ ∀ a m', m.step a = some m' → (KeepsBudget m' ↔ Spares m a) := by
  have hinv : ∀ {m : Metered}, Run.ReachableUnder Metered.step Spares Metered.Initial m →
      Budgeted m.node.station m.ledger := fun hm =>
    hm.invariant (P := fun m => Budgeted m.node.station m.ledger)
      (fun _ hinit => budgeted_initial hinit) (fun _ _ _ hb hok hx => budgeted_step hb hok hx)
  refine ⟨(hinv h).keepsBudget, fun a m' hx => ⟨fun hkeeps => ?_, fun hspares => ?_⟩⟩
  · by_contra hspares
    have hdisturbed := disturbed_of_not_spares hspares hx
    rw [hkeeps.undisturbed] at hdisturbed
    cases hdisturbed
  · exact (hinv (.next h hspares hx)).keepsBudget

/-! ## Runs -/

/-- A node whose first sample waits for one peer, at the time of its admission. -/
def oneSample : MeshReliable :=
  admitSample 0 ⟨reliableChannel, bridgePayload reliableChannel [7], false⟩
    { sequence := 1, targets := [2] }
    (makeMeshReliableData (bridgePayload reliableChannel [7]) 1 0) {}

def meteredSample : Metered :=
  { node := { station := { reliable := oneSample } }, ledger := .of oneSample }

theorem meteredSample_initial : meteredSample.Initial := by
  refine ⟨rfl, ⟨fun q p hp => ?_, fun key value hv => ?_⟩, rfl⟩
  · have hp' : oneSample.pending[q]? = some p := hp
    rw [oneSample, admitSample_pending _ _ _ _ (by simp)] at hp'
    split at hp'
    · rename_i hq
      cases hp'
      exact ⟨length_makeMeshReliableData _ _ _,
        (meshReliableSequence_make _ _ _ (length_bridgePayload _ _)).trans hq.symm⟩
    · split at hp' <;> simp at hp'
  · have hv' : oneSample.latest[key]? = some value := hv
    rw [oneSample, admitSample_latest] at hv'
    simp at hv'

/-- One pass of maintenance after a time, with the daemon's answers in the order of its
calls. -/
def passAfter (duration : Time) (answers : List Answer) : List NodeAction :=
  .advance duration :: .act .tick :: answers.map fun answer => .act (.exec {} answer)

/-- The daemon refuses a receipt query, and admits a repair when the retry is due. -/
def refusedQuery (duration : Time) (before : List Answer) : List NodeAction :=
  passAfter duration (.ok :: .ok :: (before ++ [Answer.ok, .ok, .pending false, .busy, .ok])) ++
    passAfter meshQueueRetryDelay
      (.ok :: .ok :: (before ++ [Answer.ok, .ok, .ok, .handle ⟨11, 1⟩, .ok]))

/-- Four times a refused query gives the attempt of the last repair back. -/
def fourRepairs : List NodeAction :=
  refusedQuery (seconds 2) [] ++
    (List.replicate 3 (refusedQuery (seconds 2) [.pending true])).flatten

theorem repair_budget_refused_queries :
    ¬ ∀ m, Run.Reachable Metered.step Metered.Initial m → KeepsBudget m := by
  intro hall
  have hrun : ((Run.exec Metered.step meteredSample fourRepairs).map fun m =>
      (m.ledger.account (1, 2)).admitted) = some 4 := by decide +kernel
  obtain ⟨m, hm, hadmitted⟩ := Option.map_eq_some_iff.mp hrun
  have hbound := (hall m (Run.Reachable.exec (.start meteredSample_initial) hm)).admitted (1, 2)
  omega

/-- A repair is refused and then admitted; the queries before it are not refused. -/
def admittedQueries : List NodeAction :=
  passAfter (seconds 2) [.ok, .ok, .ok, .ok, .ok, .handle ⟨11, 1⟩] ++
    passAfter (seconds 2) [.ok, .ok, .ok, .ok, .ok, .handle ⟨12, 1⟩] ++
    passAfter (seconds 1) [.ok, .ok, .ok, .ok, .ok, .busy, .ok] ++
    passAfter meshQueueRetryDelay [.ok, .ok, .ok, .ok, .ok, .handle ⟨13, 1⟩, .ok]

theorem repair_budget_admitted_queries :
    ∃ m, KeepsBudget m ∧ (m.ledger.account (1, 2)).admitted = 1 := by
  have hrun : ((Run.exec Metered.step meteredSample admittedQueries).map fun m =>
      (m.ledger.account (1, 2)).admitted) = some 1 := by decide +kernel
  obtain ⟨m, hm, hadmitted⟩ := Option.map_eq_some_iff.mp hrun
  have hguard : Run.allowed Metered.step (fun m a => decide (Spares m a)) meteredSample
      admittedQueries = true := by decide +kernel
  have hreach : Run.ReachableUnder Metered.step Spares Metered.Initial m :=
    Run.ReachableUnder.exec (.start meteredSample_initial) (Run.guarded_of_decide hguard) hm
  exact ⟨m, (repair_budget hreach).1, hadmitted⟩

end UavBluetooth.Mesh
