import UavBluetooth.Mesh.Maintain

set_option autoImplicit false

/-! # What a maintenance sweep does

The two loops of the sweep, described from outside: what the inner one does to a target of a sample
(`targetSwept_sweepTargets`), an induction rule for the loop over the pending samples
(`sweepLoop_induct`), and what the samples, the frames and the checks are after it, in terms of the
state before (`sweepLoop_spec`).
-/

namespace UavBluetooth.Mesh

open Config

/-! ## The loop over a sample's targets -/

/-- The frame is a query for the sample or a repair of it, to one of its targets. -/
def Outbound.Serves (item : Outbound) (sample : MeshReliablePending) : Prop :=
  item.destination ∈ sample.awaiting ∧ item.appKeyIndex = sample.appKeyIndex ∧
  item.elementIndex = sample.elementIndex ∧ item.acknowledgement = false ∧
  ((item.data = receiptQueryOf sample.data ∧
      ∃ target, sample.awaiting[item.destination]? = some target ∧
        item.transfer = target.transfer) ∨
    (item.data = repairFrame sample item.destination ∧ item.transfer = none))

/-- What the loop keeps: the targets and their transfers, and the frames scheduled so far. -/
structure TargetSwept (sequence : UInt16) (sample : MeshReliablePending)
    (outbound : List Outbound) (checks : List TransferCheck) (acc : TargetSweep) : Prop where
  transfers : ∀ d : UInt16, (acc.awaiting[d]?).map MeshReliableTarget.transfer =
    (sample.awaiting[d]?).map MeshReliableTarget.transfer
  outbound : ∀ item ∈ acc.outbound, item ∈ outbound ∨ item.Serves sample
  checks : ∀ check ∈ acc.checks, check ∈ checks ∨
    (check.sequence = sequence ∧ ∃ target,
      sample.awaiting[check.destination]? = some target ∧
        target.transfer = some check.handle)

@[simp] theorem afterCheck_transfer (now : Time) (sample : MeshReliablePending)
    (target : MeshReliableTarget) :
    (afterCheck now sample target).transfer = target.transfer := by
  unfold afterCheck
  split <;> rfl

theorem targetSwept_step {now : Time} {peers : UInt16 → MeshReliablePeerState}
    {sequence : UInt16} {sample : MeshReliablePending} {outbound : List Outbound}
    {checks : List TransferCheck} {acc : TargetSweep} {item : UInt16 × MeshReliableTarget}
    (h : TargetSwept sequence sample outbound checks acc)
    (hitem : sample.awaiting[item.1]? = some item.2) :
    TargetSwept sequence sample outbound checks
      (sweepTarget now peers sequence sample acc item) := by
  have hmem : item.1 ∈ sample.awaiting := by
    rw [Std.ExtTreeMap.mem_iff_isSome_getElem?, hitem]
    rfl
  -- An updated target keeps its transfer.
  have htransfers : ∀ target : MeshReliableTarget, target.transfer = item.2.transfer →
      ∀ d : UInt16, ((acc.awaiting.insert item.1 target)[d]?).map MeshReliableTarget.transfer =
        (sample.awaiting[d]?).map MeshReliableTarget.transfer := by
    intro target htarget d
    rw [Std.ExtTreeMap.getElem?_insert]
    split
    · rename_i heq
      have hd : item.1 = d := by simpa using heq
      rw [← hd, hitem]
      simp [htarget]
    · exact h.transfers d
  have hchecks : ∀ check ∈ acc.checks ++
      (dueCheck now sample item.2).toList.map
        (fun handle => (⟨sequence, item.1, handle⟩ : TransferCheck)),
      check ∈ checks ∨ (check.sequence = sequence ∧ ∃ target,
        sample.awaiting[check.destination]? = some target ∧
          target.transfer = some check.handle) := by
    intro check hcheck
    rcases List.mem_append.mp hcheck with hold | hnew
    · exact h.checks check hold
    · obtain ⟨handle, hhandle, rfl⟩ := List.mem_map.mp hnew
      rw [Option.mem_toList, dueCheck, Option.filter_eq_some_iff] at hhandle
      exact Or.inr ⟨rfl, item.2, hitem, hhandle.1⟩
  unfold sweepTarget
  split
  · exact h
  · simp only
    split
    · refine ⟨htransfers _ (afterCheck_transfer now sample item.2), fun o ho => ?_, hchecks⟩
      rcases List.mem_append.mp ho with hold | hnew
      · exact h.outbound o hold
      · rw [List.mem_singleton] at hnew
        subst hnew
        exact Or.inr ⟨hmem, rfl, rfl, rfl,
          Or.inl ⟨rfl, item.2, hitem, afterCheck_transfer now sample item.2⟩⟩
    · split
      · exact ⟨htransfers _ (afterCheck_transfer now sample item.2), h.outbound, hchecks⟩
      · refine ⟨htransfers _ (afterCheck_transfer now sample item.2), fun o ho => ?_, hchecks⟩
        rcases List.mem_append.mp ho with hold | hnew
        · exact h.outbound o hold
        · rw [List.mem_singleton] at hnew
          subst hnew
          exact Or.inr ⟨hmem, rfl, rfl, rfl, Or.inr ⟨rfl, rfl⟩⟩

theorem targetSwept_sweepTargets (now : Time) (sequence : UInt16)
    (sample : MeshReliablePending) (acc : Sweep) :
    TargetSwept sequence sample acc.outbound acc.checks
      (sweepTargets now sequence sample acc) := by
  unfold sweepTargets
  -- Every item of the list is a target of the sample.
  have hitems : ∀ item ∈ sample.awaiting.toList, sample.awaiting[item.1]? = some item.2 :=
    fun item hitem => Std.ExtTreeMap.mem_toList_iff_getElem?_eq_some.mp hitem
  have hstart : TargetSwept sequence sample acc.outbound acc.checks
      ⟨sample.awaiting, acc.outbound, acc.checks, acc.scheduledRepairs⟩ :=
    ⟨fun _ => rfl, fun item h => Or.inl h, fun check h => Or.inl h⟩
  generalize sample.awaiting.toList = items at hitems
  generalize (⟨sample.awaiting, acc.outbound, acc.checks, acc.scheduledRepairs⟩ :
    TargetSweep) = start at hstart
  induction items generalizing start with
  | nil => exact hstart
  | cons item items ih =>
      exact ih (fun i hi => hitems i (List.mem_cons_of_mem _ hi)) _
        (targetSwept_step hstart (hitems item List.mem_cons_self))

/-! ## The loop over the samples -/

/-- The loop visits each pending sample once, as it was before the loop; `done` are the
sequences visited so far. -/
theorem sweepLoop_induct {now : Time} {r : MeshReliable} {P : List UInt16 → Sweep → Prop}
    (h0 : P [] { pending := r.pending, latest := r.latest
                 transferCancellations := r.transferCancellations, peers := r.peers
                 outbound := (r.acks.take 4).map ackOutbound })
    (hstep : ∀ done acc sequence sample, P done acc → sequence ∉ done →
      r.pending[sequence]? = some sample → acc.pending[sequence]? = some sample →
      P (sequence :: done) (sweepSample now acc (sequence, sample))) :
    ∃ done, P done (sweepLoop now r) ∧ ∀ sequence ∈ r.pending, sequence ∈ done := by
  unfold sweepLoop
  have hitems : ∀ item ∈ r.pending.toList, r.pending[item.1]? = some item.2 :=
    fun item hitem => Std.ExtTreeMap.mem_toList_iff_getElem?_eq_some.mp hitem
  have hdistinct := Std.ExtTreeMap.distinct_keys_toList (t := r.pending)
  have hstart : ∀ item ∈ r.pending.toList,
      (⟨r.pending, r.latest, r.transferCancellations, r.peers,
        (r.acks.take 4).map ackOutbound, [], [], []⟩ : Sweep).pending[item.1]? =
        some item.2 := hitems
  have hdone : ∀ sequence ∈ r.pending,
      sequence ∈ ([] : List UInt16) ∨ ∃ sample, (sequence, sample) ∈ r.pending.toList := by
    intro sequence hmem
    rw [Std.ExtTreeMap.mem_iff_isSome_getElem?, Option.isSome_iff_exists] at hmem
    obtain ⟨sample, hsample⟩ := hmem
    exact Or.inr ⟨sample, Std.ExtTreeMap.mem_toList_iff_getElem?_eq_some.mpr hsample⟩
  have hfresh : ∀ item ∈ r.pending.toList, item.1 ∉ ([] : List UInt16) := by simp
  generalize r.pending.toList = items at hitems hdistinct hstart hdone hfresh
  generalize (⟨r.pending, r.latest, r.transferCancellations, r.peers,
    (r.acks.take 4).map ackOutbound, [], [], []⟩ : Sweep) = acc at h0 hstart
  generalize ([] : List UInt16) = done at h0 hdone hfresh
  induction items generalizing acc done with
  | nil =>
      refine ⟨done, h0, fun sequence hmem => ?_⟩
      rcases hdone sequence hmem with h | ⟨sample, h⟩
      · exact h
      · cases h
  | cons item items ih =>
      rw [List.pairwise_cons] at hdistinct
      have hne : ∀ i ∈ items, item.1 ≠ i.1 := by
        intro i hi
        simpa using hdistinct.1 i hi
      refine ih (fun i hi => hitems i (List.mem_cons_of_mem _ hi)) hdistinct.2
        (sweepSample now acc item) ?_ (item.1 :: done)
        (hstep done acc item.1 item.2 h0 (hfresh item List.mem_cons_self)
          (hitems item List.mem_cons_self) (hstart item List.mem_cons_self)) ?_ ?_
      · intro i hi
        -- Other samples are untouched by this iteration.
        have hold := hstart i (List.mem_cons_of_mem _ hi)
        unfold sweepSample
        simp only
        split
        · simp [Std.ExtTreeMap.getElem?_erase, hne i hi, hold]
        · split
          · simp [Std.ExtTreeMap.getElem?_erase, hne i hi, hold]
          · simp [Std.ExtTreeMap.getElem?_insert, hne i hi, hold]
      · intro sequence hmem
        rcases hdone sequence hmem with h | ⟨sample, h⟩
        · exact Or.inl (List.mem_cons_of_mem _ h)
        · rcases List.mem_cons.mp h with heq | h
          · left
            rw [← heq]
            exact List.mem_cons_self
          · exact Or.inr ⟨sample, h⟩
      · intro i hi hmem
        rcases List.mem_cons.mp hmem with heq | h
        · exact hne i hi heq.symm
        · exact hfresh i (List.mem_cons_of_mem _ hi) h

/-! ## What becomes of the samples -/

/-- Only the data and the timing of the targets may differ. -/
structure SameSample (p p' : MeshReliablePending) : Prop where
  channelKey : p'.channelKey = p.channelKey
  transfers : ∀ d : UInt16, (p'.awaiting[d]?).map MeshReliableTarget.transfer =
    (p.awaiting[d]?).map MeshReliableTarget.transfer
  primaryTransfer : p'.primaryTransfer = p.primaryTransfer
  appKeyIndex : p'.appKeyIndex = p.appKeyIndex
  elementIndex : p'.elementIndex = p.elementIndex
  turnSuccessor : p'.turnSuccessor = p.turnSuccessor
  nativeCompletionReleasesChannel :
    p'.nativeCompletionReleasesChannel = p.nativeCompletionReleasesChannel
  blocksChannel : p'.blocksChannel = p.blocksChannel
  created : p'.created = p.created

theorem SameSample.refl (p : MeshReliablePending) : SameSample p p :=
  ⟨rfl, fun _ => rfl, rfl, rfl, rfl, rfl, rfl, rfl, rfl⟩

theorem SameSample.mem_awaiting {p p' : MeshReliablePending} (h : SameSample p p')
    {d : UInt16} : d ∈ p'.awaiting ↔ d ∈ p.awaiting := by
  have ht := congrArg Option.isSome (h.transfers d)
  simp only [Option.isSome_map] at ht
  rw [Std.ExtTreeMap.mem_iff_isSome_getElem?, Std.ExtTreeMap.mem_iff_isSome_getElem?, ht]

theorem Outbound.Serves.same {item : Outbound} {p p' : MeshReliablePending}
    (h : item.Serves p) (hs : SameSample p p') (hd : p'.data = p.data) : item.Serves p' := by
  obtain ⟨hmem, happ, hel, hack, hdata⟩ := h
  refine ⟨hs.mem_awaiting.mpr hmem, happ.trans hs.appKeyIndex.symm,
    hel.trans hs.elementIndex.symm, hack, ?_⟩
  rcases hdata with ⟨hq, target, htarget, htr⟩ | ⟨hr, htr⟩
  · left
    have ht := hs.transfers item.destination
    rw [htarget, Option.map_some] at ht
    obtain ⟨target', htarget', heq⟩ := Option.map_eq_some_iff.mp ht
    exact ⟨by rw [hd, hq], target', htarget', by rw [htr, heq]⟩
  · right
    refine ⟨?_, htr⟩
    rw [hr, repairFrame, repairFrame, hs.turnSuccessor, hd]

/-- The data that a fold gives the sample of `sequence`. -/
def foldedData (sequence : UInt16) (sample : MeshReliablePending) (payload : Bytes) : Bytes :=
  makeMeshReliableData payload sequence (meshReliableSwarmId sample.data)

/-- The local variables of the loop, against the state before it. -/
structure LoopInv (r : MeshReliable) (done : List UInt16) (acc : Sweep) : Prop where
  untouched : ∀ sequence ∉ done, acc.pending[sequence]? = r.pending[sequence]?
  kept : ∀ (sequence : UInt16) (p' : MeshReliablePending), acc.pending[sequence]? = some p' →
    ∃ p, r.pending[sequence]? = some p ∧ SameSample p p' ∧
      (p'.data = p.data ∨
        ∃ bridge payload, r.latest[p.channelKey]? = some (bridge, payload) ∧
          p'.data = foldedData sequence p payload ∧
          .folded sequence p.channelKey payload ∈ acc.events)
  gone : ∀ (sequence : UInt16) (p : MeshReliablePending), r.pending[sequence]? = some p →
    acc.pending[sequence]? = none →
      (.finished sequence ∈ acc.events ∧ p.awaiting.isEmpty = true) ∨
        .expired sequence ∈ acc.events
  latest_sub : ∀ (key : UInt64) (value : SharedTopicConfig × Bytes),
    acc.latest[key]? = some value → r.latest[key]? = some value
  latest_gone : ∀ (key : UInt64) (value : SharedTopicConfig × Bytes),
    r.latest[key]? = some value → acc.latest[key]? = none →
      ∃ sequence, .folded sequence key value.2 ∈ acc.events
  folded : ∀ sequence key payload, .folded sequence key payload ∈ acc.events →
    sequence ∈ done ∧ acc.latest[key]? = none ∧
      ∃ p p' bridge, r.pending[sequence]? = some p ∧ acc.pending[sequence]? = some p' ∧
        p.channelKey = key ∧ r.latest[key]? = some (bridge, payload) ∧
        p'.data = foldedData sequence p payload
  outbound : ∀ item ∈ acc.outbound, item ∈ (r.acks.take 4).map ackOutbound ∨
    ∃ sequence ∈ done, ∃ p', acc.pending[sequence]? = some p' ∧ item.Serves p'
  checks : ∀ check ∈ acc.checks, ∃ p, r.pending[check.sequence]? = some p ∧
    ∃ target, p.awaiting[check.destination]? = some target ∧
      target.transfer = some check.handle

/-- Dropping a sample keeps the invariant. -/
theorem LoopInv.drop {r : MeshReliable} {done : List UInt16} {acc acc' : Sweep}
    {sequence : UInt16} {sample : MeshReliablePending} {e : SweepEvent}
    (h : LoopInv r done acc) (hfresh : sequence ∉ done)
    (hr : r.pending[sequence]? = some sample)
    (hpending : acc'.pending = acc.pending.erase sequence) (hlatest : acc'.latest = acc.latest)
    (houtbound : acc'.outbound = acc.outbound) (hchecks : acc'.checks = acc.checks)
    (hevents : acc'.events = acc.events ++ [e])
    (he : (e = .finished sequence ∧ sample.awaiting.isEmpty = true) ∨ e = .expired sequence) :
    LoopInv r (sequence :: done) acc' := by
  have hother : ∀ s : UInt16, s ≠ sequence → acc'.pending[s]? = acc.pending[s]? := by
    intro s hs
    rw [hpending, Std.ExtTreeMap.getElem?_erase]
    simp [Ne.symm hs]
  have hself : acc'.pending[sequence]? = none := by
    rw [hpending]
    simp
  have hold : ∀ e', e' ∈ acc.events → e' ∈ acc'.events := by
    intro e' he'
    rw [hevents]
    exact List.mem_append_left _ he'
  have hnew : e ∈ acc'.events := by rw [hevents]; simp
  constructor
  · intro s hs
    rw [List.mem_cons, not_or] at hs
    rw [hother s hs.1]
    exact h.untouched s hs.2
  · intro s p' hp'
    have hs : s ≠ sequence := by
      rintro rfl
      rw [hself] at hp'
      cases hp'
    rw [hother s hs] at hp'
    obtain ⟨p, hp, hsame, hdata⟩ := h.kept s p' hp'
    refine ⟨p, hp, hsame, ?_⟩
    rcases hdata with hd | ⟨bridge, payload, hl, hd, hf⟩
    · exact Or.inl hd
    · exact Or.inr ⟨bridge, payload, hl, hd, hold _ hf⟩
  · intro s p hp hnone
    by_cases hs : s = sequence
    · subst hs
      rw [hr] at hp
      cases hp
      rcases he with ⟨rfl, hempty⟩ | rfl
      · exact Or.inl ⟨hnew, hempty⟩
      · exact Or.inr hnew
    · rw [hother s hs] at hnone
      rcases h.gone s p hp hnone with ⟨hf, hempty⟩ | hx
      · exact Or.inl ⟨hold _ hf, hempty⟩
      · exact Or.inr (hold _ hx)
  · rw [hlatest]
    exact h.latest_sub
  · rw [hlatest]
    intro key value hk hn
    obtain ⟨s, hs⟩ := h.latest_gone key value hk hn
    exact ⟨s, hold _ hs⟩
  · intro s key payload hf
    have hf' : SweepEvent.folded s key payload ∈ acc.events := by
      rw [hevents, List.mem_append, List.mem_singleton] at hf
      rcases hf with hf | rfl
      · exact hf
      · rcases he with ⟨h', _⟩ | h' <;> cases h'
    obtain ⟨hdone, hn, p, p', bridge, hp, hp', hrest⟩ := h.folded s key payload hf'
    refine ⟨List.mem_cons_of_mem _ hdone, by rw [hlatest]; exact hn, p, p', bridge, hp, ?_, hrest⟩
    rw [hother s (fun heq => hfresh (heq ▸ hdone))]
    exact hp'
  · rw [houtbound]
    intro item hitem
    rcases h.outbound item hitem with hack | ⟨s, hdone, p', hp', hserves⟩
    · exact Or.inl hack
    · refine Or.inr ⟨s, List.mem_cons_of_mem _ hdone, p', ?_, hserves⟩
      rw [hother s (fun heq => hfresh (heq ▸ hdone))]
      exact hp'
  · rw [hchecks]
    exact h.checks

theorem foldLatest_same (latest : Std.ExtTreeMap UInt64 (SharedTopicConfig × Bytes))
    (sequence : UInt16) (sample : MeshReliablePending) :
    SameSample sample (foldLatest latest sequence sample) := by
  unfold foldLatest
  split
  · exact ⟨rfl, fun _ => rfl, rfl, rfl, rfl, rfl, rfl, rfl, rfl⟩
  · exact SameSample.refl sample

/-- Folding and repairing a sample keeps the invariant. -/
theorem LoopInv.serve {r : MeshReliable} {done : List UInt16} {acc : Sweep} {now : Time}
    {sequence : UInt16} {sample : MeshReliablePending} (h : LoopInv r done acc)
    (hfresh : sequence ∉ done) (hr : r.pending[sequence]? = some sample)
    (hlive : sample.awaiting.isEmpty = false) (hyoung : ¬ seconds 30 < now - sample.created) :
    LoopInv r (sequence :: done) (sweepSample now acc (sequence, sample)) := by
  set folded := foldLatest acc.latest sequence sample with hfolded
  set swept := sweepTargets now sequence folded acc with hswept
  have hsweep : sweepSample now acc (sequence, sample) = { acc with
      pending := acc.pending.insert sequence { folded with awaiting := swept.awaiting }
      latest := acc.latest.erase sample.channelKey
      outbound := swept.outbound
      checks := swept.checks
      scheduledRepairs := swept.scheduledRepairs
      events := acc.events ++
        (acc.latest[sample.channelKey]?).toList.map
          fun value => .folded sequence sample.channelKey value.2 } := by
    unfold sweepSample
    simp [hlive, hyoung, hfolded, hswept]
  rw [hsweep]
  have hspec := targetSwept_sweepTargets now sequence folded acc
  have hfsame := foldLatest_same acc.latest sequence sample
  rw [← hfolded] at hfsame
  -- The sample afterwards.
  have hsame : SameSample sample { folded with awaiting := swept.awaiting } :=
    ⟨hfsame.channelKey, fun d => (hspec.transfers d).trans (hfsame.transfers d),
      hfsame.primaryTransfer, hfsame.appKeyIndex, hfsame.elementIndex, hfsame.turnSuccessor,
      hfsame.nativeCompletionReleasesChannel, hfsame.blocksChannel, hfsame.created⟩
  have hsame' : SameSample folded { folded with awaiting := swept.awaiting } :=
    ⟨rfl, hspec.transfers, rfl, rfl, rfl, rfl, rfl, rfl, rfl⟩
  have hother : ∀ s : UInt16, s ≠ sequence →
      (acc.pending.insert sequence { folded with awaiting := swept.awaiting })[s]? =
        acc.pending[s]? := by
    intro s hs
    rw [Std.ExtTreeMap.getElem?_insert]
    simp [Ne.symm hs]
  have hself : (acc.pending.insert sequence { folded with awaiting := swept.awaiting })[sequence]? =
      some { folded with awaiting := swept.awaiting } := by simp
  have hevent : ∀ {s key payload}, SweepEvent.folded s key payload ∈ acc.events ++
      (acc.latest[sample.channelKey]?).toList.map
        (fun value => .folded sequence sample.channelKey value.2) →
      .folded s key payload ∈ acc.events ∨
        (s = sequence ∧ key = sample.channelKey ∧
          ∃ bridge, acc.latest[sample.channelKey]? = some (bridge, payload)) := by
    intro s key payload hf
    rcases List.mem_append.mp hf with hf | hf
    · exact Or.inl hf
    · obtain ⟨value, hvalue, heq⟩ := List.mem_map.mp hf
      rw [Option.mem_toList] at hvalue
      simp only [SweepEvent.folded.injEq] at heq
      obtain ⟨rfl, rfl, rfl⟩ := heq
      exact Or.inr ⟨rfl, rfl, value.1, hvalue⟩
  have hdata : ∀ bridge payload, acc.latest[sample.channelKey]? = some (bridge, payload) →
      folded.data = foldedData sequence sample payload := by
    intro bridge payload hl
    rw [hfolded]
    unfold foldLatest
    rw [hl]
    rfl
  constructor
  · intro s hs
    rw [List.mem_cons, not_or] at hs
    show (acc.pending.insert sequence _)[s]? = _
    rw [hother s hs.1]
    exact h.untouched s hs.2
  · intro s p' hp'
    by_cases hs : s = sequence
    · subst hs
      rw [hself] at hp'
      cases hp'
      refine ⟨sample, hr, hsame, ?_⟩
      cases hl : acc.latest[sample.channelKey]? with
      | none =>
          left
          show folded.data = sample.data
          rw [hfolded]
          unfold foldLatest
          rw [hl]
      | some value =>
          right
          refine ⟨value.1, value.2, h.latest_sub _ _ hl, hdata value.1 value.2 hl, ?_⟩
          simp
    · rw [hother s hs] at hp'
      obtain ⟨p, hp, hsame, hd⟩ := h.kept s p' hp'
      refine ⟨p, hp, hsame, ?_⟩
      rcases hd with hd | ⟨bridge, payload, hl, hd, hf⟩
      · exact Or.inl hd
      · exact Or.inr ⟨bridge, payload, hl, hd, List.mem_append_left _ hf⟩
  · intro s p hp hnone
    have hs : s ≠ sequence := by
      rintro rfl
      rw [hself] at hnone
      cases hnone
    rw [hother s hs] at hnone
    rcases h.gone s p hp hnone with ⟨hf, hempty⟩ | hx
    · exact Or.inl ⟨List.mem_append_left _ hf, hempty⟩
    · exact Or.inr (List.mem_append_left _ hx)
  · intro key value hk
    rw [Std.ExtTreeMap.getElem?_erase] at hk
    split at hk
    · cases hk
    · exact h.latest_sub key value hk
  · intro key value hk hn
    rw [Std.ExtTreeMap.getElem?_erase] at hn
    split at hn
    · rename_i heq
      have hkey : sample.channelKey = key := by simpa using heq
      cases hl : acc.latest[key]? with
      | none =>
          obtain ⟨s, hs⟩ := h.latest_gone key value hk hl
          exact ⟨s, List.mem_append_left _ hs⟩
      | some value' =>
          have := h.latest_sub key value' hl
          rw [hk] at this
          cases this
          refine ⟨sequence, List.mem_append_right _ ?_⟩
          rw [hkey, hl]
          simp
    · obtain ⟨s, hs⟩ := h.latest_gone key value hk hn
      exact ⟨s, List.mem_append_left _ hs⟩
  · intro s key payload hf
    rcases hevent hf with hf | ⟨rfl, rfl, bridge, hl⟩
    · obtain ⟨hdone, hn, p, p', bridge, hp, hp', hrest⟩ := h.folded s key payload hf
      refine ⟨List.mem_cons_of_mem _ hdone, ?_, p, p', bridge, hp, ?_, hrest⟩
      · rw [Std.ExtTreeMap.getElem?_erase]
        split
        · rfl
        · exact hn
      · exact (hother s (fun heq => hfresh (heq ▸ hdone))).trans hp'
    · exact ⟨List.mem_cons_self, by simp, sample, _, bridge, hr, hself, rfl,
        h.latest_sub _ _ hl, hdata bridge payload hl⟩
  · intro item hitem
    rcases hspec.outbound item hitem with hold | hserves
    · rcases h.outbound item hold with hack | ⟨s, hdone, p', hp', hserves⟩
      · exact Or.inl hack
      · exact Or.inr ⟨s, List.mem_cons_of_mem _ hdone, p',
          (hother s (fun heq => hfresh (heq ▸ hdone))).trans hp', hserves⟩
    · exact Or.inr ⟨sequence, List.mem_cons_self, _, hself, hserves.same hsame' rfl⟩
  · intro check hcheck
    rcases hspec.checks check hcheck with hold | ⟨hseq, target, htarget, htr⟩
    · exact h.checks check hold
    · refine ⟨sample, hseq ▸ hr, ?_⟩
      have ht := hfsame.transfers check.destination
      rw [htarget, Option.map_some] at ht
      obtain ⟨target', htarget', heq⟩ := Option.map_eq_some_iff.mp ht.symm
      exact ⟨target', htarget', heq.trans htr⟩

/-- **The loop over the pending samples**, in terms of the state before it. -/
theorem sweepLoop_spec (now : Time) (r : MeshReliable) :
    ∃ done, LoopInv r done (sweepLoop now r) ∧ ∀ sequence ∈ r.pending, sequence ∈ done := by
  refine sweepLoop_induct (P := LoopInv r) ?_ ?_
  · refine ⟨fun _ _ => rfl, fun s p hp => ⟨p, hp, SameSample.refl p, Or.inl rfl⟩, ?_,
      fun _ _ h => h, ?_, ?_, fun item hitem => Or.inl hitem, ?_⟩
    · intro s p hp hn
      rw [hp] at hn
      cases hn
    · intro key value hk hn
      rw [hk] at hn
      cases hn
    · intro s key payload hf
      cases hf
    · intro check hcheck
      cases hcheck
  · intro done acc sequence sample h hfresh hr _
    by_cases hempty : sample.awaiting.isEmpty = true
    · refine h.drop (e := .finished sequence) hfresh hr ?_ ?_ ?_ ?_ ?_ (Or.inl ⟨rfl, hempty⟩) <;>
        simp [sweepSample, hempty]
    · by_cases hold : seconds 30 < now - sample.created
      · refine h.drop (e := .expired sequence) hfresh hr ?_ ?_ ?_ ?_ ?_ (Or.inr rfl) <;>
          simp [sweepSample, hempty, hold]
      · exact h.serve hfresh hr (by simpa using hempty) hold

end UavBluetooth.Mesh
