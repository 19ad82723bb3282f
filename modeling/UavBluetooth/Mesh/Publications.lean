import UavBluetooth.Mesh.Receipts

set_option autoImplicit false

/-! # How often an identity is published

A receiver publishes at most one payload for a receipt identity, and one more each time it
forgets the receipt: by a reset or because the receipt is older than 90 s. The count
`Tally` carries the argument: a frame on its way through the bridge and a receipt
in the map are each worth one publication. `published_twice` is a run without a reset in which
a late copy of a frame is published again.
-/

namespace UavBluetooth.Mesh

open Config

/-- The events of one node. -/
def World.at (w : World) (a : UInt16) : List Event :=
  w.log.filterMap fun (node, e) => if node = a then some e else none

def Event.publishes (key : MeshReliableSeenKey) : Event → Bool
  | .published m => m.seenKey == key
  | _ => false

/-- The receipt of the identity is forgotten, if there is one. -/
def Event.forgets (key : MeshReliableSeenKey) : Event → Bool
  | .aged k => k == key
  | .cleared _ => true
  | _ => false

def publications (key : MeshReliableSeenKey) (events : List Event) : Nat :=
  events.countP (·.publishes key)

def forgettings (key : MeshReliableSeenKey) (events : List Event) : Nat :=
  events.countP (·.forgets key)

/-- Whether a frame of the identity is being decoded and may still count as published. -/
def Station.deciding (s : Station) (key : MeshReliableSeenKey) : Bool :=
  match s.decoding with
  | some ⟨_, some true⟩ => false
  | some ⟨m, _⟩ => m.seenKey == key
  | none => false

/-- Every publication is paid for by a receipt that is still there or was forgotten. -/
def Tally (s : Station) (key : MeshReliableSeenKey) (published forgotten : Nat) : Prop :=
  published + (s.deciding key).toNat ≤ forgotten + (s.reliable.seen.contains key).toNat

/-! ## One step of the node -/

section

variable {s s' : Station} {key : MeshReliableSeenKey} {published forgotten : Nat}

theorem publications_eq_zero {events : List Event}
    (h : ∀ e ∈ events, e.publishes key = false) : publications key events = 0 := by
  unfold publications
  rw [List.countP_eq_zero]
  intro e he
  rw [h e he]
  exact Bool.false_ne_true

theorem publishes_of_quiet {e : Event} (h : e.receiving = false) : e.publishes key = false := by
  cases e with
  | published m => cases h
  | _ => rfl

/-- The receipt stays, and nothing of the identity is published. -/
theorem Tally.keep {events : List Event} (h : Tally s key published forgotten)
    (hdeciding : s'.deciding key = s.deciding key)
    (hseen : s'.reliable.seen.contains key = s.reliable.seen.contains key)
    (he : ∀ e ∈ events, e.publishes key = false) :
    Tally s' key (publications key events + published) (forgettings key events + forgotten) := by
  unfold Tally at h ⊢
  rw [hdeciding, hseen, publications_eq_zero he]
  omega

/-- The receipt may be forgotten, but then an event says so. -/
theorem Tally.forget {events : List Event} (h : Tally s key published forgotten)
    (hdeciding : s'.deciding key = s.deciding key)
    (hseen : s'.reliable.seen.contains key = false → s.reliable.seen.contains key = true →
      ∃ e ∈ events, e.forgets key = true)
    (he : ∀ e ∈ events, e.publishes key = false) :
    Tally s' key (publications key events + published) (forgettings key events + forgotten) := by
  unfold Tally at h ⊢
  rw [hdeciding, publications_eq_zero he]
  cases hbefore : s.reliable.seen.contains key with
  | false =>
      rw [hbefore, Bool.toNat_false] at h
      omega
  | true =>
      rw [hbefore, Bool.toNat_true] at h
      cases hafter : s'.reliable.seen.contains key with
      | true =>
          rw [Bool.toNat_true]
          omega
      | false =>
          have hforgotten : 0 < forgettings key events :=
            List.countP_pos_iff.mpr (hseen hafter hbefore)
          omega

/-- The sweep reports the receipts it drops. -/
theorem sweep_forgets {now : Time} {r : MeshReliable}
    (hafter : (sweepState now r).seen.contains key = false) (hbefore : r.seen.contains key = true) :
    ∃ e ∈ sweepEvents now r, e.forgets key = true := by
  obtain ⟨seen, hseen⟩ : ∃ seen, r.seen[key]? = some seen := by
    rw [Std.ExtTreeMap.contains_eq_isSome_getElem?] at hbefore
    exact Option.isSome_iff_exists.mp hbefore
  have haged : receiptAged now seen = true := by
    by_contra hfresh
    have hkept : (sweepState now r).seen[key]? = some seen := by
      show (r.seen.filter _)[key]? = _
      rw [Std.ExtTreeMap.getElem?_filter', hseen]
      simp [Bool.eq_false_of_not_eq_true hfresh]
    rw [Std.ExtTreeMap.contains_eq_isSome_getElem?, hkept] at hafter
    cases hafter
  refine ⟨.aged key, mem_sweepEvents.mpr (Or.inl ⟨key, ?_, rfl⟩), by simp [Event.forgets]⟩
  exact List.mem_map.mpr ⟨(key, seen), List.mem_filter.mpr
    ⟨Std.ExtTreeMap.mem_toList_iff_getElem?_eq_some.mpr hseen, haged⟩, rfl⟩

theorem tally_exec {now : Time} {view : View} {answer : Answer} {task : Task}
    {events : List Event} (h : Tally s key published forgotten)
    (hx : execTask now view answer s task = some (s', events)) :
    Tally s' key (publications key events + published) (forgettings key events + forgotten) := by
  have hstep := exec_receiver hx
  have hdeciding : s'.deciding key = s.deciding key := by
    unfold Station.deciding
    rw [hstep.decoding]
  have hquiet : ∀ e ∈ events, e.publishes key = false :=
    fun e he => publishes_of_quiet (hstep.events e he)
  rcases hstep.seen with hseen | rfl | ⟨preserveLatest, rfl⟩
  · exact h.keep hdeciding (by rw [hseen]) hquiet
  · cases hx
    exact h.forget hdeciding sweep_forgets hquiet
  · cases hx
    exact h.forget hdeciding (fun _ _ => ⟨_, List.mem_singleton_self _, rfl⟩) hquiet

theorem tally_receive {now : Time} {m : ReceivedMessage} {events : List Event}
    (h : Tally s key published forgotten) (hidle : s.decoding = none)
    (hx : Received now m s s' events) :
    Tally s' key (publications key events + published) (forgettings key events + forgotten) := by
  cases hx with
  | ignored => exact h.keep rfl rfl (by simp)
  | passed => exact h.keep rfl rfl (by simp [Event.publishes])
  | ack _ _ =>
      refine h.keep rfl ?_ (fun e he => ?_)
      · show (receiveAck m s.reliable).seen.contains key = _
        rw [(receiveAck_receiver m s.reliable).1]
      · split at he
        · rw [List.mem_singleton.mp he]
          rfl
        · cases he
  | known seen _ _ =>
      refine h.keep rfl ?_ (by simp)
      show (if seen.delivered then queueAck m s.reliable else s.reliable).seen.contains key = _
      split
      · rw [(bookkeeping_queueAck m s.reliable).seen]
      · rfl
  | opened hframe hseen =>
      -- The new receipt pays for the frame that is now on its way through the bridge.
      have hnone : s.deciding key = false := by
        unfold Station.deciding
        rw [hidle]
      have hpublished : publications key [.opened m.seenKey] = 0 := rfl
      have hforgotten : forgettings key [.opened m.seenKey] = 0 := rfl
      unfold Tally at h ⊢
      rw [hnone, Bool.toNat_false] at h
      rw [hpublished, hforgotten]
      show _ + (m.seenKey == key).toNat ≤
        _ + ((s.reliable.seen.insert m.seenKey { last := now }).contains key).toNat
      rw [Std.ExtTreeMap.contains_insert]
      by_cases hkey : m.seenKey = key
      · subst hkey
        rw [Std.ExtTreeMap.contains_eq_isSome_getElem?, hseen] at h
        simp at h ⊢
        omega
      · have hne : (m.seenKey == key) = false := by simpa using hkey
        have hcmp : (compare m.seenKey key == .eq) = false := by simpa using hkey
        rw [hne, hcmp, Bool.false_or, Bool.toNat_false]
        omega

/-- A published frame keeps its receipt; a refused one gives up the receipt of its own
identity. -/
theorem finishData_seen (now : Time) (delivered : Bool) (localAddress : UInt16)
    (members : List UInt16) (m : ReceivedMessage) (r : MeshReliable)
    (h : delivered = true ∨ m.seenKey ≠ key) :
    (finishData now delivered localAddress members m r).seen.contains key =
      r.seen.contains key := by
  unfold finishData
  split
  · rfl
  · rename_i seen hseen
    have hinsert : (r.seen.insert m.seenKey { seen with delivered := true, last := now }).contains
        key = r.seen.contains key := by
      rw [Std.ExtTreeMap.contains_insert]
      by_cases hkey : m.seenKey = key
      · subst hkey
        rw [Std.ExtTreeMap.contains_eq_isSome_getElem?, hseen]
        simp
      · simp [hkey]
    cases delivered with
    | true =>
        simp only [if_true]
        split
        · rw [(bookkeeping_queueAck m _).seen]
          exact hinsert
        · show (queueAck m _).seen.contains key = _
          rw [(bookkeeping_queueAck m _).seen]
          exact hinsert
    | false =>
        have hkey : m.seenKey ≠ key := by simpa using h
        simp [hkey]

theorem tally_finish {now : Time} {m : ReceivedMessage} {delivered : Bool}
    {localAddress : UInt16} {members : List UInt16} (h : Tally s key published forgotten)
    (hd : s.decoding = some ⟨m, some delivered⟩) :
    Tally { s with
      reliable := finishData now delivered localAddress members m s.reliable
      decoding := none } key published forgotten := by
  unfold Tally at h ⊢
  show _ + Bool.toNat false ≤
    _ + ((finishData now delivered localAddress members m s.reliable).seen.contains key).toNat
  rw [Bool.toNat_false]
  by_cases hkeep : delivered = true ∨ m.seenKey ≠ key
  · rw [finishData_seen now delivered localAddress members m s.reliable hkeep]
    omega
  · -- The refused frame no longer counts, and neither does its receipt.
    simp only [not_or, Bool.not_eq_true, ne_eq, not_not] at hkeep
    obtain ⟨rfl, rfl⟩ := hkeep
    have hdeciding : s.deciding m.seenKey = true := by
      unfold Station.deciding
      rw [hd]
      exact beq_self_eq_true _
    rw [hdeciding, Bool.toNat_true] at h
    have := Bool.toNat_le (s.reliable.seen.contains m.seenKey)
    omega

theorem tally_step {now : Time} {action : Action} {events : List Event}
    (h : Tally s key published forgotten) (hx : s.step now action = some (s', events)) :
    Tally s' key (publications key events + published) (forgettings key events + forgotten) := by
  have hpush : ∀ tasks, (∀ e ∈ events, e.publishes key = false) → s' = s.push tasks →
      Tally s' key (publications key events + published) (forgettings key events + forgotten) := by
    intro tasks he hs
    subst hs
    exact h.keep rfl rfl he
  cases action with
  | submit bridge body =>
      simp only [Station.step] at hx
      split at hx <;> cases hx
      exact hpush _ (by simp [Event.publishes]) rfl
  | tick =>
      simp only [Station.step] at hx
      split at hx
      · split at hx <;> cases hx
        exact hpush _ (by simp) rfl
      · cases hx
  | exec view answer =>
      simp only [Station.step] at hx
      split at hx
      · cases hx
      · rename_i task todo _
        exact tally_exec (s := { s with todo := todo }) h hx
  | receive policy message =>
      simp only [Station.step] at hx
      split at hx
      · exact tally_receive h ‹_› (receive_cases (Option.some.inj hx))
      · cases hx
  | decode delivered =>
      simp only [Station.step] at hx
      split at hx
      · rename_i message hdec
        cases hx
        have hdeciding : s.deciding key = (message.seenKey == key) := by
          unfold Station.deciding
          rw [hdec]
        unfold Tally at h ⊢
        rw [hdeciding] at h
        cases delivered with
        | false =>
            show publications key [.refused message] + published + (message.seenKey == key).toNat ≤
              forgettings key [.refused message] + forgotten +
                (s.reliable.seen.contains key).toNat
            have hzero : publications key [.refused message] = 0 := rfl
            rw [hzero]
            omega
        | true =>
            -- The frame at hand turns into a publication.
            have hone : publications key [.published message] = (message.seenKey == key).toNat := by
              unfold publications
              cases hkey : message.seenKey == key <;> simp [Event.publishes, hkey]
            show publications key [.published message] + published + Bool.toNat false ≤
              forgettings key [.published message] + forgotten +
                (s.reliable.seen.contains key).toNat
            rw [hone, Bool.toNat_false]
            omega
      · cases hx
  | finish view =>
      simp only [Station.step] at hx
      split at hx
      · rename_i message delivered hdec
        cases hx
        have hzero : publications key [] = 0 ∧ forgettings key [] = 0 := ⟨rfl, rfl⟩
        rw [hzero.1, hzero.2, Nat.zero_add, Nat.zero_add]
        exact tally_finish h hdec
      · cases hx
  | requestReset =>
      cases hx
      exact h.keep rfl rfl (by simp)
  | reconfigure meshApp coordinator =>
      simp only [Station.step] at hx
      split at hx <;> cases hx
      exact hpush _ (by simp) rfl

end

/-! ## Runs of the network -/

theorem NodeStep.at_self {w w' : World} {node : UInt16} {action : Action} {s' : Station}
    {events : List Event} (h : NodeStep w w' node action s' events) :
    w'.at node = events.reverse ++ w.at node := by
  unfold World.at
  rw [h.log, List.filterMap_append, List.filterMap_map]
  congr 1
  simp

theorem NodeStep.at_other {w w' : World} {node a : UInt16} {action : Action} {s' : Station}
    {events : List Event} (h : NodeStep w w' node action s' events) (ha : node ≠ a) :
    w'.at a = w.at a := by
  unfold World.at
  rw [h.log, List.filterMap_append, List.filterMap_map]
  have hnone : (events.reverse.filterMap ((fun x : UInt16 × Event =>
      match x with | (node', e) => if node' = a then some e else none) ∘ (node, ·))) = [] :=
    List.filterMap_eq_nil_iff.mpr (fun e _ => by simp [ha])
  rw [hnone, List.nil_append]

/-- The count of one identity at one node. -/
def Counted (a : UInt16) (key : MeshReliableSeenKey) (w : World) : Prop :=
  Tally (w.station a) key (publications key (w.at a)) (forgettings key (w.at a))

theorem Counted.nodeStep {a : UInt16} {key : MeshReliableSeenKey} {w w' : World} {node : UInt16}
    {action : Action} {s' : Station} {events : List Event} (h : Counted a key w)
    (hstep : NodeStep w w' node action s' events) : Counted a key w' := by
  unfold Counted at h ⊢
  rw [hstep.station]
  by_cases ha : node = a
  · subst ha
    rw [Function.update_self, hstep.at_self]
    have htally := tally_step h hstep.step
    have hp : publications key (events.reverse ++ w.at node) =
        publications key events + publications key (w.at node) := by
      simp [publications, List.countP_append]
    have hf : forgettings key (events.reverse ++ w.at node) =
        forgettings key events + forgettings key (w.at node) := by
      simp [forgettings, List.countP_append]
    rw [hp, hf]
    exact htally
  · rw [Function.update_of_ne (Ne.symm ha), hstep.at_other ha]
    exact h

theorem counted_reachable {w : World} (h : Run.Reachable World.step World.Initial w)
    (a : UInt16) (key : MeshReliableSeenKey) : Counted a key w := by
  refine h.invariant (P := Counted a key) (fun w hw => ?_) (fun w action w' hw _ hx => ?_)
  · obtain ⟨hstation, _, hlog⟩ := hw
    obtain ⟨_, _, _, hs⟩ := hstation a
    unfold Counted World.at
    rw [hs, hlog]
    simp [Tally, publications, forgettings, Station.deciding]
  · rcases World.step_cases hx with ⟨duration, _, rfl⟩ | ⟨index, _, rfl⟩ |
      ⟨node, action', s', events, _, hstep⟩ | ⟨index, keep, policy, p, s', events, _, _, hstep⟩
    · exact hw
    · exact hw
    · exact hw.nodeStep hstep
    · exact hw.nodeStep hstep

/-- **Receipts bound the publications, and acknowledgements are sound.** A node publishes an
identity at most once more than it has forgotten the receipt; every acknowledgement in its
queue is for an identity of which its bridge has accepted a frame; and every target it has
given up because of an acknowledgement had published a data frame that the node transmitted to
it under the sequence. -/
theorem receipts_sound {w : World} (h : Run.Reachable World.step World.Initial w) (a : UInt16) :
    (∀ key, publications key (w.at a) ≤ 1 + forgettings key (w.at a)) ∧
      (∀ ack ∈ (w.station a).reliable.acks,
        ∃ m, (a, .published m) ∈ w.log ∧ isDataFrame m.data = true ∧ m.seenKey = ack.seenKey) ∧
      ∀ sequence target, (a, .acked sequence target) ∈ w.log →
        ∃ m, (target, .published m) ∈ w.log ∧ isDataFrame m.data = true ∧
          meshReliableSequence m.data = sequence ∧
          (a, .transmitted ⟨target, m.keyIndex, m.data⟩) ∈ w.log := by
  have honest := honest_reachable h
  refine ⟨fun key => ?_, fun ack hack => ?_, fun sequence target hacked => ?_⟩
  · have hcount := counted_reachable h a key
    unfold Counted Tally at hcount
    have := Bool.toNat_le ((w.station a).reliable.seen.contains key)
    omega
  · obtain ⟨m, hm, hkey⟩ := ((honest.stations a).acks ack hack).2
    exact ⟨m, hm, (honest.published a m hm).2, hkey⟩
  · obtain ⟨m, hm, hsource, hsequence⟩ := honest.acked a sequence target hacked
    obtain ⟨hsent, hframe⟩ := honest.published target m hm
    refine ⟨m, hm, hframe, hsequence, ?_⟩
    rw [← hsource]
    exact hsent

/-! ## A late copy -/

/-- Node 1 sends a value to node 2, which publishes and acknowledges it; the frame stays in
the air. -/
def publishedRun : List WorldAction :=
  .act 1 (.submit reliableChannel [7]) ::
  List.replicate 7 (WorldAction.act 1 (.exec twoPeers .ok)) ++
  [WorldAction.act 1 (.exec twoPeers (.handle ⟨11, 1⟩)), .deliver 0 true {}, .act 2 (.decode true),
    .act 2 (.finish {})]

/-- The identity of that value at node 2. -/
def firstIdentity : MeshReliableSeenKey :=
  ReceivedMessage.seenKey ⟨0, 1, 2, 0, makeMeshReliableData (bridgePayload reliableChannel [7]) 1 0⟩

/-- The receipt ages, and then a copy of the frame arrives. -/
def lateCopyRun : List WorldAction :=
  publishedRun ++
  [WorldAction.advance (seconds 91), .act 2 .tick, .act 2 (.exec {} .ok), .act 2 (.exec {} .ok),
    .deliver 0 false {}, .act 2 (.decode true)]

theorem initial_network : World.Initial {} := ⟨fun _ => ⟨true, true, 0, rfl⟩, rfl, rfl⟩

theorem receipts_sound_publishedRun :
    ∃ w, Run.Reachable World.step World.Initial w ∧
      publications firstIdentity (w.at 2) ≤ 1 + forgettings firstIdentity (w.at 2) ∧
      ∃ ack ∈ (w.station 2).reliable.acks, ∃ m, (2, .published m) ∈ w.log ∧
        isDataFrame m.data = true ∧ m.seenKey = ack.seenKey := by
  have hrun : ((Run.exec World.step {} publishedRun).map fun w =>
      (w.station 2).reliable.acks.isEmpty) = some false := by decide +kernel
  obtain ⟨w, hw, hacks⟩ := Option.map_eq_some_iff.mp hrun
  have hreach := Run.Reachable.exec (.start initial_network) hw
  obtain ⟨hcount, hack, _⟩ := receipts_sound hreach 2
  obtain ⟨ack, hmem⟩ := List.exists_mem_of_ne_nil _ (List.isEmpty_eq_false_iff.mp hacks)
  exact ⟨w, hreach, hcount firstIdentity, ack, hmem, hack ack hmem⟩

/-- No node is reset and only one sequence is allocated, and still the identity is published
twice. -/
theorem published_twice :
    ∃ w, Run.Reachable World.step World.Initial w ∧
      (∀ a preserveLatest, (a, .cleared preserveLatest) ∉ w.log) ∧
      (∀ a key sequence payload, (a, .admitted key sequence payload) ∈ w.log → sequence = 1) ∧
      publications firstIdentity (w.at 2) = 2 := by
  have hrun : ((Run.exec World.step {} lateCopyRun).map fun w =>
      (w.log.all fun item => match item.2 with
        | .cleared _ => false
        | .admitted _ sequence _ => sequence == 1
        | _ => true, publications firstIdentity (w.at 2))) = some (true, 2) := by decide +kernel
  obtain ⟨w, hw, hval⟩ := Option.map_eq_some_iff.mp hrun
  obtain ⟨hall, htwice⟩ := Prod.mk.inj hval
  have hitem := List.all_eq_true.mp hall
  refine ⟨w, Run.Reachable.exec (.start initial_network) hw, fun a preserveLatest hmem => ?_,
    fun a key sequence payload hmem => ?_, htwice⟩
  · exact absurd (hitem _ hmem) (by simp)
  · simpa using hitem _ hmem

end UavBluetooth.Mesh
