import UavBluetooth.Mesh.Bookkeeping
import UavBluetooth.Mesh.Handles

set_option autoImplicit false

/-! # What a sender keeps

A value handed to `send_mesh_bridge_payload` is held as the channel's waiting value or as the
data of a pending sample until the daemon has accepted it (`sender_retention`), except that
three paths drop it: a plain send that throws, a sample that ends before the value folded into
it was transmitted, and a reset that clears such a sample. `obligation` reads off the record
what the node owes; `Retaining` excludes the three paths; `dropped_resume` is a run with the
first.
-/

namespace UavBluetooth.Mesh

open Config

/-! ## Obligations -/

/-- The value of the call in progress on one channel, and the newest value whose call returned,
each with whether the daemon has accepted it since it was handed over. -/
structure Obligation where
  call : Option (Bytes × Bool) := none
  standing : Option (Bytes × Bool) := none
  deriving DecidableEq, Repr

def markAccepted (payload : Bytes) (value : Option (Bytes × Bool)) : Option (Bytes × Bool) :=
  value.map fun (v, accepted) => (v, accepted || v == payload)

/-- The value of the channel that a sample carries, by the last event about it. -/
def carried (key : UInt64) (sequence : UInt16) : List Event → Option Bytes
  | [] => none
  | .admitted k s v :: log =>
      if s = sequence then (if k = key then some v else none) else carried key sequence log
  | .folded k s v :: log =>
      if s = sequence then (if k = key then some v else none) else carried key sequence log
  | _ :: log => carried key sequence log

/-- The obligation after one more event. An expiry or eviction of the sample that carries the
standing value ends it, and so does an overlay change. -/
def Obligation.after (key : UInt64) (log : List Event) (o : Obligation) : Event → Obligation
  | .submitted k v => if k = key then { o with call := some (v, false) } else o
  | .accepted k v =>
      if k = key then ⟨markAccepted v o.call, markAccepted v o.standing⟩ else o
  | .returned send =>
      if send.resumed = false ∧ send.key = key then ⟨none, o.call⟩ else o
  | .threw send =>
      if send.resumed = false ∧ send.key = key then { o with call := none } else o
  | .cleared false => { o with standing := none }
  | .expired sequence =>
      if o.standing.map (·.1) = carried key sequence log then { o with standing := none } else o
  | .evicted sequence =>
      if o.standing.map (·.1) = carried key sequence log then { o with standing := none } else o
  | _ => o

def obligation (key : UInt64) : List Event → Obligation
  | [] => {}
  | e :: log => (obligation key log).after key log e

/-- The newest value whose call returned and which the daemon has not accepted. -/
def owed (key : UInt64) (log : List Event) : Option Bytes :=
  (obligation key log).standing.bind fun (v, accepted) => if accepted then none else some v

/-- The condition for a task to keep what is owed: a send, fresh or resumed, throws only when
nothing is owed, and a sample is dropped only when its data is not the owed value. -/
def Task.Retaining (log : List Event) (s : Station) (answer : Answer) : Task → Prop
  | .enter send => s.meshApp = true ∨ send.resumed = false ∨ owed send.key log = none
  | .plain send =>
      owed send.key log = none ∨ (answer ≠ .error true ∧ answer ≠ .error false)
  | .clear true => ∀ item ∈ s.reliable.pending.toList,
      s.reliable.latest[item.2.channelKey]? = none →
        owed item.2.channelKey log ≠ some (decodedFrame item.2.data)
  | .sweep => ∀ item ∈ s.reliable.pending.toList, item.2.awaiting.isEmpty = true →
      s.reliable.latest[item.2.channelKey]? = none →
        owed item.2.channelKey log ≠ some (decodedFrame item.2.data)
  | _ => True

instance (log : List Event) (s : Station) (answer : Answer) (task : Task) :
    Decidable (task.Retaining log s answer) := by
  unfold Task.Retaining
  split <;> infer_instance

/-- The condition for a step to keep what is owed. -/
def Retaining (n : Node) : NodeAction → Prop
  | .act (.exec _ answer) =>
      ∀ task ∈ n.station.todo.head?, task.Retaining n.log n.station answer
  | _ => True

instance (n : Node) (a : NodeAction) : Decidable (Retaining n a) :=
  match a with
  | .act (.exec _ answer) =>
      inferInstanceAs (Decidable (∀ task ∈ n.station.todo.head?,
        task.Retaining n.log n.station answer))
  | .advance _ | .act (.submit _ _) | .act .tick | .act (.receive _ _) | .act (.decode _)
  | .act (.finish _) | .act .requestReset | .act (.reconfigure _ _) => isTrue trivial

/-! ## Longer records -/

/-- An event that starts or ends no call. -/
def Event.settles : Event → Bool
  | .submitted _ _ => false
  | .returned send => send.resumed
  | .threw send => send.resumed
  | _ => true

/-- The event gives the sample of the sequence another value. -/
def Event.fills (sequence : UInt16) : Event → Bool
  | .admitted _ s _ => s == sequence
  | .folded _ s _ => s == sequence
  | _ => false

/-- The longer record knows the same calls, accepts at least as much and owes at most as
much. -/
structure Settles (log log' : List Event) : Prop where
  call : ∀ key v a, (obligation key log).call = some (v, a) →
    ∃ a', (obligation key log').call = some (v, a') ∧ (a = true → a' = true)
  standing : ∀ key v a', (obligation key log').standing = some (v, a') →
    ∃ a, (obligation key log).standing = some (v, a) ∧ (a = true → a' = true)

/-- And every sample carries the same value. -/
structure Advanced (log log' : List Event) : Prop extends Settles log log' where
  carried : ∀ key sequence, carried key sequence log' = carried key sequence log

theorem Settles.refl (log : List Event) : Settles log log :=
  ⟨fun _ _ a h => ⟨a, h, id⟩, fun _ _ a h => ⟨a, h, id⟩⟩

theorem Settles.trans {a b c : List Event} (h : Settles a b) (h' : Settles b c) :
    Settles a c := by
  refine ⟨fun key v x hx => ?_, fun key v x hx => ?_⟩
  · obtain ⟨y, hy, hxy⟩ := h.call key v x hx
    obtain ⟨z, hz, hyz⟩ := h'.call key v y hy
    exact ⟨z, hz, fun hx => hyz (hxy hx)⟩
  · obtain ⟨y, hy, hxy⟩ := h'.standing key v x hx
    obtain ⟨z, hz, hyz⟩ := h.standing key v y hy
    exact ⟨z, hz, fun hz => hxy (hyz hz)⟩

/-- What is owed afterwards was owed before. -/
theorem Settles.owed {log log' : List Event} (h : Settles log log') {key : UInt64} {v : Bytes}
    (hv : (obligation key log').standing = some (v, false)) :
    (obligation key log).standing = some (v, false) := by
  obtain ⟨a, ha, haa'⟩ := h.standing key v false hv
  cases a with
  | false => exact ha
  | true => exact absurd (haa' rfl) (by simp)

theorem Advanced.refl (log : List Event) : Advanced log log :=
  ⟨.refl log, fun _ _ => rfl⟩

theorem markAccepted_eq_some {payload v : Bytes} {a' : Bool} {value : Option (Bytes × Bool)} :
    markAccepted payload value = some (v, a') ↔
      ∃ a, value = some (v, a) ∧ (a || v == payload) = a' := by
  unfold markAccepted
  rw [Option.map_eq_some_iff]
  constructor
  · rintro ⟨⟨w, a⟩, hw, heq⟩
    cases heq
    exact ⟨a, hw, rfl⟩
  · rintro ⟨a, hv, rfl⟩
    exact ⟨(v, a), hv, rfl⟩

theorem settles_cons {e : Event} (h : e.settles = true) (log : List Event) :
    Settles log (e :: log) := by
  -- An event that keeps the call and keeps or ends the standing value.
  have hends : (∀ key, (obligation key (e :: log)).call = (obligation key log).call ∧
      ((obligation key (e :: log)).standing = (obligation key log).standing ∨
        (obligation key (e :: log)).standing = none)) → Settles log (e :: log) := by
    intro hkeep
    refine ⟨fun key v a ha => ⟨a, by rw [(hkeep key).1]; exact ha, id⟩, fun key v a ha => ?_⟩
    rcases (hkeep key).2 with heq | heq
    · exact ⟨a, by rw [← heq]; exact ha, id⟩
    · rw [heq] at ha
      cases ha
  cases e with
  | accepted k payload =>
      refine ⟨fun key v a ha => ?_, fun key v a' ha' => ?_⟩
      · by_cases hk : k = key
        · refine ⟨a || v == payload, ?_, fun h => by simp [h]⟩
          simp only [obligation, Obligation.after, if_pos hk]
          exact markAccepted_eq_some.mpr ⟨a, ha, rfl⟩
        · exact ⟨a, by simp only [obligation, Obligation.after, if_neg hk]; exact ha, id⟩
      · by_cases hk : k = key
        · simp only [obligation, Obligation.after, if_pos hk] at ha'
          obtain ⟨a, ha, heq⟩ := markAccepted_eq_some.mp ha'
          exact ⟨a, ha, fun h => by rw [← heq, h]; rfl⟩
        · simp only [obligation, Obligation.after, if_neg hk] at ha'
          exact ⟨a', ha', id⟩
  | returned send =>
      have hresumed : send.resumed = true := h
      refine hends (fun key => ?_)
      simp [obligation, Obligation.after, hresumed]
  | threw send =>
      have hresumed : send.resumed = true := h
      refine hends (fun key => ?_)
      simp [obligation, Obligation.after, hresumed]
  | cleared preserveLatest =>
      refine hends (fun key => ?_)
      cases preserveLatest
      · exact ⟨rfl, Or.inr rfl⟩
      · exact ⟨rfl, Or.inl rfl⟩
  | expired sequence =>
      refine hends (fun key => ?_)
      simp only [obligation, Obligation.after]
      split
      · exact ⟨rfl, Or.inr rfl⟩
      · exact ⟨rfl, Or.inl rfl⟩
  | evicted sequence =>
      refine hends (fun key => ?_)
      simp only [obligation, Obligation.after]
      split
      · exact ⟨rfl, Or.inr rfl⟩
      · exact ⟨rfl, Or.inl rfl⟩
  | submitted key payload => cases h
  | _ => exact hends (fun _ => ⟨rfl, Or.inl rfl⟩)

theorem carried_cons {key : UInt64} {sequence : UInt16} {e : Event}
    (h : e.fills sequence = false) (log : List Event) :
    carried key sequence (e :: log) = carried key sequence log := by
  cases e with
  | admitted k s v =>
      have hne : s ≠ sequence := by simpa [Event.fills] using h
      simp [carried, hne]
  | folded k s v =>
      have hne : s ≠ sequence := by simpa [Event.fills] using h
      simp [carried, hne]
  | _ => rfl

theorem settles_append {events : List Event} (h : ∀ e ∈ events, e.settles = true)
    (log : List Event) : Settles log (events.reverse ++ log) := by
  induction events generalizing log with
  | nil => exact .refl log
  | cons e events ih =>
      rw [List.reverse_cons, List.append_assoc]
      exact (settles_cons (h e List.mem_cons_self) log).trans
        (ih (fun e' he' => h e' (List.mem_cons_of_mem _ he')) _)

theorem carried_append {key : UInt64} {sequence : UInt16} {events : List Event}
    (h : ∀ e ∈ events, e.fills sequence = false) (log : List Event) :
    carried key sequence (events.reverse ++ log) = carried key sequence log := by
  induction events generalizing log with
  | nil => rfl
  | cons e events ih =>
      rw [List.reverse_cons, List.append_assoc,
        ih (fun e' he' => h e' (List.mem_cons_of_mem _ he'))]
      exact carried_cons (h e List.mem_cons_self) log

theorem advanced_append {events : List Event}
    (h : ∀ e ∈ events, e.settles = true ∧ ∀ sequence, e.fills sequence = false)
    (log : List Event) : Advanced log (events.reverse ++ log) :=
  ⟨settles_append (fun e he => (h e he).1) log,
    fun _ sequence => carried_append (fun e he => (h e he).2 sequence) log⟩

/-! ## The invariant -/

/-- A fresh value has taken the waiting place of its channel. -/
def Task.dropped : Task → Bool
  | .occupied _ _ => true
  | .arbitrate _ _ => true
  | .admission _ _ => true
  | .fanOut _ _ _ _ _ => true
  | .plain _ => true
  | _ => false

/-- The daemon has accepted a copy. -/
def Task.taken : Task → Bool
  | .fanOut _ _ _ _ admitted => admitted
  | _ => false

/-- The value is the data of a pending sample of the channel. -/
def Carried (pending : Std.ExtTreeMap UInt16 MeshReliablePending) (log : List Event)
    (key : UInt64) (v : Bytes) : Prop :=
  ∃ sequence sample, pending[sequence]? = some sample ∧ sample.channelKey = key ∧
    decodedFrame sample.data = v ∧ carried key sequence log = some v

/-- A fresh call on the stack is the call in progress of its channel. -/
structure FreshTask (r : MeshReliable) (log : List Event) (t : Task) (send : Send) : Prop where
  call : ∃ a, (obligation send.key log).call = some (send.payload, a) ∧
    (t.taken = true → a = true)
  dropped : t.dropped = true → r.latest[send.key]? = none

/-- A resumed call on the stack has the channel's newest value. -/
structure ResumedTask (r : MeshReliable) (log : List Event) (t : Task) (send : Send) :
    Prop where
  latest : r.latest[send.key]? = none
  standing : ∀ v a, (obligation send.key log).standing = some (v, a) →
    v = send.payload ∧ (t.taken = true → a = true)

/-- Where the values are, against the record. -/
structure Retains (r : MeshReliable) (todo : List Task) (log : List Event) : Prop where
  waiting : ∀ (key : UInt64) (bridge : SharedTopicConfig) (v : Bytes),
    r.latest[key]? = some (bridge, v) → channelKey bridge = key ∧ Framed bridge v ∧
      ∀ w a, (obligation key log).standing = some (w, a) → w = v
  fresh : ∀ t ∈ todo, ∀ send, t.send = some send → send.resumed = false →
    FreshTask r log t send
  resumed : ∀ t ∈ todo, ∀ send, t.send = some send → send.resumed = true →
    ResumedTask r log t send
  framed : ∀ send ∈ sendsOf todo, Framed send.bridge send.payload
  distinct : ((sendsOf todo).map Send.key).Nodup
  alone : ∀ send ∈ sendsOf todo, send.resumed = false →
    sendsOf todo = [send] ∧ .sweep ∉ todo ∧ .maintain ∉ todo
  free : ∀ send adm, .admission send adm ∈ todo → adm.sequence ∉ r.pending
  entered : ∀ send adm data remaining admitted,
    .fanOut send adm data remaining admitted ∈ todo →
      ∀ p, r.pending[adm.sequence]? = some p → p.channelKey = send.key
  kept : ∀ key v, (obligation key log).standing = some (v, false) →
    (∃ bridge, r.latest[key]? = some (bridge, v)) ∨ Carried r.pending log key v ∨
      ∃ t ∈ todo, ∃ send, t.send = some send ∧ send.key = key ∧
        (send.resumed = true ∨ t.dropped = true)

theorem Carried.mono {pending pending' : Std.ExtTreeMap UInt16 MeshReliablePending}
    {log log' : List Event} {key : UInt64} {v : Bytes} (h : Carried pending log key v)
    (hp : PendingKept pending pending')
    (hlog : ∀ sequence, carried key sequence log' = carried key sequence log) :
    Carried pending' log' key v := by
  obtain ⟨sequence, sample, hsample, hkey, hdata, hcarried⟩ := h
  obtain ⟨sample', hsample', ht⟩ := hp.forth sequence sample hsample
  exact ⟨sequence, sample', hsample', ht.channelKey.trans hkey, by rw [ht.data, hdata],
    by rw [hlog, hcarried]⟩

/-- A step that changes samples by bookkeeping only, leaves the waiting values and the sends,
and advances the record keeps the invariant. -/
theorem Retains.frame {r r' : MeshReliable} {todo todo' : List Task} {log log' : List Event}
    (h : Retains r todo log) (hp : PendingKept r.pending r'.pending)
    (hl : r'.latest = r.latest) (hlog : Advanced log log')
    (hsends : sendsOf todo' = sendsOf todo)
    (hmem : ∀ t, t.send ≠ none → (t ∈ todo' ↔ t ∈ todo))
    (hloops : (.sweep ∈ todo' ∨ .maintain ∈ todo') →
      (.sweep ∈ todo ∨ .maintain ∈ todo) ∨ sendsOf todo = []) :
    Retains r' todo' log' := by
  have hne : ∀ {t : Task} {send : Send}, t.send = some send → t.send ≠ none := by
    intro t send ht hnone
    rw [ht] at hnone
    cases hnone
  refine ⟨?_, ?_, ?_, ?_, ?_, ?_, ?_, ?_, ?_⟩
  · intro key bridge v hv
    rw [hl] at hv
    obtain ⟨hkey, hframed, hstanding⟩ := h.waiting key bridge v hv
    refine ⟨hkey, hframed, fun w a hw => ?_⟩
    obtain ⟨a₀, hw₀, _⟩ := hlog.standing key w a hw
    exact hstanding w a₀ hw₀
  · intro t ht send hsend hfresh
    have htask := h.fresh t ((hmem t (hne hsend)).mp ht) send hsend hfresh
    obtain ⟨a, ha, htaken⟩ := htask.call
    obtain ⟨a', ha', haa'⟩ := hlog.call send.key send.payload a ha
    exact ⟨⟨a', ha', fun ht => haa' (htaken ht)⟩, fun hd => by rw [hl]; exact htask.dropped hd⟩
  · intro t ht send hsend hres
    have htask := h.resumed t ((hmem t (hne hsend)).mp ht) send hsend hres
    refine ⟨by rw [hl]; exact htask.latest, fun v a' ha' => ?_⟩
    obtain ⟨a, ha, haa'⟩ := hlog.standing send.key v a' ha'
    obtain ⟨hv, htaken⟩ := htask.standing v a ha
    exact ⟨hv, fun ht => haa' (htaken ht)⟩
  · rw [hsends]
    exact h.framed
  · rw [hsends]
    exact h.distinct
  · rw [hsends]
    intro send hsend hfresh
    obtain ⟨hone, hsweep, hmaintain⟩ := h.alone send hsend hfresh
    have hno : ¬ (.sweep ∈ todo' ∨ .maintain ∈ todo') := by
      intro hloop
      rcases hloops hloop with (hs | hm) | hnil
      · exact hsweep hs
      · exact hmaintain hm
      · rw [hnil] at hsend
        cases hsend
    exact ⟨hone, fun hs => hno (Or.inl hs), fun hm => hno (Or.inr hm)⟩
  · intro send adm ht hmem'
    rw [hp.mem_iff] at hmem'
    exact h.free send adm ((hmem _ (by simp [Task.send])).mp ht) hmem'
  · intro send adm data remaining admitted ht p' hp'
    obtain ⟨p, hp₀, ht₀⟩ := hp.back _ p' hp'
    rw [ht₀.channelKey]
    exact h.entered send adm data remaining admitted ((hmem _ (by simp [Task.send])).mp ht) p hp₀
  · intro key v hv
    rcases h.kept key v (hlog.owed hv) with ⟨bridge, hb⟩ | hc | ⟨t, ht, send, hsend, hrest⟩
    · exact Or.inl ⟨bridge, by rw [hl]; exact hb⟩
    · exact Or.inr (Or.inl (hc.mono hp (hlog.carried key)))
    · exact Or.inr (Or.inr ⟨t, (hmem t (hne hsend)).mpr ht, send, hsend, hrest⟩)

/-! ## Steps of a send -/

/-- The value that the send is about: of the call in progress, or the standing one. -/
def Send.value (log : List Event) (send : Send) : Option (Bytes × Bool) :=
  if send.resumed then (obligation send.key log).standing else (obligation send.key log).call

theorem Send.value_fresh {log : List Event} {send : Send} (h : send.resumed = false) :
    send.value log = (obligation send.key log).call := by
  simp [Send.value, h]

theorem Send.value_resumed {log : List Event} {send : Send} (h : send.resumed = true) :
    send.value log = (obligation send.key log).standing := by
  simp [Send.value, h]

/-- The daemon has accepted the send's value. -/
def AcceptedIn (log : List Event) (send : Send) : Prop :=
  ∀ v a, send.value log = some (v, a) → v = send.payload → a = true

/-- The send goes on: below it nothing changes, and its value stays where it was or, fresh,
takes the waiting place of its channel. -/
theorem Retains.advance {r r' : MeshReliable} {t n : Task} {b rest : List Task}
    {log log' : List Event} {send : Send} (h : Retains r (t :: rest) log)
    (hsend : t.send = some send) (hsend' : n.send = some send)
    (hbase : ∀ u ∈ rest, u.base = true)
    (hl : r'.latest = r.latest ∨
      (send.resumed = false ∧ n.dropped = true ∧ r'.latest = r.latest.erase send.key))
    (hlog : Settles log log')
    (hcarried : ∀ key v, (obligation key log').standing = some (v, false) →
      Carried r.pending log key v → Carried r'.pending log' key v)
    (hdropped : t.dropped = true → n.dropped = true)
    (hdropped' : n.dropped = true → t.dropped = true ∨ send.resumed = true ∨
      r'.latest = r.latest.erase send.key)
    (htaken : n.taken = true → t.taken = true ∨ AcceptedIn log' send)
    (hfree : ∀ send adm, n = .admission send adm → adm.sequence ∉ r'.pending)
    (hentered : ∀ send adm data remaining admitted,
      n = .fanOut send adm data remaining admitted →
        ∀ p, r'.pending[adm.sequence]? = some p → p.channelKey = send.key)
    (hbefore : ∀ u ∈ b, u.send = none ∧ u ≠ .sweep ∧ u ≠ .maintain) :
    Retains r' (b ++ n :: rest) log' := by
  have hsub : ∀ (key : UInt64) value, r'.latest[key]? = some value →
      r.latest[key]? = some value := by
    intro key value hv
    rcases hl with hl | ⟨_, _, hl⟩
    · rw [← hl]
      exact hv
    · rw [hl, Std.ExtTreeMap.getElem?_erase] at hv
      split at hv
      · cases hv
      · exact hv
  have hnone : ∀ key : UInt64, r.latest[key]? = none → r'.latest[key]? = none := by
    intro key hk
    cases hv : r'.latest[key]? with
    | none => rfl
    | some value =>
        rw [hsub key value hv] at hk
        cases hk
  have hmem : ∀ u ∈ b ++ n :: rest, ∀ send', u.send = some send' → u = n ∨ u ∈ rest := by
    intro u hu send' hs
    rcases List.mem_append.mp hu with hu | hu
    · rw [(hbefore u hu).1] at hs
      cases hs
    · exact List.mem_cons.mp hu
  have hsends : sendsOf (b ++ n :: rest) = sendsOf (t :: rest) := by
    have hnil : b.filterMap Task.send = [] := by
      rw [List.filterMap_eq_nil_iff]
      exact fun u hu => (hbefore u hu).1
    unfold sendsOf
    rw [List.filterMap_append, hnil, List.nil_append, List.filterMap_cons_some hsend',
      List.filterMap_cons_some hsend]
  refine ⟨?_, ?_, ?_, ?_, ?_, ?_, ?_, ?_, ?_⟩
  · intro key bridge v hv
    obtain ⟨hkey, hframed, hw⟩ := h.waiting key bridge v (hsub key _ hv)
    refine ⟨hkey, hframed, fun w a hs => ?_⟩
    obtain ⟨a₀, hs₀, _⟩ := hlog.standing key w a hs
    exact hw w a₀ hs₀
  · intro u hu send' hs hfresh
    rcases hmem u hu send' hs with rfl | hu
    · rw [hsend'] at hs
      cases hs
      have htask := h.fresh t List.mem_cons_self send hsend hfresh
      obtain ⟨a, ha, hta⟩ := htask.call
      obtain ⟨a', ha', haa'⟩ := hlog.call send.key send.payload a ha
      refine ⟨⟨a', ha', fun ht => ?_⟩, fun hd => ?_⟩
      · rcases htaken ht with ht | hacc
        · exact haa' (hta ht)
        · exact hacc send.payload a' (by rw [Send.value_fresh hfresh, ha']) rfl
      · rcases hdropped' hd with hd | hres | hl
        · exact hnone _ (htask.dropped hd)
        · rw [hfresh] at hres
          cases hres
        · rw [hl]
          simp
    · have htask := h.fresh u (List.mem_cons_of_mem _ hu) send' hs hfresh
      obtain ⟨a, ha, hta⟩ := htask.call
      obtain ⟨a', ha', haa'⟩ := hlog.call send'.key send'.payload a ha
      exact ⟨⟨a', ha', fun ht => haa' (hta ht)⟩, fun hd => hnone _ (htask.dropped hd)⟩
  · intro u hu send' hs hres
    rcases hmem u hu send' hs with rfl | hu
    · rw [hsend'] at hs
      cases hs
      have htask := h.resumed t List.mem_cons_self send hsend hres
      refine ⟨hnone _ htask.latest, fun v a' ha' => ?_⟩
      obtain ⟨a, ha, haa'⟩ := hlog.standing send.key v a' ha'
      obtain ⟨hv, hta⟩ := htask.standing v a ha
      refine ⟨hv, fun ht => ?_⟩
      rcases htaken ht with ht | hacc
      · exact haa' (hta ht)
      · exact hacc v a' (by rw [Send.value_resumed hres, ha']) hv
    · have htask := h.resumed u (List.mem_cons_of_mem _ hu) send' hs hres
      refine ⟨hnone _ htask.latest, fun v a' ha' => ?_⟩
      obtain ⟨a, ha, haa'⟩ := hlog.standing send'.key v a' ha'
      obtain ⟨hv, hta⟩ := htask.standing v a ha
      exact ⟨hv, fun ht => haa' (hta ht)⟩
  · rw [hsends]
    exact h.framed
  · rw [hsends]
    exact h.distinct
  · rw [hsends]
    intro send' hs hfresh
    obtain ⟨hone, hsweep, hmaintain⟩ := h.alone send' hs hfresh
    rw [List.mem_cons, not_or] at hsweep hmaintain
    refine ⟨hone, ?_, ?_⟩ <;> rw [List.mem_append, List.mem_cons] <;>
      rintro (hu | rfl | hu)
    · exact (hbefore _ hu).2.1 rfl
    · cases hsend'
    · exact hsweep.2 hu
    · exact (hbefore _ hu).2.2 rfl
    · cases hsend'
    · exact hmaintain.2 hu
  · intro send' adm hu
    rcases hmem _ hu send' rfl with heq | hu
    · exact hfree send' adm heq.symm
    · cases hbase _ hu
  · intro send' adm data remaining admitted hu
    rcases hmem _ hu send' rfl with heq | hu
    · exact hentered send' adm data remaining admitted heq.symm
    · cases hbase _ hu
  · intro key v hv
    rcases h.kept key v (hlog.owed hv) with ⟨bridge, hb⟩ | hc | ⟨u, hu, send', hs, hkey, hrest⟩
    · rcases hl with hl | ⟨_, hd, hl⟩
      · exact Or.inl ⟨bridge, by rw [hl]; exact hb⟩
      · by_cases hk : send.key = key
        · exact Or.inr (Or.inr ⟨n, by simp, send, hsend', hk, Or.inr hd⟩)
        · refine Or.inl ⟨bridge, ?_⟩
          rw [hl, Std.ExtTreeMap.getElem?_erase]
          simpa [hk] using hb
    · exact Or.inr (Or.inl (hcarried key v hv hc))
    · rcases List.mem_cons.mp hu with rfl | hu
      · rw [hsend] at hs
        cases hs
        exact Or.inr (Or.inr ⟨n, by simp, send, hsend', hkey, hrest.imp_right hdropped⟩)
      · exact Or.inr (Or.inr ⟨u, by simp [hu], send', hs, hkey, hrest⟩)

/-- Below a send there is no other send of its channel, and below a fresh one none at all. -/
theorem Retains.below {r : MeshReliable} {t : Task} {rest : List Task} {log : List Event}
    {send : Send} (h : Retains r (t :: rest) log) (hsend : t.send = some send) :
    ∀ u ∈ rest, ∀ send', u.send = some send' →
      send.resumed = true ∧ send'.resumed = true ∧ send'.key ≠ send.key := by
  intro u hu send' hs
  have hcons : sendsOf (t :: rest) = send :: sendsOf rest := List.filterMap_cons_some hsend
  have hmem : send' ∈ sendsOf rest := mem_sendsOf.mpr ⟨u, hu, hs⟩
  have hres : send.resumed = true := by
    by_contra hfresh
    obtain ⟨hone, _⟩ := h.alone send (by rw [hcons]; exact List.mem_cons_self)
      (by simpa using hfresh)
    rw [hcons] at hone
    have hnil : sendsOf rest = [] := (List.cons.inj hone).2
    rw [hnil] at hmem
    cases hmem
  have hres' : send'.resumed = true := by
    by_contra hfresh
    obtain ⟨hone, _⟩ := h.alone send' (by rw [hcons]; exact List.mem_cons_of_mem _ hmem)
      (by simpa using hfresh)
    rw [hcons] at hone
    have hhead : send = send' := (List.cons.inj hone).1
    rw [hhead] at hres
    exact hfresh hres
  refine ⟨hres, hres', fun hkey => ?_⟩
  have hd := h.distinct
  rw [hcons, List.map_cons, List.nodup_cons] at hd
  exact hd.1 (List.mem_map.mpr ⟨send', hmem, hkey⟩)

theorem obligation_returned_of_ne {key : UInt64} {send : Send} (h : send.key ≠ key)
    (log : List Event) : obligation key (.returned send :: log) = obligation key log := by
  simp [obligation, Obligation.after, h]

/-- The tasks that stay when a send is over. -/
theorem Retains.drop {r r' : MeshReliable} {t : Task} {rest : List Task}
    {log log' : List Event} {send : Send} (h : Retains r (t :: rest) log)
    (hsend : t.send = some send) (hbase : ∀ u ∈ rest, u.base = true)
    (hlatest : ∀ key : UInt64, key ≠ send.key → r'.latest[key]? = r.latest[key]?)
    (hstanding : ∀ key, key ≠ send.key → ∀ v a',
      (obligation key log').standing = some (v, a') →
        ∃ a, (obligation key log).standing = some (v, a) ∧ (a = true → a' = true))
    (hcarried : ∀ key, key ≠ send.key → ∀ v, Carried r.pending log key v →
      Carried r'.pending log' key v)
    (hself : ∀ bridge v, r'.latest[send.key]? = some (bridge, v) →
      channelKey bridge = send.key ∧ Framed bridge v ∧
        ∀ w a, (obligation send.key log').standing = some (w, a) → w = v)
    (hkept : ∀ v, (obligation send.key log').standing = some (v, false) →
      (∃ bridge, r'.latest[send.key]? = some (bridge, v)) ∨
        Carried r'.pending log' send.key v) :
    Retains r' rest log' := by
  have hbelow := h.below hsend
  refine ⟨?_, ?_, ?_, ?_, ?_, ?_, ?_, ?_, ?_⟩
  · intro key bridge v hv
    by_cases hk : key = send.key
    · subst hk
      exact hself bridge v hv
    · rw [hlatest key hk] at hv
      obtain ⟨hkey, hframed, hw⟩ := h.waiting key bridge v hv
      refine ⟨hkey, hframed, fun w a hs => ?_⟩
      obtain ⟨a₀, hs₀, _⟩ := hstanding key hk w a hs
      exact hw w a₀ hs₀
  · intro u hu send' hs hfresh
    rw [(hbelow u hu send' hs).2.1] at hfresh
    cases hfresh
  · intro u hu send' hs hres
    have hk := (hbelow u hu send' hs).2.2
    have htask := h.resumed u (List.mem_cons_of_mem _ hu) send' hs hres
    refine ⟨by rw [hlatest _ hk]; exact htask.latest, fun v a' ha' => ?_⟩
    obtain ⟨a, ha, haa'⟩ := hstanding _ hk v a' ha'
    obtain ⟨hv, hta⟩ := htask.standing v a ha
    exact ⟨hv, fun ht => haa' (hta ht)⟩
  · intro send' hs
    obtain ⟨u, hu, hs⟩ := mem_sendsOf.mp hs
    exact h.framed send' (mem_sendsOf.mpr ⟨u, List.mem_cons_of_mem _ hu, hs⟩)
  · have hd := h.distinct
    rw [show sendsOf (t :: rest) = send :: sendsOf rest from List.filterMap_cons_some hsend,
      List.map_cons, List.nodup_cons] at hd
    exact hd.2
  · intro send' hs hfresh
    obtain ⟨u, hu, hs⟩ := mem_sendsOf.mp hs
    rw [(hbelow u hu send' hs).2.1] at hfresh
    cases hfresh
  · intro send' adm hu
    cases hbase _ hu
  · intro send' adm data remaining admitted hu
    cases hbase _ hu
  · intro key v hv
    by_cases hk : key = send.key
    · subst hk
      exact (hkept v hv).imp_right Or.inl
    · obtain ⟨a, ha, haa'⟩ := hstanding key hk v false hv
      have hfalse : a = false := by
        cases a with
        | false => rfl
        | true => exact absurd (haa' rfl) (by simp)
      subst hfalse
      rcases h.kept key v ha with ⟨bridge, hb⟩ | hc | ⟨u, hu, send', hs, hkey, hrest⟩
      · exact Or.inl ⟨bridge, by rw [hlatest key hk]; exact hb⟩
      · exact Or.inr (Or.inl (hcarried key hk v hc))
      · rcases List.mem_cons.mp hu with rfl | hu
        · rw [hsend] at hs
          cases hs
          exact absurd hkey.symm hk
        · exact Or.inr (Or.inr ⟨u, hu, send', hs, hkey, hrest⟩)

/-- The send returns, its value waiting or accepted. -/
theorem Retains.finish {r r' : MeshReliable} {t : Task} {rest : List Task}
    {log g : List Event} {send : Send} (h : Retains r (t :: rest) log)
    (hsend : t.send = some send) (hbase : ∀ u ∈ rest, u.base = true)
    (hlog : Advanced log g)
    (hlatest : ∀ key : UInt64, key ≠ send.key → r'.latest[key]? = r.latest[key]?)
    (hcarried : ∀ key, key ≠ send.key → ∀ v, Carried r.pending log key v →
      Carried r'.pending g key v)
    (hself : r'.latest[send.key]? = some (send.bridge, send.payload) ∨
      (AcceptedIn g send ∧ r'.latest[send.key]? = none)) :
    Retains r' rest (.returned send :: g) := by
  -- The standing value is the send's own.
  have hown : ∀ v a, (obligation send.key (.returned send :: g)).standing = some (v, a) →
      v = send.payload ∧ (AcceptedIn g send → a = true) := by
    intro v a hv
    by_cases hres : send.resumed = true
    · have hv₁ : (obligation send.key g).standing = some (v, a) := by
        simpa [obligation, Obligation.after, hres] using hv
      obtain ⟨a₀, hv₀, _⟩ := hlog.standing send.key v a hv₁
      obtain ⟨hv', _⟩ := (h.resumed t List.mem_cons_self send hsend hres).standing v a₀ hv₀
      exact ⟨hv', fun hacc => hacc v a (by rw [Send.value_resumed hres, hv₁]) hv'⟩
    · have hv₁ : (obligation send.key g).call = some (v, a) := by
        simpa [obligation, Obligation.after, hres] using hv
      obtain ⟨a₀, ha₀, _⟩ := (h.fresh t List.mem_cons_self send hsend (by simpa using hres)).call
      obtain ⟨a₁, ha₁, _⟩ := hlog.call send.key send.payload a₀ ha₀
      rw [ha₁] at hv₁
      cases hv₁
      exact ⟨rfl, fun hacc => hacc _ _ (by rw [Send.value_fresh (by simpa using hres), ha₁]) rfl⟩
  refine h.drop hsend hbase hlatest (fun key hk v a' ha' => ?_) (fun key hk v hc => ?_)
    (fun bridge v hv => ?_) (fun v hv => ?_)
  · rw [obligation_returned_of_ne (Ne.symm hk)] at ha'
    exact hlog.standing key v a' ha'
  · exact hcarried key hk v hc
  · rcases hself with hself | ⟨_, hself⟩
    · rw [hself] at hv
      cases hv
      exact ⟨rfl, h.framed send (mem_sendsOf.mpr ⟨t, List.mem_cons_self, hsend⟩),
        fun w a hw => (hown w a hw).1⟩
    · rw [hself] at hv
      cases hv
  · obtain ⟨rfl, hacc⟩ := hown v false hv
    rcases hself with hself | ⟨hacc', _⟩
    · exact Or.inl ⟨send.bridge, hself⟩
    · cases hacc hacc'

/-- The send throws, and nothing is owed on its channel or it has not touched the waiting
value yet. -/
theorem Retains.throw {r : MeshReliable} {t : Task} {rest : List Task}
    {log log₁ : List Event} {send : Send} (h : Retains r (t :: rest) log)
    (hsend : t.send = some send) (hbase : ∀ u ∈ rest, u.base = true)
    (hlog : Advanced log log₁)
    (howed : owed send.key log = none ∨ (send.resumed = false ∧ t.dropped = false)) :
    Retains r rest (.threw send :: log₁) := by
  have hstanding : ∀ key v a', (obligation key (.threw send :: log₁)).standing = some (v, a') →
      ∃ a, (obligation key log).standing = some (v, a) ∧ (a = true → a' = true) := by
    intro key v a' ha'
    have ha₁ : (obligation key log₁).standing = some (v, a') := by
      simp only [obligation, Obligation.after] at ha'
      split at ha' <;> exact ha'
    exact hlog.standing key v a' ha₁
  refine h.drop hsend hbase (fun _ _ => rfl) (fun key _ => hstanding key)
    (fun key _ v hc => hc.mono (.refl _) (hlog.carried key)) (fun bridge v hv => ?_)
    (fun v hv => ?_)
  · obtain ⟨hkey, hframed, hw⟩ := h.waiting send.key bridge v hv
    refine ⟨hkey, hframed, fun w a hs => ?_⟩
    obtain ⟨a₀, hs₀, _⟩ := hstanding send.key w a hs
    exact hw w a₀ hs₀
  · obtain ⟨a, ha, haa'⟩ := hstanding _ v false hv
    have hfalse : a = false := by
      cases a with
      | false => rfl
      | true => exact absurd (haa' rfl) (by simp)
    subst hfalse
    rcases howed with howed | ⟨hfresh, hdropped⟩
    · rw [owed, ha] at howed
      cases howed
    · rcases h.kept send.key v ha with hb | hc | ⟨u, hu, send', hs, hkey, hrest⟩
      · exact Or.inl hb
      · exact Or.inr (hc.mono (.refl _) (hlog.carried _))
      · rcases List.mem_cons.mp hu with rfl | hu
        · rw [hsend] at hs
          cases hs
          rcases hrest with hrest | hrest
          · rw [hfresh] at hrest
            cases hrest
          · rw [hdropped] at hrest
            cases hrest
        · exact absurd hkey (h.below hsend u hu send' hs).2.2

/-! ## Records of a sweep -/

theorem standing_of_expired {events : List Event} {key : UInt64} {sequence : UInt16}
    {log : List Event} {v w : Bytes} {a : Bool} (hsettles : ∀ e ∈ events, e.settles = true)
    (hfills : ∀ e ∈ events, e.fills sequence = false) (hmem : .expired sequence ∈ events)
    (hcarried : carried key sequence log = some v)
    (hw : (obligation key (events.reverse ++ log)).standing = some (w, a)) : w ≠ v := by
  induction events generalizing log with
  | nil => cases hmem
  | cons e events ih =>
      have hsettles' : ∀ e' ∈ events, e'.settles = true :=
        fun e' he' => hsettles e' (List.mem_cons_of_mem _ he')
      have hfills' : ∀ e' ∈ events, e'.fills sequence = false :=
        fun e' he' => hfills e' (List.mem_cons_of_mem _ he')
      rw [List.reverse_cons, List.append_assoc] at hw
      by_cases hlater : .expired sequence ∈ events
      · refine @ih (e :: log) hsettles' hfills' hlater ?_ hw
        rw [carried_cons (hfills e List.mem_cons_self), hcarried]
      · have he : e = .expired sequence := by
          rcases List.mem_cons.mp hmem with h | h
          · exact h.symm
          · exact absurd h hlater
        subst he
        obtain ⟨a₁, ha₁, _⟩ := (settles_append hsettles' _).standing key w a hw
        simp only [List.cons_append, List.nil_append, obligation, Obligation.after] at ha₁
        split at ha₁
        · cases ha₁
        · rename_i hne
          rw [ha₁, hcarried] at hne
          intro heq
          exact hne (by rw [heq]; rfl)

theorem carried_of_folded {events : List Event} {key : UInt64} {sequence : UInt16} {v : Bytes}
    (hmem : .folded key sequence v ∈ events)
    (hall : ∀ e ∈ events, e.fills sequence = true → e = .folded key sequence v)
    (log : List Event) : carried key sequence (events.reverse ++ log) = some v := by
  induction events generalizing log with
  | nil => cases hmem
  | cons e events ih =>
      have hall' : ∀ e' ∈ events, e'.fills sequence = true → e' = .folded key sequence v :=
        fun e' he' => hall e' (List.mem_cons_of_mem _ he')
      rw [List.reverse_cons, List.append_assoc]
      by_cases hlater : .folded key sequence v ∈ events
      · exact ih hlater hall' _
      · have he : e = .folded key sequence v := by
          rcases List.mem_cons.mp hmem with h | h
          · exact h.symm
          · exact absurd h hlater
        subst he
        rw [carried_append (fun e' he' => ?_)]
        · simp [carried]
        · by_contra hfill
          have := hall' e' he' (by simpa using hfill)
          exact hlater (this ▸ he')

/-! ## Steps of maintenance -/

theorem owed_eq_some {key : UInt64} {log : List Event} {v : Bytes}
    (h : (obligation key log).standing = some (v, false)) : owed key log = some v := by
  rw [owed, h]
  rfl

/-- What a sweep does to the values keeps the invariant. -/
theorem Retains.sweep {now : Time} {r : MeshReliable} {rest : List Task} {log : List Event}
    (h : Retains r (.sweep :: rest) log) (hbase : ∀ u ∈ rest, u.base = true)
    (hok : ∀ item ∈ r.pending.toList, item.2.awaiting.isEmpty = true →
      r.latest[item.2.channelKey]? = none →
        owed item.2.channelKey log ≠ some (decodedFrame item.2.data)) :
    Retains (sweepState now r) (sweepTasks now r ++ rest)
      ((sweepEvents now r).reverse ++ log) := by
  obtain ⟨done, hloop, _⟩ := sweepLoop_spec now r
  have hlatest := sweepState_latest now r
  have hsettles : ∀ e ∈ sweepEvents now r, e.settles = true := by
    intro e he
    rcases mem_sweepEvents.mp he with ⟨_, _, rfl⟩ | ⟨_, _, rfl⟩ | ⟨_, _, rfl⟩ | ⟨_, _, _, _, rfl⟩ <;>
      rfl
  have hfolds : ∀ e ∈ sweepEvents now r, ∀ s : UInt16, e.fills s = true →
      ∃ key payload, e = .folded key s payload ∧
        .folded s key payload ∈ (sweepLoop now r).events := by
    intro e he s hs
    rcases mem_sweepEvents.mp he with ⟨_, _, rfl⟩ | ⟨_, _, rfl⟩ | ⟨_, _, rfl⟩ |
      ⟨s', key, payload, hf, rfl⟩
    · cases hs
    · cases hs
    · cases hs
    · have heq : s' = s := by simpa [Event.fills] using hs
      subst heq
      exact ⟨key, payload, rfl, hf⟩
  have hlog := settles_append hsettles log
  have hold : ∀ send ∈ sendsOf (.sweep :: rest), send.resumed = true := by
    intro send hsend
    by_contra hfresh
    exact (h.alone send hsend (by simpa using hfresh)).2.1 List.mem_cons_self
  have hrest : ∀ send, send ∈ sendsOf rest → send ∈ sendsOf (.sweep :: rest) := by
    intro send hsend
    obtain ⟨t, ht, hs⟩ := mem_sendsOf.mp hsend
    exact mem_sendsOf.mpr ⟨t, List.mem_cons_of_mem _ ht, hs⟩
  have hnone : ∀ key : UInt64, r.latest[key]? = none → (sweepLoop now r).latest[key]? = none := by
    intro key hk
    cases hv : (sweepLoop now r).latest[key]? with
    | none => rfl
    | some value =>
        rw [hloop.latest_sub key value hv] at hk
        cases hk
  have hready : ∀ value ∈ sweepReady now r, r.latest[channelKey value.1]? = some value ∧
      (sweepState now r).latest[channelKey value.1]? = none := by
    intro value hvalue
    obtain ⟨key, hk, hbusy⟩ := mem_sweepReady.mp hvalue
    have hr := hloop.latest_sub key value hk
    have hkey := (h.waiting key value.1 value.2 hr).1
    rw [hkey]
    exact ⟨hr, by rw [hlatest, hk, hbusy]; rfl⟩
  have htasks : ∀ u ∈ sweepTasks now r ++ rest, ∀ send, u.send = some send →
      (∃ value ∈ sweepReady now r, u = .enter send ∧ send = ⟨value.1, value.2, true⟩) ∨
        (u ∈ rest ∧ send ∈ sendsOf (.sweep :: rest)) := by
    intro u hu send hs
    rcases List.mem_append.mp hu with hu | hu
    · left
      simp only [sweepTasks, List.mem_append, List.mem_map, List.mem_singleton] at hu
      rcases hu with ((⟨_, _, rfl⟩ | rfl) | ⟨_, _, rfl⟩) | ⟨value, hvalue, rfl⟩
      · cases hs
      · cases hs
      · cases hs
      · cases hs
        exact ⟨value, hvalue, rfl, rfl⟩
    · exact Or.inr ⟨hu, hrest send (mem_sendsOf.mpr ⟨u, hu, hs⟩)⟩
  have hresumed : ∀ send ∈ sendsOf (sweepTasks now r ++ rest), send.resumed = true := by
    intro send hs
    obtain ⟨u, hu, hs⟩ := mem_sendsOf.mp hs
    rcases htasks u hu send hs with ⟨_, _, _, rfl⟩ | ⟨_, hs⟩
    · rfl
    · exact hold send hs
  have hnotSend : ∀ u ∈ sweepTasks now r ++ rest, u.base = true := by
    intro u hu
    rcases List.mem_append.mp hu with hu | hu
    · exact base_sweepTasks now r u hu
    · exact hbase u hu
  refine ⟨?_, ?_, ?_, ?_, ?_, ?_, ?_, ?_, ?_⟩
  · intro key bridge v hv
    rw [hlatest, Option.filter_eq_some_iff] at hv
    obtain ⟨hkey, hframed, hw⟩ := h.waiting key bridge v (hloop.latest_sub key _ hv.1)
    refine ⟨hkey, hframed, fun w a hs => ?_⟩
    obtain ⟨a₀, hs₀, _⟩ := hlog.standing key w a hs
    exact hw w a₀ hs₀
  · intro u hu send hs hfresh
    rw [hresumed send (mem_sendsOf.mpr ⟨u, hu, hs⟩)] at hfresh
    cases hfresh
  · intro u hu send hs hres
    rcases htasks u hu send hs with ⟨value, hvalue, rfl, rfl⟩ | ⟨hu, hmem⟩
    · obtain ⟨hr, hn⟩ := hready value hvalue
      refine ⟨hn, fun v a' ha' => ⟨?_, fun ht => by cases ht⟩⟩
      obtain ⟨a, ha, _⟩ := hlog.standing _ v a' ha'
      exact (h.waiting _ value.1 value.2 hr).2.2 v a ha
    · have htask := h.resumed u (List.mem_cons_of_mem _ hu) send hs hres
      refine ⟨by rw [hlatest, hnone _ htask.latest]; rfl, fun v a' ha' => ?_⟩
      obtain ⟨a, ha, haa'⟩ := hlog.standing send.key v a' ha'
      obtain ⟨hv, hta⟩ := htask.standing v a ha
      exact ⟨hv, fun ht => haa' (hta ht)⟩
  · intro send hs
    obtain ⟨u, hu, hs⟩ := mem_sendsOf.mp hs
    rcases htasks u hu send hs with ⟨value, hvalue, _, rfl⟩ | ⟨_, hmem⟩
    · exact (h.waiting _ value.1 value.2 (hready value hvalue).1).2.1
    · exact h.framed send hmem
  · -- The resumed channels are distinct keys of the map, and none of them was being sent.
    have hsplit : sendsOf (sweepTasks now r ++ rest) =
        (sweepReady now r).map (fun value => ⟨value.1, value.2, true⟩) ++ sendsOf rest := by
      rw [← sendsOf_sweepTasks]
      exact List.filterMap_append
    have hkeys : ((sweepReady now r).map (fun value =>
        (⟨value.1, value.2, true⟩ : Send))).map Send.key =
        ((sweepLoop now r).latest.toList.filter fun item =>
          !channelBusy (sweepLoop now r).pending item.1).map (·.1) := by
      unfold sweepReady
      simp only [List.map_map]
      apply List.map_congr_left
      intro item hitem
      have hitem' := Std.ExtTreeMap.mem_toList_iff_getElem?_eq_some.mp (List.mem_filter.mp hitem).1
      exact (h.waiting item.1 item.2.1 item.2.2 (hloop.latest_sub _ _ hitem')).1
    rw [hsplit, List.map_append, hkeys, List.nodup_append]
    refine ⟨?_, ?_, ?_⟩
    · refine List.Nodup.sublist (List.Sublist.map _ List.filter_sublist) ?_
      rw [List.nodup_iff_pairwise_ne, List.pairwise_map]
      exact (Std.ExtTreeMap.distinct_keys_toList (t := (sweepLoop now r).latest)).imp
        (fun hab heq => hab (by simp [heq]))
    · have hd := h.distinct
      rwa [show sendsOf (.sweep :: rest) = sendsOf rest from
        List.filterMap_cons_none rfl] at hd
    · rintro key hkey key' hkey' rfl
      obtain ⟨item, hitem, rfl⟩ := List.mem_map.mp hkey
      obtain ⟨send, hsend, hkeq⟩ := List.mem_map.mp hkey'
      obtain ⟨u, hu, hs⟩ := mem_sendsOf.mp hsend
      have hlat := (h.resumed u (List.mem_cons_of_mem _ hu) send hs
        (hold send (hrest send hsend))).latest
      rw [hkeq] at hlat
      have hitem' := Std.ExtTreeMap.mem_toList_iff_getElem?_eq_some.mp (List.mem_filter.mp hitem).1
      rw [hnone _ hlat] at hitem'
      cases hitem'
  · intro send hs hfresh
    rw [hresumed send hs] at hfresh
    cases hfresh
  · intro send adm hu
    cases hnotSend _ hu
  · intro send adm data remaining admitted hu
    cases hnotSend _ hu
  · intro key v hv
    have hfalse := hlog.owed hv
    -- A fold into a sample of the channel hands it the owed value.
    have hgive : ∀ s (p p' : MeshReliablePending), r.pending[s]? = some p →
        (sweepLoop now r).pending[s]? = some p' → ∀ k payload,
        .folded s k payload ∈ (sweepLoop now r).events →
        k = key → Carried (sweepState now r).pending ((sweepEvents now r).reverse ++ log)
          key v := by
      intro s p p' hp hp' k payload hf hk
      subst hk
      obtain ⟨_, _, q, q', bridge, hq, hq', hqkey, hql, hqdata⟩ := hloop.folded s k payload hf
      obtain ⟨_, ⟨body, hbody⟩, hpayload⟩ := h.waiting k bridge payload hql
      have hpv : v = payload := hpayload v false hfalse
      subst hpv
      have hsame : q'.channelKey = k := by
        obtain ⟨q₀, hq₀, hsame, _⟩ := hloop.kept s q' hq'
        rw [hq] at hq₀
        cases hq₀
        exact hsame.channelKey.trans hqkey
      refine ⟨s, q', hq', hsame, ?_, ?_⟩
      · rw [hqdata, foldedData, hbody]
        exact decodedFrame_make bridge body s _
      · refine carried_of_folded (mem_sweepEvents.mpr (Or.inr (Or.inr (Or.inr
          ⟨s, k, v, hf, rfl⟩)))) (fun e he hfill => ?_) log
        obtain ⟨k', payload', rfl, hf'⟩ := hfolds e he s hfill
        obtain ⟨_, _, q₁, _, bridge', hq₁, _, hq₁key, hq₁l, _⟩ := hloop.folded s k' payload' hf'
        rw [hq] at hq₁
        cases hq₁
        rw [hqkey] at hq₁key
        subst hq₁key
        rw [hql] at hq₁l
        cases hq₁l
        rfl
    -- A waiting value is folded, kept or resumed.
    have hwaiting : ∀ bridge, r.latest[key]? = some (bridge, v) →
        (∃ bridge', (sweepState now r).latest[key]? = some (bridge', v)) ∨
          Carried (sweepState now r).pending ((sweepEvents now r).reverse ++ log) key v ∨
          ∃ t ∈ sweepTasks now r ++ rest, ∃ send, t.send = some send ∧ send.key = key ∧
            (send.resumed = true ∨ t.dropped = true) := by
      intro bridge hb
      have hbkey := (h.waiting key bridge v hb).1
      cases hl : (sweepLoop now r).latest[key]? with
      | none =>
          obtain ⟨s, hf⟩ := hloop.latest_gone key _ hb hl
          obtain ⟨_, _, p, p', _, hp, hp', _⟩ := hloop.folded s key v hf
          exact Or.inr (Or.inl (hgive s p p' hp hp' key v hf rfl))
      | some value =>
          have hvalue := hloop.latest_sub key value hl
          rw [hb] at hvalue
          cases hvalue
          cases hbusy : channelBusy (sweepLoop now r).pending key with
          | true => exact Or.inl ⟨bridge, by rw [hlatest, hl, hbusy]; rfl⟩
          | false =>
              refine Or.inr (Or.inr ⟨.enter ⟨bridge, v, true⟩, ?_, ⟨bridge, v, true⟩, rfl,
                hbkey, Or.inl rfl⟩)
              refine List.mem_append_left _ ?_
              simp only [sweepTasks, List.mem_append, List.mem_map]
              exact Or.inr ⟨(bridge, v), mem_sweepReady.mpr ⟨key, hl, hbusy⟩, rfl⟩
    rcases h.kept key v hfalse with ⟨bridge, hb⟩ | ⟨s, p, hp, hkey, hdata, hcarried⟩ |
      ⟨t, ht, send, hs, hk, hsend⟩
    · exact hwaiting bridge hb
    · cases hl : r.latest[key]? with
      | some value =>
          have hvalue := (h.waiting key value.1 value.2 hl).2.2 v false hfalse
          exact hwaiting value.1 (by rw [hl, hvalue])
      | none =>
          have hnofold : ∀ k payload, .folded s k payload ∉ (sweepLoop now r).events := by
            intro k payload hf
            obtain ⟨_, _, q, _, bridge, hq, _, hqkey, hql, _⟩ := hloop.folded s k payload hf
            rw [hp] at hq
            cases hq
            rw [← hqkey, hkey, hl] at hql
            cases hql
          have hnofill : ∀ e ∈ sweepEvents now r, e.fills s = false := by
            intro e he
            by_contra hfill
            obtain ⟨k, payload, _, hf⟩ := hfolds e he s (by simpa using hfill)
            exact hnofold k payload hf
          cases hp' : (sweepLoop now r).pending[s]? with
          | some p' =>
              obtain ⟨q, hq, hsame, hd⟩ := hloop.kept s p' hp'
              rw [hp] at hq
              cases hq
              have hd' : p'.data = p.data := by
                rcases hd with hd | ⟨_, payload, _, _, hf⟩
                · exact hd
                · exact absurd hf (hnofold _ payload)
              refine Or.inr (Or.inl ⟨s, p', hp', hsame.channelKey.trans hkey, by rw [hd', hdata],
                ?_⟩)
              rw [carried_append hnofill, hcarried]
          | none =>
              rcases hloop.gone s p hp hp' with ⟨_, hempty⟩ | hexpired
              · have hnot := hok (s, p) (Std.ExtTreeMap.mem_toList_iff_getElem?_eq_some.mpr hp)
                  hempty (by rw [hkey]; exact hl)
                simp only [hkey, hdata] at hnot
                exact absurd (owed_eq_some hfalse) hnot
              · exact absurd rfl (standing_of_expired hsettles hnofill
                  (mem_sweepEvents.mpr (Or.inr (Or.inr (Or.inl ⟨s, hexpired, rfl⟩))))
                  hcarried hv)
    · rcases List.mem_cons.mp ht with rfl | ht
      · cases hs
      · exact Or.inr (Or.inr ⟨t, List.mem_append_right _ ht, send, hs, hk, hsend⟩)

/-- What clearing the state does to the values keeps the invariant. -/
theorem Retains.clear {preserveLatest : Bool} {r : MeshReliable} {rest : List Task}
    {log : List Event} (h : Retains r (.clear preserveLatest :: rest) log)
    (hok : preserveLatest = true → ∀ item ∈ r.pending.toList,
      r.latest[item.2.channelKey]? = none →
        owed item.2.channelKey log ≠ some (decodedFrame item.2.data)) :
    Retains (clearMeshReliableState preserveLatest r) rest (.cleared preserveLatest :: log) := by
  have hlog := settles_cons (e := .cleared preserveLatest) rfl log
  have hsub : ∀ (key : UInt64) value,
      (clearMeshReliableState preserveLatest r).latest[key]? = some value →
        r.latest[key]? = some value := by
    intro key value hv
    cases preserveLatest
    · simp [clearMeshReliableState] at hv
    · exact hv
  have hnone : ∀ key : UInt64, r.latest[key]? = none →
      (clearMeshReliableState preserveLatest r).latest[key]? = none := by
    intro key hk
    cases hv : (clearMeshReliableState preserveLatest r).latest[key]? with
    | none => rfl
    | some value =>
        rw [hsub key value hv] at hk
        cases hk
  have hsends : sendsOf (.clear preserveLatest :: rest) = sendsOf rest :=
    List.filterMap_cons_none rfl
  refine ⟨?_, ?_, ?_, ?_, ?_, ?_, ?_, ?_, ?_⟩
  · intro key bridge v hv
    obtain ⟨hkey, hframed, hw⟩ := h.waiting key bridge v (hsub key _ hv)
    refine ⟨hkey, hframed, fun w a hs => ?_⟩
    obtain ⟨a₀, hs₀, _⟩ := hlog.standing key w a hs
    exact hw w a₀ hs₀
  · intro u hu send hs hfresh
    have htask := h.fresh u (List.mem_cons_of_mem _ hu) send hs hfresh
    obtain ⟨a, ha, hta⟩ := htask.call
    obtain ⟨a', ha', haa'⟩ := hlog.call send.key send.payload a ha
    exact ⟨⟨a', ha', fun ht => haa' (hta ht)⟩, fun hd => hnone _ (htask.dropped hd)⟩
  · intro u hu send hs hres
    have htask := h.resumed u (List.mem_cons_of_mem _ hu) send hs hres
    refine ⟨hnone _ htask.latest, fun v a' ha' => ?_⟩
    obtain ⟨a, ha, haa'⟩ := hlog.standing send.key v a' ha'
    obtain ⟨hv, hta⟩ := htask.standing v a ha
    exact ⟨hv, fun ht => haa' (hta ht)⟩
  · rw [← hsends]
    exact h.framed
  · rw [← hsends]
    exact h.distinct
  · rw [← hsends]
    intro send hs hfresh
    obtain ⟨hone, hsweep, hmaintain⟩ := h.alone send hs hfresh
    rw [List.mem_cons, not_or] at hsweep hmaintain
    exact ⟨hone, hsweep.2, hmaintain.2⟩
  · intro send adm _
    simp [clearMeshReliableState]
  · intro send adm data remaining admitted _ p hp
    simp [clearMeshReliableState] at hp
  · intro key v hv
    have hfalse := hlog.owed hv
    cases preserveLatest with
    | false =>
        have hgone : (obligation key (.cleared false :: log)).standing = none := rfl
        rw [hgone] at hv
        cases hv
    | true =>
        rcases h.kept key v hfalse with hb | ⟨s, p, hp, hkey, hdata, _⟩ | ⟨t, ht, send, hs, hrest⟩
        · exact Or.inl hb
        · cases hl : r.latest[key]? with
          | some value =>
              have hvalue := (h.waiting key value.1 value.2 hl).2.2 v false hfalse
              exact Or.inl ⟨value.1, by rw [hvalue]; exact hl⟩
          | none =>
              have hnot := hok rfl (s, p) (Std.ExtTreeMap.mem_toList_iff_getElem?_eq_some.mpr hp)
                (by rw [hkey]; exact hl)
              simp only [hkey, hdata] at hnot
              exact absurd (owed_eq_some hfalse) hnot
        · rcases List.mem_cons.mp ht with rfl | ht
          · cases hs
          · exact Or.inr (Or.inr ⟨t, ht, send, hs, hrest⟩)

/-- Replacing a task that is no send by others, with bookkeeping only. -/
theorem Retains.replace {r r' : MeshReliable} {t : Task} {l rest : List Task}
    {log log' : List Event} (h : Retains r (t :: rest) log) (ht : t.send = none)
    (hp : PendingKept r.pending r'.pending) (hl : r'.latest = r.latest)
    (hlog : Advanced log log')
    (htasks : ∀ u ∈ l, u.send = none ∧
      (u = .sweep ∨ u = .maintain → t = .sweep ∨ t = .maintain)) :
    Retains r' (l ++ rest) log' := by
  have hnil : l.filterMap Task.send = [] := by
    rw [List.filterMap_eq_nil_iff]
    exact fun u hu => (htasks u hu).1
  refine h.frame hp hl hlog ?_ (fun u hu => ?_) (fun hloop => Or.inl ?_)
  · unfold sendsOf
    rw [List.filterMap_append, hnil, List.filterMap_cons_none ht, List.nil_append]
  · rw [List.mem_append, List.mem_cons]
    constructor
    · rintro (hu' | hu')
      · exact absurd (htasks u hu').1 hu
      · exact Or.inr hu'
    · rintro (rfl | hu')
      · exact absurd ht hu
      · exact Or.inr hu'
  · have hcase : ∀ u, (u = .sweep ∨ u = .maintain) → u ∈ l ++ rest →
        t = .sweep ∨ t = .maintain ∨ u ∈ t :: rest := by
      intro u hu hmem
      rcases List.mem_append.mp hmem with hmem | hmem
      · rcases (htasks u hmem).2 hu with h | h
        · exact Or.inl h
        · exact Or.inr (Or.inl h)
      · exact Or.inr (Or.inr (List.mem_cons_of_mem _ hmem))
    rcases hloop with hloop | hloop
    · rcases hcase _ (Or.inl rfl) hloop with rfl | rfl | hmem
      · exact Or.inl List.mem_cons_self
      · exact Or.inr List.mem_cons_self
      · exact Or.inl hmem
    · rcases hcase _ (Or.inr rfl) hloop with rfl | rfl | hmem
      · exact Or.inl List.mem_cons_self
      · exact Or.inr List.mem_cons_self
      · exact Or.inr hmem

/-- The daemon takes the send's value. -/
theorem acceptedIn_cons (send : Send) (log : List Event) :
    AcceptedIn (.accepted send.key send.payload :: log) send := by
  intro v a hv heq
  subst heq
  simp only [Send.value, obligation, Obligation.after, if_true] at hv
  split at hv <;>
  · obtain ⟨a₀, _, ha⟩ := markAccepted_eq_some.mp hv
    simpa using ha.symm

theorem standing_of_evicted {key : UInt64} {sequence : UInt16} {log : List Event}
    {v w : Bytes} {a : Bool} (hcarried : carried key sequence log = some v)
    (hw : (obligation key (.evicted sequence :: log)).standing = some (w, a)) : w ≠ v := by
  simp only [obligation, Obligation.after] at hw
  split at hw
  · cases hw
  · rename_i hne
    rw [hw, hcarried] at hne
    intro heq
    exact hne (by rw [heq]; rfl)

/-- The admission of a sample keeps the invariant. -/
theorem Retains.admission (now : Time) {send : Send} {adm : Admission} {d : Bytes}
    {r : MeshReliable} {rest b : List Task} {log : List Event}
    (h : Retains r (.admission send adm :: rest) log) (hbase : ∀ u ∈ rest, u.base = true)
    (hbefore : ∀ u ∈ b, u = .consume send) :
    Retains (admitSample now send adm d r)
      (b ++ .fanOut send adm d adm.targets false :: rest)
      (.admitted send.key adm.sequence send.payload ::
        (((evicted r).toList.map .evicted).reverse ++ log)) := by
  have hfree := h.free send adm List.mem_cons_self
  have hpending := admitSample_pending now send adm d hfree
  have hevictions : ∀ e ∈ (evicted r).toList.map Event.evicted, e.settles = true ∧
      ∀ s, e.fills s = false := by
    intro e he
    obtain ⟨s, _, rfl⟩ := List.mem_map.mp he
    exact ⟨rfl, fun _ => rfl⟩
  have hevict := advanced_append hevictions log
  have hlog : Settles log (.admitted send.key adm.sequence send.payload ::
      (((evicted r).toList.map .evicted).reverse ++ log)) :=
    hevict.toSettles.trans (settles_cons rfl _)
  refine h.advance (t := .admission send adm)
    (n := .fanOut send adm d adm.targets false) rfl rfl hbase
    (Or.inl (admitSample_latest now send adm d r)) hlog ?_ (fun _ => rfl)
    (fun _ => Or.inl rfl) (fun ht => by cases ht) (fun _ _ heq => by cases heq) ?_ ?_
  · rintro key v hv ⟨s, p, hp, hkey, hdata, hcarried⟩
    have hs : s ≠ adm.sequence := by
      rintro rfl
      rw [Std.ExtTreeMap.getElem?_eq_none hfree] at hp
      cases hp
    have hnot : evicted r ≠ some s := by
      intro he
      rw [he] at hv
      exact standing_of_evicted hcarried hv rfl
    refine ⟨s, p, ?_, hkey, hdata, ?_⟩
    · rw [hpending, if_neg hs, if_neg hnot, hp]
    · rw [carried_cons (by simp [Event.fills, Ne.symm hs]), hevict.carried, hcarried]
  · intro send' adm' data' remaining admitted heq p hp
    cases heq
    rw [hpending, if_pos rfl] at hp
    cases hp
    rfl
  · intro u hu
    rw [hbefore u hu]
    exact ⟨rfl, (fun heq => by cases heq), (fun heq => by cases heq)⟩

/-! ## Steps -/

/-- The send goes on with the waiting values and the record as they are. -/
theorem Retains.next {r q : MeshReliable} {t n : Task} {b rest : List Task}
    {log : List Event} {send : Send} (h : Retains r (t :: rest) log)
    (hsend : t.send = some send) (hsend' : n.send = some send)
    (hbase : ∀ u ∈ rest, u.base = true) (hp : PendingKept r.pending q.pending)
    (hl : q.latest = r.latest) (hdropped : t.dropped = true → n.dropped = true)
    (hdropped' : n.dropped = true → t.dropped = true ∨ send.resumed = true)
    (htaken : n.taken = false) (hentered : ∀ send adm data remaining admitted,
      n ≠ .fanOut send adm data remaining admitted)
    (hfree : ∀ send adm, n = .admission send adm → adm.sequence ∉ q.pending)
    (hbefore : ∀ u ∈ b, u.send = none ∧ u ≠ .sweep ∧ u ≠ .maintain) :
    Retains q (b ++ n :: rest) log := by
  refine h.advance hsend hsend' hbase (Or.inl hl) (.refl log)
    (fun key v _ hc => hc.mono hp (fun _ => rfl)) hdropped
    (fun hd => (hdropped' hd).imp_right Or.inl) (fun ht => ?_) hfree ?_ hbefore
  · rw [htaken] at ht
    cases ht
  · intro send' adm data remaining admitted heq
    exact absurd heq (hentered send' adm data remaining admitted)

/-- The send stores its value and returns. -/
theorem Retains.store {r r' : MeshReliable} {t : Task} {rest : List Task} {log : List Event}
    {send : Send} (h : Retains r (t :: rest) log) (hsend : t.send = some send)
    (hbase : ∀ u ∈ rest, u.base = true) (hl : r'.latest = (storeLatest send r).latest)
    (hp : r'.pending = r.pending) : Retains r' rest (.returned send :: log) := by
  refine h.finish hsend hbase (.refl log) (fun key hk => ?_) (fun key _ v hc => ?_) (Or.inl ?_)
  · rw [hl, storeLatest_ne send r hk]
  · rw [hp]
    exact hc
  · rw [hl]
    exact storeLatest_self fun hres =>
      (h.resumed t List.mem_cons_self send hsend hres).latest

/-- The executor keeps the invariant. -/
theorem retains_exec {now : Time} {view : View} {answer : Answer} {s s' : Station}
    {task : Task} {log events : List Event} (hstack : Stacked (task :: s.todo))
    (h : Retains s.reliable (task :: s.todo) log) (hok : task.Retaining log s answer)
    (hx : execTask now view answer s task = some (s', events)) :
    Retains s'.reliable s'.todo (events.reverse ++ log) := by
  by_cases hquiet : task.quiet = true
  · have hstep := exec_quiet hquiet hx
    obtain ⟨tasks, htodo, htasks⟩ := hstep.todo
    rw [htodo]
    refine h.replace ?_ hstep.reliable.pending hstep.reliable.latest (advanced_append ?_ log) ?_
    · cases task <;> first | rfl | cases hquiet
    · intro e he
      rcases hstep.events e he with ⟨_, rfl⟩ | ⟨_, rfl⟩ <;> exact ⟨rfl, fun _ => rfl⟩
    · intro u hu
      rcases htasks u hu with hq | ⟨item, _, rfl⟩
      · refine ⟨?_, ?_⟩
        · cases u <;> first | rfl | cases hq
        · rintro (rfl | rfl) <;> cases hq
      · exact ⟨rfl, by rintro (h | h) <;> cases h⟩
  cases task with
  | maintain =>
      simp only [execTask] at hx
      split at hx <;> cases hx
      · refine h.replace (l := [.clear true, .flush, .sweep]) rfl (.refl _) rfl (.refl log) ?_
        simp [Task.send]
      · exact h.replace (l := [.sweep]) rfl (.refl _) rfl (.refl log) (by simp [Task.send])
  | clear preserveLatest =>
      cases hx
      refine h.clear (fun hp => ?_)
      subst hp
      exact hok
  | sweep =>
      cases hx
      exact h.sweep (hstack.below rfl) hok
  | transmit item =>
      have hadvanced : ∀ e ∈ events, e.settles = true ∧ ∀ q, e.fills q = false := by
        intro e he
        simp only [execTask] at hx
        split at hx
        · cases hx
        · split at hx
          · split at hx <;> cases hx
            · simp only [List.mem_cons, List.not_mem_nil, or_false] at he
              rcases he with rfl | rfl | rfl <;> exact ⟨rfl, fun _ => rfl⟩
            · simp only [List.mem_cons, List.not_mem_nil, or_false] at he
              subst he
              exact ⟨rfl, fun _ => rfl⟩
          · cases hx
            cases he
          · cases hx
            split at he
            · rw [List.mem_singleton] at he
              subst he
              exact ⟨rfl, fun _ => rfl⟩
            · cases he
          · cases hx
      have hgo : ∀ tasks, (∀ u ∈ tasks, u.quiet = true) →
          Retains s.reliable (tasks ++ s.todo) (events.reverse ++ log) := by
        intro tasks htasks
        refine h.replace rfl (.refl _) rfl (advanced_append hadvanced log) (fun u hu => ?_)
        have hq := htasks u hu
        refine ⟨?_, ?_⟩
        · cases u <;> first | rfl | cases hq
        · rintro (rfl | rfl) <;> cases hq
      simp only [execTask] at hx
      split at hx
      · cases hx
      · split at hx
        · split at hx <;> cases hx
          · exact hgo [.remember _ _ _] (by simp [Task.quiet])
          · exact hgo [] (by simp)
        · cases hx
          exact hgo [.outboundBusy item] (by simp [Task.quiet])
        · cases hx
          split
          · exact hgo [.requeueAck item] (by simp [Task.quiet])
          · exact hgo [] (by simp)
        · cases hx
  | consume send =>
      cases hx
      exact h.replace (l := []) rfl (.refl _) rfl (.refl log) (by simp)
  | install meshApp coordinator =>
      cases hx
      exact h.replace (l := []) rfl (.refl _) rfl (.refl log) (by simp)
  | enter send =>
      have hbase := hstack.below rfl
      simp only [execTask] at hx
      split at hx
      · rename_i happ
        cases hx
        refine h.throw rfl hbase (.refl log) ?_
        rcases hok with happ' | hfresh | howed
        · simp [happ'] at happ
        · exact Or.inr ⟨hfresh, rfl⟩
        · exact Or.inl howed
      · split at hx <;> cases hx
        · exact h.next (n := .gate send) (b := [.clear true, .flush]) rfl rfl hbase
            (.refl _) rfl (fun hd => by cases hd) (fun hd => by cases hd) rfl (by simp) (by simp)
            (by simp [Task.send])
        · exact h.next (n := .gate send) (b := []) rfl rfl hbase (.refl _) rfl
            (fun hd => by cases hd) (fun hd => by cases hd) rfl (by simp) (by simp) (by simp)
  | gate send =>
      have hbase := hstack.below rfl
      simp only [execTask] at hx
      split at hx <;> cases hx
      · exact h.next (n := .claim send view.addresses) (b := []) rfl rfl hbase (.refl _)
          rfl (fun hd => by cases hd) (fun hd => by cases hd) rfl (by simp) (by simp) (by simp)
      · exact h.store rfl hbase rfl rfl
  | claim send addresses =>
      have hbase := hstack.below rfl
      simp only [execTask] at hx
      split at hx
      · rename_i hnewer
        rw [Bool.and_eq_true] at hnewer
        have hnone := (h.resumed _ List.mem_cons_self send rfl hnewer.1).latest
        have hsome := hnewer.2
        rw [Std.ExtTreeMap.contains_eq_isSome_getElem?, hnone] at hsome
        cases hsome
      · generalize hs₁ : (if send.resumed = true then s else
          s.withReliable (dropLatest send s.reliable)) = s₁ at hx
        have htodo : s₁.todo = s.todo := by
          rw [← hs₁]
          split <;> rfl
        have hpending : s₁.reliable.pending = s.reliable.pending := by
          rw [← hs₁]
          split <;> rfl
        have hlatest : (send.resumed = true ∧ s₁.reliable.latest = s.reliable.latest) ∨
            (send.resumed = false ∧
              s₁.reliable.latest = s.reliable.latest.erase send.key) := by
          rw [← hs₁]
          split
          · exact Or.inl ⟨‹_›, rfl⟩
          · exact Or.inr ⟨by simpa using ‹¬ send.resumed = true›, rfl⟩
        -- A fresh value takes the waiting place, a resumed one has left it before.
        have hgo : ∀ t' : Task, t'.send = some send → t'.dropped = true → t'.taken = false →
            (∀ send adm data remaining admitted, t' ≠ .fanOut send adm data remaining admitted) →
            (∀ send adm, t' ≠ .admission send adm) →
            Retains s₁.reliable (t' :: s₁.todo) log := by
          intro t' hsend' hdropped htaken hfan hadmission
          rw [htodo]
          refine h.advance (n := t') (b := []) rfl hsend' hbase ?_ (.refl log)
            (fun key v _ hc => ?_) (fun hd => by cases hd) (fun _ => ?_) (fun ht => ?_)
            (fun send' adm heq => ?_)
            (fun send' adm data remaining admitted heq => ?_) (by simp)
          · rcases hlatest with ⟨_, hl⟩ | ⟨hfresh, hl⟩
            · exact Or.inl hl
            · exact Or.inr ⟨hfresh, hdropped, hl⟩
          · rw [hpending]
            exact hc
          · rcases hlatest with ⟨hres, _⟩ | ⟨_, hl⟩
            · exact Or.inr (Or.inl hres)
            · exact Or.inr (Or.inr hl)
          · rw [htaken] at ht
            cases ht
          · exact absurd heq (hadmission send' adm)
          · exact absurd heq (hfan send' adm data remaining admitted)
        split at hx
        · split at hx
          · cases hx
            exact hgo (.occupied send addresses) rfl rfl rfl (by simp) (by simp)
          · rename_i hinvalid
            have hframed := h.framed send (mem_sendsOf.mpr ⟨_, List.mem_cons_self, rfl⟩)
            exact absurd (validPayload_of_framed hframed) hinvalid
        · cases hx
          exact hgo (.plain send) rfl rfl rfl (by simp) (by simp)
  | occupied send addresses =>
      have hbase := hstack.below rfl
      simp only [execTask] at hx
      split at hx <;> cases hx
      · exact h.store rfl hbase rfl rfl
      · exact h.next (n := .arbitrate send addresses) (b := []) rfl rfl hbase (.refl _)
          rfl (fun _ => rfl) (fun _ => Or.inl rfl) rfl (by simp) (by simp) (by simp)
  | arbitrate send addresses =>
      have hbase := hstack.below rfl
      simp only [execTask] at hx
      split at hx
      · cases hx
      · rename_i r harb
        cases hx
        exact h.store rfl hbase (arbitrate_latest harb) (arbitrate_custody harb).1
      · rename_i r adm harb
        cases hx
        obtain ⟨hp, _, hfree⟩ := arbitrate_custody harb
        refine h.next (q := r) (n := .admission send adm) (b := []) rfl rfl hbase ?_
          (arbitrate_latest harb) (fun _ => rfl) (fun _ => Or.inl rfl) rfl (by simp) ?_ (by simp)
        · rw [hp]
          exact .refl _
        · intro send' adm' heq
          cases heq
          exact hfree adm rfl
  | admission send adm =>
      have hbase := hstack.below rfl
      cases hx
      have hadmission := h.admission now
        (d := makeMeshReliableData send.payload adm.sequence view.swarmId)
        (b := if adm.consumesTurn then [.consume send] else []) hbase (by
          intro u hu
          split at hu
          · exact List.mem_singleton.mp hu
          · cases hu)
      rw [List.reverse_append, List.append_assoc]
      show Retains _ ((_ ++ [_]) ++ s.todo) _
      rw [List.append_assoc]
      exact hadmission
  | fanOut send adm data remaining admitted =>
      have hbase := hstack.below rfl
      cases remaining with
      | nil =>
          simp only [execTask] at hx
          split at hx
          · rename_i htaken
            cases hx
            -- The daemon took a copy, so nothing waits and nothing is owed.
            refine h.finish (g := log) rfl hbase (.refl log) (fun _ _ => rfl)
              (fun _ _ _ hc => hc)
              (Or.inr ⟨?_, ?_⟩)
            · intro v a hv hvp
              by_cases hres : send.resumed = true
              · rw [Send.value_resumed hres] at hv
                exact ((h.resumed _ List.mem_cons_self send rfl hres).standing v a hv).2 htaken
              · have hfresh : send.resumed = false := by simpa using hres
                obtain ⟨a', ha', hta⟩ := (h.fresh _ List.mem_cons_self send rfl hfresh).call
                rw [Send.value_fresh hfresh, ha'] at hv
                cases hv
                exact hta htaken
            · by_cases hres : send.resumed = true
              · exact (h.resumed _ List.mem_cons_self send rfl hres).latest
              · exact (h.fresh _ List.mem_cons_self send rfl (by simpa using hres)).dropped rfl
          · cases hx
            -- No copy was taken: the sample is withdrawn and its value waits again.
            refine h.finish (g := .rolledBack adm.sequence :: log) rfl hbase
              ⟨settles_cons rfl log, fun _ _ => rfl⟩ (fun key hk => ?_)
              (fun key hk v hc => ?_) (Or.inl ?_)
            · show (rollBack send adm s.reliable).latest[key]? = _
              rw [rollBack_latest, storeLatest_ne send _ hk]
            · obtain ⟨q, p, hp, hpkey, hdata, hcarried⟩ := hc
              have hq : adm.sequence ≠ q := by
                rintro rfl
                exact hk (hpkey.symm.trans
                  (h.entered send adm data [] admitted List.mem_cons_self p hp))
              refine ⟨q, p, ?_, hpkey, hdata, hcarried⟩
              show (rollBack send adm s.reliable).pending[q]? = _
              rw [rollBack_pending, Std.ExtTreeMap.getElem?_erase]
              simpa [hq] using hp
            · show (rollBack send adm s.reliable).latest[send.key]? = _
              rw [rollBack_latest]
              exact storeLatest_self fun hres =>
                (h.resumed _ List.mem_cons_self send rfl hres).latest
      | cons destination remaining =>
          -- The fan-out goes on below the bookkeeping of one transmission.
          have hgo : ∀ (before : List Task) (admitted' : Bool) (log₁ : List Event),
              Advanced log log₁ → (admitted' = true → admitted = true ∨ AcceptedIn log₁ send) →
              (∀ u ∈ before, u.send = none ∧ u ≠ .sweep ∧ u ≠ .maintain) →
              Retains s.reliable
                (before ++ .fanOut send adm data remaining admitted' :: s.todo) log₁ := by
            intro before admitted' log₁ hlog htaken hbefore
            refine h.advance (n := .fanOut send adm data remaining admitted') rfl rfl hbase
              (Or.inl rfl) hlog.toSettles (fun key v _ hc => hc.mono (.refl _) (hlog.carried key))
              (fun _ => rfl) (fun _ => Or.inl rfl) htaken (fun _ _ heq => by cases heq)
              (fun send' adm' data' remaining' admitted'' heq => ?_) hbefore
            cases heq
            exact h.entered send adm data (destination :: remaining) admitted List.mem_cons_self
          have hsent : ∀ sent : Bool, ∀ e ∈ (if sent = true then
              [Event.transmitted ⟨destination, send.bridge.meshAppKeyIndex,
                fanOutFrame adm data destination⟩] else []),
              e.settles = true ∧ ∀ q, e.fills q = false := by
            intro sent e he
            split at he
            · rw [List.mem_singleton] at he
              subst he
              exact ⟨rfl, fun _ => rfl⟩
            · cases he
          simp only [execTask] at hx
          split at hx
          · cases hx
          · split at hx <;> cases hx
            · refine hgo [.remember _ _ _] true _ (advanced_append ?_ log) (fun _ => Or.inr ?_)
                (by simp [Task.send])
              · simp [Event.settles, Event.fills]
              · exact acceptedIn_cons send _
            · exact hgo [.deferred _ _ _] admitted log (.refl log) Or.inl (by simp [Task.send])
            · exact hgo [.deferred _ _ _] admitted _ (advanced_append (hsent _) log) Or.inl
                (by simp [Task.send])
  | plain send =>
      have hbase := hstack.below rfl
      simp only [execTask] at hx
      split at hx
      · cases hx
      · split at hx <;> cases hx
        · refine h.finish (g := .accepted send.key send.payload :: .transmitted _ :: log) rfl
            hbase ?_ (fun _ _ => rfl) (fun key _ v hc => hc.mono (.refl _) (fun _ => rfl))
            (Or.inr ⟨acceptedIn_cons send _, ?_⟩)
          · exact ⟨(settles_cons (e := .transmitted _) rfl log).trans
              (settles_cons (e := .accepted _ _) rfl _), fun _ _ => rfl⟩
          · by_cases hres : send.resumed = true
            · exact (h.resumed _ List.mem_cons_self send rfl hres).latest
            · exact (h.fresh _ List.mem_cons_self send rfl (by simpa using hres)).dropped rfl
        · rename_i sent _
          have howed : owed send.key log = none := by
            rcases hok with howed | ⟨htrue, hfalse⟩
            · exact howed
            · cases sent
              · exact absurd rfl hfalse
              · exact absurd rfl htrue
          rw [List.reverse_append]
          refine h.throw rfl hbase (advanced_append (fun e he => ?_) log) (Or.inl howed)
          split at he
          · rw [List.mem_singleton] at he
            subst he
            exact ⟨rfl, fun _ => rfl⟩
          · cases he
  | _ => exact absurd rfl hquiet

/-- A fresh call starts on the idle executor. -/
theorem Retains.submit {r : MeshReliable} {log : List Event} {bridge : SharedTopicConfig}
    {body : Bytes} (h : Retains r [] log) :
    Retains r [.enter ⟨bridge, bridgePayload bridge body, false⟩]
      (.submitted (channelKey bridge) (bridgePayload bridge body) :: log) := by
  have hstanding : ∀ key, (obligation key (.submitted (channelKey bridge)
      (bridgePayload bridge body) :: log)).standing = (obligation key log).standing := by
    intro key
    simp only [obligation, Obligation.after]
    split <;> rfl
  refine ⟨?_, ?_, ?_, ?_, ?_, ?_, ?_, ?_, ?_⟩
  · intro key b v hv
    obtain ⟨hkey, hframed, hw⟩ := h.waiting key b v hv
    exact ⟨hkey, hframed, fun w a hs => hw w a (by rw [← hstanding]; exact hs)⟩
  · intro t ht send hs _
    rw [List.mem_singleton] at ht
    subst ht
    cases hs
    refine ⟨⟨false, ?_, fun heq => by cases heq⟩, (fun heq => by cases heq)⟩
    simp [obligation, Obligation.after, Send.key]
  · intro t ht send hs hres
    rw [List.mem_singleton] at ht
    subst ht
    cases hs
    cases hres
  · intro send hs
    have hsend : send = ⟨bridge, bridgePayload bridge body, false⟩ := List.mem_singleton.mp hs
    subst hsend
    exact ⟨body, rfl⟩
  · exact List.nodup_singleton _
  · intro send hs _
    have hsend : send = ⟨bridge, bridgePayload bridge body, false⟩ := List.mem_singleton.mp hs
    subst hsend
    exact ⟨rfl, by simp, by simp⟩
  · intro send adm ht
    cases List.mem_singleton.mp ht
  · intro send adm data remaining admitted ht
    cases List.mem_singleton.mp ht
  · intro key v hv
    rw [hstanding] at hv
    rcases h.kept key v hv with hb | hc | ⟨t, ht, _⟩
    · exact Or.inl hb
    · exact Or.inr (Or.inl (hc.mono (.refl _) (fun _ => rfl)))
    · cases ht

/-- Every step with the condition keeps the invariant. -/
theorem retains_step {n n' : Node} {a : NodeAction} (hstack : Stacked n.station.todo)
    (h : Retains n.station.reliable n.station.todo n.log) (hok : Retaining n a)
    (hx : n.step a = some n') : Retains n'.station.reliable n'.station.todo n'.log := by
  cases a with
  | advance duration =>
      cases hx
      exact h
  | act action =>
      obtain ⟨⟨s', events⟩, hstep, rfl⟩ := Option.map_eq_some_iff.mp hx
      -- A step that starts a loop on the idle executor, and one that leaves the stack.
      have hidle : ∀ tasks, n.station.todo = [] → sendsOf tasks = [] →
          (∀ t ∈ tasks, t.send = none) →
          Retains n.station.reliable (tasks ++ n.station.todo) n.log := by
        intro tasks hnil hsends hnone
        rw [hnil, List.append_nil]
        rw [hnil] at h
        refine h.frame (.refl _) rfl (.refl _) hsends (fun t ht => ?_) (fun _ => Or.inr rfl)
        exact ⟨fun hmem => absurd (hnone t hmem) ht, fun hmem => by cases hmem⟩
      have hstay : s'.todo = n.station.todo →
          SamplesKept n.station.reliable s'.reliable →
          (∀ e ∈ events, e.settles = true ∧ ∀ q, e.fills q = false) →
          Retains s'.reliable s'.todo (events.reverse ++ n.log) := by
        intro htodo hr hevents
        rw [htodo]
        exact h.frame hr.pending hr.latest (advanced_append hevents _) rfl
          (fun _ _ => Iff.rfl) Or.inl
      cases action with
      | submit bridge body =>
          simp only [Station.step] at hstep
          split at hstep <;> cases hstep
          rename_i hnil
          rw [hnil] at h
          show Retains _ ([_] ++ n.station.todo) _
          rw [hnil]
          exact h.submit
      | tick =>
          simp only [Station.step] at hstep
          split at hstep
          · rename_i hnil
            split at hstep <;> cases hstep
            exact hidle [.maintain] hnil rfl (by simp [Task.send])
          · cases hstep
      | exec view answer =>
          simp only [Station.step] at hstep
          split at hstep
          · cases hstep
          · rename_i task todo htodo
            rw [htodo] at hstack h
            exact retains_exec (s := { n.station with todo := todo }) hstack h
              (hok task (by rw [htodo]; rfl)) hstep
      | receive policy message =>
          simp only [Station.step] at hstep
          split at hstep
          · have heq := Option.some.inj hstep
            have hs : (n.station.receive n.now policy message).1 = s' := congrArg Prod.fst heq
            have he : (n.station.receive n.now policy message).2 = events := congrArg Prod.snd heq
            subst hs he
            refine hstay (receive_todo _ _ _ _) (samplesKept_receive _ _ _ _) (fun e he => ?_)
            rcases receive_events he with ⟨_, _, rfl⟩ | rfl | rfl <;> exact ⟨rfl, fun _ => rfl⟩
          · cases hstep
      | decode delivered =>
          simp only [Station.step] at hstep
          split at hstep <;> cases hstep
          refine hstay rfl (Bookkeeping.refl _).samplesKept (fun e he => ?_)
          rw [List.mem_singleton] at he
          subst he
          split <;> exact ⟨rfl, fun _ => rfl⟩
      | finish view =>
          simp only [Station.step] at hstep
          split at hstep <;> cases hstep
          exact hstay rfl (samplesKept_finishData _ _ _ _ _ _) (by simp)
      | requestReset =>
          cases hstep
          exact hstay rfl (Bookkeeping.refl _).samplesKept (by simp)
      | reconfigure meshApp coordinator =>
          simp only [Station.step] at hstep
          split at hstep <;> cases hstep
          rename_i hnil
          exact hidle [.clear false, .flush, .install meshApp coordinator] hnil rfl
            (by simp [Task.send])

theorem retains_initial {n : Node} (h : n.Initial) :
    Retains n.station.reliable n.station.todo n.log := by
  obtain ⟨meshApp, coordinator, nextSequence, hs, hlog⟩ := h
  rw [hs, hlog]
  constructor <;> simp [sendsOf, obligation]

/-- **Retention.** In every run whose steps keep what is owed, whenever the executor is idle,
the newest value whose call returned waits in its channel's place, is the data of a pending
sample of the channel, or was accepted by the daemon. -/
theorem sender_retention {n : Node}
    (h : Run.ReachableUnder Node.step Retaining Node.Initial n) (hidle : n.station.todo = [])
    {key : UInt64} {v : Bytes} {accepted : Bool}
    (hv : (obligation key n.log).standing = some (v, accepted)) :
    (∃ bridge, n.station.reliable.latest[key]? = some (bridge, v)) ∨
      (∃ (sequence : UInt16) (sample : MeshReliablePending),
        n.station.reliable.pending[sequence]? = some sample ∧ sample.channelKey = key ∧
          decodedFrame sample.data = v) ∨
      accepted = true := by
  have hretains : Retains n.station.reliable n.station.todo n.log :=
    h.invariant_of (P := fun n => Retains n.station.reliable n.station.todo n.log)
      (fun _ => stacked_reachable) (fun _ => retains_initial)
      (fun _ _ _ hstack _ hr hok hx => retains_step hstack hr hok hx)
  cases accepted with
  | true => exact Or.inr (Or.inr rfl)
  | false =>
      rcases hretains.kept key v hv with hb | ⟨s, p, hp, hkey, hdata, _⟩ | ⟨t, ht, _⟩
      · exact Or.inl hb
      · exact Or.inr (Or.inl ⟨s, p, hp, hkey, hdata⟩)
      · rw [hidle] at ht
        cases ht

/-! ## Runs of a plain channel -/

/-- A channel without reliable delivery. -/
def plainChannel : SharedTopicConfig := { transport := .mesh, channelId := 6 }

/-- A value is handed over before the node is attached. -/
def earlyValueRun : List NodeAction :=
  [.act (.submit plainChannel [7]), .act (.exec {} .ok),
    .act (.exec { attached := false } .ok)]

/-- Maintenance resumes the value once the node is attached, and the daemon call throws. -/
def droppedResumeRun : List NodeAction :=
  earlyValueRun ++ NodeAction.act .tick :: List.replicate 7 (NodeAction.act (.exec {} .ok)) ++
    [NodeAction.act (.exec {} (.error false))]

theorem sender_retention_earlyValueRun :
    ∃ n, Run.ReachableUnder Node.step Retaining Node.Initial n ∧
      ((∃ bridge, n.station.reliable.latest[channelKey plainChannel]? =
          some (bridge, bridgePayload plainChannel [7])) ∨
        (∃ (sequence : UInt16) (sample : MeshReliablePending),
          n.station.reliable.pending[sequence]? = some sample ∧
            sample.channelKey = channelKey plainChannel ∧
            decodedFrame sample.data = bridgePayload plainChannel [7]) ∨
        false = true) := by
  have hrun : ((Run.exec Node.step {} earlyValueRun).map fun n =>
      (n.station.todo.isEmpty, (obligation (channelKey plainChannel) n.log).standing)) =
      some (true, some (bridgePayload plainChannel [7], false)) := by decide +kernel
  obtain ⟨n, hn, hval⟩ := Option.map_eq_some_iff.mp hrun
  simp only [Prod.mk.injEq, List.isEmpty_iff] at hval
  have hinit : Node.Initial {} := ⟨true, true, 0, rfl, rfl⟩
  have hguard : Run.allowed Node.step (fun n a => decide (Retaining n a)) {} earlyValueRun =
      true := by decide +kernel
  have hreach : Run.ReachableUnder Node.step Retaining Node.Initial n :=
    Run.ReachableUnder.exec (.start hinit) (Run.guarded_of_decide hguard) hn
  exact ⟨n, hreach, sender_retention hreach hval.1 hval.2⟩

/-- The exception in the resumed send discards the value. -/
theorem dropped_resume :
    ∃ n, Run.Reachable Node.step Node.Initial n ∧ n.station.todo = [] ∧
      (obligation (channelKey plainChannel) n.log).standing =
        some (bridgePayload plainChannel [7], false) ∧
      n.station.reliable.latest.isEmpty = true ∧ n.station.reliable.pending.isEmpty = true := by
  have hrun : ((Run.exec Node.step {} droppedResumeRun).map fun n =>
      (n.station.todo.isEmpty, (obligation (channelKey plainChannel) n.log).standing,
        n.station.reliable.latest.isEmpty, n.station.reliable.pending.isEmpty)) =
      some (true, some (bridgePayload plainChannel [7], false), true, true) := by decide +kernel
  obtain ⟨n, hn, hval⟩ := Option.map_eq_some_iff.mp hrun
  simp only [Prod.mk.injEq, List.isEmpty_iff] at hval
  obtain ⟨hidle, hstanding, hlatest, hpending⟩ := hval
  have hinit : Node.Initial {} := ⟨true, true, 0, rfl, rfl⟩
  exact ⟨n, Run.Reachable.exec (.start hinit) hn, hidle, hstanding, hlatest, hpending⟩

end UavBluetooth.Mesh
