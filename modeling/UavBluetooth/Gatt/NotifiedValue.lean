import UavBluetooth.Config.Models
import UavBluetooth.Lib.InOrder
import UavBluetooth.Lib.Run

set_option autoImplicit false

/-! # The value of a bridge characteristic on its way to a peer

Several threads publish to one `GattCharacteristic`: each stores its bytes under the mutex, and
signals `Value` without it. The signal is built from the getter, so it carries what is stored by
then. BlueZ notifies the subscribed peer, and the import bridge there publishes what it can decode.

`notifications_in_order` says that the peer never goes back to an older value, whatever the threads
do and whatever is lost; when nothing is lost, it ends up with the newest one.
-/

namespace UavBluetooth.Gatt

open Arrival Run

/-! ## The characteristic -/

namespace GattCharacteristic

/-- How far a call of `publish`, `on_write` or `on_read` has come. -/
inductive Stage where
  /-- `publish` has not looked yet whether it has to signal. -/
  | called
  | storing (emit : Bool)
  | stored (emit : Bool)
  deriving DecidableEq, Repr

structure Call where
  /-- Tells the calls apart. -/
  id : Nat
  data : Bytes
  stage : Stage
  deriving DecidableEq, Repr

end GattCharacteristic

open GattCharacteristic in
structure GattCharacteristic where
  value : Bytes := []
  notifying : Bool := false
  forceEmitValue : Bool := false
  exported : Bool := true
  calls : List Call := []
  nextCall : Nat := 0
  /-- BlueZ forwards signals to the peer. -/
  subscribed : Bool := false
  /-- The notifications under way, oldest first. -/
  air : List Bytes := []
  /-- What the import bridge of the peer has published. -/
  published : List Bytes := []
  /-- The calls of the notify callback. -/
  observed : List Bool := []
  /-- All bytes that have been stored. -/
  history : List Bytes := []
  deriving DecidableEq, Repr

namespace GattCharacteristic

section

variable (s : GattCharacteristic)

def find (id : Nat) : Option Call := s.calls.find? (·.id == id)

def setStage (id : Nat) (stage : Stage) : GattCharacteristic :=
  { s with calls := s.calls.map fun c => if c.id = id then { c with stage := stage } else c }

def finish (id : Nat) : GattCharacteristic := { s with calls := s.calls.filter (·.id != id) }

def call (data : Bytes) (stage : Stage) : GattCharacteristic :=
  { s with
    calls := { id := s.nextCall, data := data, stage := stage } :: s.calls
    nextCall := s.nextCall + 1 }

/-- The first half of `set_value`. -/
def store (data : Bytes) : GattCharacteristic :=
  { s with value := data, history := s.history ++ [data] }

/-- The second half of `set_value`; `sent` tells whether D-Bus takes the signal. -/
def emitValue (sent : Bool) : GattCharacteristic :=
  if s.exported && s.subscribed && sent then { s with air := s.air ++ [s.value] } else s

/-- `on_start_notify` and `on_stop_notify` -/
def setNotifying (enabled : Bool) : GattCharacteristic :=
  if s.notifying = enabled then s
  else { s with notifying := enabled, observed := s.observed ++ [enabled] }

end

/-! ## Steps -/

inductive Action where
  | publish (data : Bytes)
  | write (data : Bytes)
  /-- A read with a read callback, which has produced `data`. -/
  | read (data : Bytes)
  /-- `publish` looks whether it has to signal. -/
  | decide (id : Nat)
  | store (id : Nat)
  | emit (id : Nat) (sent : Bool)
  | setExported (exported : Bool)
  | subscribe (subscribed : Bool)
  | notify (enabled : Bool)
  /-- The next notification arrives; the import bridge may refuse it. -/
  | deliver (accepted : Bool)
  | disconnect

def step (s : GattCharacteristic) : Action → Option GattCharacteristic
  | .publish data => some (s.call data .called)
  | .write data => some (s.call data (.storing true))
  | .read data => some (s.call data (.storing false))
  | .decide id =>
      (s.find id).bind fun c =>
        if c.stage = .called then some (s.setStage id (.storing (s.notifying || s.forceEmitValue)))
        else none
  | .store id =>
      (s.find id).bind fun c =>
        match c.stage with
        | .storing emit => some ((s.store c.data).setStage id (.stored emit))
        | _ => none
  | .emit id sent =>
      (s.find id).bind fun c =>
        match c.stage with
        | .stored true => some ((s.emitValue sent).finish id)
        | .stored false => some (s.finish id)
        | _ => none
  | .setExported exported => some { s with exported := exported }
  | .subscribe subscribed => some { s with subscribed := subscribed }
  | .notify enabled => some (s.setNotifying enabled)
  | .deliver accepted =>
      match s.air with
      | data :: rest =>
          some { s with
            air := rest
            published := s.published ++ (if accepted then [data] else []) }
      | [] => none
  | .disconnect => some { s with air := [], subscribed := false }

def Initial (s : GattCharacteristic) : Prop :=
  s.calls = [] ∧ s.air = [] ∧ s.published = [] ∧ s.history = [] ∧ s.observed = [] ∧
    s.notifying = false

/-- Nothing is lost: whoever publishes knows of the subscription, and signals and notifications
get through. -/
def Smooth (s : GattCharacteristic) : Action → Prop
  | .read _ => False
  | .decide _ => s.notifying = true ∨ s.forceEmitValue = true
  | .emit _ sent => s.exported = true ∧ s.subscribed = true ∧ sent = true
  | .deliver accepted => accepted = true
  | .disconnect => False
  | _ => True

instance (s : GattCharacteristic) (a : Action) : Decidable (s.Smooth a) := by
  cases a <;> dsimp only [Smooth] <;> infer_instance

/-! ## Order -/

/-- The peer's values follow the history; the callback is told of changes only. -/
structure Ordered (s : GattCharacteristic) : Prop where
  newest : s.history ≠ [] → s.history.getLast? = some s.value
  begun : ∀ c ∈ s.calls, ∀ emit, c.stage = .stored emit → s.history ≠ []
  order : InOrderUpTo s.history (s.published ++ s.air) (s.history.length - 1)
  alternating : s.observed.IsChain (· ≠ ·)
  told : s.notifying = s.observed.getLast?.getD false

section

variable {s s' : GattCharacteristic} {c o : Call} {id : Nat}

theorem find_bind {f : Call → Option GattCharacteristic} (hx : (s.find id).bind f = some s') :
    ∃ c ∈ s.calls, c.id = id ∧ f c = some s' := by
  obtain ⟨c, hfind, hc⟩ := Option.bind_eq_some_iff.mp hx
  exact ⟨c, List.mem_of_find?_eq_some hfind, by simpa using List.find?_some hfind, hc⟩

theorem mem_setStage {stage : Stage} (ho : o ∈ (s.setStage id stage).calls) :
    ∃ c ∈ s.calls, o = if c.id = id then { c with stage := stage } else c := by
  obtain ⟨c, hc, heq⟩ := List.mem_map.mp ho
  exact ⟨c, hc, heq.symm⟩

theorem setStage_cases {stage : Stage} (ho : o ∈ (s.setStage id stage).calls) :
    o ∈ s.calls ∨ o.stage = stage := by
  obtain ⟨c, hc, rfl⟩ := mem_setStage ho
  by_cases hid : c.id = id
  · rw [if_pos hid]
    exact Or.inr rfl
  · rw [if_neg hid]
    exact Or.inl hc

theorem mem_finish : o ∈ (s.finish id).calls ↔ o ∈ s.calls ∧ o.id ≠ id := by
  show o ∈ s.calls.filter _ ↔ _
  simp only [List.mem_filter, bne_iff_ne]

/-- Only the calls and the ways to the peer change. -/
theorem Ordered.withCalls (h : Ordered s) (hvalue : s'.value = s.value)
    (hhistory : s'.history = s.history) (hair : (s'.published ++ s'.air).Sublist (s.published ++ s.air))
    (hnotifying : s'.notifying = s.notifying) (hobserved : s'.observed = s.observed)
    (hcalls : ∀ c ∈ s'.calls, ∀ emit, c.stage = .stored emit → c ∈ s.calls ∨ s.history ≠ []) :
    Ordered s' where
  newest := by
    rw [hhistory, hvalue]
    exact h.newest
  begun := by
    intro c hc emit hstage
    rw [hhistory]
    rcases hcalls c hc emit hstage with hold | hbegun
    · exact h.begun c hold emit hstage
    · exact hbegun
  order := by
    rw [hhistory]
    exact h.order.thin hair
  alternating := hobserved ▸ h.alternating
  told := by
    rw [hnotifying, hobserved]
    exact h.told

theorem Ordered.store (h : Ordered s) (data : Bytes) : Ordered (s.store data) where
  newest := fun _ => List.getLast?_concat
  begun := fun _ _ _ _ => List.append_ne_nil_of_right_ne_nil _ (List.cons_ne_nil _ _)
  order := by
    obtain ⟨places, hsorted, hlast, hplaces⟩ := h.order.send [data]
    refine ⟨places, hsorted, fun i hi => ?_, hplaces⟩
    have hlength : (s.history ++ [data]).length = s.history.length + 1 := by simp
    have hbound := hlast i hi
    show i ≤ (s.history ++ [data]).length - 1
    omega
  alternating := h.alternating
  told := h.told

/-- A signal carries the newest value. -/
theorem Ordered.emitValue (h : Ordered s) (hbegun : s.history ≠ []) (sent : Bool) :
    Ordered (s.emitValue sent) := by
  unfold GattCharacteristic.emitValue
  split
  · refine ⟨h.newest, h.begun, ?_, h.alternating, h.told⟩
    show InOrderUpTo s.history (s.published ++ (s.air ++ [s.value])) _
    rw [← List.append_assoc]
    refine h.order.arrive (Nat.le_refl _) ?_
    rw [← List.getLast?_eq_getElem?]
    exact h.newest hbegun
  · exact h

theorem Ordered.setNotifying (h : Ordered s) (enabled : Bool) :
    Ordered (s.setNotifying enabled) := by
  unfold GattCharacteristic.setNotifying
  split
  · exact h
  · rename_i hchange
    refine ⟨h.newest, h.begun, h.order, ?_, ?_⟩
    · refine List.isChain_append.mpr ⟨h.alternating, List.isChain_singleton _, ?_⟩
      intro last hlast first hfirst
      rw [← Option.some.inj hfirst]
      have htold := h.told
      rw [show s.observed.getLast? = some last from hlast] at htold
      rintro rfl
      exact hchange htold
    · show enabled = (s.observed ++ [enabled]).getLast?.getD false
      rw [List.getLast?_concat]
      rfl

theorem Ordered.step (h : Ordered s) {a : Action} (hx : s.step a = some s') : Ordered s' := by
  have hcall : ∀ (data : Bytes) (stage : Stage), (∀ emit, stage ≠ .stored emit) →
      Ordered (s.call data stage) := by
    intro data stage hfresh
    refine h.withCalls rfl rfl (.refl _) rfl rfl fun c hc emit hstage => ?_
    rcases List.mem_cons.mp hc with rfl | hc
    · exact absurd hstage (hfresh emit)
    · exact Or.inl hc
  cases a with
  | publish data =>
      cases hx
      exact hcall data _ (by simp)
  | write data =>
      cases hx
      exact hcall data _ (by simp)
  | read data =>
      cases hx
      exact hcall data _ (by simp)
  | decide id =>
      obtain ⟨c, hc, -, hx⟩ := find_bind hx
      split at hx
      · cases hx
        refine h.withCalls rfl rfl (.refl _) rfl rfl fun o ho emit hstage => ?_
        refine (setStage_cases ho).imp_right fun hsame => ?_
        rw [hsame] at hstage
        cases hstage
      · cases hx
  | store id =>
      obtain ⟨c, hc, -, hx⟩ := find_bind hx
      split at hx
      · cases hx
        refine (h.store c.data).withCalls rfl rfl (.refl _) rfl rfl fun o ho emit hstage => ?_
        exact Or.inr (List.append_ne_nil_of_right_ne_nil _ (List.cons_ne_nil _ _))
      · cases hx
  | emit id sent =>
      obtain ⟨c, hc, -, hx⟩ := find_bind hx
      split at hx
      · rename_i hstage
        cases hx
        refine (h.emitValue (h.begun c hc true hstage) sent).withCalls rfl rfl (.refl _) rfl rfl ?_
        exact fun o ho _ _ => Or.inl (mem_finish.mp ho).1
      · cases hx
        exact h.withCalls rfl rfl (.refl _) rfl rfl fun o ho _ _ => Or.inl (mem_finish.mp ho).1
      · cases hx
  | setExported exported =>
      cases hx
      exact h.withCalls rfl rfl (.refl _) rfl rfl fun c hc _ _ => Or.inl hc
  | subscribe subscribed =>
      cases hx
      exact h.withCalls rfl rfl (.refl _) rfl rfl fun c hc _ _ => Or.inl hc
  | notify enabled =>
      cases hx
      exact h.setNotifying enabled
  | deliver accepted =>
      simp only [GattCharacteristic.step] at hx
      split at hx
      · rename_i data rest hair
        cases hx
        refine h.withCalls rfl rfl ?_ rfl rfl fun c hc _ _ => Or.inl hc
        rw [hair]
        cases accepted with
        | true => simp
        | false => simp
      · cases hx
  | disconnect =>
      cases hx
      refine h.withCalls rfl rfl ?_ rfl rfl fun c hc _ _ => Or.inl hc
      exact (List.nil_sublist _).append_left s.published

theorem ordered_initial (h : s.Initial) : Ordered s := by
  obtain ⟨hcalls, hair, hpublished, hhistory, hobserved, hnotifying⟩ := h
  refine ⟨fun hne => absurd hhistory hne, ?_, ?_, ?_, ?_⟩
  · simp [hcalls]
  · rw [hair, hpublished]
    exact inOrderUpTo_nil _ _
  · rw [hobserved]
    exact List.isChain_nil
  · simp [hobserved, hnotifying]

/-! ## The newest value -/

/-- The newest value is the last one under way or published, or a call will signal it. -/
structure Announced (s : GattCharacteristic) : Prop where
  ids : (s.calls.map Call.id).Nodup
  fresh : ∀ c ∈ s.calls, c.id < s.nextCall
  loud : ∀ c ∈ s.calls, c.stage ≠ .storing false ∧ c.stage ≠ .stored false
  newest : s.history ≠ [] → (s.published ++ s.air).getLast? = some s.value ∨
    ∃ c ∈ s.calls, c.stage = .stored true

theorem map_id_setStage (id : Nat) (stage : Stage) :
    (s.setStage id stage).calls.map Call.id = s.calls.map Call.id := by
  show (s.calls.map _).map Call.id = _
  rw [List.map_map]
  refine List.map_congr_left fun c _ => ?_
  show (if c.id = id then { c with stage := stage } else c).id = c.id
  split <;> rfl

theorem Announced.call (h : Announced s) (data : Bytes) {stage : Stage}
    (hloud : stage ≠ .storing false ∧ stage ≠ .stored false) : Announced (s.call data stage) where
  ids := by
    refine List.nodup_cons.mpr ⟨fun hmem => ?_, h.ids⟩
    obtain ⟨o, ho, heq⟩ := List.mem_map.mp hmem
    exact Nat.lt_irrefl _ (heq ▸ h.fresh o ho)
  fresh := by
    intro o ho
    rcases List.mem_cons.mp ho with rfl | ho
    · exact Nat.lt_succ_self _
    · exact Nat.lt_succ_of_lt (h.fresh o ho)
  loud := by
    intro o ho
    rcases List.mem_cons.mp ho with rfl | ho
    · exact hloud
    · exact h.loud o ho
  newest := fun hbegun => (h.newest hbegun).imp_right fun ⟨o, ho, hstage⟩ =>
    ⟨o, List.mem_cons_of_mem _ ho, hstage⟩

/-- A call moves on; it does not go back from a store. -/
theorem Announced.setStage (h : Announced s) (hc : c ∈ s.calls) {stage : Stage}
    (hloud : stage ≠ .storing false ∧ stage ≠ .stored false)
    (hstored : c.stage = .stored true → stage = .stored true) :
    Announced (s.setStage c.id stage) where
  ids := (map_id_setStage c.id stage).symm ▸ h.ids
  fresh := by
    intro o ho
    obtain ⟨o', ho', rfl⟩ := mem_setStage ho
    have hid : (if o'.id = c.id then { o' with stage := stage } else o').id = o'.id := by
      split <;> rfl
    rw [hid]
    exact h.fresh o' ho'
  loud := by
    intro o ho
    rcases setStage_cases ho with hold | hsame
    · exact h.loud o hold
    · rw [hsame]
      exact hloud
  newest := by
    intro hbegun
    refine (h.newest hbegun).imp_right fun ⟨o, ho, hstage⟩ => ?_
    -- The call that stored the newest value may be the one that moves on.
    by_cases hid : o.id = c.id
    · obtain rfl := List.inj_on_of_nodup_map h.ids ho hc hid
      exact ⟨{ o with stage := stage },
        List.mem_map.mpr ⟨o, ho, if_pos rfl⟩, hstored hstage⟩
    · exact ⟨o, List.mem_map.mpr ⟨o, ho, if_neg hid⟩, hstage⟩

/-- A call stores its value and will signal it. -/
theorem Announced.store (h : Announced s) (hc : c ∈ s.calls) :
    Announced ((s.store c.data).setStage c.id (.stored true)) := by
  have hmoved : Announced (s.setStage c.id (.stored true)) :=
    h.setStage hc (by simp) fun _ => rfl
  refine ⟨hmoved.ids, hmoved.fresh, hmoved.loud, fun _ => Or.inr ?_⟩
  exact ⟨{ c with stage := .stored true }, List.mem_map.mpr ⟨c, hc, if_pos rfl⟩, rfl⟩

/-- The signal of a call carries the newest value, also if another call has stored it. -/
theorem Announced.emit (h : Announced s) (hexported : s.exported = true)
    (hsubscribed : s.subscribed = true) : Announced ((s.emitValue true).finish id) := by
  have hemit : s.emitValue true = { s with air := s.air ++ [s.value] } := by
    unfold GattCharacteristic.emitValue
    rw [hexported, hsubscribed]
    rfl
  rw [hemit]
  refine ⟨h.ids.sublist (List.filter_sublist.map Call.id), fun o ho => h.fresh o (mem_finish.mp ho).1,
    fun o ho => h.loud o (mem_finish.mp ho).1, fun _ => Or.inl ?_⟩
  show (s.published ++ (s.air ++ [s.value])).getLast? = some s.value
  rw [← List.append_assoc, List.getLast?_concat]

/-- The calls stay, and the last value on its way to the peer. -/
theorem Announced.same (h : Announced s) (hcalls : s'.calls = s.calls)
    (hnext : s'.nextCall = s.nextCall) (hvalue : s'.value = s.value)
    (hhistory : s'.history = s.history)
    (hair : s'.published ++ s'.air = s.published ++ s.air) : Announced s' where
  ids := hcalls ▸ h.ids
  fresh := by
    rw [hcalls, hnext]
    exact h.fresh
  loud := hcalls ▸ h.loud
  newest := by
    rw [hhistory, hair, hvalue, hcalls]
    exact h.newest

theorem Announced.step (h : Announced s) {a : Action} (hok : s.Smooth a)
    (hx : s.step a = some s') : Announced s' := by
  cases a with
  | publish data =>
      cases hx
      exact h.call data (by simp)
  | write data =>
      cases hx
      exact h.call data (by simp)
  | read data => exact hok.elim
  | decide id =>
      obtain ⟨c, hc, rfl, hx⟩ := find_bind hx
      split at hx
      · rename_i hstage
        cases hx
        -- Publishers know of the subscription, so the call will emit what it stores.
        have hknows : (s.notifying || s.forceEmitValue) = true := by
          rcases hok with hnotifying | hforce
          · rw [hnotifying]; rfl
          · rw [hforce, Bool.or_true]
        rw [hknows]
        exact h.setStage hc (by simp) fun hstored => by rw [hstage] at hstored; cases hstored
      · cases hx
  | store id =>
      obtain ⟨c, hc, rfl, hx⟩ := find_bind hx
      split at hx
      · rename_i emit hstage
        cases hx
        cases emit with
        | true => exact h.store hc
        | false => exact absurd hstage (h.loud c hc).1
      · cases hx
  | emit id sent =>
      obtain ⟨c, hc, -, hx⟩ := find_bind hx
      obtain ⟨hexported, hsubscribed, rfl⟩ := hok
      split at hx
      · cases hx
        exact h.emit hexported hsubscribed
      · rename_i hstage
        exact absurd hstage (h.loud c hc).2
      · cases hx
  | setExported exported =>
      cases hx
      exact h.same rfl rfl rfl rfl rfl
  | subscribe subscribed =>
      cases hx
      exact h.same rfl rfl rfl rfl rfl
  | notify enabled =>
      cases hx
      unfold GattCharacteristic.setNotifying
      split
      · exact h
      · exact h.same rfl rfl rfl rfl rfl
  | deliver accepted =>
      simp only [GattCharacteristic.step] at hx
      split at hx
      · rename_i data rest hair
        cases hx
        refine h.same rfl rfl rfl rfl ?_
        rw [hair, show accepted = true from hok]
        simp
      · cases hx
  | disconnect => exact hok.elim

theorem announced_initial (h : s.Initial) : Announced s := by
  obtain ⟨hcalls, _, _, hhistory, _⟩ := h
  refine ⟨?_, ?_, ?_, fun hne => absurd hhistory hne⟩
  · rw [hcalls]
    exact List.nodup_nil
  · simp [hcalls]
  · simp [hcalls]

/-- **A peer sees the values of a characteristic in order, and in the end the newest.** In every
interleaving of the publishers, with any loss, what the import bridge of the peer publishes follows
the order in which the values were stored, and the notify callback hears of changes only. If
nothing is lost, then as soon as no call is under way and all notifications have arrived, the last
value published is the one that is stored. -/
theorem notifications_in_order (h : Reachable GattCharacteristic.step Initial s) :
    InOrder s.history s.published ∧ s.observed.IsChain (· ≠ ·) ∧
      s.notifying = s.observed.getLast?.getD false ∧
      (ReachableUnder GattCharacteristic.step Smooth Initial s → s.calls = [] → s.air = [] →
        s.history ≠ [] → s.published.getLast? = some s.value) := by
  have hs : Ordered s := h.invariant (fun _ => ordered_initial) fun _ _ _ hs _ hx => hs.step hx
  refine ⟨?_, hs.alternating, hs.told, fun hsmooth hcalls hair hbegun => ?_⟩
  · exact (hs.order.thin (List.sublist_append_left _ _)).inOrder
  · have ha : Announced s :=
      hsmooth.invariant (fun _ => announced_initial) fun _ _ _ hs hok hx => hs.step hok hx
    rcases ha.newest hbegun with hlast | ⟨c, hc, _⟩
    · rwa [hair, List.append_nil] at hlast
    · rw [hcalls] at hc
      cases hc

end

/-- Two threads publish; the second one stores before the first one signals, so the peer hears of
the second value twice. -/
def twoPublishersRun : List Action :=
  [.subscribe true, .notify true, .publish [1], .publish [2], .decide 0, .decide 1, .store 0,
    .store 1, .emit 0 true, .emit 1 true, .deliver true, .deliver true]

theorem notifications_in_order_twoPublishersRun :
    ∃ s : GattCharacteristic, s.published = [[2], [2]] ∧ InOrder s.history s.published ∧
      s.published.getLast? = some s.value := by
  have hrun : ((Run.exec GattCharacteristic.step {} twoPublishersRun).map fun s =>
      (s.calls, s.air, s.history, s.published)) = some ([], [], [[1], [2]], [[2], [2]]) := by
    decide +kernel
  obtain ⟨s, hs, heq⟩ := Option.map_eq_some_iff.mp hrun
  simp only [Prod.mk.injEq] at heq
  obtain ⟨hcalls, hair, hhistory, hpublished⟩ := heq
  have hguarded : Run.Guarded GattCharacteristic.step Smooth {} twoPublishersRun :=
    Run.guarded_of_decide (by decide +kernel)
  have hsmooth : ReachableUnder GattCharacteristic.step Smooth Initial s :=
    ReachableUnder.exec (.start ⟨rfl, rfl, rfl, rfl, rfl, rfl⟩) hguarded hs
  obtain ⟨horder, _, _, hnewest⟩ := notifications_in_order hsmooth.reachable
  exact ⟨s, hpublished, horder, hnewest hsmooth hcalls hair (by rw [hhistory]; simp)⟩

/-- A thread that looks before the peer subscribes stores a value that the peer does not see. -/
example : ((Run.exec GattCharacteristic.step {}
    [.publish [1], .decide 0, .subscribe true, .notify true, .store 0, .emit 0 true]).map fun s =>
      (s.calls, s.value, s.air, s.published)) = some ([], [1], [], []) := by
  decide +kernel

end GattCharacteristic

end UavBluetooth.Gatt
