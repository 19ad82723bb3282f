import UavBluetooth.Mesh.Station

set_option autoImplicit false

/-! # The executor's stack

At most one send is under way at a time, and its task is at the top of the stack or right
below the bookkeeping of its last transmission (`Stacked`). Below it are only tasks that start
something (`Task.base`).
-/

namespace UavBluetooth.Mesh

open Config

/-- A task that belongs neither to a send under way nor to a transfer just issued. -/
def Task.base : Task → Bool
  | .remember _ _ _ => false
  | .gate _ => false
  | .claim _ _ => false
  | .occupied _ _ => false
  | .arbitrate _ _ => false
  | .admission _ _ => false
  | .consume _ => false
  | .fanOut _ _ _ _ _ => false
  | .deferred _ _ _ => false
  | .plain _ => false
  | .transmit _ => false
  | .outboundBusy _ => false
  | .requeueAck _ => false
  | .completed _ => false
  | _ => true

/-- A task of a reset. -/
def Task.clearing : Task → Bool
  | .clear true => true
  | .flush => true
  | .cancel _ => true
  | .requeue _ => true
  | _ => false

inductive Stacked : List Task → Prop where
  | nil : Stacked []
  | single (task : Task) (rest : List Task) (hrest : ∀ t ∈ rest, t.base = true) :
      Stacked (task :: rest)
  /-- A reset comes before the send that found the request. -/
  | resetting (task : Task) (before : List Task) (send : Send) (rest : List Task)
      (hbefore : ∀ t ∈ task :: before, t.clearing = true)
      (hrest : ∀ t ∈ rest, t.base = true) :
      Stacked (task :: before ++ .gate send :: rest)
  | consuming (send : Send) (adm : Admission) (data : Bytes) (remaining : List UInt16)
      (rest : List Task) (hrest : ∀ t ∈ rest, t.base = true) :
      Stacked (.consume send :: .fanOut send adm data remaining false :: rest)
  | deferring (destination : UInt16) (busy : Bool) (send : Send) (adm : Admission)
      (data : Bytes) (remaining : List UInt16) (admitted : Bool) (rest : List Task)
      (hrest : ∀ t ∈ rest, t.base = true) :
      Stacked (.deferred adm.sequence destination busy ::
        .fanOut send adm data remaining admitted :: rest)
  | remembering (destination : UInt16) (handle : SendHandle) (send : Send) (adm : Admission)
      (data : Bytes) (remaining : List UInt16) (rest : List Task)
      (hrest : ∀ t ∈ rest, t.base = true) :
      Stacked (.remember adm.sequence destination handle ::
        .fanOut send adm data remaining true :: rest)

theorem stacked_of_base {tasks : List Task} (h : ∀ t ∈ tasks, t.base = true) :
    Stacked tasks := by
  cases tasks with
  | nil => exact .nil
  | cons t rest => exact .single t rest (fun u hu => h u (List.mem_cons_of_mem _ hu))

theorem base_append {a b : List Task} (ha : ∀ t ∈ a, t.base = true)
    (hb : ∀ t ∈ b, t.base = true) : ∀ t ∈ a ++ b, t.base = true := by
  intro t ht
  rcases List.mem_append.mp ht with h | h
  · exact ha t h
  · exact hb t h

theorem base_sweepTasks (now : Time) (r : MeshReliable) :
    ∀ t ∈ sweepTasks now r, t.base = true := by
  intro t ht
  simp only [sweepTasks, List.mem_append, List.mem_map, List.mem_singleton] at ht
  rcases ht with ((⟨_, _, rfl⟩ | rfl) | ⟨_, _, rfl⟩) | ⟨_, _, rfl⟩ <;> rfl

/-- A task that may stand above a send it belongs to. -/
def Task.covers : Task → Bool
  | .consume _ => true
  | .deferred _ _ _ => true
  | .remember _ _ _ => true
  | task => task.clearing

/-- What lies below a task that is the whole of its send or no send at all. -/
theorem Stacked.below {task : Task} {rest : List Task} (h : Stacked (task :: rest))
    (htask : task.covers = false) : ∀ t ∈ rest, t.base = true := by
  cases h with
  | single _ _ hrest => exact hrest
  | resetting _ before send rest hbefore hrest =>
      have hclear := hbefore task List.mem_cons_self
      cases task <;> simp_all [Task.covers, Task.clearing]
  | consuming => cases htask
  | deferring => cases htask
  | remembering => cases htask

/-- What lies below a task of a reset. -/
theorem Stacked.clearing {task : Task} {rest : List Task} (h : Stacked (task :: rest))
    (htask : task.clearing = true) :
    (∀ t ∈ rest, t.base = true) ∨ ∃ before send base, rest = before ++ .gate send :: base ∧
      (∀ t ∈ before, t.clearing = true) ∧ ∀ t ∈ base, t.base = true := by
  cases h with
  | single _ _ hrest => exact Or.inl hrest
  | resetting _ before send rest hbefore hrest =>
      exact Or.inr ⟨before, send, rest, rfl,
        fun t ht => hbefore t (List.mem_cons_of_mem _ ht), hrest⟩
  | consuming => cases htask
  | deferring => cases htask
  | remembering => cases htask

/-- A task of a reset may be replaced by others. -/
theorem Stacked.replace {task : Task} {rest l : List Task} (h : Stacked (task :: rest))
    (htask : task.clearing = true) (hbase : ∀ t ∈ l, t.base = true)
    (hclear : ∀ t ∈ l, t.clearing = true) : Stacked (l ++ rest) := by
  rcases h.clearing htask with hrest | ⟨before, send, base, rfl, hbefore, hrest⟩
  · exact stacked_of_base (base_append hbase hrest)
  · have hall : ∀ t ∈ l ++ before, t.clearing = true := by
      intro t ht
      rcases List.mem_append.mp ht with ht | ht
      · exact hclear t ht
      · exact hbefore t ht
    rw [← List.append_assoc]
    cases hcases : l ++ before with
    | nil => exact .single _ _ hrest
    | cons t before' =>
        rw [hcases] at hall
        exact .resetting t before' send base hall hrest

/-- What lies below the bookkeeping of a transmission. -/
theorem Stacked.fanOut_below {task : Task} {rest : List Task} (h : Stacked (task :: rest))
    (htask : task.clearing = false) : Stacked rest := by
  cases h with
  | single _ _ hrest => exact stacked_of_base hrest
  | resetting _ before send rest hbefore hrest =>
      rw [hbefore task List.mem_cons_self] at htask
      cases htask
  | consuming _ _ _ _ _ hrest => exact .single _ _ hrest
  | deferring _ _ _ _ _ _ _ _ hrest => exact .single _ _ hrest
  | remembering _ _ _ _ _ _ _ hrest => exact .single _ _ hrest

/-- Below a transfer to be remembered there is at most the send that issued it. -/
theorem Stacked.remember_below {sequence destination : UInt16} {handle : SendHandle}
    {rest : List Task} (h : Stacked (.remember sequence destination handle :: rest)) :
    ∀ t ∈ rest, t.base = true ∨
      ∃ send adm data remaining, t = .fanOut send adm data remaining true := by
  intro t ht
  cases h with
  | single _ _ hrest => exact Or.inl (hrest t ht)
  | resetting _ _ _ _ hbefore _ => cases hbefore _ List.mem_cons_self
  | remembering _ _ send adm data remaining rest hrest =>
      rcases List.mem_cons.mp ht with rfl | ht
      · exact Or.inr ⟨send, adm, data, remaining, rfl⟩
      · exact Or.inl (hrest t ht)

/-- The executor keeps its stack in order. -/
theorem stacked_exec {now : Time} {view : View} {answer : Answer} {s s' : Station}
    {task : Task} {events : List Event} (h : Stacked (task :: s.todo))
    (hx : execTask now view answer s task = some (s', events)) : Stacked s'.todo := by
  -- A task that replaces itself by base tasks, and one that goes on as another.
  have hbase : task.covers = false → ∀ tasks : List Task, (∀ t ∈ tasks, t.base = true) →
      Stacked (tasks ++ s.todo) :=
    fun hcovers tasks ht => stacked_of_base (base_append ht (h.below hcovers))
  have hone : task.covers = false → ∀ t : Task, Stacked (t :: s.todo) :=
    fun hcovers t => .single t _ (h.below hcovers)
  cases task with
  | maintain =>
      simp only [execTask] at hx
      split at hx <;> cases hx
      · exact hbase rfl [.clear true, .flush, .sweep] (by simp [Task.base])
      · exact hone rfl _
  | clear preserveLatest =>
      cases hx
      cases preserveLatest with
      | true => exact h.replace (l := []) rfl (by simp) (by simp)
      | false => exact hbase rfl [] (by simp)
  | flush =>
      simp only [execTask] at hx
      split at hx <;> cases hx
      · exact h.replace (l := [.cancel _]) rfl (by simp [Task.base]) (by simp [Task.clearing])
      · exact h.replace (l := []) rfl (by simp) (by simp)
  | cancel batch =>
      cases batch with
      | nil =>
          cases hx
          exact h.replace (l := []) rfl (by simp) (by simp)
      | cons handle batch =>
          simp only [execTask] at hx
          split at hx <;> cases hx
          · exact h.replace (l := [.cancel _]) rfl (by simp [Task.base])
              (by simp [Task.clearing])
          · exact h.replace (l := [.requeue _]) rfl (by simp [Task.base])
              (by simp [Task.clearing])
  | requeue batch =>
      cases hx
      exact h.replace (l := []) rfl (by simp) (by simp)
  | sweep =>
      cases hx
      exact hbase rfl _ (base_sweepTasks now s.reliable)
  | check check =>
      simp only [execTask] at hx
      split at hx <;> cases hx
      · exact hbase rfl [] (by simp)
      · exact hone rfl _
      · exact hbase rfl [] (by simp)
  | completed check =>
      cases hx
      exact hbase rfl [] (by simp)
  | outbound item =>
      simp only [execTask] at hx
      split at hx
      · split at hx
        · split at hx <;> cases hx
          · exact hbase rfl [] (by simp)
          · exact hone rfl _
          · exact hbase rfl [] (by simp)
        · cases hx
          exact hone rfl _
      · cases hx
        exact hone rfl _
  | transmit item =>
      simp only [execTask] at hx
      split at hx
      · cases hx
      · split at hx
        · split at hx <;> cases hx
          · exact hone rfl _
          · exact hbase rfl [] (by simp)
        · cases hx
          exact hone rfl _
        · cases hx
          split
          · exact hone rfl _
          · exact hbase rfl [] (by simp)
        · cases hx
  | outboundBusy item =>
      cases hx
      exact hbase rfl [] (by simp)
  | requeueAck item =>
      cases hx
      exact hbase rfl [] (by simp)
  | remember sequence destination handle =>
      have hrest := h.fanOut_below rfl
      simp only [execTask] at hx
      split at hx <;> cases hx <;> exact hrest
  | enter send =>
      simp only [execTask] at hx
      split at hx
      · cases hx
        exact hbase rfl [] (by simp)
      · split at hx <;> cases hx
        · exact .resetting (.clear true) [.flush] send _ (by simp [Task.clearing])
            (h.below rfl)
        · exact hone rfl _
  | gate send =>
      simp only [execTask] at hx
      split at hx <;> cases hx
      · exact hone rfl _
      · exact hbase rfl [] (by simp)
  | claim send addresses =>
      simp only [execTask] at hx
      split at hx
      · cases hx
        exact hbase rfl [] (by simp)
      · generalize hs₁ : (if send.resumed = true then s else
          s.withReliable (dropLatest send s.reliable)) = s₁ at hx
        have htodo : s₁.todo = s.todo := by
          rw [← hs₁]
          split <;> rfl
        split at hx
        · split at hx <;> cases hx
          · show Stacked (_ :: s₁.todo)
            rw [htodo]
            exact hone rfl _
          · rw [htodo]
            exact hbase rfl [] (by simp)
        · cases hx
          show Stacked (_ :: s₁.todo)
          rw [htodo]
          exact hone rfl _
  | occupied send addresses =>
      simp only [execTask] at hx
      split at hx <;> cases hx
      · exact hbase rfl [] (by simp)
      · exact hone rfl _
  | arbitrate send addresses =>
      simp only [execTask] at hx
      split at hx <;> cases hx
      · exact hbase rfl [] (by simp)
      · exact hone rfl _
  | admission send adm =>
      cases hx
      show Stacked ((_ ++ [_]) ++ s.todo)
      split
      · exact .consuming send adm _ _ _ (h.below rfl)
      · exact hone rfl _
  | consume send =>
      cases hx
      exact h.fanOut_below rfl
  | fanOut send adm data remaining admitted =>
      have hrest := h.below rfl
      cases remaining with
      | nil =>
          simp only [execTask] at hx
          split at hx <;> cases hx
          · exact hbase rfl [] (by simp)
          · exact hbase rfl [] (by simp)
      | cons destination remaining =>
          simp only [execTask] at hx
          split at hx
          · cases hx
          · split at hx <;> cases hx
            · exact .remembering destination _ send adm data remaining _ hrest
            · exact .deferring destination true send adm data remaining admitted _ hrest
            · exact .deferring destination false send adm data remaining admitted _ hrest
  | deferred sequence destination busy =>
      cases hx
      exact h.fanOut_below rfl
  | plain send =>
      simp only [execTask] at hx
      split at hx
      · cases hx
      · split at hx <;> cases hx <;> exact hbase rfl [] (by simp)
  | install meshApp coordinator =>
      cases hx
      exact hbase rfl [] (by simp)

theorem receive_todo (now : Time) (policy : Admittance) (m : ReceivedMessage) (s : Station) :
    (s.receive now policy m).1.todo = s.todo := by
  unfold Station.receive
  split_ifs <;> first | rfl | (simp only; split <;> rfl)

/-- Every step of a node keeps the executor's stack in order. -/
theorem stacked_step {now : Time} {s s' : Station} {a : Action} {events : List Event}
    (h : Stacked s.todo) (hx : s.step now a = some (s', events)) : Stacked s'.todo := by
  cases a with
  | submit bridge body =>
      simp only [Station.step] at hx
      split at hx <;> cases hx
      rename_i hidle
      show Stacked (_ :: s.todo)
      rw [hidle]
      exact .single _ _ (by simp)
  | tick =>
      simp only [Station.step] at hx
      split at hx
      · rename_i hidle
        split at hx <;> cases hx
        show Stacked (_ :: s.todo)
        rw [hidle]
        exact .single _ _ (by simp)
      · cases hx
  | exec view answer =>
      simp only [Station.step] at hx
      split at hx
      · cases hx
      · rename_i task todo htodo
        rw [htodo] at h
        exact stacked_exec (s := { s with todo := todo }) h hx
  | receive policy message =>
      simp only [Station.step] at hx
      split at hx
      · have hs' : (s.receive now policy message).1 = s' :=
          congrArg Prod.fst (Option.some.inj hx)
        rw [← hs', receive_todo]
        exact h
      · cases hx
  | decode delivered =>
      simp only [Station.step] at hx
      split at hx <;> cases hx
      exact h
  | finish view =>
      simp only [Station.step] at hx
      split at hx <;> cases hx
      exact h
  | requestReset =>
      cases hx
      exact h
  | reconfigure meshApp coordinator =>
      simp only [Station.step] at hx
      split at hx <;> cases hx
      rename_i hidle
      show Stacked (_ ++ s.todo)
      rw [hidle]
      exact stacked_of_base (by simp [Task.base])

/-- The executor's stack is in order in every state of a node. -/
theorem stacked_reachable {ok : Node → NodeAction → Prop} {n : Node}
    (h : Run.ReachableUnder Node.step ok Node.Initial n) : Stacked n.station.todo := by
  refine h.invariant (P := fun n => Stacked n.station.todo) (fun n hinit => ?_)
    (fun n a n' hstack _ hx => ?_)
  · obtain ⟨_, _, _, hs, _⟩ := hinit
    rw [hs]
    exact .nil
  · cases a with
    | advance duration =>
        cases hx
        exact hstack
    | act action =>
        obtain ⟨⟨s', events⟩, hstep, rfl⟩ := Option.map_eq_some_iff.mp hx
        exact stacked_step hstack hstep

/-! ## The sends on the stack -/

/-- The send that a task belongs to. -/
def Task.send : Task → Option Send
  | .enter send => some send
  | .gate send => some send
  | .claim send _ => some send
  | .occupied send _ => some send
  | .arbitrate send _ => some send
  | .admission send _ => some send
  | .fanOut send _ _ _ _ => some send
  | .plain send => some send
  | _ => none

def sendsOf (todo : List Task) : List Send := todo.filterMap Task.send

theorem mem_sendsOf {todo : List Task} {send : Send} :
    send ∈ sendsOf todo ↔ ∃ t ∈ todo, t.send = some send := List.mem_filterMap

end UavBluetooth.Mesh
