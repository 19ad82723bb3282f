import UavBluetooth.Lib.Run

set_option autoImplicit false

/-! # Releasing the links before the radio changes its mode

`ServiceNode::apply_config` may turn the radio over to a mode without connections. It forbids new
connections, takes a snapshot of the devices that may have a link, and disconnects each. Other
threads are in `BluezClient::connect` or `BluezClient::pair` meanwhile: one that was let through
before waits for a reply of BlueZ.

`links_released` says what is left once the last device of the snapshot is released: a link is up
only if a call of `connect` is about to take it down itself. Its guard `Orderly` lists what this
rests on; `links_left_behind` has the runs that break it.
-/

namespace UavBluetooth.Bluez

open Run

namespace ConnectionHandoff

/-! ## State -/

inductive Method where
  | connect
  | pair
  deriving DecidableEq, Repr

/-- How far a call of `connect` or `pair` has come. -/
inductive Stage where
  /-- Connections were allowed when it began. -/
  | called
  /-- `connect` only: they were allowed just before the request. -/
  | cleared
  /-- The request is with BlueZ. -/
  | requested
  | failed
  | answered
  /-- `connect` has found that connections are no longer allowed and disconnects. -/
  | releasing
  deriving DecidableEq, Repr

structure Call where
  /-- Tells the calls apart. -/
  id : Nat
  mac : String
  method : Method
  stage : Stage := .called
  deriving DecidableEq, Repr

/-- What the cache has of a device. -/
structure Device where
  mac : String
  connected : Bool := false
  paired : Bool := false
  bonded : Bool := false
  deriving DecidableEq, Repr

/-- How far `apply_config` has come. -/
inductive Progress where
  | idle
  /-- The `ConnectionPolicyGuard` is in place. -/
  | blocked (exclusiveRadioMode gattLinkHandoff : Bool)
  | disconnecting (allowAfter : Bool) (targets : List String)
  /-- `disconnect` waits until BlueZ shows that the link is down. -/
  | verifying (allowAfter : Bool) (mac : String) (targets : List String)
  | configuring (allowAfter : Bool)
  deriving DecidableEq, Repr

end ConnectionHandoff

open ConnectionHandoff in
structure ConnectionHandoff where
  connectionsAllowed : Bool := true
  calls : List Call := []
  nextCall : Nat := 0
  /-- The devices with a link, as BlueZ knows them. -/
  links : List String := []
  /-- Requests that BlueZ still works at although the caller has given up waiting. -/
  abandoned : List String := []
  devices : List Device := []
  /-- The sessions with an attempt to connect or a pairing. -/
  attempted : List String := []
  progress : Progress := .idle
  /-- The links have been released, and no connection has been allowed since. -/
  released : Bool := false
  deriving DecidableEq, Repr

namespace ConnectionHandoff

section

variable (s : ConnectionHandoff)

def find (id : Nat) : Option Call := s.calls.find? (·.id == id)

def setStage (id : Nat) (stage : Stage) : ConnectionHandoff :=
  { s with calls := s.calls.map fun c => if c.id = id then { c with stage := stage } else c }

/-- The call returns. -/
def finish (id : Nat) : ConnectionHandoff := { s with calls := s.calls.filter (·.id != id) }

def cached (mac : String) : Bool := s.devices.any (·.mac == mac)

/-- `Device1.Disconnect` takes the link down and cancels what is outstanding. -/
def cancel (mac : String) : ConnectionHandoff :=
  { s with
    links := s.links.filter (· != mac)
    abandoned := s.abandoned.filter (· != mac)
    calls := s.calls.map fun c =>
      if c.mac = mac ∧ c.stage = .requested then { c with stage := .failed } else c }

/-- The devices that `apply_config` disconnects. -/
def disconnectTargets : List String :=
  (s.devices.filter fun d =>
    d.connected || d.paired || d.bonded || s.attempted.contains d.mac).map (·.mac)

/-- The `ConnectionPolicyGuard` leaves its scope. -/
def leave (allowAfter : Bool) : ConnectionHandoff :=
  { s with
    connectionsAllowed := allowAfter
    progress := .idle
    released := s.released && !allowAfter }

end

/-! ## Steps -/

inductive Action where
  /-- `connect` or `pair` is called, by a task of the peer's session or for a ROS service. -/
  | call (mac : String) (method : Method) (session : Bool)
  /-- The test of `connect` before its request. -/
  | test (id : Nat)
  | request (id : Nat)
  | linkUp (id : Nat)
  | linkDown (mac : String)
  | reply (id : Nat) (ok : Bool)
  /-- The caller gets no reply in time; BlueZ works on. -/
  | abandon (id : Nat)
  | lateLinkUp (mac : String)
  /-- An error that means that the link exists already. -/
  | excuse (id : Nat)
  | conclude (id : Nat)
  /-- The call of `disconnect` in `connect`; its result is ignored. -/
  | release (id : Nat) (worked : Bool)
  | updateCache (devices : List Device)
  | forgetAttempt (mac : String)
  | applyConfig (exclusiveRadioMode gattLinkHandoff : Bool)
  | snapshot
  | disconnect (worked : Bool)
  | verify (down : Bool)
  | configure
  | leave

/-- `connect` and `pair` return at once when the cache says that there is nothing to do. -/
def Device.lacks (d : Device) : Method → Bool
  | .connect => !d.connected
  | .pair => !d.paired

def begin (s : ConnectionHandoff) (mac : String) (method : Method) : ConnectionHandoff :=
  if s.connectionsAllowed = true ∧ (s.devices.find? (·.mac == mac)).any (·.lacks method) = true then
    { s with
      calls := { id := s.nextCall, mac := mac, method := method } :: s.calls
      nextCall := s.nextCall + 1 }
  else s

/-- The reply to a request is worked off. -/
def Call.conclude (s : ConnectionHandoff) (c : Call) : Option ConnectionHandoff :=
  match c.stage, c.method with
  | .failed, _ => some (s.finish c.id)
  | .answered, .pair => some (s.finish c.id)
  | .answered, .connect =>
      some (if s.connectionsAllowed then s.finish c.id else s.setStage c.id .releasing)
  | _, _ => none

def step (s : ConnectionHandoff) : Action → Option ConnectionHandoff
  | .call mac method session =>
      some ((if session then { s with attempted := mac :: s.attempted } else s).begin mac method)
  | .test id =>
      (s.find id).bind fun c =>
        if c.method = .connect ∧ c.stage = .called then
          some (if s.connectionsAllowed then s.setStage id .cleared else s.finish id)
        else none
  | .request id =>
      (s.find id).bind fun c =>
        if (c.method = .connect ∧ c.stage = .cleared) ∨ (c.method = .pair ∧ c.stage = .called) then
          some (s.setStage id .requested)
        else none
  | .linkUp id =>
      (s.find id).bind fun c =>
        if c.stage = .requested then some { s with links := c.mac :: s.links } else none
  | .linkDown mac => some { s with links := s.links.filter (· != mac) }
  | .reply id ok =>
      (s.find id).bind fun c =>
        if c.stage = .requested then some (s.setStage id (if ok then .answered else .failed))
        else none
  | .abandon id =>
      (s.find id).bind fun c =>
        if c.stage = .requested then
          some ({ s with abandoned := c.mac :: s.abandoned }.setStage id .failed)
        else none
  | .lateLinkUp mac =>
      if mac ∈ s.abandoned then
        some { s with links := mac :: s.links, abandoned := s.abandoned.erase mac }
      else none
  | .excuse id =>
      (s.find id).bind fun c =>
        if c.stage = .failed ∧ s.connectionsAllowed = true then some (s.setStage id .answered)
        else none
  | .conclude id => (s.find id).bind fun c => c.conclude s
  | .release id worked =>
      (s.find id).bind fun c =>
        if c.stage = .releasing then
          some (if s.cached c.mac && worked then (s.cancel c.mac).finish id else s.finish id)
        else none
  | .updateCache devices => some { s with devices := devices }
  | .forgetAttempt mac => some { s with attempted := s.attempted.filter (· != mac) }
  | .applyConfig exclusive gattLinkHandoff =>
      if s.progress = .idle then
        some { s with
          connectionsAllowed := false
          progress := .blocked exclusive gattLinkHandoff
          released := false }
      else none
  | .snapshot =>
      match s.progress with
      | .blocked exclusive gattLinkHandoff =>
          if exclusive || gattLinkHandoff then
            some { s with progress := .disconnecting (!exclusive) s.disconnectTargets }
          else some (s.leave true)
      | _ => none
  | .disconnect worked =>
      match s.progress with
      | .disconnecting allowAfter (mac :: targets) =>
          if s.cached mac = false then
            some { s with progress := .disconnecting allowAfter targets }
          else if worked then
            some { s.cancel mac with progress := .verifying allowAfter mac targets }
          else some (s.leave allowAfter)
      | _ => none
  | .verify down =>
      match s.progress with
      | .verifying allowAfter mac targets =>
          if down then
            if mac ∈ s.links then none
            else some { s with progress := .disconnecting allowAfter targets }
          else some (s.leave allowAfter)
      | _ => none
  | .configure =>
      match s.progress with
      | .disconnecting allowAfter [] =>
          some { s with progress := .configuring allowAfter, released := true }
      | _ => none
  | .leave =>
      match s.progress with
      | .configuring allowAfter => some (s.leave allowAfter)
      | _ => none

/-- There may be links from before; nothing is being done. -/
def Initial (s : ConnectionHandoff) : Prop :=
  s.connectionsAllowed = true ∧ s.calls = [] ∧ s.abandoned = [] ∧ s.progress = .idle ∧
    s.released = false

/-- A call of `connect` waits for a reply, or knows that there is a link, and looks once more
whether connections are allowed. -/
def Call.rechecks (c : Call) : Bool :=
  c.method == .connect && (c.stage == .requested || c.stage == .answered || c.stage == .releasing)

/-- A call looks after the link of a device. -/
def Watched (s : ConnectionHandoff) (mac : String) : Prop :=
  ∃ c ∈ s.calls, c.mac = mac ∧ c.rechecks = true

instance (s : ConnectionHandoff) (mac : String) : Decidable (s.Watched mac) :=
  inferInstanceAs (Decidable (∃ c ∈ s.calls, _))

/-- What `apply_config` has yet to disconnect; there is none before its snapshot. -/
def pendingTargets (s : ConnectionHandoff) : Option (List String) :=
  match s.progress with
  | .disconnecting _ targets | .verifying _ _ targets => some targets
  | .configuring _ => some []
  | .blocked _ _ => none
  | .idle => if s.released then some [] else none

/-- The device that is next on the list, if there is one. -/
def nextTarget (s : ConnectionHandoff) : List String := (s.pendingTargets.getD []).take 1

/-- What the release of the links rests on. -/
def Orderly (s : ConnectionHandoff) : Action → Prop
  -- The snapshot has the links that no call looks after any more, and the pairings.
  | .snapshot =>
      (∀ mac ∈ s.links, mac ∈ s.disconnectTargets ∨ s.Watched mac) ∧
        ∀ c ∈ s.calls, c.method = .pair → c.stage = .requested → c.mac ∈ s.disconnectTargets
  -- No pairing is requested that was let through before; `pair` does not test again.
  | .request id =>
      ∀ c ∈ s.calls, c.id = id → c.method = .pair → s.connectionsAllowed = true
  -- An error means that the request has made no link, or that another call looks after it.
  | .reply id ok =>
      ok = false → ∀ c ∈ s.calls, c.id = id →
        c.mac ∉ s.links ∨ ∃ o ∈ s.calls, o.id ≠ id ∧ o.mac = c.mac ∧ o.rechecks = true
  | .abandon _ => False
  -- `disconnect` works, and skips only what has no link.
  | .release id worked =>
      ∀ c ∈ s.calls, c.id = id → c.mac ∈ s.links → worked = true ∧ s.cached c.mac = true
  | .disconnect _ =>
      ∀ mac ∈ s.nextTarget, s.cached mac = false → mac ∉ s.links ∧
        ∀ c ∈ s.calls, c.method = .pair → c.stage = .requested → c.mac ≠ mac
  | _ => True

instance (s : ConnectionHandoff) (a : Action) : Decidable (s.Orderly a) := by
  cases a <;> dsimp only [Orderly] <;> infer_instance

/-! ## The invariant -/

/-- Every link will be taken down, and so will the link of a pairing. -/
structure Covered (s : ConnectionHandoff) (targets : List String) : Prop where
  links : ∀ mac ∈ s.links, mac ∈ targets ∨ s.Watched mac
  pairings : ∀ c ∈ s.calls, c.method = .pair → c.stage = .requested → c.mac ∈ targets

structure Safe (s : ConnectionHandoff) : Prop where
  ids : (s.calls.map Call.id).Nodup
  fresh : ∀ c ∈ s.calls, c.id < s.nextCall
  abandoned : s.abandoned = []
  forbidden : s.progress ≠ .idle ∨ s.released = true → s.connectionsAllowed = false
  settled : s.released = true → s.progress = .idle ∨ ∃ allowAfter, s.progress = .configuring allowAfter
  covered : ∀ targets ∈ s.pendingTargets, s.Covered targets

section

variable {s s' : ConnectionHandoff} {c o : Call} {id : Nat} {mac : String} {targets : List String}

theorem find_spec (h : s.find id = some c) : c ∈ s.calls ∧ c.id = id :=
  ⟨List.mem_of_find?_eq_some h, by simpa using List.find?_some h⟩

theorem find_bind {f : Call → Option ConnectionHandoff} (hx : (s.find id).bind f = some s') :
    ∃ c ∈ s.calls, c.id = id ∧ f c = some s' := by
  obtain ⟨c, hfind, hc⟩ := Option.bind_eq_some_iff.mp hx
  exact ⟨c, (find_spec hfind).1, (find_spec hfind).2, hc⟩

theorem mem_setStage {stage : Stage} :
    o ∈ (s.setStage id stage).calls ↔
      ∃ c ∈ s.calls, o = if c.id = id then { c with stage := stage } else c := by
  show o ∈ s.calls.map _ ↔ _
  simp only [List.mem_map, eq_comm]

theorem mem_finish : o ∈ (s.finish id).calls ↔ o ∈ s.calls ∧ o.id ≠ id := by
  show o ∈ s.calls.filter _ ↔ _
  simp only [List.mem_filter, bne_iff_ne]

theorem mem_cancel : o ∈ (s.cancel mac).calls ↔
    ∃ c ∈ s.calls, o = if c.mac = mac ∧ c.stage = .requested then { c with stage := .failed }
      else c := by
  show o ∈ s.calls.map _ ↔ _
  simp only [List.mem_map, eq_comm]

theorem mem_cancel_links {other : String} :
    other ∈ (s.cancel mac).links ↔ other ∈ s.links ∧ other ≠ mac := by
  show other ∈ s.links.filter _ ↔ _
  simp only [List.mem_filter, bne_iff_ne]

/-- While connections are allowed, nothing is to be released. -/
theorem Safe.pendingTargets_of_allowed (h : Safe s) (hallowed : s.connectionsAllowed = true) :
    s.pendingTargets = none := by
  have hnot : ¬(s.progress ≠ .idle ∨ s.released = true) := fun hor => by
    rw [h.forbidden hor] at hallowed
    cases hallowed
  push Not at hnot
  rw [pendingTargets, hnot.1]
  exact if_neg hnot.2

/-- Nothing is released before `apply_config` is through with its list. -/
theorem Safe.unreleased (h : Safe s) (hidle : s.progress ≠ .idle)
    (hconfiguring : ∀ allowAfter, s.progress ≠ .configuring allowAfter) : s.released = false := by
  refine Bool.eq_false_iff.mpr fun hreleased => ?_
  rcases h.settled hreleased with hprogress | ⟨allowAfter, hprogress⟩
  · exact hidle hprogress
  · exact hconfiguring allowAfter hprogress

/-- A call moves on; if it looked after a link, it still does, or nobody has to. -/
theorem Covered.setStage (h : s.Covered targets) (hids : (s.calls.map Call.id).Nodup)
    (hc : c ∈ s.calls) {stage : Stage}
    (hwatch : c.rechecks = true → ({ c with stage := stage } : Call).rechecks = true ∨
      c.mac ∉ s.links ∨ ∃ o ∈ s.calls, o.id ≠ c.id ∧ o.mac = c.mac ∧ o.rechecks = true)
    (hpair : c.method = .pair → stage ≠ .requested) :
    (s.setStage c.id stage).Covered targets where
  links := by
    intro mac hmac
    refine (h.links mac hmac).imp_right ?_
    rintro ⟨o, ho, rfl, hrechecks⟩
    have hother : ∀ o ∈ s.calls, o.id ≠ c.id → o ∈ (s.setStage c.id stage).calls :=
      fun o ho hne => mem_setStage.mpr ⟨o, ho, by rw [if_neg hne]⟩
    by_cases hne : o.id = c.id
    · obtain rfl := List.inj_on_of_nodup_map hids ho hc hne
      rcases hwatch hrechecks with hstill | hgone | ⟨o', ho', hne', hsame, hrechecks'⟩
      · exact ⟨{ o with stage := stage }, mem_setStage.mpr ⟨o, hc, by rw [if_pos rfl]⟩, rfl, hstill⟩
      · exact absurd hmac hgone
      · exact ⟨o', hother o' ho' hne', hsame, hrechecks'⟩
    · exact ⟨o, hother o ho hne, rfl, hrechecks⟩
  pairings := by
    intro o ho hmethod hrequested
    obtain ⟨o', ho', rfl⟩ := mem_setStage.mp ho
    by_cases heq : o'.id = c.id
    · rw [if_pos heq] at hmethod hrequested
      rw [List.inj_on_of_nodup_map hids ho' hc heq] at hmethod
      exact absurd hrequested (hpair hmethod)
    · rw [if_neg heq] at hmethod hrequested ⊢
      exact h.pairings o' ho' hmethod hrequested

theorem Covered.finish (h : s.Covered targets) (hids : (s.calls.map Call.id).Nodup)
    (hc : c ∈ s.calls) (hwatch : c.rechecks = true → c.mac ∉ s.links) :
    (s.finish c.id).Covered targets where
  links := by
    intro mac hmac
    refine (h.links mac hmac).imp_right ?_
    rintro ⟨o, ho, rfl, hrechecks⟩
    refine ⟨o, mem_finish.mpr ⟨ho, fun heq => ?_⟩, rfl, hrechecks⟩
    obtain rfl := List.inj_on_of_nodup_map hids ho hc heq
    exact hwatch hrechecks hmac
  pairings := fun o ho => h.pairings o (mem_finish.mp ho).1

/-- `Device1.Disconnect` covers its device. -/
theorem Covered.cancel (h : s.Covered (mac :: targets)) : (s.cancel mac).Covered targets where
  links := by
    intro other hother
    obtain ⟨hup, hne⟩ := mem_cancel_links.mp hother
    rcases h.links other hup with hmem | ⟨o, ho, rfl, hrechecks⟩
    · exact Or.inl ((List.mem_cons.mp hmem).resolve_left hne)
    · refine Or.inr ⟨o, mem_cancel.mpr ⟨o, ho, ?_⟩, rfl, hrechecks⟩
      rw [if_neg fun hboth => hne hboth.1]
  pairings := by
    intro o ho hmethod hrequested
    obtain ⟨o', ho', rfl⟩ := mem_cancel.mp ho
    by_cases hboth : o'.mac = mac ∧ o'.stage = .requested
    · rw [if_pos hboth] at hrequested
      cases hrequested
    · rw [if_neg hboth] at hmethod hrequested ⊢
      refine (List.mem_cons.mp (h.pairings o' ho' hmethod hrequested)).resolve_left fun heq => ?_
      exact hboth ⟨heq, hrequested⟩

theorem Covered.mono (h : s.Covered targets) {more : List String} (hsub : targets ⊆ more) :
    s.Covered more where
  links := fun mac hmac => (h.links mac hmac).imp_left (hsub ·)
  pairings := fun c hc hmethod hstage => hsub (h.pairings c hc hmethod hstage)

/-- Less is up, and the calls are the same. -/
theorem Covered.fewer (h : s.Covered targets) (hlinks : s'.links ⊆ s.links)
    (hcalls : s'.calls = s.calls) : s'.Covered targets where
  links := fun mac hmac => (h.links mac (hlinks hmac)).imp_right fun hwatched => by
    unfold Watched
    rw [hcalls]
    exact hwatched
  pairings := fun c hc => h.pairings c (hcalls ▸ hc)

/-- The calls change, but not what `apply_config` is doing. -/
theorem Safe.withCalls (h : Safe s) (hids : (s'.calls.map Call.id).Nodup)
    (hfresh : ∀ c ∈ s'.calls, c.id < s'.nextCall) (habandoned : s'.abandoned = [])
    (hallowed : s'.connectionsAllowed = s.connectionsAllowed) (hprogress : s'.progress = s.progress)
    (hreleased : s'.released = s.released)
    (hcovered : s.connectionsAllowed = false → ∀ targets ∈ s.pendingTargets,
      s.Covered targets → s'.Covered targets) : Safe s' where
  ids := hids
  fresh := hfresh
  abandoned := habandoned
  forbidden := by
    rw [hprogress, hreleased, hallowed]
    exact h.forbidden
  settled := by
    rw [hprogress, hreleased]
    exact h.settled
  covered := by
    intro targets htargets
    have hsame : s'.pendingTargets = s.pendingTargets := by
      rw [pendingTargets, pendingTargets, hprogress, hreleased]
    rw [hsame] at htargets
    cases hopen : s.connectionsAllowed with
    | false => exact hcovered hopen targets htargets (h.covered targets htargets)
    | true =>
        rw [h.pendingTargets_of_allowed hopen] at htargets
        cases htargets

theorem map_id_setStage (id : Nat) (stage : Stage) :
    (s.setStage id stage).calls.map Call.id = s.calls.map Call.id := by
  show (s.calls.map _).map Call.id = _
  rw [List.map_map]
  refine List.map_congr_left fun c _ => ?_
  show (if c.id = id then { c with stage := stage } else c).id = c.id
  split <;> rfl

theorem map_id_cancel (mac : String) :
    (s.cancel mac).calls.map Call.id = s.calls.map Call.id := by
  show (s.calls.map _).map Call.id = _
  rw [List.map_map]
  refine List.map_congr_left fun c _ => ?_
  show (if c.mac = mac ∧ c.stage = .requested then { c with stage := .failed } else c).id = c.id
  split <;> rfl

theorem fresh_of_map_id (h : Safe s) (hmap : s'.calls.map Call.id = s.calls.map Call.id)
    (hnext : s'.nextCall = s.nextCall) : ∀ c ∈ s'.calls, c.id < s'.nextCall := by
  intro c hc
  obtain ⟨c', hc', heq⟩ := List.mem_map.mp (hmap ▸ List.mem_map_of_mem (f := Call.id) hc)
  rw [hnext, ← heq]
  exact h.fresh c' hc'

theorem Safe.setStage (h : Safe s) (hc : c ∈ s.calls) {stage : Stage}
    (hwatch : s.connectionsAllowed = false → c.rechecks = true →
      ({ c with stage := stage } : Call).rechecks = true ∨
      c.mac ∉ s.links ∨ ∃ o ∈ s.calls, o.id ≠ c.id ∧ o.mac = c.mac ∧ o.rechecks = true)
    (hpair : s.connectionsAllowed = false → c.method = .pair → stage ≠ .requested) :
    Safe (s.setStage c.id stage) :=
  h.withCalls ((map_id_setStage c.id stage).symm ▸ h.ids)
    (fresh_of_map_id h (map_id_setStage c.id stage) rfl) h.abandoned rfl rfl rfl
    fun hforbidden _ _ hcovered => hcovered.setStage h.ids hc (hwatch hforbidden) (hpair hforbidden)

theorem Safe.finish (h : Safe s) (hc : c ∈ s.calls)
    (hwatch : s.connectionsAllowed = false → c.rechecks = true → c.mac ∉ s.links) :
    Safe (s.finish c.id) := by
  refine h.withCalls (h.ids.sublist ((List.filter_sublist).map Call.id))
    (fun o ho => h.fresh o (mem_finish.mp ho).1) h.abandoned rfl rfl rfl ?_
  intro hforbidden _ _ hcovered
  exact hcovered.finish h.ids hc (hwatch hforbidden)

theorem Covered.linkUp (h : s.Covered targets) (hc : c ∈ s.calls) (hstage : c.stage = .requested) :
    ({ s with links := c.mac :: s.links } : ConnectionHandoff).Covered targets where
  links := by
    intro mac hmac
    rcases List.mem_cons.mp hmac with rfl | hmac
    · cases hmethod : c.method with
      | connect => exact Or.inr ⟨c, hc, rfl, by simp [Call.rechecks, hmethod, hstage]⟩
      | pair => exact Or.inl (h.pairings c hc hmethod hstage)
    · exact h.links mac hmac
  pairings := h.pairings

/-- `apply_config` takes a device off its list that has no link and no pairing. -/
theorem Covered.skip (h : s.Covered (mac :: targets)) (hdown : mac ∉ s.links)
    (hnone : ∀ c ∈ s.calls, c.method = .pair → c.stage = .requested → c.mac ≠ mac) :
    s.Covered targets where
  links := by
    intro other hother
    refine (h.links other hother).imp_left fun hmem => (List.mem_cons.mp hmem).resolve_left ?_
    rintro rfl
    exact hdown hother
  pairings := fun c hc hmethod hstage =>
    (List.mem_cons.mp (h.pairings c hc hmethod hstage)).resolve_left (hnone c hc hmethod hstage)

/-- The guard leaves its scope; if connections stay forbidden, nothing else changes. -/
theorem Safe.leave (h : Safe s) {allowAfter : Bool}
    (hreleased : s.released = true → s.Covered []) : Safe (s.leave allowAfter) where
  ids := h.ids
  fresh := h.fresh
  abandoned := h.abandoned
  forbidden := by
    rintro (hprogress | hreleased)
    · exact absurd rfl hprogress
    · cases allowAfter with
      | false => rfl
      | true => simp [ConnectionHandoff.leave] at hreleased
  settled := fun _ => Or.inl rfl
  covered := by
    intro targets htargets
    cases hboth : s.released && !allowAfter with
    | false => simp [pendingTargets, ConnectionHandoff.leave, hboth] at htargets
    | true =>
        obtain rfl : [] = targets := by
          simpa [pendingTargets, ConnectionHandoff.leave, hboth] using htargets
        have hcovered := hreleased (Bool.and_eq_true_iff.mp hboth).1
        exact ⟨hcovered.links, hcovered.pairings⟩

/-- `apply_config` moves on within the scope of its guard. -/
theorem Safe.proceed (h : Safe s) (hbusy : s.progress ≠ .idle)
    (hids : s'.calls.map Call.id = s.calls.map Call.id) (hnext : s'.nextCall = s.nextCall)
    (habandoned : s'.abandoned = []) (hallowed : s'.connectionsAllowed = s.connectionsAllowed)
    (hsettled : s'.released = true → s'.progress = .idle ∨
      ∃ allowAfter, s'.progress = .configuring allowAfter)
    (htargets : s'.pendingTargets = some targets) (hcovered : s'.Covered targets) : Safe s' where
  ids := hids ▸ h.ids
  fresh := fresh_of_map_id h hids hnext
  abandoned := habandoned
  forbidden := fun _ => hallowed.trans (h.forbidden (Or.inl hbusy))
  settled := hsettled
  covered := by
    intro others hothers
    obtain rfl := Option.some.inj (htargets.symm.trans hothers)
    exact hcovered

theorem Safe.begin (h : Safe s) (mac : String) (method : Method) : Safe (s.begin mac method) := by
  unfold ConnectionHandoff.begin
  split
  · rename_i hallowed
    refine h.withCalls ?_ ?_ h.abandoned rfl rfl rfl fun hforbidden => ?_
    · refine List.nodup_cons.mpr ⟨fun hmem => ?_, h.ids⟩
      obtain ⟨o, ho, heq⟩ := List.mem_map.mp hmem
      exact Nat.lt_irrefl _ (heq ▸ h.fresh o ho)
    · intro o ho
      rcases List.mem_cons.mp ho with rfl | ho
      · exact Nat.lt_succ_self _
      · exact Nat.lt_succ_of_lt (h.fresh o ho)
    · rw [hallowed.1] at hforbidden
      cases hforbidden
  · exact h

/-- The sessions and the cache matter to the snapshot only. -/
theorem Safe.observe (h : Safe s) (attempted : List String) (devices : List Device) :
    Safe { s with attempted := attempted, devices := devices } :=
  h.withCalls h.ids h.fresh h.abandoned rfl rfl rfl fun _ _ _ hcovered =>
    ⟨hcovered.links, hcovered.pairings⟩

theorem Safe.conclude (h : Safe s) (hc : c ∈ s.calls) (hx : c.conclude s = some s') : Safe s' := by
  unfold Call.conclude at hx
  split at hx
  · rename_i hstage
    cases hx
    exact h.finish hc fun _ hrechecks => by simp [Call.rechecks, hstage] at hrechecks
  · rename_i hstage hmethod
    cases hx
    exact h.finish hc fun _ hrechecks => by simp [Call.rechecks, hmethod] at hrechecks
  · rename_i hstage hmethod
    cases hx
    split
    · rename_i hallowed
      exact h.finish hc fun hforbidden => by rw [hallowed] at hforbidden; cases hforbidden
    · exact h.setStage hc (fun _ _ => Or.inl (by simp [Call.rechecks, hmethod]))
        fun _ hpair => by rw [hmethod] at hpair; cases hpair
  · cases hx

theorem Safe.release (h : Safe s) (hc : c ∈ s.calls) (hstage : c.stage = .releasing)
    {worked : Bool} (hworks : c.mac ∈ s.links → worked = true ∧ s.cached c.mac = true) :
    Safe (if s.cached c.mac && worked then (s.cancel c.mac).finish c.id else s.finish c.id) := by
  split
  · have hcancelled : Safe (s.cancel c.mac) := by
      refine h.withCalls ((map_id_cancel c.mac).symm ▸ h.ids)
        (fresh_of_map_id h (map_id_cancel c.mac) rfl) ?_ rfl rfl rfl ?_
      · show s.abandoned.filter _ = []
        rw [h.abandoned]
        rfl
      · exact fun _ _ _ hcovered =>
          (hcovered.mono (List.subset_cons_self c.mac _)).cancel
    refine hcancelled.finish (c := c) (mem_cancel.mpr ⟨c, hc, ?_⟩) fun _ _ hmem =>
      (mem_cancel_links.mp hmem).2 rfl
    rw [if_neg]
    simp [hstage]
  · rename_i hnot
    refine h.finish hc fun _ _ hmem => hnot ?_
    obtain ⟨hworked, hcached⟩ := hworks hmem
    rw [hworked, hcached]
    rfl

/-- Every orderly step keeps the invariant. -/
theorem Safe.step (h : Safe s) {a : Action} (hok : s.Orderly a) (hx : s.step a = some s') :
    Safe s' := by
  cases a with
  | call mac method session =>
      cases hx
      cases session with
      | true => exact (h.observe (mac :: s.attempted) s.devices).begin mac method
      | false => exact h.begin mac method
  | test id =>
      obtain ⟨c, hc, rfl, hx⟩ := find_bind hx
      split at hx
      · rename_i hcalled
        cases hx
        split
        · rename_i hallowed
          exact h.setStage hc (fun hforbidden => by rw [hallowed] at hforbidden; cases hforbidden)
            fun hforbidden => by rw [hallowed] at hforbidden; cases hforbidden
        · exact h.finish hc fun _ hrechecks => by simp [Call.rechecks, hcalled.2] at hrechecks
      · cases hx
  | request id =>
      obtain ⟨c, hc, rfl, hx⟩ := find_bind hx
      split at hx
      · cases hx
        refine h.setStage hc (fun _ hrechecks => Or.inl ?_) fun hforbidden hpair => ?_
        · simp only [Call.rechecks, Bool.and_eq_true] at hrechecks ⊢
          exact ⟨hrechecks.1, rfl⟩
        · rw [hok c hc rfl hpair] at hforbidden
          cases hforbidden
      · cases hx
  | linkUp id =>
      obtain ⟨c, hc, -, hx⟩ := find_bind hx
      split at hx
      · rename_i hstage
        cases hx
        exact h.withCalls h.ids h.fresh h.abandoned rfl rfl rfl fun _ _ _ hcovered =>
          hcovered.linkUp hc hstage
      · cases hx
  | linkDown mac =>
      cases hx
      exact h.withCalls h.ids h.fresh h.abandoned rfl rfl rfl fun _ _ _ hcovered =>
        hcovered.fewer (List.filter_subset_self _) rfl
  | reply id ok =>
      obtain ⟨c, hc, rfl, hx⟩ := find_bind hx
      split at hx
      · cases hx
        refine h.setStage hc (fun _ hrechecks => ?_) fun _ _ => ?_
        · cases ok with
          | true =>
              simp only [Call.rechecks, Bool.and_eq_true] at hrechecks
              exact Or.inl (by simpa [Call.rechecks] using hrechecks.1)
          | false => exact Or.inr (hok rfl c hc rfl)
        · cases ok <;> simp
      · cases hx
  | abandon id => exact hok.elim
  | lateLinkUp mac =>
      simp only [ConnectionHandoff.step, h.abandoned, List.not_mem_nil, if_false] at hx
      cases hx
  | excuse id =>
      obtain ⟨c, hc, rfl, hx⟩ := find_bind hx
      split at hx
      · rename_i hfailed
        cases hx
        refine h.setStage hc (fun hforbidden => ?_) fun hforbidden => ?_
        all_goals
          rw [hfailed.2] at hforbidden
          cases hforbidden
      · cases hx
  | conclude id =>
      obtain ⟨c, hc, -, hx⟩ := find_bind hx
      exact h.conclude hc hx
  | release id worked =>
      obtain ⟨c, hc, rfl, hx⟩ := find_bind hx
      split at hx
      · rename_i hstage
        cases hx
        exact h.release hc hstage (hok c hc rfl)
      · cases hx
  | updateCache devices =>
      cases hx
      exact h.observe s.attempted devices
  | forgetAttempt mac =>
      cases hx
      exact h.observe (s.attempted.filter (· != mac)) s.devices
  | applyConfig exclusive gattLinkHandoff =>
      simp only [ConnectionHandoff.step] at hx
      split at hx
      · cases hx
        refine ⟨h.ids, h.fresh, h.abandoned, fun _ => rfl, fun hreleased => ?_, ?_⟩
        · cases hreleased
        · intro targets htargets
          cases htargets
      · cases hx
  | snapshot =>
      simp only [ConnectionHandoff.step] at hx
      split at hx
      · rename_i exclusive gattLinkHandoff hblocked
        have hunreleased := h.unreleased (by simp [hblocked]) (by simp [hblocked])
        split at hx
        · cases hx
          exact h.proceed (by simp [hblocked]) rfl rfl h.abandoned rfl (by simp [hunreleased]) rfl
            ⟨hok.1, hok.2⟩
        · cases hx
          exact h.leave fun hreleased => by rw [hunreleased] at hreleased; cases hreleased
      · cases hx
  | disconnect worked =>
      simp only [ConnectionHandoff.step] at hx
      split at hx
      · rename_i allowAfter mac targets hprogress
        have hcovered := h.covered (mac :: targets) (by simp [pendingTargets, hprogress])
        have hbusy : s.progress ≠ .idle := by simp [hprogress]
        have hunreleased := h.unreleased hbusy (by simp [hprogress])
        split at hx
        · rename_i huncached
          cases hx
          obtain ⟨hdown, hnone⟩ :=
            hok mac (by simp [nextTarget, pendingTargets, hprogress]) huncached
          have hskip := hcovered.skip hdown hnone
          exact h.proceed hbusy rfl rfl h.abandoned rfl (by simp [hunreleased]) rfl
            ⟨hskip.links, hskip.pairings⟩
        · split at hx
          · cases hx
            refine h.proceed hbusy (map_id_cancel mac) rfl ?_ rfl
              (fun hreleased => by rw [show s.released = true from hreleased] at hunreleased
                                   cases hunreleased) rfl
              ⟨hcovered.cancel.links, hcovered.cancel.pairings⟩
            show s.abandoned.filter _ = []
            rw [h.abandoned]
            rfl
          · cases hx
            exact h.leave fun hreleased => by rw [hunreleased] at hreleased; cases hreleased
      · cases hx
  | verify down =>
      simp only [ConnectionHandoff.step] at hx
      split at hx
      · rename_i allowAfter mac targets hprogress
        have hcovered := h.covered targets (by simp [pendingTargets, hprogress])
        have hunreleased := h.unreleased (by simp [hprogress]) (by simp [hprogress])
        split at hx
        · split at hx
          · cases hx
          · cases hx
            exact h.proceed (by simp [hprogress]) rfl rfl h.abandoned rfl (by simp [hunreleased])
              rfl ⟨hcovered.links, hcovered.pairings⟩
        · cases hx
          exact h.leave fun hreleased => by rw [hunreleased] at hreleased; cases hreleased
      · cases hx
  | configure =>
      simp only [ConnectionHandoff.step] at hx
      split at hx
      · rename_i allowAfter hprogress
        have hcovered := h.covered [] (by simp [pendingTargets, hprogress])
        cases hx
        exact h.proceed (by simp [hprogress]) rfl rfl h.abandoned rfl (by simp) rfl
          ⟨hcovered.links, hcovered.pairings⟩
      · cases hx
  | leave =>
      simp only [ConnectionHandoff.step] at hx
      split at hx
      · rename_i allowAfter hprogress
        cases hx
        exact h.leave fun _ => h.covered [] (by simp [pendingTargets, hprogress])
      · cases hx

theorem safe_initial (h : s.Initial) : Safe s := by
  obtain ⟨hallowed, hcalls, habandoned, hprogress, hreleased⟩ := h
  refine ⟨?_, ?_, habandoned, ?_, ?_, ?_⟩
  · rw [hcalls]
    exact List.nodup_nil
  · simp [hcalls]
  · simp [hprogress, hreleased]
  · simp [hreleased]
  · simp [pendingTargets, hprogress, hreleased]

theorem safe_reachable (h : ReachableUnder ConnectionHandoff.step Orderly Initial s) : Safe s :=
  h.invariant (fun _ => safe_initial) fun _ _ _ hs hok hx => hs.step hok hx

end

def oneDevice : ConnectionHandoff where
  devices := [{ mac := "D8:3A:DD:00:00:02" }]

/-- A request of `connect` reaches BlueZ only after its device has been disconnected. -/
def lateRequestRun : List Action :=
  [.call "D8:3A:DD:00:00:02" .connect true, .test 0, .applyConfig true false, .snapshot,
    .disconnect true, .request 0, .verify true, .linkUp 0, .configure, .leave]

/-- The last call takes its link down. -/
example : ((Run.exec ConnectionHandoff.step oneDevice
    (lateRequestRun ++ [Action.reply 0 true, .conclude 0, .release 0 true])).map fun s =>
      (s.calls, s.links, s.released)) = some ([], [], true) := by
  decide +kernel

/-- Without the guard a link stays behind: one whose call has returned before the cache shows it,
and one of a pairing that was let through before. -/
theorem links_left_behind :
    ((Run.exec ConnectionHandoff.step oneDevice
      [.call "D8:3A:DD:00:00:02" .connect false, .test 0, .request 0, .linkUp 0, .reply 0 true,
        .conclude 0, .applyConfig true false, .snapshot, .configure, .leave]).map fun s =>
      (s.calls, s.links, s.released)) = some ([], ["D8:3A:DD:00:00:02"], true) ∧
    ((Run.exec ConnectionHandoff.step oneDevice
      [.call "D8:3A:DD:00:00:02" .pair true, .applyConfig true false, .snapshot, .disconnect true,
        .verify true, .configure, .leave, .request 0, .linkUp 0, .reply 0 true,
        .conclude 0]).map fun s =>
      (s.calls, s.links, s.released)) = some ([], ["D8:3A:DD:00:00:02"], true) := by
  decide +kernel

end ConnectionHandoff

end UavBluetooth.Bluez
