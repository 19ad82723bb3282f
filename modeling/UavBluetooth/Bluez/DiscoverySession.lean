import UavBluetooth.Lib.Run

set_option autoImplicit false

/-! # The discovery session

`BluezClient::start_scan` and `stop_scan` own a discovery session of BlueZ through a D-Bus
connection of their own. A call may be refused or time out, and BlueZ may carry it out later; it
may also restart or lose its adapter, and tells so in a signal that is handled in another thread.

`discovery_agrees` says that the client and BlueZ agree on whether there is a session, and with
which filter, whenever no operation is under way and no signal is outstanding. Its guard `Prompt`
has the three races that break this; `session_unnoticed` runs into the first of them.
-/

namespace UavBluetooth.Bluez

open Run

/-! ## The client and BlueZ -/

structure ScanFilter where
  transport : String := "le"
  discoverable : Bool := false
  deriving DecidableEq, Repr

namespace DiscoverySession

inductive Request where
  | setDiscoveryFilter (filter : ScanFilter)
  | startDiscovery
  | stopDiscovery
  deriving DecidableEq, Repr

inductive Reply where
  | ok
  | error
  | timeout
  deriving DecidableEq, Repr

/-- What holds the mutex of the discovery operations. -/
inductive Operation where
  | idle
  /-- `start_scan` waits for the reply to `SetDiscoveryFilter`. -/
  | filtering (filter : ScanFilter) (owned : Bool)
  /-- It waits for the reply to `StartDiscovery`. -/
  | starting
  /-- `stop_scan` waits for the reply to `StopDiscovery`. -/
  | stopping
  deriving DecidableEq, Repr

/-- `start_scan` changes the filter of a session that there is already. -/
def Operation.owned : Operation → Bool
  | .filtering _ owned => owned
  | _ => false

end DiscoverySession

open DiscoverySession in
structure DiscoverySession where
  scanRunning : Bool := false
  lastFilter : ScanFilter := {}
  /-- `discovery_connection_` -/
  connection : Option Nat := none
  nextConnection : Nat := 0
  operation : Operation := .idle
  /-- The connections that have a session in BlueZ, and those that have set a filter. -/
  sessions : List Nat := []
  filters : List (Nat × ScanFilter) := []
  /-- The requests that BlueZ may still carry out although nobody waits for them. -/
  late : List (Nat × Request) := []
  /-- The signals under way that say that all sessions are gone. -/
  notices : Nat := 0
  deriving DecidableEq, Repr

namespace DiscoverySession

section

variable (s : DiscoverySession)

/-- The connection is closed, and BlueZ forgets what belongs to it. -/
def close (id : Nat) : DiscoverySession :=
  { s with
    connection := none
    scanRunning := false
    operation := .idle
    sessions := s.sessions.filter (· != id)
    filters := s.filters.filter (·.1 != id)
    late := s.late.filter (·.1 != id) }

/-- BlueZ sets the filter of a connection. -/
def putFilter (id : Nat) (filter : ScanFilter) : DiscoverySession :=
  { s with filters := (id, filter) :: s.filters.filter (·.1 != id) }

/-- BlueZ carries a late request out. -/
def carryOut (id : Nat) : Request → DiscoverySession
  | .setDiscoveryFilter filter => s.putFilter id filter
  | .startDiscovery => { s with sessions := id :: s.sessions.filter (· != id) }
  | .stopDiscovery => { s with sessions := s.sessions.filter (· != id) }

def connected : DiscoverySession :=
  match s.connection with
  | some _ => s
  | none => { s with connection := some s.nextConnection, nextConnection := s.nextConnection + 1 }

/-- `start_scan` up to its first call. -/
def startScan (filter : ScanFilter) : DiscoverySession :=
  if s.scanRunning = true ∧ filter = s.lastFilter then s.connected
  else { s.connected with operation := .filtering filter s.scanRunning }

/-- The reply to `SetDiscoveryFilter`; a session that is owned is kept after an error. -/
def filtered (id : Nat) (filter : ScanFilter) (owned : Bool) : Reply → DiscoverySession
  | .ok =>
      { s.putFilter id filter with
        lastFilter := filter
        operation := if owned then .idle else .starting }
  | .error => if owned then { s with operation := .idle } else s.close id
  | .timeout =>
      if owned then
        { s with operation := .idle, late := (id, .setDiscoveryFilter filter) :: s.late }
      else s.close id

end

/-! ## Steps -/

inductive Action where
  | startScan (filter : ScanFilter)
  | filtered (reply : Reply)
  | started (reply : Reply)
  | stopScan
  | stopped (reply : Reply)
  /-- `StopDiscovery` is refused because there is no session. -/
  | notStarted
  | carryOut
  /-- BlueZ restarts. -/
  | restart
  /-- The adapter loses its power. -/
  | powerOff
  /-- The next signal is handled. -/
  | notice

def step (s : DiscoverySession) : Action → Option DiscoverySession
  | .startScan filter => if s.operation = .idle then some (s.startScan filter) else none
  | .filtered reply =>
      match s.operation, s.connection with
      | .filtering filter owned, some id => some (s.filtered id filter owned reply)
      | _, _ => none
  | .started reply =>
      match s.operation, s.connection with
      | .starting, some id =>
          if reply = .ok then
            if id ∈ s.sessions then none
            else some { s with
              sessions := id :: s.sessions
              scanRunning := true
              operation := .idle }
          else some (s.close id)
      | _, _ => none
  | .stopScan =>
      if s.operation = .idle then
        if s.connection.isSome ∧ s.scanRunning = true then
          some { s with operation := .stopping }
        else some s
      else none
  | .stopped reply =>
      match s.operation, s.connection with
      | .stopping, some id =>
          if reply = .ok then
            if id ∈ s.sessions then
              some { s with
                sessions := s.sessions.filter (· != id)
                scanRunning := false
                operation := .idle }
            else none
          else some (s.close id)
      | _, _ => none
  | .notStarted =>
      match s.operation, s.connection with
      | .stopping, some id =>
          if id ∈ s.sessions then none
          else some { s with scanRunning := false, operation := .idle }
      | _, _ => none
  | .carryOut =>
      match s.late with
      | (id, request) :: rest => some ({ s with late := rest }.carryOut id request)
      | [] => none
  | .restart =>
      some { s with sessions := [], filters := [], late := [], notices := s.notices + 1 }
  | .powerOff => some { s with sessions := [], notices := s.notices + 1 }
  | .notice =>
      if s.notices = 0 then none
      else some { s with notices := s.notices - 1, scanRunning := false }

def Initial (s : DiscoverySession) : Prop :=
  s.scanRunning = false ∧ s.connection = none ∧ s.operation = .idle ∧ s.sessions = [] ∧
    s.filters = [] ∧ s.late = [] ∧ s.notices = 0

/-- A session is not started before BlueZ's signals are handled; the filter of a session does not
time out; BlueZ does not restart between the two calls of `start_scan`. -/
def Prompt (s : DiscoverySession) : Action → Prop
  | .started reply => reply = .ok → s.notices = 0
  | .filtered reply => reply = .timeout → s.operation.owned = false
  | .restart => s.operation ≠ .starting
  | _ => True

instance (s : DiscoverySession) (a : Action) : Decidable (s.Prompt a) := by
  cases a <;> dsimp only [Prompt] <;> infer_instance

/-! ## The invariant -/

/-- The connection has set the filter that was asked for last. -/
def FilterSet (s : DiscoverySession) : Prop :=
  ∃ id, s.connection = some id ∧ s.filters.lookup id = some s.lastFilter

/-- There is a session, with the filter that was asked for last. -/
def HasSession (s : DiscoverySession) : Prop :=
  ∃ id, s.connection = some id ∧ s.sessions = [id] ∧ s.filters.lookup id = some s.lastFilter

structure Agreed (s : DiscoverySession) : Prop where
  own : ∀ id ∈ s.sessions, s.connection = some id
  late : s.late = []
  gone : s.notices ≠ 0 → s.sessions = []
  stopped : s.scanRunning = false → s.sessions = []
  running : s.scanRunning = true → s.notices = 0 → s.HasSession
  starting : s.operation = .starting → s.scanRunning = false ∧ s.FilterSet
  unowned : ∀ filter, s.operation = .filtering filter false → s.scanRunning = false

section

variable {s s' : DiscoverySession} {id : Nat} {filter : ScanFilter}

/-- Closing the connection ends the session, whatever state it is in. -/
theorem Agreed.close (h : Agreed s) (hid : s.connection = some id) : Agreed (s.close id) := by
  have hnone : (s.close id).sessions = [] := by
    refine List.filter_eq_nil_iff.mpr fun other hother => ?_
    have hsame : id = other := Option.some.inj (hid.symm.trans (h.own other hother))
    simp [hsame]
  refine ⟨fun other hother => ?_, ?_, fun _ => hnone, fun _ => hnone, fun hrunning => ?_,
    fun hstarting => ?_, fun _ _ => rfl⟩
  · rw [hnone] at hother
    cases hother
  · show s.late.filter _ = []
    rw [h.late]
    rfl
  · cases hrunning
  · cases hstarting

/-- Another operation begins, or the one under way ends. -/
theorem Agreed.withOperation (h : Agreed s) {operation : Operation} (hstarting : operation ≠ .starting)
    (hunowned : ∀ filter, operation ≠ .filtering filter false) :
    Agreed { s with operation := operation } where
  own := h.own
  late := h.late
  gone := h.gone
  stopped := h.stopped
  running := h.running
  starting := fun hoperation => absurd hoperation hstarting
  unowned := fun filter hoperation => absurd hoperation (hunowned filter)

theorem lookup_putFilter : (s.putFilter id filter).filters.lookup id = some filter := by
  unfold putFilter
  simp

theorem Agreed.filtered (h : Agreed s) {owned : Bool} (hid : s.connection = some id)
    (hoperation : s.operation = .filtering filter owned) {reply : Reply}
    (hok : reply = .timeout → owned = false) : Agreed (s.filtered id filter owned reply) := by
  cases reply with
  | ok =>
      refine ⟨h.own, h.late, h.gone, h.stopped, fun hrunning hnotices => ?_, fun hstarting => ?_,
        fun other hother => ?_⟩
      · obtain ⟨id', hid', hsessions, _⟩ := h.running hrunning hnotices
        obtain rfl : id = id' := Option.some.inj (hid.symm.trans hid')
        exact ⟨id, hid, hsessions, lookup_putFilter⟩
      · cases owned with
        | true => cases hstarting
        | false => exact ⟨h.unowned filter hoperation, id, hid, lookup_putFilter⟩
      · cases owned with
        | true => cases hother
        | false => cases hother
  | error =>
      cases owned with
      | true => exact h.withOperation (by simp) (by simp)
      | false => exact h.close hid
  | timeout =>
      obtain rfl : owned = false := hok rfl
      exact h.close hid

theorem Agreed.connected (h : Agreed s) : Agreed s.connected := by
  unfold DiscoverySession.connected
  split
  · exact h
  · rename_i hnone
    have hempty : s.sessions = [] := List.eq_nil_iff_forall_not_mem.mpr fun id hid => by
      have hsome := h.own id hid
      rw [hnone] at hsome
      cases hsome
    refine ⟨fun id hid => ?_, h.late, h.gone, h.stopped, fun hrunning hnotices => ?_,
      fun hstarting => ?_, h.unowned⟩
    · rw [show s.sessions = [] from hempty] at hid
      cases hid
    · obtain ⟨id, hid, _⟩ := h.running hrunning hnotices
      rw [hnone] at hid
      cases hid
    · obtain ⟨_, id, hid, _⟩ := h.starting hstarting
      rw [hnone] at hid
      cases hid

theorem connected_scanRunning (s : DiscoverySession) : s.connected.scanRunning = s.scanRunning := by
  unfold DiscoverySession.connected
  split <;> rfl

theorem Agreed.startScan (h : Agreed s) (filter : ScanFilter) : Agreed (s.startScan filter) := by
  unfold DiscoverySession.startScan
  split
  · exact h.connected
  · have hc := h.connected
    refine ⟨hc.own, hc.late, hc.gone, hc.stopped, hc.running, fun hstarting => ?_,
      fun other hother => ?_⟩
    · cases hstarting
    · injection hother with _ howned
      exact (connected_scanRunning s).trans howned

/-- All sessions are gone, and a signal will say so. -/
theorem Agreed.lose (h : Agreed s) (hsessions : s'.sessions = []) (hlate : s'.late = [])
    (hnotices : s'.notices = s.notices + 1) (hscan : s'.scanRunning = s.scanRunning)
    (hoperation : s'.operation = s.operation) (hfilter : s.operation = .starting → s'.FilterSet) :
    Agreed s' where
  own := by
    intro id hid
    rw [hsessions] at hid
    cases hid
  late := hlate
  gone := fun _ => hsessions
  stopped := fun _ => hsessions
  running := by
    intro _ hzero
    omega
  starting := by
    rw [hoperation, hscan]
    exact fun hstarting => ⟨(h.starting hstarting).1, hfilter hstarting⟩
  unowned := by
    rw [hoperation, hscan]
    exact h.unowned

/-- There is no session, and the client knows. -/
theorem Agreed.rest (h : Agreed s) (hsessions : s'.sessions = []) (hlate : s'.late = s.late)
    (hscan : s'.scanRunning = false) (hstarting : s'.operation = .starting → s'.FilterSet) :
    Agreed s' where
  own := by
    intro id hid
    rw [hsessions] at hid
    cases hid
  late := hlate.trans h.late
  gone := fun _ => hsessions
  stopped := fun _ => hsessions
  running := by
    intro hrunning
    rw [hscan] at hrunning
    cases hrunning
  starting := fun hoperation => ⟨hscan, hstarting hoperation⟩
  unowned := fun _ _ => hscan

/-- A session of the connection is ended. -/
theorem filter_sessions (h : Agreed s) (hid : s.connection = some id) :
    s.sessions.filter (· != id) = [] := by
  refine List.filter_eq_nil_iff.mpr fun other hother => ?_
  have hsame : id = other := Option.some.inj (hid.symm.trans (h.own other hother))
  simp [hsame]

theorem Agreed.step (h : Agreed s) {a : Action} (hok : s.Prompt a) (hx : s.step a = some s') :
    Agreed s' := by
  cases a with
  | startScan filter =>
      simp only [DiscoverySession.step] at hx
      split at hx
      · cases hx
        exact h.startScan filter
      · cases hx
  | filtered reply =>
      simp only [DiscoverySession.step] at hx
      split at hx
      · rename_i filter owned id hoperation hid
        cases hx
        refine h.filtered hid hoperation fun htimeout => ?_
        have howned := hok htimeout
        rwa [hoperation] at howned
      · cases hx
  | started reply =>
      simp only [DiscoverySession.step] at hx
      split at hx
      · rename_i id hoperation hid
        split at hx
        · rename_i hreply
          split at hx
          · cases hx
          · cases hx
            obtain ⟨hscan, id', hid', hlookup⟩ := h.starting hoperation
            obtain rfl : id = id' := Option.some.inj (hid.symm.trans hid')
            have hempty := h.stopped hscan
            have hnotices : s.notices = 0 := hok hreply
            refine ⟨fun other hother => ?_, h.late, fun hne => absurd hnotices hne,
              fun hstopped => ?_, fun _ _ => ⟨id, hid, ?_, hlookup⟩, fun hstarting => ?_,
              fun _ hother => ?_⟩
            · rw [hempty] at hother
              rw [List.mem_singleton.mp hother]
              exact hid
            · cases hstopped
            · show id :: s.sessions = [id]
              rw [hempty]
            · cases hstarting
            · cases hother
        · cases hx
          exact h.close hid
      · cases hx
  | stopScan =>
      simp only [DiscoverySession.step] at hx
      split at hx
      · split at hx
        · cases hx
          exact h.withOperation (by simp) (by simp)
        · cases hx
          exact h
      · cases hx
  | stopped reply =>
      simp only [DiscoverySession.step] at hx
      split at hx
      · rename_i id hoperation hid
        split at hx
        · split at hx
          · cases hx
            exact h.rest (filter_sessions h hid) rfl rfl fun hstarting => by cases hstarting
          · cases hx
        · cases hx
          exact h.close hid
      · cases hx
  | notStarted =>
      simp only [DiscoverySession.step] at hx
      split at hx
      · rename_i id hoperation hid
        split at hx
        · cases hx
        · rename_i hnot
          cases hx
          have hempty : s.sessions = [] := List.eq_nil_iff_forall_not_mem.mpr fun other hother => by
            obtain rfl : id = other := Option.some.inj (hid.symm.trans (h.own other hother))
            exact hnot hother
          exact h.rest hempty rfl rfl fun hstarting => by cases hstarting
      · cases hx
  | carryOut =>
      simp only [DiscoverySession.step, h.late] at hx
      cases hx
  | restart =>
      cases hx
      exact h.lose rfl rfl rfl rfl rfl fun hstarting => absurd hstarting hok
  | powerOff =>
      cases hx
      exact h.lose rfl h.late rfl rfl rfl fun hstarting => (h.starting hstarting).2
  | notice =>
      simp only [DiscoverySession.step] at hx
      split at hx
      · cases hx
      · rename_i hnotices
        cases hx
        exact h.rest (h.gone hnotices) rfl rfl fun hstarting => (h.starting hstarting).2

theorem agreed_initial (h : s.Initial) : Agreed s := by
  obtain ⟨hscan, _, hoperation, hsessions, _, hlate, hnotices⟩ := h
  refine ⟨?_, hlate, fun _ => hsessions, fun _ => hsessions, ?_, ?_, ?_⟩
  · simp [hsessions]
  · simp [hscan]
  · simp [hoperation]
  · simp [hoperation]

/-- **The client and BlueZ agree on the discovery session**, whatever is refused or times out. A
session always belongs to the present connection. If the client takes discovery for stopped, there
is none; if it takes it for running and no signal is outstanding, there is exactly one, with the
filter that was asked for last. -/
theorem discovery_agrees (h : ReachableUnder DiscoverySession.step Prompt Initial s) :
    (∀ id ∈ s.sessions, s.connection = some id) ∧ (s.scanRunning = false → s.sessions = []) ∧
      (s.scanRunning = true → s.notices = 0 → s.HasSession) := by
  have hs : Agreed s := h.invariant (fun _ => agreed_initial) fun _ _ _ hs hok hx => hs.step hok hx
  exact ⟨hs.own, hs.stopped, hs.running⟩

end

/-- BlueZ restarts during a scan; the next scan begins after its signal is handled. -/
def restartedRun : List Action :=
  [.startScan {}, .filtered .ok, .started .ok, .restart, .notice,
    .startScan { transport := "auto" }, .filtered .timeout, .startScan { transport := "auto" },
    .filtered .ok, .started .ok]

theorem discovery_agrees_restartedRun :
    ∃ s : DiscoverySession, s.sessions = [1] ∧ s.HasSession := by
  have hrun : ((Run.exec DiscoverySession.step {} restartedRun).map fun s =>
      (s.sessions, s.scanRunning, s.notices)) = some ([1], true, 0) := by
    decide +kernel
  obtain ⟨s, hs, heq⟩ := Option.map_eq_some_iff.mp hrun
  simp only [Prod.mk.injEq] at heq
  obtain ⟨hsessions, hscan, hnotices⟩ := heq
  have hguarded : Run.Guarded DiscoverySession.step Prompt {} restartedRun :=
    Run.guarded_of_decide (by decide +kernel)
  have hreach : ReachableUnder DiscoverySession.step Prompt Initial s :=
    ReachableUnder.exec (.start ⟨rfl, rfl, rfl, rfl, rfl, rfl, rfl⟩) hguarded hs
  exact ⟨s, hsessions, (discovery_agrees hreach).2.2 hscan hnotices⟩

/-- A session that is started before the signal of a restart is handled goes unnoticed: it is
running, and `stop_scan` does nothing. -/
theorem session_unnoticed :
    ((Run.exec DiscoverySession.step {}
      [.startScan {}, .filtered .ok, .started .ok, .restart, .stopScan, .notStarted, .startScan {},
        .filtered .ok, .started .ok, .notice, .stopScan]).map fun s =>
      (s.operation, s.scanRunning, s.sessions, s.notices)) = some (.idle, false, [0], 0) := by
  decide +kernel

end DiscoverySession

end UavBluetooth.Bluez
