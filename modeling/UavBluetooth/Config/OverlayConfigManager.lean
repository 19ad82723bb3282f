import UavBluetooth.Config.Models
import UavBluetooth.Lib.Run

set_option autoImplicit false

/-! # The overlay configuration manager

`overlay_config_manager.cpp`: which configuration is in effect, which overlay file it came
from, and the lease that returns the node to the default configuration when the overlay's
keepalive publisher disappears.

`mutex_` is held only for short stretches; files are read, observers are called and the ROS
graph is asked without it. A call is therefore a program counter (`Pc`) that advances by one
such stretch at a time (`advance`), with the answer of the outside world as an input
(`Answer`), and calls of any number of threads interleave (`step`).
-/

namespace UavBluetooth.Config.Overlay

/-! ## Topic names -/

/-- `find_first_not_of` and `find_last_not_of` around the characters that satisfy `drop`. -/
def trim (drop : Char → Bool) (value : List Char) : List Char :=
  ((value.dropWhile drop).reverse.dropWhile drop).reverse

/-- `util::sanitize_topic_suffix`. -/
def sanitizeTopicSuffix (value : String) : String :=
  let trimmed := trim (fun c => c == ' ' || c == '\t' || c == '\r' || c == '\n') value.toList
  let cleaned := trimmed.map fun c => if c.isAlphanum || c == '_' then c else '_'
  let result := trim (· == '_') cleaned
  if result.isEmpty then "ble_device" else String.ofList result

/-- `util::node_prefix` of a nonempty hostname. -/
def nodePrefix (hostname : String) : String :=
  "/" ++ sanitizeTopicSuffix hostname ++ "/bluetooth"

/-! ## State -/

variable {NodeConfig : Type}

/-- What does not change after construction. -/
structure Settings (NodeConfig : Type) where
  defaultConfigPath : String
  hostname : String
  /-- `cfg.overlay_keepalive_topic_suffix`. -/
  overlayKeepaliveTopicSuffix : NodeConfig → String
  /-- The number of registered observers. -/
  callbacks : Nat

def Settings.keepaliveTopic (env : Settings NodeConfig) (config : NodeConfig) : String :=
  nodePrefix env.hostname ++ "/config/" ++
    sanitizeTopicSuffix (env.overlayKeepaliveTopicSuffix config)

/-- The name of the configuration that `apply_config` loads for an overlay path. -/
def Settings.sourceOf (env : Settings NodeConfig) (overlay : String) : String :=
  if overlay = "" then env.defaultConfigPath else overlay

/-- The effective configuration: the three members `apply_config` replaces and restores
together. -/
structure Effective (NodeConfig : Type) where
  config : NodeConfig
  activeSource : String := ""
  keepaliveTopic : String := ""

structure Manager (NodeConfig : Type) where
  effective : Effective NodeConfig
  overlayPath : String := ""
  keepaliveMissCount : Nat := 0
  leaseHoldUntil : Time := 0
  overlayConnectedBaseline : List String := []
  /-- The first line of the file at `runtime_state_path_`; no more of it is read. -/
  persisted : Option String := none

def requiredMisses : Nat := 3

def revertRetryDelay : Time := seconds 30

def restartLeaseGrace : Time := seconds 5

/-! ## Calls -/

/-- What `apply_config` is called for. -/
inductive Kind where
  | activate (path previous : String)
  /-- From `check_lease` or not. -/
  | revert (fromLease : Bool)
  | reload (path : String)
  /-- `load_initial` with a saved overlay. -/
  | restore (path : String)
  /-- `load_initial` with the default. -/
  | initial
  deriving DecidableEq, Repr

/-- The `overlay` argument of `apply_config`. -/
def Kind.target : Kind → String
  | .activate path _ => path
  | .revert _ => ""
  | .reload path => path
  | .restore path => path
  | .initial => ""

/-- A call of `apply_config`. `base` is a record for the reader of a run: the overlay path that
was current when the transition made its first change (`none` while the node starts). -/
structure Transition where
  kind : Kind
  base : Option String := none
  deriving DecidableEq, Repr

/-- Where a call stands: what it does next. -/
inductive Pc (NodeConfig : Type) where
  /-- `activate_overlay`: validate the hold (`none` if it is not finite or negative) and copy
  the current path. -/
  | readPrevious (path : String) (hold : Option Time)
  | checkFile (path previous : String) (hold : Time)
  | claim (path previous : String) (hold : Time)
  /-- `reload`: copy the current path. -/
  | readOverlay
  /-- `check_lease`: is there a lease to watch? -/
  | leaseStart
  | leaseProbe (topic : String)
  | leaseFound
  | leaseMissed
  /-- `load_initial`: look for a saved overlay. -/
  | readPersisted
  /-- `apply_config`, stage by stage. -/
  | load (t : Transition)
  | commit (t : Transition) (config : NodeConfig)
  | announce (t : Transition) (saved : Effective NodeConfig)
  | notify (t : Transition) (saved : Effective NodeConfig) (config : NodeConfig) (next : Nat)
  | rollback (t : Transition) (saved : Effective NodeConfig) (error : String)
  | reannounce (t : Transition) (error : String)
  | renotify (t : Transition) (config : NodeConfig) (next : Nat) (error : String)
  /-- The caller of `apply_config`, after it returned. -/
  | applied (t : Transition)
  /-- The caller's handler, after it threw. -/
  | failed (t : Transition) (error : String)

/-- What the outside world answers to one stretch of code. -/
structure Answer (NodeConfig : Type) where
  now : Time := 0
  regularFile : Bool := true
  /-- `load_effective_config`: the merged configuration or the exception. -/
  loaded : Except String NodeConfig := .error ""
  /-- The exception of the observer that is called, if it throws. -/
  callbackError : Option String := none
  /-- Whether the keepalive topic has publishers. -/
  publishers : Bool := false
  /-- Whether the state file could be written, and the exception of the clean-up if that
  throws. -/
  persistWritten : Bool := true
  persistError : Option String := none

/-- How a stretch of code ends. -/
inductive Next (NodeConfig : Type) where
  | goto (pc : Pc NodeConfig)
  /-- A service call returns its success flag and message. -/
  | finish (success : Bool) (message : String)
  /-- `check_lease` returns. -/
  | done
  /-- An exception leaves the call. -/
  | throw (error : String)
  /-- An exception leaves `load_initial`, and with it the constructor of the node. -/
  | abort (error : String)
  /-- `load_initial` returns. -/
  | ready

/-- What `std::getline` reads of a text. -/
def firstLine (text : String) : String := String.ofList (text.toList.takeWhile (· != '\n'))

/-- `persist_overlay_path`: the file afterwards, or the exception of a failed clean-up. -/
def persistOverlayPath (path : String) (answer : Answer NodeConfig) (m : Manager NodeConfig) :
    Except String (Manager NodeConfig) :=
  match answer.persistError with
  | some error => .error error
  | none => .ok (if answer.persistWritten then { m with persisted := some (firstLine path) } else m)

/-- `clear_persisted_overlay`. -/
def clearPersistedOverlay (m : Manager NodeConfig) : Manager NodeConfig :=
  { m with persisted := none }

/-- The last critical section of `revert_to_default`. -/
def clearOverlay (m : Manager NodeConfig) : Manager NodeConfig :=
  { m with overlayPath := "", keepaliveMissCount := 0, overlayConnectedBaseline := [] }

/-- The caller of `apply_config` after it returned. -/
def afterApplied (t : Transition) (answer : Answer NodeConfig) (m : Manager NodeConfig) :
    Manager NodeConfig × Next NodeConfig :=
  match t.kind with
  | .activate path _ =>
      match persistOverlayPath path answer m with
      | .ok m' => (m', .finish true ("Activated overlay: " ++ path))
      | .error error => (m, .goto (.failed t error))
  | .revert fromLease =>
      (clearOverlay (clearPersistedOverlay m),
        if fromLease then .done else .finish true "Reverted to default config")
  | .reload _ => (m, .finish true "Config reloaded")
  | .restore _ => (m, .ready)
  | .initial => (m, .ready)

/-- The caller's handler after `apply_config` threw. -/
def afterFailed (t : Transition) (error : String) (answer : Answer NodeConfig)
    (m : Manager NodeConfig) : Manager NodeConfig × Next NodeConfig :=
  match t.kind with
  | .activate _ previous =>
      ({ m with overlayPath := previous },
        .finish false ("Failed to activate overlay: " ++ error))
  | .revert fromLease =>
      if fromLease then ({ m with leaseHoldUntil := answer.now + revertRetryDelay }, .done)
      else (m, .finish false ("Failed to revert: " ++ error))
  | .reload _ => (m, .finish false ("Reload failed: " ++ error))
  | .restore _ =>
      (clearPersistedOverlay { m with overlayPath := "", keepaliveMissCount := 0 },
        .goto (.load { kind := .initial }))
  | .initial => (m, .abort error)

/-- One stretch of a call: the manager afterwards and what comes next. -/
def advance (env : Settings NodeConfig) (answer : Answer NodeConfig) (m : Manager NodeConfig) :
    Pc NodeConfig → Manager NodeConfig × Next NodeConfig
  | .readPrevious path hold =>
      match hold with
      | none => (m, .finish false "hold_seconds must be finite and nonnegative")
      | some hold => (m, .goto (.checkFile path m.overlayPath hold))
  | .checkFile path previous hold =>
      if path = "" then (m, .goto (.load { kind := .revert false }))
      else if answer.regularFile then (m, .goto (.claim path previous hold))
      else (m, .finish false ("Overlay file not found: " ++ path))
  | .claim path previous hold =>
      if path = m.overlayPath then
        let m' := { m with keepaliveMissCount := 0, leaseHoldUntil := answer.now + hold }
        match persistOverlayPath path answer m' with
        | .ok m'' => (m'', .finish true ("Overlay already active: " ++ path))
        | .error error => (m', .throw error)
      else
        ({ m with
            overlayPath := path
            keepaliveMissCount := 0
            leaseHoldUntil := answer.now + hold },
          .goto (.load { kind := .activate path previous, base := some m.overlayPath }))
  | .readOverlay => (m, .goto (.load { kind := .reload m.overlayPath }))
  | .leaseStart =>
      if m.overlayPath = "" ∨ answer.now < m.leaseHoldUntil then (m, .done)
      else if m.effective.keepaliveTopic = "" then (m, .done)
      else (m, .goto (.leaseProbe m.effective.keepaliveTopic))
  | .leaseProbe _ =>
      if answer.publishers then (m, .goto .leaseFound) else (m, .goto .leaseMissed)
  | .leaseFound => ({ m with keepaliveMissCount := 0 }, .done)
  | .leaseMissed =>
      if m.keepaliveMissCount + 1 < requiredMisses then
        ({ m with keepaliveMissCount := m.keepaliveMissCount + 1 }, .done)
      else ({ m with keepaliveMissCount := 0 }, .goto (.load { kind := .revert true }))
  | .readPersisted =>
      match m.persisted with
      | none => (m, .goto (.load { kind := .initial }))
      | some path =>
          if path = "" then (m, .goto (.load { kind := .initial }))
          else if answer.regularFile then
            ({ m with
                overlayPath := path
                keepaliveMissCount := 0
                leaseHoldUntil := answer.now + restartLeaseGrace },
              .goto (.load { kind := .restore path }))
          else (clearPersistedOverlay m, .goto (.load { kind := .initial }))
  | .load t =>
      match answer.loaded with
      | .ok config => (m, .goto (.commit t config))
      | .error error => (m, .goto (.failed t error))
  | .commit t config =>
      let base := match t.kind with
        | .revert _ | .reload _ => some m.overlayPath
        | _ => t.base
      ({ m with
          effective := {
            config := config
            activeSource := env.sourceOf t.kind.target
            keepaliveTopic := env.keepaliveTopic config } },
        .goto (.announce { t with base := base } m.effective))
  | .announce t saved => (m, .goto (.notify t saved m.effective.config 0))
  | .notify t saved config next =>
      if next < env.callbacks then
        match answer.callbackError with
        | none => (m, .goto (.notify t saved config (next + 1)))
        | some error => (m, .goto (.rollback t saved error))
      else (m, .goto (.applied t))
  | .rollback t saved error =>
      ({ m with effective := saved },
        if saved.activeSource = "" then .goto (.failed t error)
        else .goto (.reannounce t error))
  | .reannounce t error => (m, .goto (.renotify t m.effective.config 0 error))
  | .renotify t config next error =>
      if next < env.callbacks then
        match answer.callbackError with
        | none => (m, .goto (.renotify t config (next + 1) error))
        | some _ => (m, .goto (.failed t error))
      else (m, .goto (.failed t error))
  | .applied t => afterApplied t answer m
  | .failed t error => afterFailed t error answer m

/-! ## Interleavings -/

inductive Phase where
  | constructed
  | loading
  | ready
  /-- `load_initial` threw: the node does not start. -/
  | aborted
  deriving DecidableEq, Repr

/-- The public operations. -/
inductive Call where
  | loadInitial
  | activateOverlay (path : String) (hold : Option Time)
  | revertToDefault
  | reload
  | checkLease

def Call.start : Call → Pc NodeConfig
  | .loadInitial => .readPersisted
  | .activateOverlay path hold => .readPrevious path hold
  | .revertToDefault => .load { kind := .revert false }
  | .reload => .readOverlay
  | .checkLease => .leaseStart

/-- The phase in which a call may begin: the services and the lease timer exist only after
`load_initial` has returned. -/
def Call.phase : Call → Phase
  | .loadInitial => .constructed
  | _ => .ready

/-- The manager, the calls in progress, every configuration loaded so far with the overlay path
it was loaded for, and what the calls returned. -/
structure State (NodeConfig : Type) where
  manager : Manager NodeConfig
  phase : Phase := .constructed
  calls : Nat → Option (Pc NodeConfig) := fun _ => none
  loads : List (String × NodeConfig) := []
  results : List (Nat × Bool × String) := []

inductive Action (NodeConfig : Type) where
  | call (id : Nat) (call : Call)
  | run (id : Nat) (answer : Answer NodeConfig)

/-- The configuration that a stretch of code loads. -/
def loadsOf (answer : Answer NodeConfig) : Pc NodeConfig → List (String × NodeConfig)
  | .load t =>
      match answer.loaded with
      | .ok config => [(t.kind.target, config)]
      | .error _ => []
  | _ => []

/-- The bookkeeping at the end of a stretch of code. -/
def State.proceed (s : State NodeConfig) (id : Nat) : Next NodeConfig → State NodeConfig
  | .goto pc => { s with calls := Function.update s.calls id (some pc) }
  | .finish success message =>
      { s with
        calls := Function.update s.calls id none
        results := s.results ++ [(id, success, message)] }
  | .done => { s with calls := Function.update s.calls id none }
  | .throw error =>
      { s with
        calls := Function.update s.calls id none
        results := s.results ++ [(id, false, error)] }
  | .abort error =>
      { s with
        calls := Function.update s.calls id none
        phase := .aborted
        results := s.results ++ [(id, false, error)] }
  | .ready => { s with calls := Function.update s.calls id none, phase := .ready }

def step (env : Settings NodeConfig) (s : State NodeConfig) :
    Action NodeConfig → Option (State NodeConfig)
  | .call id c =>
      match s.calls id with
      | some _ => none
      | none =>
          if s.phase = c.phase then
            some { s with
              calls := Function.update s.calls id (some c.start)
              phase := if c.phase = .constructed then .loading else s.phase }
          else none
  | .run id answer =>
      match s.calls id with
      | none => none
      | some pc =>
          if s.phase = .aborted then none
          else
            some ({ s with
              manager := (advance env answer s.manager pc).1
              loads := s.loads ++ loadsOf answer pc }.proceed id
                (advance env answer s.manager pc).2)

/-- A freshly constructed manager; the state file may hold the path saved by an earlier run. -/
def Initial (s : State NodeConfig) : Prop :=
  s.phase = .constructed ∧ (∀ id, s.calls id = none) ∧ s.manager.overlayPath = ""

/-- No call is in progress. -/
def Idle (s : State NodeConfig) : Prop := ∀ id, s.calls id = none

end UavBluetooth.Config.Overlay
