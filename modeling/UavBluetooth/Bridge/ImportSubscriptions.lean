import UavBluetooth.Gatt.BridgeNames
import UavBluetooth.Lib.Run
import UavBluetooth.Util.ResolveUuid

set_option autoImplicit false

/-! # Subscriptions of import bridges

A GATT import bridge is subscribed to the characteristic at its path. The paths are set under the
state lock, the calls of `StartNotify` and `StopNotify` that follow are made without it, and the end
of each call is an event on which the node refreshes the bridges of the peer once more, before the
next call is made.

`subscriptions_settle` is about the bridges of one peer, over any interleaving of refreshes and
clears: if a path changes only while no call for an earlier change is outstanding, the node holds
the subscriptions of its bridges and no others whenever nothing is outstanding. The code does not
wait in this way. `import_deafened` has a run of one thread that leaves a bridge without its
subscription, `subscription_leaked` a run of two threads that leaves a subscription without a bridge.
-/

namespace UavBluetooth.Bridge

open Run Config Gatt Util

/-! ## Registry -/

/-- What the subscriptions depend on of a `TopicImportBridgeState`. -/
structure ImportBridge where
  bridgeUuid : String
  path : String := ""
  deriving DecidableEq, Repr

/-- The entries of the registry that belong to the peer. -/
abbrev Imports := List (String × ImportBridge)

/-- The paths that change, and the calls that they ask for. -/
structure PathChange where
  imports : Imports
  stops : List String
  starts : List String

namespace Imports

/-- `insert_or_assign` of a state that keeps the path of the entry that is there. -/
def assign (key uuid : String) : Imports → Imports
  | [] => [(key, { bridgeUuid := uuid })]
  | (k, b) :: rest =>
      if key = k then (k, { b with bridgeUuid := uuid }) :: rest
      else if key < k then (key, { bridgeUuid := uuid }) :: (k, b) :: rest
      else (k, b) :: assign key uuid rest

/-- The locked part of `refresh_import_paths_for_mac`. -/
def refreshPaths (findCharacteristic : String → String) (imports : Imports) : PathChange where
  imports := imports.map fun (key, b) =>
    (key, if b.bridgeUuid = "" then b else { b with path := findCharacteristic b.bridgeUuid })
  stops := imports.filterMap fun (_, b) =>
    if b.bridgeUuid ≠ "" ∧ findCharacteristic b.bridgeUuid ≠ b.path ∧ b.path ≠ "" then some b.path
    else none
  starts := imports.filterMap fun (_, b) =>
    if b.bridgeUuid ≠ "" ∧ findCharacteristic b.bridgeUuid ≠ b.path ∧
        findCharacteristic b.bridgeUuid ≠ "" then some (findCharacteristic b.bridgeUuid)
    else none

/-- Whether `prune_missing_import_bridges` removes an entry. `expired` are the keys whose path has
been missing for longer than the grace. -/
def Prunes (desiredKeys expired : List String) (entry : String × ImportBridge) : Prop :=
  entry.1 ∉ desiredKeys ∨ (entry.2.path = "" ∧ entry.1 ∈ expired)

instance (desiredKeys expired : List String) (entry : String × ImportBridge) :
    Decidable (Prunes desiredKeys expired entry) :=
  inferInstanceAs (Decidable (_ ∨ _))

/-- The locked part of `prune_missing_import_bridges`. -/
def prune (desiredKeys expired : List String) (imports : Imports) : PathChange where
  imports := imports.filter fun entry => ¬Prunes desiredKeys expired entry
  stops := imports.filterMap fun entry =>
    if Prunes desiredKeys expired entry ∧ entry.2.path ≠ "" then some entry.2.path else none
  starts := []

/-- The locked part of `clear_import_paths_for_mac`. -/
def clear (imports : Imports) : PathChange where
  imports := imports.map fun (key, b) => (key, { b with path := "" })
  stops := imports.filterMap fun (_, b) => if b.path ≠ "" then some b.path else none
  starts := []

/-- The path of some bridge. -/
def Bridged (imports : Imports) (path : String) : Prop :=
  path ≠ "" ∧ ∃ entry ∈ imports, entry.2.path = path

end Imports

/-- `named_characteristic_uuid` -/
def namedCharacteristicUuid (name : String) : String := uuidFromName (trimUuid name)

/-! ## Calls in progress -/

/-- What is left to do of a call. -/
inductive ImportOp where
  /-- `refresh_import_bridges_for_device` -/
  | refreshBridges
  | refreshPaths
  | prune (desiredKeys : List String)
  | clearPaths
  /-- The end of `clear_peer_runtime`. -/
  | clearDone
  | stop (path : String)
  /-- `stop_notify` has found its path to be active. -/
  | stopNotify (path : String)
  | untrack (path : String)
  | start (path : String)
  /-- BlueZ has accepted a `StartNotify`. -/
  | track (path : String)
  /-- `on_gatt_event` after the call. -/
  | notified
  deriving DecidableEq, Repr

/-- What a step learns from outside. -/
structure ImportAnswer where
  /-- The peer is wanted, not the node itself, and its GATT tree can be used. -/
  functional : Bool := true
  peerName : String := ""
  sharedTopics : List SharedTopicConfig := []
  /-- `find_characteristic`, empty for what is not in the cache. -/
  findCharacteristic : String → String := fun _ => ""
  /-- There is a session for the peer. -/
  session : Bool := true
  expired : List String := []
  /-- `start_notify` takes the reply for a success. -/
  accepted : Bool := true
  /-- The node is subscribed after `StartNotify`. -/
  subscribes : Bool := true
  /-- `StopNotify` ends the subscription. -/
  ends : Bool := true
  /-- The cache has the device of the characteristic. -/
  known : Bool := true

/-- The bridges of one peer, their subscriptions, and the calls in progress for them. -/
structure ImportSubscriptions where
  imports : Imports := []
  /-- `notify_paths_` of the client. -/
  notifyPaths : List String := []
  /-- The characteristics that BlueZ has the node subscribed to. -/
  subscribed : List String := []
  jobs : List (List ImportOp) := []
  /-- The peer is in `peer_runtime_clear_in_progress_`. -/
  clearing : Bool := false
  /-- A record for the reader of a run: the paths for which BlueZ refused the last `StartNotify`, or
  has ended the subscription since. -/
  dropped : List String := []
  deriving DecidableEq, Repr

namespace ImportSubscriptions

/-- The topics with an import bridge. -/
def importTopics (sharedTopics : List SharedTopicConfig) : List SharedTopicConfig :=
  sharedTopics.filter fun topic =>
    topic.transport = .gatt ∧ (topic.mode = .import ∨ topic.mode = .both)

def registryKey (mac : String) (topic : SharedTopicConfig) : String :=
  "config-import::" ++ topic.bridgeKey ++ "::" ++ mac

section

variable (s : ImportSubscriptions)

/-- The registration in `refresh_import_bridges_for_device`. -/
def register (mac : String) (answer : ImportAnswer) : ImportSubscriptions :=
  { s with
    imports := (importTopics answer.sharedTopics).foldl
      (fun imports topic => imports.assign (registryKey mac topic)
        (namedCharacteristicUuid (importedName answer.peerName topic))) s.imports }

/-- The notification calls of a change, after the lock is released. -/
def change (c : PathChange) : ImportSubscriptions × List ImportOp :=
  ({ s with imports := c.imports }, c.stops.map .stop ++ c.starts.map .start)

/-- One operation: the state after it, and what it puts before the rest of its call. -/
def runOp (mac : String) (answer : ImportAnswer) : ImportOp → ImportSubscriptions × List ImportOp
  | .refreshBridges =>
      if answer.functional then
        let desiredKeys := (importTopics answer.sharedTopics).map (registryKey mac)
        (s.register mac answer,
          [.refreshPaths, .prune desiredKeys] ++ if desiredKeys = [] then [.clearPaths] else [])
      else (s, [.prune [], .clearPaths])
  | .refreshPaths => s.change (s.imports.refreshPaths answer.findCharacteristic)
  | .prune desiredKeys =>
      if answer.session then s.change (s.imports.prune desiredKeys answer.expired) else (s, [])
  | .clearPaths => s.change s.imports.clear
  | .clearDone => ({ s with clearing := false }, [])
  | .stop path => (s, if path ∈ s.notifyPaths then [.stopNotify path] else [])
  | .stopNotify path =>
      (if answer.ends then { s with subscribed := s.subscribed.filter (· ≠ path) } else s,
        [.untrack path])
  | .untrack path => ({ s with notifyPaths := s.notifyPaths.filter (· ≠ path) }, [.notified])
  | .start path =>
      let subscribed := if answer.subscribes then s.subscribed.insert path else s.subscribed
      if answer.accepted then
        ({ s with subscribed := subscribed, dropped := s.dropped.filter (· ≠ path) }, [.track path])
      else ({ s with subscribed := subscribed, dropped := path :: s.dropped }, [.notified])
  | .track path => ({ s with notifyPaths := s.notifyPaths.insert path }, [.notified])
  | .notified => (s, if answer.known then [.refreshBridges] else [])

end

inductive Action where
  /-- A refresh of the peer's bridges begins, on some thread. -/
  | refresh
  /-- `clear_peer_runtime` -/
  | clear
  | run (job : Nat) (answer : ImportAnswer)
  /-- BlueZ ends subscriptions by itself. -/
  | ended (paths : List String)
  /-- The client handles the signals of characteristics that do not notify any more. -/
  | noticed (paths : List String)
  /-- `apply_config` erases the bridges. -/
  | reconfigure

/-- One step of the node that concerns the peer `mac`. -/
def step (mac : String) (s : ImportSubscriptions) : Action → Option ImportSubscriptions
  | .refresh => some { s with jobs := s.jobs ++ [[.refreshBridges]] }
  | .clear =>
      if s.clearing then none
      else some { s with clearing := true, jobs := s.jobs ++ [[.clearPaths, .clearDone]] }
  | .run job answer =>
      match s.jobs[job]? with
      | some (op :: rest) =>
          some { (s.runOp mac answer op).1 with
            jobs := s.jobs.set job ((s.runOp mac answer op).2 ++ rest) }
      | _ => none
  | .ended paths =>
      some { s with
        subscribed := s.subscribed.filter (· ∉ paths)
        dropped := paths ++ s.dropped }
  | .noticed paths => some { s with notifyPaths := s.notifyPaths.filter (· ∉ paths) }
  | .reconfigure => some { s with imports := [] }

def Initial (s : ImportSubscriptions) : Prop :=
  s.imports = [] ∧ s.notifyPaths = [] ∧ s.subscribed = [] ∧ s.jobs = []

/-! ## The guard -/

end ImportSubscriptions

/-- The operations of `start_notify` and `stop_notify`. -/
def ImportOp.notifies : ImportOp → Bool
  | .stop _ | .stopNotify _ | .untrack _ | .start _ | .track _ => true
  | _ => false

instance (imports : Imports) (path : String) : Decidable (imports.Bridged path) :=
  inferInstanceAs (Decidable (_ ∧ _))

namespace ImportSubscriptions

/-- No call of an earlier change is outstanding. -/
def Quiet (s : ImportSubscriptions) : Prop := ∀ ops ∈ s.jobs, ∀ op ∈ ops, op.notifies = false

instance (s : ImportSubscriptions) : Decidable s.Quiet :=
  inferInstanceAs (Decidable (∀ ops ∈ s.jobs, ∀ op ∈ ops, _))

/-- A change does nothing, or waits for the earlier ones; it gives up no path that a bridge still
has. -/
def Unhurried (s : ImportSubscriptions) (c : PathChange) : Prop :=
  (c.stops = [] ∧ c.starts = []) ∨ (s.Quiet ∧ ∀ path ∈ c.stops, ¬c.imports.Bridged path)

instance (s : ImportSubscriptions) (c : PathChange) : Decidable (s.Unhurried c) :=
  inferInstanceAs (Decidable (_ ∨ _))

def SteadyOp (s : ImportSubscriptions) (answer : ImportAnswer) : ImportOp → Prop
  | .refreshPaths => s.Unhurried (s.imports.refreshPaths answer.findCharacteristic)
  | .prune desiredKeys =>
      answer.session = true → s.Unhurried (s.imports.prune desiredKeys answer.expired)
  | .clearPaths => s.Unhurried s.imports.clear
  | .stopNotify _ => answer.ends = true
  | .start _ => answer.subscribes = answer.accepted
  | _ => True

instance (s : ImportSubscriptions) (answer : ImportAnswer) (op : ImportOp) :
    Decidable (s.SteadyOp answer op) := by
  cases op <;> dsimp only [SteadyOp] <;> infer_instance

/-- Changes are unhurried, the replies of BlueZ tell what it has done, its signals are handled
before the next subscription, and `apply_config` finds the bridges cleared. -/
def Steady (s : ImportSubscriptions) : Action → Prop
  | .run job answer =>
      match s.jobs[job]? with
      | some (op :: _) => s.SteadyOp answer op
      | _ => True
  | .noticed paths => ∀ path ∈ paths, path ∉ s.subscribed
  | .reconfigure => ∀ entry ∈ s.imports, entry.2.path = ""
  | _ => True

instance (s : ImportSubscriptions) (a : Action) : Decidable (s.Steady a) := by
  cases a <;> dsimp only [Steady] <;> try infer_instance
  split <;> infer_instance

end ImportSubscriptions

/-! ## Changes of paths -/

/-- Every path that is given up is stopped, every new one is started. -/
structure PathChange.Sound (c : PathChange) (imports : Imports) : Prop where
  kept : ∀ path, imports.Bridged path → c.imports.Bridged path ∨ path ∈ c.stops
  added : ∀ path, c.imports.Bridged path → imports.Bridged path ∨ path ∈ c.starts
  started : ∀ path ∈ c.starts, c.imports.Bridged path

namespace Imports

variable {imports : Imports}

theorem bridged_assign (key uuid path : String) :
    (imports.assign key uuid).Bridged path ↔ imports.Bridged path := by
  induction imports with
  | nil =>
      simp only [assign, Bridged, List.mem_singleton, exists_eq_left, List.not_mem_nil, false_and,
        exists_false, and_false, iff_false]
      rintro ⟨hne, rfl⟩
      exact hne rfl
  | cons entry rest ih =>
      obtain ⟨k, b⟩ := entry
      unfold assign
      split
      · simp [Bridged]
      · split
        · simp only [Bridged, List.mem_cons, exists_eq_or_imp]
          constructor
          · rintro ⟨hne, rfl | hrest⟩
            · exact absurd rfl hne
            · exact ⟨hne, hrest⟩
          · rintro ⟨hne, hrest⟩
            exact ⟨hne, .inr hrest⟩
        · simp only [Bridged, List.mem_cons, exists_eq_or_imp] at ih ⊢
          constructor
          · rintro ⟨hne, hpath | hrest⟩
            · exact ⟨hne, .inl hpath⟩
            · exact ⟨hne, .inr (ih.mp ⟨hne, hrest⟩).2⟩
          · rintro ⟨hne, hpath | hrest⟩
            · exact ⟨hne, .inl hpath⟩
            · exact ⟨hne, .inr (ih.mpr ⟨hne, hrest⟩).2⟩

theorem sound_refreshPaths (findCharacteristic : String → String) :
    (imports.refreshPaths findCharacteristic).Sound imports := by
  constructor
  · rintro path ⟨hne, ⟨key, b⟩, hmem, rfl⟩
    -- A path is given up exactly if the look-up finds another one.
    by_cases hchanged : b.bridgeUuid ≠ "" ∧ findCharacteristic b.bridgeUuid ≠ b.path
    · right
      refine List.mem_filterMap.mpr ⟨(key, b), hmem, ?_⟩
      exact if_pos ⟨hchanged.1, hchanged.2, hne⟩
    · left
      refine ⟨hne, _, List.mem_map.mpr ⟨(key, b), hmem, rfl⟩, ?_⟩
      dsimp only
      split
      · rfl
      · rename_i huuid
        exact not_not.mp fun hno => hchanged ⟨huuid, hno⟩
  · rintro path ⟨hne, entry, hmem, rfl⟩
    obtain ⟨⟨key, b⟩, hold, rfl⟩ := List.mem_map.mp hmem
    dsimp only at hne ⊢
    by_cases huuid : b.bridgeUuid = ""
    · rw [if_pos huuid] at hne ⊢
      exact .inl ⟨hne, (key, b), hold, rfl⟩
    · rw [if_neg huuid] at hne ⊢
      by_cases hsame : findCharacteristic b.bridgeUuid = b.path
      · exact .inl ⟨hne, (key, b), hold, hsame.symm⟩
      · right
        refine List.mem_filterMap.mpr ⟨(key, b), hold, ?_⟩
        exact if_pos ⟨huuid, hsame, hne⟩
  · intro path hpath
    obtain ⟨⟨key, b⟩, hold, hsome⟩ := List.mem_filterMap.mp hpath
    obtain ⟨⟨huuid, -, hne⟩, hsame⟩ := Option.ite_none_right_eq_some.mp hsome
    obtain rfl := Option.some.inj hsame
    refine ⟨hne, _, List.mem_map.mpr ⟨(key, b), hold, rfl⟩, ?_⟩
    dsimp only
    rw [if_neg huuid]

theorem sound_prune (desiredKeys expired : List String) :
    (imports.prune desiredKeys expired).Sound imports := by
  constructor
  · rintro path ⟨hne, entry, hmem, rfl⟩
    by_cases hprunes : Prunes desiredKeys expired entry
    · exact .inr (List.mem_filterMap.mpr ⟨entry, hmem, if_pos ⟨hprunes, hne⟩⟩)
    · exact .inl ⟨hne, entry, List.mem_filter.mpr ⟨hmem, decide_eq_true hprunes⟩, rfl⟩
  · rintro path ⟨hne, entry, hmem, rfl⟩
    exact .inl ⟨hne, entry, List.mem_of_mem_filter hmem, rfl⟩
  · intro path hpath
    cases hpath

theorem sound_clear : imports.clear.Sound imports := by
  constructor
  · rintro path ⟨hne, ⟨key, b⟩, hmem, rfl⟩
    exact .inr (List.mem_filterMap.mpr ⟨(key, b), hmem, if_pos hne⟩)
  · rintro path ⟨hne, entry, hmem, rfl⟩
    obtain ⟨⟨key, b⟩, -, rfl⟩ := List.mem_map.mp hmem
    exact absurd rfl hne
  · intro path hpath
    cases hpath

end Imports

/-! ## The invariant -/

namespace ImportSubscriptions

/-- The operation is in a call in progress. -/
def Pending (s : ImportSubscriptions) (op : ImportOp) : Prop := ∃ ops ∈ s.jobs, op ∈ ops

/-- A call of `stop_notify` for the path is outstanding. -/
def Stopping (s : ImportSubscriptions) (path : String) : Prop :=
  s.Pending (.stop path) ∨ s.Pending (.stopNotify path) ∨ s.Pending (.untrack path)

def Starting (s : ImportSubscriptions) (path : String) : Prop :=
  s.Pending (.start path) ∨ s.Pending (.track path)

/-- Every subscription is tracked and has an owner: a bridge, or a call that is about to end it. -/
structure Accounted (s : ImportSubscriptions) : Prop where
  stopping : ∀ path, s.Stopping path → ¬s.imports.Bridged path
  starting : ∀ path, s.Starting path → s.imports.Bridged path
  untracking : ∀ path, s.Pending (.untrack path) → path ∉ s.subscribed
  subscribed : ∀ path ∈ s.subscribed, path ∈ s.notifyPaths ∨ s.Pending (.track path)
  tracked : ∀ path ∈ s.notifyPaths, s.imports.Bridged path ∨ s.Stopping path
  served : ∀ path, s.imports.Bridged path →
    path ∈ s.subscribed ∨ path ∈ s.dropped ∨ s.Pending (.start path)

/-- A step replaces the first operation `op` of a call by the operations `new`. -/
structure Advances (s s' : ImportSubscriptions) (op : ImportOp) (new : List ImportOp) : Prop where
  back : ∀ op', s'.Pending op' → op' ∈ new ∨ s.Pending op'
  forth : ∀ op', s.Pending op' → op' = op ∨ s'.Pending op'
  gains : ∀ op' ∈ new, s'.Pending op'
  head : s.Pending op

section

variable {s s' : ImportSubscriptions} {op : ImportOp} {new : List ImportOp} {path : String}

theorem advances_set {job : Nat} {rest : List ImportOp} (hjob : s.jobs[job]? = some (op :: rest))
    (hjobs : s'.jobs = s.jobs.set job (new ++ rest)) : s.Advances s' op new := by
  have hmem : op :: rest ∈ s.jobs := List.mem_of_getElem? hjob
  have hlt : job < s.jobs.length := (List.getElem?_eq_some_iff.mp hjob).1
  have hset : new ++ rest ∈ s'.jobs := by
    rw [hjobs]
    exact List.mem_set hlt (new ++ rest)
  constructor
  · rintro op' ⟨ops, hops, hop'⟩
    rw [hjobs] at hops
    obtain hold | rfl := List.mem_or_eq_of_mem_set hops
    · exact .inr ⟨ops, hold, hop'⟩
    · obtain hnew | hrest := List.mem_append.mp hop'
      · exact .inl hnew
      · exact .inr ⟨_, hmem, List.mem_cons_of_mem op hrest⟩
  · rintro op' ⟨ops, hops, hop'⟩
    obtain ⟨i, hi⟩ := List.mem_iff_getElem?.mp hops
    -- The operation is the first of its own job; the other jobs keep theirs.
    by_cases hij : job = i
    · subst hij
      obtain rfl := Option.some.inj (hi.symm.trans hjob)
      obtain rfl | hrest := List.mem_cons.mp hop'
      · exact .inl rfl
      · exact .inr ⟨_, hset, List.mem_append_right new hrest⟩
    · refine .inr ⟨ops, ?_, hop'⟩
      rw [hjobs]
      refine List.mem_of_getElem? (i := i) ?_
      rw [List.getElem?_set_ne hij]
      exact hi
  · exact fun op' hnew => ⟨_, hset, List.mem_append_left rest hnew⟩
  · exact ⟨_, hmem, List.mem_cons_self⟩

/-- The step starts no notification call, and ends none. -/
theorem Advances.other (h : s.Advances s' op new) (hop : op.notifies = false)
    (hnew : ∀ op' ∈ new, op'.notifies = false) {op' : ImportOp} (hop' : op'.notifies = true) :
    s'.Pending op' ↔ s.Pending op' := by
  constructor
  · intro hpending
    obtain hmem | hold := h.back op' hpending
    · rw [hnew op' hmem] at hop'
      cases hop'
    · exact hold
  · intro hpending
    obtain rfl | hkept := h.forth op' hpending
    · rw [hop] at hop'
      cases hop'
    · exact hkept

/-- What the invariant reads is the same. -/
theorem Accounted.same (h : s.Accounted)
    (hbridged : ∀ path, s'.imports.Bridged path ↔ s.imports.Bridged path)
    (hnotify : s'.notifyPaths = s.notifyPaths) (hsubscribed : s'.subscribed = s.subscribed)
    (hdropped : s'.dropped = s.dropped)
    (hpending : ∀ op : ImportOp, op.notifies = true → (s'.Pending op ↔ s.Pending op)) :
    s'.Accounted := by
  have hstopping : ∀ path, s'.Stopping path ↔ s.Stopping path := fun path =>
    or_congr (hpending _ rfl) (or_congr (hpending _ rfl) (hpending _ rfl))
  have hstarting : ∀ path, s'.Starting path ↔ s.Starting path := fun path =>
    or_congr (hpending _ rfl) (hpending _ rfl)
  constructor
  · intro path hpath
    rw [hbridged]
    exact h.stopping path ((hstopping path).mp hpath)
  · intro path hpath
    rw [hbridged]
    exact h.starting path ((hstarting path).mp hpath)
  · intro path hpath
    rw [hsubscribed]
    exact h.untracking path ((hpending _ rfl).mp hpath)
  · intro path hpath
    rw [hnotify, hpending _ rfl]
    rw [hsubscribed] at hpath
    exact h.subscribed path hpath
  · intro path hpath
    rw [hbridged, hstopping]
    rw [hnotify] at hpath
    exact h.tracked path hpath
  · intro path hpath
    rw [hsubscribed, hdropped, hpending _ rfl]
    exact h.served path ((hbridged path).mp hpath)

/-- An unhurried change, with the calls that it asks for. -/
theorem Accounted.change (h : s.Accounted) {c : PathChange} (hsound : c.Sound s.imports)
    (hunhurried : s.Unhurried c) (hop : op.notifies = false)
    (hadvances : s.Advances s' op (c.stops.map .stop ++ c.starts.map .start))
    (himports : s'.imports = c.imports) (hnotify : s'.notifyPaths = s.notifyPaths)
    (hsubscribed : s'.subscribed = s.subscribed) (hdropped : s'.dropped = s.dropped) :
    s'.Accounted := by
  obtain ⟨hstops, hstarts⟩ | ⟨hquiet, hgiven⟩ := hunhurried
  · refine h.same (fun path => ?_) hnotify hsubscribed hdropped fun op' hop' =>
      hadvances.other hop (fun op' hnew => ?_) hop'
    · rw [himports]
      constructor
      · intro hnew
        refine (hsound.added path hnew).resolve_right ?_
        rw [hstarts]
        exact List.not_mem_nil
      · intro hold
        refine (hsound.kept path hold).resolve_right ?_
        rw [hstops]
        exact List.not_mem_nil
    · rw [hstops, hstarts] at hnew
      cases hnew
  · have hnone : ∀ op' : ImportOp, op'.notifies = true → ¬s.Pending op' := by
      rintro op' hop' ⟨ops, hops, hmem⟩
      rw [hquiet ops hops op' hmem] at hop'
      cases hop'
    -- What is outstanding now are the calls of this change.
    have hnew : ∀ op' : ImportOp, op'.notifies = true → s'.Pending op' →
        (∃ path ∈ c.stops, .stop path = op') ∨ ∃ path ∈ c.starts, .start path = op' := by
      intro op' hop' hpending
      have hmem := (hadvances.back op' hpending).resolve_right (hnone op' hop')
      obtain hstop | hstart := List.mem_append.mp hmem
      · exact .inl (List.mem_map.mp hstop)
      · exact .inr (List.mem_map.mp hstart)
    constructor
    · rintro path (hpending | hpending | hpending)
      · obtain ⟨path', hmem, hsame⟩ | ⟨_, -, hno⟩ := hnew _ rfl hpending
        · obtain rfl := ImportOp.stop.inj hsame
          rw [himports]
          exact hgiven path' hmem
        · cases hno
      · obtain ⟨_, -, hno⟩ | ⟨_, -, hno⟩ := hnew _ rfl hpending <;> cases hno
      · obtain ⟨_, -, hno⟩ | ⟨_, -, hno⟩ := hnew _ rfl hpending <;> cases hno
    · rintro path (hpending | hpending)
      · obtain ⟨_, -, hno⟩ | ⟨path', hmem, hsame⟩ := hnew _ rfl hpending
        · cases hno
        · obtain rfl := ImportOp.start.inj hsame
          rw [himports]
          exact hsound.started path' hmem
      · obtain ⟨_, -, hno⟩ | ⟨_, -, hno⟩ := hnew _ rfl hpending <;> cases hno
    · intro path hpending
      obtain ⟨_, -, hno⟩ | ⟨_, -, hno⟩ := hnew _ rfl hpending <;> cases hno
    · intro path hpath
      rw [hsubscribed] at hpath
      rw [hnotify]
      exact .inl ((h.subscribed path hpath).resolve_right (hnone _ rfl))
    · intro path hpath
      rw [hnotify] at hpath
      have hbridged : s.imports.Bridged path := by
        refine (h.tracked path hpath).resolve_right ?_
        rintro (hno | hno | hno)
        · exact hnone _ rfl hno
        · exact hnone _ rfl hno
        · exact hnone _ rfl hno
      rw [himports]
      obtain hkept | hstop := hsound.kept path hbridged
      · exact .inl hkept
      · refine .inr (.inl (hadvances.gains _ ?_))
        exact List.mem_append_left _ (List.mem_map_of_mem hstop)
    · intro path hpath
      rw [himports] at hpath
      rw [hsubscribed, hdropped]
      obtain hold | hstart := hsound.added path hpath
      · obtain hserved | hserved | hno := h.served path hold
        · exact .inl hserved
        · exact .inr (.inl hserved)
        · exact absurd hno (hnone _ rfl)
      · refine .inr (.inr (hadvances.gains _ ?_))
        exact List.mem_append_right _ (List.mem_map_of_mem hstart)

theorem Accounted.stop (h : s.Accounted)
    (hadvances : s.Advances s' (.stop path) (if path ∈ s.notifyPaths then [.stopNotify path] else []))
    (himports : s'.imports = s.imports) (hnotify : s'.notifyPaths = s.notifyPaths)
    (hsubscribed : s'.subscribed = s.subscribed) (hdropped : s'.dropped = s.dropped) :
    s'.Accounted := by
  have hback : ∀ op', s'.Pending op' → op' ≠ .stopNotify path → s.Pending op' := by
    intro op' hpending hne
    refine (hadvances.back op' hpending).resolve_left fun hmem => ?_
    split at hmem
    · exact hne (List.mem_singleton.mp hmem)
    · cases hmem
  have hforth : ∀ op', s.Pending op' → op' ≠ .stop path → s'.Pending op' := fun op' hpending hne =>
    (hadvances.forth op' hpending).resolve_left hne
  have hstopping : ∀ path', s'.Stopping path' → s.Stopping path' := by
    rintro path' (hpending | hpending | hpending)
    · exact .inl (hback _ hpending ImportOp.noConfusion)
    · by_cases hsame : path' = path
      · subst hsame
        exact .inl hadvances.head
      · exact .inr (.inl (hback _ hpending fun hno => hsame (ImportOp.stopNotify.inj hno)))
    · exact .inr (.inr (hback _ hpending ImportOp.noConfusion))
  constructor
  · intro path' hpending
    rw [himports]
    exact h.stopping path' (hstopping path' hpending)
  · rintro path' (hpending | hpending)
    · rw [himports]
      exact h.starting path' (.inl (hback _ hpending ImportOp.noConfusion))
    · rw [himports]
      exact h.starting path' (.inr (hback _ hpending ImportOp.noConfusion))
  · intro path' hpending
    rw [hsubscribed]
    exact h.untracking path' (hback _ hpending ImportOp.noConfusion)
  · intro path' hmem
    rw [hsubscribed] at hmem
    rw [hnotify]
    obtain htracked | hpending := h.subscribed path' hmem
    · exact .inl htracked
    · exact .inr (hforth _ hpending ImportOp.noConfusion)
  · intro path' hmem
    rw [hnotify] at hmem
    rw [himports]
    obtain hbridged | hpending | hpending | hpending := h.tracked path' hmem
    · exact .inl hbridged
    · by_cases hsame : path' = path
      · -- The path is active, so the call goes on.
        subst hsame
        refine .inr (.inr (.inl (hadvances.gains _ ?_)))
        rw [if_pos hmem]
        exact List.mem_singleton_self _
      · exact .inr (.inl (hforth _ hpending fun hno => hsame (ImportOp.stop.inj hno)))
    · exact .inr (.inr (.inl (hforth _ hpending ImportOp.noConfusion)))
    · exact .inr (.inr (.inr (hforth _ hpending ImportOp.noConfusion)))
  · intro path' hbridged
    rw [himports] at hbridged
    rw [hsubscribed, hdropped]
    obtain hserved | hserved | hpending := h.served path' hbridged
    · exact .inl hserved
    · exact .inr (.inl hserved)
    · exact .inr (.inr (hforth _ hpending ImportOp.noConfusion))

theorem Accounted.stopNotify (h : s.Accounted)
    (hadvances : s.Advances s' (.stopNotify path) [.untrack path])
    (himports : s'.imports = s.imports) (hnotify : s'.notifyPaths = s.notifyPaths)
    (hsubscribed : s'.subscribed = s.subscribed.filter (· ≠ path)) (hdropped : s'.dropped = s.dropped) :
    s'.Accounted := by
  -- No bridge is at the path while its notifications are being stopped.
  have hunbridged : ¬s.imports.Bridged path := h.stopping path (.inr (.inl hadvances.head))
  have hback : ∀ op', s'.Pending op' → op' ≠ .untrack path → s.Pending op' := fun op' hpending hne =>
    (hadvances.back op' hpending).resolve_left fun hmem => hne (List.mem_singleton.mp hmem)
  have hforth : ∀ op', s.Pending op' → op' ≠ .stopNotify path → s'.Pending op' :=
    fun op' hpending hne => (hadvances.forth op' hpending).resolve_left hne
  have hsub : ∀ path', path' ∈ s'.subscribed ↔ path' ∈ s.subscribed ∧ path' ≠ path := by
    intro path'
    rw [hsubscribed, List.mem_filter, decide_eq_true_iff]
  constructor
  · rintro path' (hpending | hpending | hpending)
    · rw [himports]
      exact h.stopping path' (.inl (hback _ hpending ImportOp.noConfusion))
    · rw [himports]
      exact h.stopping path' (.inr (.inl (hback _ hpending ImportOp.noConfusion)))
    · rw [himports]
      by_cases hsame : path' = path
      · subst hsame
        exact hunbridged
      · exact h.stopping path'
          (.inr (.inr (hback _ hpending fun hno => hsame (ImportOp.untrack.inj hno))))
  · rintro path' (hpending | hpending)
    · rw [himports]
      exact h.starting path' (.inl (hback _ hpending ImportOp.noConfusion))
    · rw [himports]
      exact h.starting path' (.inr (hback _ hpending ImportOp.noConfusion))
  · intro path' hpending hmem
    obtain ⟨hold, hne⟩ := (hsub path').mp hmem
    exact h.untracking path' (hback _ hpending fun hno => hne (ImportOp.untrack.inj hno)) hold
  · intro path' hmem
    rw [hnotify]
    obtain htracked | hpending := h.subscribed path' ((hsub path').mp hmem).1
    · exact .inl htracked
    · exact .inr (hforth _ hpending ImportOp.noConfusion)
  · intro path' hmem
    rw [hnotify] at hmem
    rw [himports]
    obtain hbridged | hpending | hpending | hpending := h.tracked path' hmem
    · exact .inl hbridged
    · exact .inr (.inl (hforth _ hpending ImportOp.noConfusion))
    · by_cases hsame : path' = path
      · subst hsame
        exact .inr (.inr (.inr (hadvances.gains _ (List.mem_singleton_self _))))
      · exact .inr (.inr (.inl (hforth _ hpending fun hno => hsame (ImportOp.stopNotify.inj hno))))
    · exact .inr (.inr (.inr (hforth _ hpending ImportOp.noConfusion)))
  · intro path' hbridged
    rw [himports] at hbridged
    rw [hdropped, hsub]
    obtain hserved | hserved | hpending := h.served path' hbridged
    · refine .inl ⟨hserved, ?_⟩
      rintro rfl
      exact hunbridged hbridged
    · exact .inr (.inl hserved)
    · exact .inr (.inr (hforth _ hpending ImportOp.noConfusion))

theorem Accounted.untrack (h : s.Accounted)
    (hadvances : s.Advances s' (.untrack path) [.notified])
    (himports : s'.imports = s.imports) (hnotify : s'.notifyPaths = s.notifyPaths.filter (· ≠ path))
    (hsubscribed : s'.subscribed = s.subscribed) (hdropped : s'.dropped = s.dropped) :
    s'.Accounted := by
  have hback : ∀ op', s'.Pending op' → op' ≠ .notified → s.Pending op' := fun op' hpending hne =>
    (hadvances.back op' hpending).resolve_left fun hmem => hne (List.mem_singleton.mp hmem)
  have hforth : ∀ op', s.Pending op' → op' ≠ .untrack path → s'.Pending op' :=
    fun op' hpending hne => (hadvances.forth op' hpending).resolve_left hne
  -- The subscription is gone before the path is forgotten.
  have htrack : ∀ path', path' ∈ s'.notifyPaths ↔ path' ∈ s.notifyPaths ∧ path' ≠ path := by
    intro path'
    rw [hnotify, List.mem_filter, decide_eq_true_iff]
  constructor
  · rintro path' (hpending | hpending | hpending)
    · rw [himports]
      exact h.stopping path' (.inl (hback _ hpending ImportOp.noConfusion))
    · rw [himports]
      exact h.stopping path' (.inr (.inl (hback _ hpending ImportOp.noConfusion)))
    · rw [himports]
      exact h.stopping path' (.inr (.inr (hback _ hpending ImportOp.noConfusion)))
  · rintro path' (hpending | hpending)
    · rw [himports]
      exact h.starting path' (.inl (hback _ hpending ImportOp.noConfusion))
    · rw [himports]
      exact h.starting path' (.inr (hback _ hpending ImportOp.noConfusion))
  · intro path' hpending
    rw [hsubscribed]
    exact h.untracking path' (hback _ hpending ImportOp.noConfusion)
  · intro path' hmem
    rw [hsubscribed] at hmem
    rw [htrack]
    obtain htracked | hpending := h.subscribed path' hmem
    · refine .inl ⟨htracked, ?_⟩
      rintro rfl
      exact h.untracking path' hadvances.head hmem
    · exact .inr (hforth _ hpending ImportOp.noConfusion)
  · intro path' hmem
    obtain ⟨hold, hne⟩ := (htrack path').mp hmem
    rw [himports]
    obtain hbridged | hpending | hpending | hpending := h.tracked path' hold
    · exact .inl hbridged
    · exact .inr (.inl (hforth _ hpending ImportOp.noConfusion))
    · exact .inr (.inr (.inl (hforth _ hpending ImportOp.noConfusion)))
    · exact .inr (.inr (.inr (hforth _ hpending fun hno => hne (ImportOp.untrack.inj hno))))
  · intro path' hbridged
    rw [himports] at hbridged
    rw [hsubscribed, hdropped]
    obtain hserved | hserved | hpending := h.served path' hbridged
    · exact .inl hserved
    · exact .inr (.inl hserved)
    · exact .inr (.inr (hforth _ hpending ImportOp.noConfusion))

/-- The calls that stop a path are the same as before. -/
theorem stopping_iff (hback : ∀ op', s'.Pending op' → (∃ path, op' = .track path) ∨ op' = .notified ∨
      s.Pending op')
    (hforth : ∀ op', s.Pending op' → (∃ path, op' = .start path ∨ op' = .track path) ∨ s'.Pending op') :
    s'.Stopping path ↔ s.Stopping path := by
  have hsame : ∀ op' : ImportOp, (∀ path, op' ≠ .track path) → (∀ path, op' ≠ .start path) →
      op' ≠ .notified → (s'.Pending op' ↔ s.Pending op') := by
    intro op' htrack hstart hnotified
    constructor
    · intro hpending
      obtain ⟨path', hno⟩ | hno | hold := hback op' hpending
      · exact absurd hno (htrack path')
      · exact absurd hno hnotified
      · exact hold
    · intro hpending
      obtain ⟨path', hno | hno⟩ | hnew := hforth op' hpending
      · exact absurd hno (hstart path')
      · exact absurd hno (htrack path')
      · exact hnew
  refine or_congr (hsame _ ?_ ?_ ?_) (or_congr (hsame _ ?_ ?_ ?_) (hsame _ ?_ ?_ ?_)) <;>
    first | exact fun _ => ImportOp.noConfusion | exact ImportOp.noConfusion

theorem Accounted.startAccepted (h : s.Accounted)
    (hadvances : s.Advances s' (.start path) [.track path])
    (himports : s'.imports = s.imports) (hnotify : s'.notifyPaths = s.notifyPaths)
    (hsubscribed : s'.subscribed = s.subscribed.insert path)
    (hdropped : s'.dropped = s.dropped.filter (· ≠ path)) : s'.Accounted := by
  have hbridged : s.imports.Bridged path := h.starting path (.inl hadvances.head)
  have hback : ∀ op', s'.Pending op' → op' = .track path ∨ s.Pending op' := fun op' hpending =>
    (hadvances.back op' hpending).imp List.mem_singleton.mp id
  have hforth : ∀ op', s.Pending op' → op' = .start path ∨ s'.Pending op' := hadvances.forth
  have hstopping : ∀ path', s'.Stopping path' ↔ s.Stopping path' := fun path' =>
    stopping_iff (fun op' hpending => (hback op' hpending).imp (fun hop => ⟨path, hop⟩) .inr)
      fun op' hpending => (hforth op' hpending).imp_left fun hop => ⟨path, .inl hop⟩
  constructor
  · intro path' hpending
    rw [himports]
    exact h.stopping path' ((hstopping path').mp hpending)
  · rintro path' (hpending | hpending)
    · rw [himports]
      exact h.starting path' (.inl ((hback _ hpending).resolve_left ImportOp.noConfusion))
    · rw [himports]
      obtain hsame | hold := hback _ hpending
      · obtain rfl := ImportOp.track.inj hsame
        exact hbridged
      · exact h.starting path' (.inr hold)
  · intro path' hpending hmem
    have hold : s.Pending (.untrack path') := (hback _ hpending).resolve_left ImportOp.noConfusion
    rw [hsubscribed] at hmem
    obtain rfl | hmem := List.mem_insert_iff.mp hmem
    · exact h.stopping path' (.inr (.inr hold)) hbridged
    · exact h.untracking path' hold hmem
  · intro path' hmem
    rw [hsubscribed] at hmem
    rw [hnotify]
    obtain rfl | hmem := List.mem_insert_iff.mp hmem
    · exact .inr (hadvances.gains _ (List.mem_singleton_self _))
    · obtain htracked | hpending := h.subscribed path' hmem
      · exact .inl htracked
      · exact .inr ((hforth _ hpending).resolve_left ImportOp.noConfusion)
  · intro path' hmem
    rw [hnotify] at hmem
    rw [himports, hstopping]
    exact h.tracked path' hmem
  · intro path' hpath
    rw [himports] at hpath
    rw [hsubscribed, hdropped]
    by_cases hsame : path' = path
    · exact .inl (List.mem_insert_iff.mpr (.inl hsame))
    · obtain hserved | hserved | hpending := h.served path' hpath
      · exact .inl (List.mem_insert_iff.mpr (.inr hserved))
      · exact .inr (.inl (List.mem_filter.mpr ⟨hserved, decide_eq_true hsame⟩))
      · exact .inr (.inr ((hforth _ hpending).resolve_left fun hno =>
          hsame (ImportOp.start.inj hno)))

theorem Accounted.startRefused (h : s.Accounted)
    (hadvances : s.Advances s' (.start path) [.notified])
    (himports : s'.imports = s.imports) (hnotify : s'.notifyPaths = s.notifyPaths)
    (hsubscribed : s'.subscribed = s.subscribed) (hdropped : s'.dropped = path :: s.dropped) :
    s'.Accounted := by
  have hback : ∀ op', s'.Pending op' → op' = .notified ∨ s.Pending op' := fun op' hpending =>
    (hadvances.back op' hpending).imp List.mem_singleton.mp id
  have hforth : ∀ op', s.Pending op' → op' = .start path ∨ s'.Pending op' := hadvances.forth
  have hstopping : ∀ path', s'.Stopping path' ↔ s.Stopping path' := fun path' =>
    stopping_iff (fun op' hpending => .inr (hback op' hpending))
      fun op' hpending => (hforth op' hpending).imp_left fun hop => ⟨path, .inl hop⟩
  constructor
  · intro path' hpending
    rw [himports]
    exact h.stopping path' ((hstopping path').mp hpending)
  · rintro path' (hpending | hpending)
    · rw [himports]
      exact h.starting path' (.inl ((hback _ hpending).resolve_left ImportOp.noConfusion))
    · rw [himports]
      exact h.starting path' (.inr ((hback _ hpending).resolve_left ImportOp.noConfusion))
  · intro path' hpending
    rw [hsubscribed]
    exact h.untracking path' ((hback _ hpending).resolve_left ImportOp.noConfusion)
  · intro path' hmem
    rw [hsubscribed] at hmem
    rw [hnotify]
    obtain htracked | hpending := h.subscribed path' hmem
    · exact .inl htracked
    · exact .inr ((hforth _ hpending).resolve_left ImportOp.noConfusion)
  · intro path' hmem
    rw [hnotify] at hmem
    rw [himports, hstopping]
    exact h.tracked path' hmem
  · intro path' hpath
    rw [himports] at hpath
    rw [hsubscribed, hdropped]
    by_cases hsame : path' = path
    · exact .inr (.inl (hsame ▸ List.mem_cons_self))
    · obtain hserved | hserved | hpending := h.served path' hpath
      · exact .inl hserved
      · exact .inr (.inl (List.mem_cons_of_mem path hserved))
      · exact .inr (.inr ((hforth _ hpending).resolve_left fun hno =>
          hsame (ImportOp.start.inj hno)))

theorem Accounted.track (h : s.Accounted) (hadvances : s.Advances s' (.track path) [.notified])
    (himports : s'.imports = s.imports) (hnotify : s'.notifyPaths = s.notifyPaths.insert path)
    (hsubscribed : s'.subscribed = s.subscribed) (hdropped : s'.dropped = s.dropped) :
    s'.Accounted := by
  have hback : ∀ op', s'.Pending op' → op' = .notified ∨ s.Pending op' := fun op' hpending =>
    (hadvances.back op' hpending).imp List.mem_singleton.mp id
  have hforth : ∀ op', s.Pending op' → op' = .track path ∨ s'.Pending op' := hadvances.forth
  have hstopping : ∀ path', s'.Stopping path' ↔ s.Stopping path' := fun path' =>
    stopping_iff (fun op' hpending => .inr (hback op' hpending))
      fun op' hpending => (hforth op' hpending).imp_left fun hop => ⟨path, .inr hop⟩
  constructor
  · intro path' hpending
    rw [himports]
    exact h.stopping path' ((hstopping path').mp hpending)
  · rintro path' (hpending | hpending)
    · rw [himports]
      exact h.starting path' (.inl ((hback _ hpending).resolve_left ImportOp.noConfusion))
    · rw [himports]
      exact h.starting path' (.inr ((hback _ hpending).resolve_left ImportOp.noConfusion))
  · intro path' hpending
    rw [hsubscribed]
    exact h.untracking path' ((hback _ hpending).resolve_left ImportOp.noConfusion)
  · intro path' hmem
    rw [hsubscribed] at hmem
    rw [hnotify, List.mem_insert_iff]
    obtain htracked | hpending := h.subscribed path' hmem
    · exact .inl (.inr htracked)
    · obtain hsame | hkept := hforth _ hpending
      · exact .inl (.inl (ImportOp.track.inj hsame))
      · exact .inr hkept
  · intro path' hmem
    rw [hnotify] at hmem
    rw [himports, hstopping]
    obtain rfl | hmem := List.mem_insert_iff.mp hmem
    · exact .inl (h.starting path' (.inr hadvances.head))
    · exact h.tracked path' hmem
  · intro path' hpath
    rw [himports] at hpath
    rw [hsubscribed, hdropped]
    obtain hserved | hserved | hpending := h.served path' hpath
    · exact .inl hserved
    · exact .inr (.inl hserved)
    · exact .inr (.inr ((hforth _ hpending).resolve_left ImportOp.noConfusion))

theorem bridged_register (mac : String) (answer : ImportAnswer) (path : String) :
    (s.register mac answer).imports.Bridged path ↔ s.imports.Bridged path := by
  unfold register
  dsimp only
  induction importTopics answer.sharedTopics generalizing s with
  | nil => exact Iff.rfl
  | cons topic rest ih =>
      rw [List.foldl_cons]
      let assigned : ImportSubscriptions :=
        { s with
          imports := s.imports.assign (registryKey mac topic)
            (namedCharacteristicUuid (importedName answer.peerName topic)) }
      exact (ih (s := assigned)).trans (Imports.bridged_assign _ _ _)

/-- A call begins that makes no notification call yet. -/
theorem Accounted.begin (h : s.Accounted) (ops : List ImportOp)
    (hops : ∀ op ∈ ops, op.notifies = false) (himports : s'.imports = s.imports)
    (hnotify : s'.notifyPaths = s.notifyPaths) (hsubscribed : s'.subscribed = s.subscribed)
    (hdropped : s'.dropped = s.dropped) (hjobs : s'.jobs = s.jobs ++ [ops]) : s'.Accounted := by
  refine h.same (fun path => by rw [himports]) hnotify hsubscribed hdropped fun op hop => ?_
  constructor
  · rintro ⟨others, hmem, hin⟩
    rw [hjobs] at hmem
    obtain hold | hnew := List.mem_append.mp hmem
    · exact ⟨others, hold, hin⟩
    · obtain rfl := List.mem_singleton.mp hnew
      rw [hops op hin] at hop
      cases hop
  · rintro ⟨others, hmem, hin⟩
    refine ⟨others, ?_, hin⟩
    rw [hjobs]
    exact List.mem_append_left _ hmem

/-- One operation of a call. -/
theorem Accounted.runOp (h : s.Accounted) {mac : String} {answer : ImportAnswer}
    (hsteady : s.SteadyOp answer op) {jobs : List (List ImportOp)}
    (hadvances : s.Advances { (s.runOp mac answer op).1 with jobs := jobs } op
      (s.runOp mac answer op).2) :
    Accounted { (s.runOp mac answer op).1 with jobs := jobs } := by
  cases op with
  | refreshBridges =>
      by_cases hfunctional : answer.functional = true
      · simp only [ImportSubscriptions.runOp, hfunctional, if_true] at hadvances ⊢
        refine h.same (bridged_register mac answer) rfl rfl rfl fun op' hop' =>
          hadvances.other rfl (fun op' hnew => ?_) hop'
        obtain hnew | hnew := List.mem_append.mp hnew
        · simp only [List.mem_cons, List.not_mem_nil, or_false] at hnew
          obtain rfl | rfl := hnew <;> rfl
        · split at hnew
          · obtain rfl := List.mem_singleton.mp hnew
            rfl
          · cases hnew
      · simp only [ImportSubscriptions.runOp, if_neg hfunctional] at hadvances ⊢
        refine h.same (fun _ => Iff.rfl) rfl rfl rfl fun op' hop' =>
          hadvances.other rfl (fun op' hnew => ?_) hop'
        simp only [List.mem_cons, List.not_mem_nil, or_false] at hnew
        obtain rfl | rfl := hnew <;> rfl
  | refreshPaths =>
      exact h.change (Imports.sound_refreshPaths _) hsteady rfl hadvances rfl rfl rfl rfl
  | prune desiredKeys =>
      by_cases hsession : answer.session = true
      · simp only [ImportSubscriptions.runOp, hsession, if_true] at hadvances ⊢
        exact h.change (Imports.sound_prune _ _) (hsteady hsession) rfl hadvances rfl rfl rfl rfl
      · simp only [ImportSubscriptions.runOp, if_neg hsession] at hadvances ⊢
        refine h.same (fun _ => Iff.rfl) rfl rfl rfl fun op' hop' =>
          hadvances.other rfl (fun op' hnew => ?_) hop'
        cases hnew
  | clearPaths => exact h.change Imports.sound_clear hsteady rfl hadvances rfl rfl rfl rfl
  | clearDone =>
      refine h.same (fun _ => Iff.rfl) rfl rfl rfl fun op' hop' =>
        hadvances.other rfl (fun op' hnew => ?_) hop'
      cases hnew
  | stop path => exact h.stop hadvances rfl rfl rfl rfl
  | stopNotify path =>
      have hends : answer.ends = true := hsteady
      simp only [ImportSubscriptions.runOp, hends, if_true] at hadvances ⊢
      exact h.stopNotify hadvances rfl rfl rfl rfl
  | untrack path => exact h.untrack hadvances rfl rfl rfl rfl
  | start path =>
      have hsame : answer.subscribes = answer.accepted := hsteady
      by_cases haccepted : answer.accepted = true
      · simp only [ImportSubscriptions.runOp, hsame, haccepted, if_true] at hadvances ⊢
        exact h.startAccepted hadvances rfl rfl rfl rfl
      · simp only [ImportSubscriptions.runOp, hsame, if_neg haccepted] at hadvances ⊢
        exact h.startRefused hadvances rfl rfl rfl rfl
  | track path => exact h.track hadvances rfl rfl rfl rfl
  | notified =>
      refine h.same (fun _ => Iff.rfl) rfl rfl rfl fun op' hop' =>
        hadvances.other rfl (fun op' hnew => ?_) hop'
      simp only [ImportSubscriptions.runOp] at hnew
      split at hnew
      · obtain rfl := List.mem_singleton.mp hnew
        rfl
      · cases hnew

/-- **Accounts are kept.** A steady step keeps every subscription accounted for. -/
theorem Accounted.step (h : s.Accounted) {mac : String} {a : Action} (hsteady : s.Steady a)
    (hs : s.step mac a = some s') : s'.Accounted := by
  cases a with
  | refresh =>
      obtain rfl := Option.some.inj hs
      refine h.begin [.refreshBridges] (fun op hop => ?_) rfl rfl rfl rfl rfl
      obtain rfl := List.mem_singleton.mp hop
      rfl
  | clear =>
      simp only [ImportSubscriptions.step] at hs
      split at hs
      · cases hs
      · obtain rfl := Option.some.inj hs
        refine h.begin [.clearPaths, .clearDone] (fun op hop => ?_) rfl rfl rfl rfl rfl
        simp only [List.mem_cons, List.not_mem_nil, or_false] at hop
        obtain rfl | rfl := hop <;> rfl
  | run job answer =>
      simp only [ImportSubscriptions.step] at hs
      split at hs
      · rename_i op rest hjob
        simp only [Steady, hjob] at hsteady
        obtain rfl := Option.some.inj hs
        exact h.runOp hsteady (advances_set hjob rfl)
      · cases hs
  | ended paths =>
      obtain rfl := Option.some.inj hs
      refine ⟨h.stopping, h.starting, fun path hpending hmem => ?_, fun path hmem => ?_, h.tracked,
        fun path hpath => ?_⟩
      · exact h.untracking path hpending (List.mem_of_mem_filter hmem)
      · exact h.subscribed path (List.mem_of_mem_filter hmem)
      · by_cases hended : path ∈ paths
        · exact .inr (.inl (List.mem_append_left _ hended))
        · obtain hserved | hserved | hpending := h.served path hpath
          · exact .inl (List.mem_filter.mpr ⟨hserved, decide_eq_true hended⟩)
          · exact .inr (.inl (List.mem_append_right _ hserved))
          · exact .inr (.inr hpending)
  | noticed paths =>
      obtain rfl := Option.some.inj hs
      refine ⟨h.stopping, h.starting, h.untracking, fun path hmem => ?_, fun path hmem => ?_,
        h.served⟩
      · obtain htracked | hpending := h.subscribed path hmem
        · refine .inl (List.mem_filter.mpr ⟨htracked, decide_eq_true fun hno => ?_⟩)
          exact hsteady path hno hmem
        · exact .inr hpending
      · exact h.tracked path (List.mem_of_mem_filter hmem)
  | reconfigure =>
      obtain rfl := Option.some.inj hs
      refine h.same (fun path => ?_) rfl rfl rfl fun _ _ => Iff.rfl
      constructor
      · rintro ⟨-, entry, hno, -⟩
        cases hno
      · rintro ⟨hne, entry, hmem, rfl⟩
        exact absurd (hsteady entry hmem) hne

theorem accounted_initial (h : s.Initial) : s.Accounted := by
  obtain ⟨himports, hnotify, hsubscribed, hjobs⟩ := h
  have hnone : ∀ op, ¬s.Pending op := by
    rintro op ⟨ops, hops, -⟩
    rw [hjobs] at hops
    cases hops
  have hunbridged : ∀ path, ¬s.imports.Bridged path := by
    rintro path ⟨-, entry, hmem, -⟩
    rw [himports] at hmem
    cases hmem
  constructor
  · exact fun path _ => hunbridged path
  · rintro path (hno | hno)
    · exact absurd hno (hnone _)
    · exact absurd hno (hnone _)
  · exact fun path hno => absurd hno (hnone _)
  · intro path hmem
    rw [hsubscribed] at hmem
    cases hmem
  · intro path hmem
    rw [hnotify] at hmem
    cases hmem
  · exact fun path hpath => absurd hpath (hunbridged path)

/-- **Subscriptions settle.** When no notification call is outstanding, every subscription is
tracked, every tracked path belongs to a bridge, and every bridge with a path is subscribed, unless
BlueZ has refused it or has ended the subscription. -/
theorem subscriptions_settle {mac : String}
    (h : ReachableUnder (ImportSubscriptions.step mac) Steady Initial s) (hquiet : s.Quiet) :
    (∀ path ∈ s.subscribed, path ∈ s.notifyPaths) ∧
      (∀ path ∈ s.notifyPaths, s.imports.Bridged path) ∧
      ∀ path, s.imports.Bridged path → path ∈ s.subscribed ∨ path ∈ s.dropped := by
  have hs : s.Accounted := h.invariant (fun _ => accounted_initial)
    fun _ _ _ hs hsteady hstep => hs.step hsteady hstep
  have hnone : ∀ op : ImportOp, op.notifies = true → ¬s.Pending op := by
    rintro op hop ⟨ops, hops, hmem⟩
    rw [hquiet ops hops op hmem] at hop
    cases hop
  refine ⟨fun path hmem => ?_, fun path hmem => ?_, fun path hpath => ?_⟩
  · exact (hs.subscribed path hmem).resolve_right (hnone _ rfl)
  · refine (hs.tracked path hmem).resolve_right ?_
    rintro (hno | hno | hno)
    · exact hnone _ rfl hno
    · exact hnone _ rfl hno
    · exact hnone _ rfl hno
  · obtain hserved | hserved | hno := hs.served path hpath
    · exact .inl hserved
    · exact .inr hserved
    · exact absurd hno (hnone _ rfl)

end

/-! ## Three runs -/

def position : SharedTopicConfig where
  bridgeKey := "position"
  bridgeTopicPath := "/position"

def battery : SharedTopicConfig where
  bridgeKey := "battery"
  bridgeTopicPath := "/battery"

/-- The peer exports two topics, and its GATT tree is in the cache. -/
def resolved : ImportAnswer where
  peerName := "uav2"
  sharedTopics := [position, battery]
  findCharacteristic uuid := "/org/bluez/hci0/dev_2/" ++ uuid

/-- The peer connects. -/
def connectedRun : List Action := .refresh :: List.replicate 15 (.run 0 resolved)

theorem subscriptions_settle_connectedRun :
    ∃ s, Run.exec (step "uav2") {} connectedRun = some s ∧ s.subscribed.length = 2 ∧
      ∀ path ∈ s.subscribed, s.imports.Bridged path := by
  have hrun : ((Run.exec (step "uav2") {} connectedRun).map fun s =>
      (s.subscribed.length, decide s.Quiet)) = some (2, true) := by decide +kernel
  obtain ⟨s, hs, hval⟩ := Option.map_eq_some_iff.mp hrun
  obtain ⟨hlength, hquiet⟩ := Prod.mk.inj hval
  have hguarded : Run.Guarded (step "uav2") Steady {} connectedRun :=
    Run.guarded_of_decide (by decide +kernel)
  obtain ⟨htracked, hbridged, -⟩ := subscriptions_settle
    (.exec (.start ⟨rfl, rfl, rfl, rfl⟩) hguarded hs) (of_decide_eq_true hquiet)
  exact ⟨s, hs, hlength, fun path hmem => hbridged path (htracked path hmem)⟩

/-- One thread clears the bridges of a peer that is still connected. The first call of
`stop_notify` ends with a refresh that starts both subscriptions again; the second call, from
before, then stops one of them, and the bridge keeps its path. -/
theorem import_deafened :
    ∃ s path, Run.exec (step "uav2") {}
        (connectedRun ++ Action.clear :: List.replicate 28 (Action.run 1 resolved)) = some s ∧
      s.jobs = [[], []] ∧ s.imports.Bridged path ∧ path ∉ s.subscribed ∧ path ∉ s.dropped := by
  have hrun : ((Run.exec (step "uav2") {}
      (connectedRun ++ Action.clear :: List.replicate 28 (Action.run 1 resolved))).map fun s =>
        (s.jobs, s.dropped, s.imports.any fun entry =>
          decide (s.imports.Bridged entry.2.path) && decide (entry.2.path ∉ s.subscribed))) =
      some ([[], []], [], true) := by decide +kernel
  obtain ⟨s, hs, hval⟩ := Option.map_eq_some_iff.mp hrun
  simp only [Prod.mk.injEq] at hval
  obtain ⟨hjobs, hdropped, hany⟩ := hval
  obtain ⟨entry, -, hentry⟩ := List.any_eq_true.mp hany
  obtain ⟨hbridged, hdeaf⟩ := Bool.and_eq_true_iff.mp hentry
  refine ⟨s, entry.2.path, hs, hjobs, of_decide_eq_true hbridged, of_decide_eq_true hdeaf, ?_⟩
  rw [hdropped]
  exact List.not_mem_nil

/-- The peer is not wanted any more. -/
def unwanted : ImportAnswer where
  functional := false

/-- Another thread clears the bridges before the calls of a refresh are made. -/
theorem subscription_leaked :
    ((Run.exec (step "uav2") {}
      ([Action.refresh, .run 0 resolved, .run 0 resolved, .clear] ++
        List.replicate 4 (Action.run 1 unwanted) ++
        List.replicate 13 (Action.run 0 unwanted))).map fun s =>
      (s.jobs, s.imports, s.subscribed.length)) = some ([[], []], [], 2) := by
  decide +kernel

end ImportSubscriptions

end UavBluetooth.Bridge
