import UavBluetooth.Lib.Run
import UavBluetooth.Mesh.Bootstrap

set_option autoImplicit false

/-! # Getting into a network

An automatically provisioned node asks `bluetooth-meshd` to join a network or to create one, and
gets its answers later: the reply to the request on the bus, and a `JoinComplete` or `JoinFailed`
once the daemon has finished. The worker of `maintain_mesh` sees nothing of this but the text in
`status_.state`, and makes no new request while it says that one is on its way.

`entry_goes_on` says that this text is not stale: as long as the daemon does not go away in the
middle of what it has accepted (`Dependable`), a pass that may act and finds nothing outstanding
makes a new attempt, and once the node has an identity it is kept, also across restarts.
`join_forgotten` is about a daemon that goes away with a join it has accepted: the node then waits
for good.
-/

namespace UavBluetooth.Mesh

open Run Config

/-! ## State -/

inductive RequestKind where
  | join
  | imports
  deriving DecidableEq, Repr

namespace NetworkEntry

/-- How far the worker is in `maintain_mesh`. -/
inductive Pass where
  | idle
  /-- `refresh_status` has found the daemon and reads the properties of the node. -/
  | querying
  | refreshed
  /-- `maintain` has its copy of the status. -/
  | deciding (status : BootstrapStatus) (now : Time)
  | calling (call : BootstrapCall)
  /-- The state is set, and the request is about to be sent. -/
  | sending (kind : RequestKind)
  deriving DecidableEq, Repr

/-- The pass goes on with the first of the calls. -/
def Pass.next : List BootstrapCall → Pass
  | [] => .idle
  | call :: _ => .calling call

/-- What the daemon says of the node. -/
inductive NodeAnswer where
  | properties
  | unknownObject
  | otherError
  deriving DecidableEq, Repr

end NetworkEntry

open NetworkEntry in
/-- The application, the coordinator, the worker and the daemon. -/
structure NetworkEntry where
  status : BootstrapStatus
  nodePath : Bool := false
  /-- `join_call_slot_` and `create_call_slot_`, while their replies are to come. -/
  joinCall : Option Nat := none
  createCall : Option Nat := none
  /-- `JoinComplete` has set the token and is about to set the state. -/
  completing : Bool := false
  bootstrap : Bootstrap
  pass : Pass := .idle
  /-- The content of the file at `mesh_token_path`. -/
  tokenFile : Option UInt64 := none
  daemonUp : Bool := false
  /-- The requests that the daemon has received and not answered. -/
  received : List (Nat × RequestKind) := []
  /-- The requests that it has accepted and not finished. -/
  owed : List RequestKind := []
  nextCall : Nat := 0
  /-- A record for the reader of a run: the token of the node that the daemon has made. -/
  identity : UInt64 := 0
  deriving DecidableEq, Repr

namespace NetworkEntry

/-- The state of a node that is not attached and has no request on its way. -/
def restState (token : UInt64) : String := if token = 0 then "exported" else "provisioned"

section

variable (s : NetworkEntry)

def setState (state : String) : NetworkEntry := { s with status := { s.status with state := state } }

/-- `status_.state = status_.token == 0 ? "exported" : "provisioned"` -/
def rest : NetworkEntry := s.setState (restState s.status.token)

/-- The daemon works for the node, or a reply or a callback is to come. -/
def outstanding : Bool :=
  s.joinCall.isSome || s.createCall.isSome || !s.owed.isEmpty || s.completing ||
    match s.pass with
    | .sending _ => true
    | _ => false

/-- `refresh_status` up to the properties of the node. -/
def refreshStatus (available : Bool) : NetworkEntry :=
  if available = false then
    { s with
      status := { s.status with
        attached := false
        daemonAvailable := false
        state := if s.status.state ≠ "joining" ∧ s.status.state ≠ "creating" then
          "daemon_unavailable" else s.status.state }
      nodePath := false
      pass := .refreshed }
  else
    let found := { s with status := { s.status with daemonAvailable := true } }
    let found := if s.status.state = "daemon_unavailable" then found.rest else found
    { found with pass := if s.nodePath then .querying else .refreshed }

/-- The rest of `refresh_status`. -/
def refreshNode : NodeAnswer → NetworkEntry
  | .properties =>
      { s with status := { s.status with attached := true, state := "attached" }, pass := .refreshed }
  | .unknownObject =>
      { s.rest with
        status := { s.rest.status with attached := false }
        nodePath := false
        pass := .refreshed }
  | .otherError => { s with pass := .refreshed }

/-- The call of a pass; a request is still to be sent. -/
def perform (throws : Bool) : BootstrapCall → Option NetworkEntry
  | .attach token =>
      if throws then some { s with pass := .idle }
      else if s.daemonUp then
        some { s with
          status := { s.status with attached := true, token := token, state := "attached" }
          nodePath := true
          tokenFile := some token
          pass := .idle }
      else none
  | .join => some { s.setState "joining" with pass := .sending .join }
  | .importAutoIdentity _ =>
      if throws then some { s with pass := .idle }
      else some { s.setState "importing" with pass := .sending .imports }
  | .cancelJoin => none

/-- `Cancel` has ended the daemon's `Join`; `cancel_join` drops the slot. -/
def cancelJoin : NetworkEntry :=
  { s.rest with
    joinCall := none
    received := s.received.filter (·.2 ≠ .join)
    owed := s.owed.filter (· ≠ .join) }

/-- The call is at the daemon, or lost if there is none. -/
def sendRequest (kind : RequestKind) : NetworkEntry :=
  { s with
    joinCall := if kind = .join then some s.nextCall else s.joinCall
    createCall := if kind = .imports then some s.nextCall else s.createCall
    received := if s.daemonUp then (s.nextCall, kind) :: s.received else s.received
    nextCall := s.nextCall + 1
    pass := .idle }

/-- The daemon has accepted a request and replies. -/
def accept (id : Nat) (kind : RequestKind) : NetworkEntry :=
  { s with
    received := s.received.erase (id, kind)
    owed := kind :: s.owed
    joinCall := if s.joinCall = some id then none else s.joinCall
    createCall := if s.createCall = some id then none else s.createCall }

/-- The handlers of an error reply; the one of `Import` does not look at the state. -/
def replyError (id : Nat) : NetworkEntry :=
  if s.joinCall = some id then
    { (if s.status.state = "joining" then s.rest else s) with joinCall := none }
  else if s.createCall = some id then { s.rest with createCall := none }
  else s

/-- A new process, or a new application after a change of its settings. -/
def restarted (now : Time) : NetworkEntry where
  status := {
    attached := false
    daemonAvailable := false
    token := s.tokenFile.getD 0
    state := restState (s.tokenFile.getD 0) }
  bootstrap := { bootstrapStartedAt := now }
  tokenFile := s.tokenFile
  daemonUp := s.daemonUp
  nextCall := s.nextCall
  identity := s.identity

end

/-! ## Steps -/

inductive Action where
  /-- The worker begins a pass. -/
  | refresh (available : Bool)
  | query (answer : NodeAnswer)
  | maintain (now : Time)
  | decide (cancelThrows : Bool)
  /-- An exception before the state is set: of the keys, or of `Attach`. -/
  | call (throws : Bool)
  | send (throws : Bool)
  /-- The daemon accepts a request. -/
  | accept (id : Nat) (kind : RequestKind)
  /-- A request is refused, lost, or not answered in time; in this case the daemon still has it. -/
  | refuse (id : Nat) (dropped : Bool)
  | joinComplete (kind : RequestKind) (token : UInt64) (written : Bool)
  | completed
  | joinFailed
  | daemonStarts
  | daemonLost
  | restart (now : Time)
  deriving DecidableEq, Repr

/-- One step of a node with the coordinator `c`. -/
def step (c : MeshSwarmCoordinator) (grace : ℚ) (s : NetworkEntry) : Action → Option NetworkEntry
  | .refresh available =>
      if s.pass = .idle ∧ (available = true → s.daemonUp = true) then
        some (s.refreshStatus available)
      else none
  | .query answer => if s.pass = .querying then some (s.refreshNode answer) else none
  | .maintain now =>
      if s.pass = .refreshed then some { s with pass := .deciding s.status now } else none
  | .decide cancelThrows =>
      match s.pass with
      | .deciding status now =>
          let decided := c.maintainBootstrap grace s.bootstrap status now
            fun call => call == .cancelJoin && cancelThrows
          let s' := { s with bootstrap := decided.1 }
          match decided.2 with
          | [] => some { s' with pass := .idle }
          | .cancelJoin :: calls =>
              if cancelThrows then some { s' with pass := .idle }
              else if s.owed.contains .join ∨ s.received.any (·.2 = .join) then
                some { s'.cancelJoin with pass := .next calls }
              else none
          | call :: _ => some { s' with pass := .calling call }
      | _ => none
  | .call throws =>
      match s.pass with
      | .calling call => s.perform throws call
      | _ => none
  | .send throws =>
      match s.pass with
      | .sending kind =>
          if throws = false then some (s.sendRequest kind)
          -- `import_node` has no handler for this, unlike `join`.
          else if kind = .join then some { s.rest with pass := .idle }
          else some { s with pass := .idle }
      | _ => none
  | .accept id kind =>
      if s.daemonUp ∧ (id, kind) ∈ s.received then some (s.accept id kind) else none
  | .refuse id dropped =>
      let s' := s.replyError id
      some (if dropped then { s' with received := s.received.filter (·.1 ≠ id) } else s')
  | .joinComplete kind token written =>
      if kind ∈ s.owed ∧ s.completing = false ∧ token ≠ 0 then
        some { s with
          owed := s.owed.erase kind
          status := { s.status with token := token }
          tokenFile := if written then some token else s.tokenFile
          identity := token
          completing := true }
      else none
  | .completed =>
      if s.completing then some { s.setState "provisioned" with completing := false } else none
  | .joinFailed =>
      if .join ∈ s.owed then
        some { s.setState "join_failed" with owed := s.owed.erase .join }
      else none
  | .daemonStarts => some { s with daemonUp := true }
  | .daemonLost => some { s with daemonUp := false, received := [], owed := [] }
  | .restart now => some (s.restarted now)

/-- A first process; the token file may be there from before. -/
def Initial (s : NetworkEntry) : Prop :=
  ∃ s₀ : NetworkEntry, ∃ now, s = s₀.restarted now ∧ s₀.identity = s₀.tokenFile.getD 0

/-- The daemon stays while it owes the node an answer that it has promised, it makes one node
for it, and neither the token file nor the bus fails. -/
def Dependable (s : NetworkEntry) : Action → Prop
  | .send throws => s.pass = .sending .imports → throws = false
  | .joinComplete _ _ written => s.identity = 0 ∧ written = true
  | .daemonLost => s.owed = []
  | _ => True

instance (s : NetworkEntry) (a : Action) : Decidable (Dependable s a) := by
  cases a <;> dsimp only [Dependable] <;> infer_instance

/-! ## What a pass decides -/

section

variable (c : MeshSwarmCoordinator) (grace : ℚ) (b : Bootstrap) (status : BootstrapStatus)
  (now : Time) (throws : BootstrapCall → Bool)

/-- The calls of a pass: none, one to attach, or what a node without an identity tries. -/
theorem bootstrap_calls :
    (c.maintainBootstrap grace b status now throws).2 = [] ∨
      (status.token ≠ 0 ∧
        (c.maintainBootstrap grace b status now throws).2 = [.attach status.token]) ∨
      (c.maintainBootstrap grace b status now throws).2 = [.join] ∨
      (c.maintainBootstrap grace b status now throws).2 =
        [.importAutoIdentity (UInt16.ofNat c.localNumber)] ∨
      ∃ calls, (c.maintainBootstrap grace b status now throws).2 = .cancelJoin :: calls ∧
        (calls = [] ∨ calls = [.importAutoIdentity (UInt16.ofNat c.localNumber)]) := by
  generalize hmade : (c.maintainBootstrap grace b status now throws).2 = made
  unfold MeshSwarmCoordinator.maintainBootstrap at hmade
  dsimp only at hmade
  split at hmade
  · exact .inl hmade.symm
  · split at hmade
    · exact .inl hmade.symm
    · split at hmade
      · rename_i htoken
        split at hmade
        · exact .inl hmade.symm
        · exact .inr (.inl ⟨htoken, hmade.symm⟩)
      · split at hmade
        · -- The delay has passed: a `Join` that is on its way is cancelled first.
          by_cases hjoining : status.state = "joining"
          · rw [if_pos hjoining] at hmade
            refine .inr (.inr (.inr (.inr ?_)))
            split at hmade
            · exact ⟨[], hmade.symm, .inl rfl⟩
            · split at hmade
              · exact ⟨[], hmade.symm, .inl rfl⟩
              · exact ⟨_, hmade.symm, .inr rfl⟩
          · rw [if_neg hjoining] at hmade
            split at hmade
            · exact .inl hmade.symm
            · split at hmade
              · exact .inl hmade.symm
              · exact .inr (.inr (.inr (.inl hmade.symm)))
        · split at hmade
          · exact .inr (.inr (.inl hmade.symm))
          · exact .inl hmade.symm

variable {c grace b status now throws}

/-- A pass that may act makes a new attempt, unless the state says that a request is on its
way. -/
theorem bootstrap_attempts (hattached : status.attached = false)
    (havailable : status.daemonAvailable = true) (hrecent : ¬b.Recent now)
    (hjoining : status.state ≠ "joining") (himporting : status.state ≠ "importing") :
    ∃ call, (c.maintainBootstrap grace b status now throws).2 = [call] ∧
      (status.token ≠ 0 → call = .attach status.token) ∧
      (status.token = 0 →
        call = .join ∨ call = .importAutoIdentity (UInt16.ofNat c.localNumber)) := by
  unfold MeshSwarmCoordinator.maintainBootstrap
  dsimp only
  rw [if_neg (by rw [hattached]; exact Bool.false_ne_true),
    if_neg (by rw [havailable]; exact Bool.false_ne_true.symm)]
  have hwait : ¬Bootstrap.Recent { b with
      applicationReady := false, localModelStage := 0, nextLocalModelAction := 0 } now := hrecent
  by_cases htoken : status.token = 0
  · rw [if_neg (not_not_intro htoken)]
    by_cases hdelay : c.createAfter grace ≤ Bootstrap.elapsed { b with
      applicationReady := false, localModelStage := 0, nextLocalModelAction := 0 } now
    · rw [if_pos ⟨hdelay, himporting⟩, if_neg hjoining, if_neg (by simp), if_neg hwait]
      exact ⟨_, rfl, fun h => absurd htoken h, fun _ => .inr rfl⟩
    · rw [if_neg fun h => hdelay h.1, if_pos ⟨hjoining, himporting, hwait⟩]
      exact ⟨_, rfl, fun h => absurd htoken h, fun _ => .inl rfl⟩
  · rw [if_pos htoken, if_neg hwait]
    exact ⟨_, rfl, fun _ => rfl, fun h => absurd h htoken⟩

end

/-! ## The invariants -/

/-- What `status_.state` says while such a request is on its way. -/
def stateOf : RequestKind → String
  | .join => "joining"
  | .imports => "importing"

def replyOf (s : NetworkEntry) : RequestKind → Option Nat
  | .join => s.joinCall
  | .imports => s.createCall

/-- A request of the kind is on its way. -/
def UnderWay (s : NetworkEntry) (kind : RequestKind) : Prop :=
  s.replyOf kind ≠ none ∨ kind ∈ s.owed ∨ s.completing = true ∨ s.pass = .sending kind

/-- The state does not speak of a request that nobody will answer. -/
def Live (s : NetworkEntry) : Prop := ∀ kind, s.status.state = stateOf kind → s.UnderWay kind

/-- The numbers of the requests tell them apart. -/
structure Numbered (s : NetworkEntry) : Prop where
  slots : ∀ kind id, s.replyOf kind = some id → id < s.nextCall
  received : ∀ id kind, (id, kind) ∈ s.received → id < s.nextCall
  kinds : ∀ kind id kind', s.replyOf kind = some id → (id, kind') ∈ s.received → kind' = kind

/-- The token in use is the one of the daemon's node, and so are the saved one and those that
the worker is about to attach with. -/
structure Identified (s : NetworkEntry) : Prop where
  token : s.status.token = s.identity
  saved : s.tokenFile.getD 0 = s.identity
  deciding : ∀ status now, s.pass = .deciding status now → status.token ≠ 0 →
    status.token = s.identity
  attaching : ∀ token, s.pass = .calling (.attach token) → token ≠ 0 ∧ token = s.identity

section

variable {s s' : NetworkEntry} {c : MeshSwarmCoordinator} {grace : ℚ}

theorem restState_ne (token : UInt64) (kind : RequestKind) : restState token ≠ stateOf kind := by
  unfold restState
  split <;> cases kind <;> decide

theorem live_of_ne (h : ∀ kind, s.status.state ≠ stateOf kind) : s.Live :=
  fun kind hstate => absurd hstate (h kind)

theorem live_of_state (state : String) (hstate : s.status.state = state)
    (h : ∀ kind, state ≠ stateOf kind) : s.Live :=
  live_of_ne fun kind => by rw [hstate]; exact h kind

theorem Live.mono (h : s.Live) (hstate : s'.status.state = s.status.state)
    (hway : ∀ kind, s.UnderWay kind → s'.UnderWay kind) : s'.Live :=
  fun kind hkind => hway kind (h kind (hstate.symm.trans hkind))

theorem underWay_of_pass {kind : RequestKind} (h : s.UnderWay kind) (hpass : s.pass ≠ .sending kind) :
    s.replyOf kind ≠ none ∨ kind ∈ s.owed ∨ s.completing = true := by
  rcases h with h | h | h | h
  · exact .inl h
  · exact .inr (.inl h)
  · exact .inr (.inr h)
  · exact absurd h hpass

/-- The worker goes on, and everything else stays. -/
theorem Live.move (h : s.Live) (hstate : s'.status.state = s.status.state)
    (hreply : ∀ kind, s'.replyOf kind = s.replyOf kind) (howed : s'.owed = s.owed)
    (hcompleting : s'.completing = s.completing) (hpass : ∀ kind, s.pass ≠ .sending kind) :
    s'.Live := by
  apply h.mono hstate
  intro kind hway
  obtain hslot | hdue | hdone := underWay_of_pass hway (hpass kind)
  · exact .inl (by rw [hreply kind]; exact hslot)
  · exact .inr (.inl (by rw [howed]; exact hdue))
  · exact .inr (.inr (.inl (by rw [hcompleting]; exact hdone)))

theorem Live.refreshStatus (h : s.Live) (hpass : s.pass = .idle) (available : Bool) :
    (s.refreshStatus available).Live := by
  have hidle : ∀ kind, s.pass ≠ .sending kind := fun kind => by rw [hpass]; exact Pass.noConfusion
  unfold NetworkEntry.refreshStatus
  cases available with
  | false =>
      rw [if_pos rfl]
      by_cases hwas : s.status.state ≠ "joining" ∧ s.status.state ≠ "creating"
      · refine live_of_ne fun kind => ?_
        dsimp only
        rw [if_pos hwas]
        cases kind <;> decide
      · refine h.move ?_ (fun kind => by cases kind <;> rfl) rfl rfl hidle
        exact if_neg hwas
  | true =>
      rw [if_neg Bool.false_ne_true.symm]
      dsimp only
      by_cases hwas : s.status.state = "daemon_unavailable"
      · rw [if_pos hwas]
        exact live_of_ne fun kind => restState_ne s.status.token kind
      · rw [if_neg hwas]
        exact h.move rfl (fun kind => by cases kind <;> rfl) rfl rfl hidle

theorem Live.refreshNode (h : s.Live) (hpass : s.pass = .querying) (answer : NodeAnswer) :
    (s.refreshNode answer).Live := by
  cases answer with
  | properties => exact live_of_state "attached" rfl fun kind => by cases kind <;> decide
  | unknownObject => exact live_of_ne fun kind => restState_ne s.status.token kind
  | otherError =>
      refine h.move rfl (fun kind => by cases kind <;> rfl) rfl rfl fun kind => ?_
      rw [hpass]
      exact Pass.noConfusion

theorem Live.decide (h : s.Live) {cancelThrows : Bool}
    (hs : s.step c grace (.decide cancelThrows) = some s') : s'.Live := by
  simp only [NetworkEntry.step] at hs
  split at hs
  · rename_i status now hpass
    have hdeciding : ∀ kind, s.pass ≠ .sending kind := fun kind => by
      rw [hpass]
      exact Pass.noConfusion
    split at hs
    · obtain rfl := Option.some.inj hs
      exact h.move rfl (fun kind => by cases kind <;> rfl) rfl rfl hdeciding
    · split at hs
      · obtain rfl := Option.some.inj hs
        exact h.move rfl (fun kind => by cases kind <;> rfl) rfl rfl hdeciding
      · split at hs
        · obtain rfl := Option.some.inj hs
          exact live_of_ne fun kind => restState_ne s.status.token kind
        · cases hs
    · obtain rfl := Option.some.inj hs
      exact h.move rfl (fun kind => by cases kind <;> rfl) rfl rfl hdeciding
  · cases hs

theorem Live.perform (h : s.Live) {throws : Bool} {call : BootstrapCall}
    (hpass : ∀ kind, s.pass ≠ .sending kind) (hs : s.perform throws call = some s') : s'.Live := by
  cases call with
  | attach token =>
      simp only [NetworkEntry.perform] at hs
      split at hs
      · obtain rfl := Option.some.inj hs
        exact h.move rfl (fun kind => by cases kind <;> rfl) rfl rfl hpass
      · split at hs
        · obtain rfl := Option.some.inj hs
          exact live_of_state "attached" rfl fun kind => by cases kind <;> decide
        · cases hs
  | join =>
      obtain rfl := Option.some.inj hs
      -- The state says what is about to be sent.
      intro kind hkind
      cases kind with
      | join => exact .inr (.inr (.inr rfl))
      | imports => exact absurd (show "joining" = "importing" from hkind) (by decide)
  | importAutoIdentity unicast =>
      simp only [NetworkEntry.perform] at hs
      split at hs
      · obtain rfl := Option.some.inj hs
        exact h.move rfl (fun kind => by cases kind <;> rfl) rfl rfl hpass
      · obtain rfl := Option.some.inj hs
        intro kind hkind
        cases kind with
        | join => exact absurd (show "importing" = "joining" from hkind) (by decide)
        | imports => exact .inr (.inr (.inr rfl))
  | cancelJoin => cases hs

theorem Live.call (h : s.Live) {throws : Bool}
    (hs : s.step c grace (.call throws) = some s') : s'.Live := by
  simp only [NetworkEntry.step] at hs
  split at hs
  · rename_i call hpass
    exact h.perform (fun kind => by rw [hpass]; exact Pass.noConfusion) hs
  · cases hs

theorem Live.send (h : s.Live) {throws : Bool} (hguard : s.Dependable (.send throws))
    (hs : s.step c grace (.send throws) = some s') : s'.Live := by
  simp only [NetworkEntry.step] at hs
  split at hs
  · rename_i sent hpass
    split at hs
    · obtain rfl := Option.some.inj hs
      refine h.mono rfl fun kind hway => ?_
      by_cases hkind : kind = sent
      · subst hkind
        refine .inl ?_
        cases kind <;> exact Option.some_ne_none _
      · have hother : s.pass ≠ .sending kind := by
          rw [hpass]
          exact fun hsame => hkind (Pass.sending.inj hsame).symm
        have hreply : (s.sendRequest sent).replyOf kind = s.replyOf kind := by
          cases kind <;> cases sent <;> first | rfl | exact absurd rfl hkind
        obtain hslot | hdue | hdone := underWay_of_pass hway hother
        · exact .inl (by rw [hreply]; exact hslot)
        · exact .inr (.inl hdue)
        · exact .inr (.inr (.inl hdone))
    · rename_i hthrows
      split at hs
      · obtain rfl := Option.some.inj hs
        exact live_of_ne fun kind => restState_ne s.status.token kind
      · rename_i hjoin
        -- Only `join` sets the state back when the bus fails; for `Import` the guard excludes it.
        have himports : sent = .imports := by
          cases sent with
          | join => exact absurd rfl hjoin
          | imports => rfl
        exact absurd (hguard (by rw [hpass, himports])) hthrows
  · cases hs

theorem Live.accept (h : s.Live) (hnumbered : s.Numbered) {id : Nat} {kind : RequestKind}
    (hmem : (id, kind) ∈ s.received) : (s.accept id kind).Live := by
  refine h.mono rfl fun other hway => ?_
  obtain hslot | hdue | hdone | hsending := hway
  · by_cases hid : s.replyOf other = some id
    · exact .inr (.inl (by
        rw [← hnumbered.kinds other id kind hid hmem]
        exact List.mem_cons_self))
    · refine .inl ?_
      cases other with
      | join =>
          show (if s.joinCall = some id then none else s.joinCall) ≠ none
          rw [if_neg (show ¬s.joinCall = some id from hid)]
          exact hslot
      | imports =>
          show (if s.createCall = some id then none else s.createCall) ≠ none
          rw [if_neg (show ¬s.createCall = some id from hid)]
          exact hslot
  · exact .inr (.inl (List.mem_cons_of_mem kind hdue))
  · exact .inr (.inr (.inl hdone))
  · exact .inr (.inr (.inr hsending))

theorem Live.replyError (h : s.Live) (id : Nat) : (s.replyError id).Live := by
  unfold NetworkEntry.replyError
  split
  · by_cases hjoining : s.status.state = "joining"
    · rw [if_pos hjoining]
      exact live_of_ne fun kind => restState_ne s.status.token kind
    · rw [if_neg hjoining]
      intro kind hkind
      cases kind with
      | join => exact absurd hkind hjoining
      | imports => exact h .imports hkind
  · split
    · exact live_of_ne fun kind => restState_ne s.status.token kind
    · exact h

/-- **Nothing stale.** A dependable step keeps the state live. -/
theorem Live.step (h : s.Live) (hnumbered : s.Numbered) {a : Action} (hguard : s.Dependable a)
    (hs : s.step c grace a = some s') : s'.Live := by
  cases a with
  | refresh available =>
      obtain ⟨hpass, hsome⟩ := Option.ite_none_right_eq_some.mp hs
      obtain rfl := Option.some.inj hsome
      exact h.refreshStatus hpass.1 available
  | query answer =>
      obtain ⟨hpass, hsome⟩ := Option.ite_none_right_eq_some.mp hs
      obtain rfl := Option.some.inj hsome
      exact h.refreshNode hpass answer
  | maintain now =>
      obtain ⟨hpass, hsome⟩ := Option.ite_none_right_eq_some.mp hs
      obtain rfl := Option.some.inj hsome
      refine h.move rfl (fun kind => by cases kind <;> rfl) rfl rfl fun kind => ?_
      rw [hpass]
      exact Pass.noConfusion
  | decide cancelThrows => exact h.decide hs
  | call throws => exact h.call hs
  | send throws => exact h.send hguard hs
  | accept id kind =>
      obtain ⟨hmem, hsome⟩ := Option.ite_none_right_eq_some.mp hs
      obtain rfl := Option.some.inj hsome
      exact h.accept hnumbered hmem.2
  | refuse id dropped =>
      obtain rfl := Option.some.inj hs
      cases dropped with
      | false => exact h.replyError id
      | true => exact (h.replyError id).mono rfl fun kind hway => by cases kind <;> exact hway
  | joinComplete kind token written =>
      obtain ⟨-, hsome⟩ := Option.ite_none_right_eq_some.mp hs
      obtain rfl := Option.some.inj hsome
      exact h.mono rfl fun kind _ => .inr (.inr (.inl rfl))
  | completed =>
      obtain ⟨-, hsome⟩ := Option.ite_none_right_eq_some.mp hs
      obtain rfl := Option.some.inj hsome
      exact live_of_state "provisioned" rfl fun kind => by cases kind <;> decide
  | joinFailed =>
      obtain ⟨-, hsome⟩ := Option.ite_none_right_eq_some.mp hs
      obtain rfl := Option.some.inj hsome
      exact live_of_state "join_failed" rfl fun kind => by cases kind <;> decide
  | daemonStarts =>
      obtain rfl := Option.some.inj hs
      exact h.mono rfl fun kind hway => by cases kind <;> exact hway
  | daemonLost =>
      obtain rfl := Option.some.inj hs
      refine h.mono rfl fun kind hway => ?_
      obtain hslot | hdue | hrest := hway
      · exact .inl (by cases kind <;> exact hslot)
      -- The daemon owes nothing when it goes away.
      · rw [show s.owed = [] from hguard] at hdue
        cases hdue
      · exact .inr (.inr hrest)
  | restart now =>
      obtain rfl := Option.some.inj hs
      exact live_of_ne fun kind => restState_ne (s.tokenFile.getD 0) kind

/-! ### Requests and tokens -/

/-- No new request and no new token; the worker is not about to use a token that it was not about
to use before. -/
structure Retains (s s' : NetworkEntry) : Prop where
  token : s'.status.token = s.status.token
  tokenFile : s'.tokenFile = s.tokenFile
  identity : s'.identity = s.identity
  replies : ∀ kind id, s'.replyOf kind = some id → s.replyOf kind = some id
  received : ∀ x ∈ s'.received, x ∈ s.received
  nextCall : s'.nextCall = s.nextCall
  pass : s'.pass = s.pass ∨ (∀ status now, s'.pass ≠ .deciding status now) ∧
    ∀ token, s'.pass ≠ .calling (.attach token)

theorem Retains.numbered (h : s.Retains s') (hs : s.Numbered) : s'.Numbered where
  slots kind id hid := by
    rw [h.nextCall]
    exact hs.slots kind id (h.replies kind id hid)
  received id kind hmem := by
    rw [h.nextCall]
    exact hs.received id kind (h.received _ hmem)
  kinds kind id kind' hid hmem := hs.kinds kind id kind' (h.replies kind id hid) (h.received _ hmem)

theorem Retains.identified (h : s.Retains s') (hs : s.Identified) : s'.Identified where
  token := h.token.trans (hs.token.trans h.identity.symm)
  saved := by
    rw [h.tokenFile, h.identity]
    exact hs.saved
  deciding status now hpass htoken := by
    obtain hsame | ⟨hno, -⟩ := h.pass
    · rw [h.identity]
      exact hs.deciding status now (hsame.symm.trans hpass) htoken
    · exact absurd hpass (hno status now)
  attaching token hpass := by
    obtain hsame | ⟨-, hno⟩ := h.pass
    · rw [h.identity]
      exact hs.attaching token (hsame.symm.trans hpass)
    · exact absurd hpass (hno token)

/-- The worker goes on, and only the status changes. -/
theorem retains_of_worker (htoken : s'.status.token = s.status.token)
    (hfile : s'.tokenFile = s.tokenFile) (hidentity : s'.identity = s.identity)
    (hjoin : s'.joinCall = s.joinCall) (hcreate : s'.createCall = s.createCall)
    (hreceived : s'.received = s.received) (hnext : s'.nextCall = s.nextCall)
    (hdeciding : ∀ status now, s'.pass ≠ .deciding status now)
    (hattaching : ∀ token, s'.pass ≠ .calling (.attach token)) : s.Retains s' where
  token := htoken
  tokenFile := hfile
  identity := hidentity
  replies kind id hid := by
    cases kind with
    | join => exact hjoin.symm.trans hid
    | imports => exact hcreate.symm.trans hid
  received x hx := hreceived ▸ hx
  nextCall := hnext
  pass := .inr ⟨hdeciding, hattaching⟩

theorem retains_refreshStatus (available : Bool) : s.Retains (s.refreshStatus available) := by
  unfold NetworkEntry.refreshStatus
  cases available with
  | false =>
      rw [if_pos rfl]
      exact retains_of_worker rfl rfl rfl rfl rfl rfl rfl (fun _ _ => Pass.noConfusion)
        fun _ => Pass.noConfusion
  | true =>
      rw [if_neg Bool.false_ne_true.symm]
      dsimp only
      have hpass : ∀ node : Bool, (∀ status now, (if node then Pass.querying else Pass.refreshed) ≠
          .deciding status now) ∧ ∀ token, (if node then Pass.querying else Pass.refreshed) ≠
          .calling (.attach token) := by
        intro node
        cases node with
        | false => exact ⟨fun _ _ => Pass.noConfusion, fun _ => Pass.noConfusion⟩
        | true => exact ⟨fun _ _ => Pass.noConfusion, fun _ => Pass.noConfusion⟩
      split
      · exact retains_of_worker rfl rfl rfl rfl rfl rfl rfl (hpass s.nodePath).1 (hpass s.nodePath).2
      · exact retains_of_worker rfl rfl rfl rfl rfl rfl rfl (hpass s.nodePath).1 (hpass s.nodePath).2

theorem retains_refreshNode (answer : NodeAnswer) : s.Retains (s.refreshNode answer) := by
  cases answer with
  | properties =>
      exact retains_of_worker rfl rfl rfl rfl rfl rfl rfl (fun _ _ => Pass.noConfusion)
        fun _ => Pass.noConfusion
  | unknownObject =>
      exact retains_of_worker rfl rfl rfl rfl rfl rfl rfl (fun _ _ => Pass.noConfusion)
        fun _ => Pass.noConfusion
  | otherError =>
      exact retains_of_worker rfl rfl rfl rfl rfl rfl rfl (fun _ _ => Pass.noConfusion)
        fun _ => Pass.noConfusion

theorem retains_replyError (id : Nat) : s.Retains (s.replyError id) := by
  unfold NetworkEntry.replyError
  split
  · split
    · refine ⟨rfl, rfl, rfl, fun kind id hid => ?_, fun _ hx => hx, rfl, .inl rfl⟩
      cases kind with
      | join => cases hid
      | imports => exact hid
    · refine ⟨rfl, rfl, rfl, fun kind id hid => ?_, fun _ hx => hx, rfl, .inl rfl⟩
      cases kind with
      | join => cases hid
      | imports => exact hid
  · split
    · refine ⟨rfl, rfl, rfl, fun kind id hid => ?_, fun _ hx => hx, rfl, .inl rfl⟩
      cases kind with
      | join => exact hid
      | imports => cases hid
    · exact ⟨rfl, rfl, rfl, fun _ _ hid => hid, fun _ hx => hx, rfl, .inl rfl⟩

theorem retains_accept (id : Nat) (kind : RequestKind) : s.Retains (s.accept id kind) := by
  refine ⟨rfl, rfl, rfl, fun other number hnumber => ?_, fun _ hx => List.mem_of_mem_erase hx, rfl,
    .inl rfl⟩
  have hkept : ∀ slot : Option Nat, (if slot = some id then none else slot) = some number →
      slot = some number := by
    intro slot hslot
    split at hslot
    · cases hslot
    · exact hslot
  cases other with
  | join => exact hkept s.joinCall hnumber
  | imports => exact hkept s.createCall hnumber

/-- A decision keeps the requests, and a token that it attaches with is the node's. -/
theorem decide_sound (hnumbered : s.Numbered) (hidentified : s.Identified) {cancelThrows : Bool}
    (hs : s.step c grace (.decide cancelThrows) = some s') : s'.Numbered ∧ s'.Identified := by
  simp only [NetworkEntry.step] at hs
  split at hs
  · rename_i status now hpass
    have hcalls := bootstrap_calls c grace s.bootstrap status now
      fun call => call == .cancelJoin && cancelThrows
    generalize c.maintainBootstrap grace s.bootstrap status now
      (fun call => call == .cancelJoin && cancelThrows) = decided at hs hcalls
    split at hs
    · obtain rfl := Option.some.inj hs
      have hretains : s.Retains { s with bootstrap := decided.1, pass := .idle } :=
        retains_of_worker rfl rfl rfl rfl rfl rfl rfl (fun _ _ => Pass.noConfusion)
          fun _ => Pass.noConfusion
      exact ⟨hretains.numbered hnumbered, hretains.identified hidentified⟩
    · rename_i calls hcancel
      split at hs
      · obtain rfl := Option.some.inj hs
        have hretains : s.Retains { s with bootstrap := decided.1, pass := .idle } :=
          retains_of_worker rfl rfl rfl rfl rfl rfl rfl (fun _ _ => Pass.noConfusion)
            fun _ => Pass.noConfusion
        exact ⟨hretains.numbered hnumbered, hretains.identified hidentified⟩
      · split at hs
        · obtain rfl := Option.some.inj hs
          -- `cancel_join` gives up the slot of the join, and nothing else of what is kept.
          have hafter : ∀ calls, decided.2 = .cancelJoin :: calls →
              calls = [] ∨ calls = [.importAutoIdentity (UInt16.ofNat c.localNumber)] := by
            intro calls' hcalls'
            rw [hcalls'] at hcalls
            simpa using hcalls
          have hretains : s.Retains { ({ s with bootstrap := decided.1 }).cancelJoin with
              pass := .next calls } := by
            refine ⟨rfl, rfl, rfl, fun kind id hid => ?_, fun x hx => ?_, rfl, .inr ?_⟩
            · cases kind with
              | join => cases hid
              | imports => exact hid
            · exact List.mem_of_mem_filter hx
            · obtain rfl | rfl := hafter calls hcancel
              · exact ⟨fun _ _ => Pass.noConfusion, fun _ => Pass.noConfusion⟩
              · refine ⟨fun _ _ => Pass.noConfusion, fun token hno => ?_⟩
                cases hno
          exact ⟨hretains.numbered hnumbered, hretains.identified hidentified⟩
        · cases hs
    · rename_i call calls hno hcall
      obtain rfl := Option.some.inj hs
      refine ⟨⟨hnumbered.slots, hnumbered.received, hnumbered.kinds⟩, hidentified.token,
        hidentified.saved, fun _ _ hno => Pass.noConfusion hno, fun token htoken => ?_⟩
      obtain rfl := Pass.calling.inj htoken
      rw [hcall] at hcalls
      -- Of the calls only `attach` carries a token, that of the status which the pass has read.
      have hattach : status.token ≠ 0 ∧ token = status.token := by
        simp at hcalls
        exact ⟨hcalls.1, hcalls.2.1⟩
      refine ⟨by rw [hattach.2]; exact hattach.1, ?_⟩
      rw [hattach.2]
      exact hidentified.deciding status now hpass hattach.1
  · cases hs

theorem call_sound (hnumbered : s.Numbered) (hidentified : s.Identified) {throws : Bool}
    (hs : s.step c grace (.call throws) = some s') : s'.Numbered ∧ s'.Identified := by
  have hidle : s.Retains { s with pass := .idle } :=
    retains_of_worker rfl rfl rfl rfl rfl rfl rfl (fun _ _ => Pass.noConfusion)
      fun _ => Pass.noConfusion
  have hsends : ∀ state kind, s.Retains { s.setState state with pass := .sending kind } :=
    fun state kind => retains_of_worker rfl rfl rfl rfl rfl rfl rfl (fun _ _ => Pass.noConfusion)
      fun _ => Pass.noConfusion
  simp only [NetworkEntry.step] at hs
  split at hs
  · rename_i call hpass
    cases call with
    | attach token =>
        simp only [NetworkEntry.perform] at hs
        split at hs
        · obtain rfl := Option.some.inj hs
          exact ⟨hidle.numbered hnumbered, hidle.identified hidentified⟩
        · split at hs
          · obtain rfl := Option.some.inj hs
            have hidentity := (hidentified.attaching token hpass).2
            exact ⟨⟨hnumbered.slots, hnumbered.received, hnumbered.kinds⟩, hidentity, hidentity,
              fun _ _ hno => Pass.noConfusion hno, fun _ hno => Pass.noConfusion hno⟩
          · cases hs
    | join =>
        obtain rfl := Option.some.inj hs
        exact ⟨(hsends _ _).numbered hnumbered, (hsends _ _).identified hidentified⟩
    | importAutoIdentity unicast =>
        simp only [NetworkEntry.perform] at hs
        split at hs
        · obtain rfl := Option.some.inj hs
          exact ⟨hidle.numbered hnumbered, hidle.identified hidentified⟩
        · obtain rfl := Option.some.inj hs
          exact ⟨(hsends _ _).numbered hnumbered, (hsends _ _).identified hidentified⟩
    | cancelJoin => cases hs
  · cases hs

theorem numbered_sendRequest (h : s.Numbered) (sent : RequestKind) :
    (s.sendRequest sent).Numbered := by
  -- The new call has a number of its own, above all that are in use.
  have hreply : ∀ kind id, (s.sendRequest sent).replyOf kind = some id →
      (kind = sent ∧ id = s.nextCall) ∨ s.replyOf kind = some id := by
    intro kind id hid
    by_cases hkind : kind = sent
    · subst hkind
      refine .inl ⟨rfl, ?_⟩
      cases kind <;> exact (Option.some.inj hid).symm
    · right
      cases kind <;> cases sent <;> first | exact hid | exact absurd rfl hkind
  have hmem : ∀ id kind, (id, kind) ∈ (s.sendRequest sent).received →
      (id = s.nextCall ∧ kind = sent) ∨ (id, kind) ∈ s.received := by
    intro id kind hx
    unfold NetworkEntry.sendRequest at hx
    dsimp only at hx
    split at hx
    · rcases List.mem_cons.mp hx with hnew | hold
      · exact .inl (Prod.mk.inj hnew)
      · exact .inr hold
    · exact .inr hx
  constructor
  · intro kind id hid
    show id < s.nextCall + 1
    obtain ⟨-, rfl⟩ | hold := hreply kind id hid
    · exact Nat.lt_succ_self _
    · exact Nat.lt_succ_of_lt (h.slots kind id hold)
  · intro id kind hx
    show id < s.nextCall + 1
    obtain ⟨rfl, -⟩ | hold := hmem id kind hx
    · exact Nat.lt_succ_self _
    · exact Nat.lt_succ_of_lt (h.received id kind hold)
  · intro kind id kind' hid hx
    obtain ⟨rfl, rfl⟩ | hold := hreply kind id hid
    · obtain ⟨-, rfl⟩ | hbefore := hmem _ kind' hx
      · rfl
      · exact absurd (h.received _ kind' hbefore) (Nat.lt_irrefl _)
    · obtain ⟨rfl, -⟩ | hbefore := hmem id kind' hx
      · exact absurd (h.slots kind _ hold) (Nat.lt_irrefl _)
      · exact h.kinds kind id kind' hold hbefore

theorem send_sound (hnumbered : s.Numbered) (hidentified : s.Identified) {throws : Bool}
    (hs : s.step c grace (.send throws) = some s') : s'.Numbered ∧ s'.Identified := by
  simp only [NetworkEntry.step] at hs
  split at hs
  · rename_i sent hpass
    split at hs
    · obtain rfl := Option.some.inj hs
      exact ⟨numbered_sendRequest hnumbered sent, hidentified.token, hidentified.saved,
        fun _ _ hno => Pass.noConfusion hno, fun _ hno => Pass.noConfusion hno⟩
    · split at hs
      · obtain rfl := Option.some.inj hs
        have hretains : s.Retains { s.rest with pass := .idle } :=
          retains_of_worker rfl rfl rfl rfl rfl rfl rfl (fun _ _ => Pass.noConfusion)
            fun _ => Pass.noConfusion
        exact ⟨hretains.numbered hnumbered, hretains.identified hidentified⟩
      · obtain rfl := Option.some.inj hs
        have hretains : s.Retains { s with pass := .idle } :=
          retains_of_worker rfl rfl rfl rfl rfl rfl rfl (fun _ _ => Pass.noConfusion)
            fun _ => Pass.noConfusion
        exact ⟨hretains.numbered hnumbered, hretains.identified hidentified⟩
  · cases hs

theorem step_sound (hnumbered : s.Numbered) (hidentified : s.Identified) {a : Action}
    (hguard : s.Dependable a) (hs : s.step c grace a = some s') :
    s'.Numbered ∧ s'.Identified := by
  have hsound : s.Retains s' → s'.Numbered ∧ s'.Identified :=
    fun h => ⟨h.numbered hnumbered, h.identified hidentified⟩
  cases a with
  | refresh available =>
      obtain ⟨-, hsome⟩ := Option.ite_none_right_eq_some.mp hs
      obtain rfl := Option.some.inj hsome
      exact hsound (retains_refreshStatus available)
  | query answer =>
      obtain ⟨-, hsome⟩ := Option.ite_none_right_eq_some.mp hs
      obtain rfl := Option.some.inj hsome
      exact hsound (retains_refreshNode answer)
  | maintain now =>
      obtain ⟨-, hsome⟩ := Option.ite_none_right_eq_some.mp hs
      obtain rfl := Option.some.inj hsome
      refine ⟨⟨hnumbered.slots, hnumbered.received, hnumbered.kinds⟩, hidentified.token,
        hidentified.saved, fun status now' hpass _ => ?_, fun _ hno => Pass.noConfusion hno⟩
      obtain ⟨rfl, -⟩ := Pass.deciding.inj hpass
      exact hidentified.token
  | decide cancelThrows => exact decide_sound hnumbered hidentified hs
  | call throws => exact call_sound hnumbered hidentified hs
  | send throws => exact send_sound hnumbered hidentified hs
  | accept id kind =>
      obtain ⟨-, hsome⟩ := Option.ite_none_right_eq_some.mp hs
      obtain rfl := Option.some.inj hsome
      exact hsound (retains_accept id kind)
  | refuse id dropped =>
      obtain rfl := Option.some.inj hs
      have herror := @retains_replyError s id
      cases dropped with
      | false => exact hsound herror
      | true =>
          refine hsound ⟨herror.token, herror.tokenFile, herror.identity, fun kind number h => ?_,
            fun x hx => List.mem_of_mem_filter hx, herror.nextCall, herror.pass⟩
          exact herror.replies kind number (by cases kind <;> exact h)
  | joinComplete kind token written =>
      obtain ⟨-, hsome⟩ := Option.ite_none_right_eq_some.mp hs
      obtain rfl := Option.some.inj hsome
      -- There was no identity before, so no pass is about to attach with one.
      obtain ⟨hnone, hwritten⟩ := hguard
      refine ⟨⟨hnumbered.slots, hnumbered.received, hnumbered.kinds⟩, rfl, ?_, ?_, ?_⟩
      · rw [hwritten]
        rfl
      · intro status now hpass htoken
        exact absurd ((hidentified.deciding status now hpass htoken).trans hnone) htoken
      · intro token' hpass
        obtain ⟨hne, hsame⟩ := hidentified.attaching token' hpass
        exact absurd (hsame.trans hnone) hne
  | completed =>
      obtain ⟨-, hsome⟩ := Option.ite_none_right_eq_some.mp hs
      obtain rfl := Option.some.inj hsome
      exact hsound ⟨rfl, rfl, rfl, fun kind _ h => by cases kind <;> exact h, fun _ hx => hx, rfl,
        .inl rfl⟩
  | joinFailed =>
      obtain ⟨-, hsome⟩ := Option.ite_none_right_eq_some.mp hs
      obtain rfl := Option.some.inj hsome
      exact hsound ⟨rfl, rfl, rfl, fun kind _ h => by cases kind <;> exact h, fun _ hx => hx, rfl,
        .inl rfl⟩
  | daemonStarts =>
      obtain rfl := Option.some.inj hs
      exact hsound ⟨rfl, rfl, rfl, fun kind _ h => by cases kind <;> exact h, fun _ hx => hx, rfl,
        .inl rfl⟩
  | daemonLost =>
      obtain rfl := Option.some.inj hs
      refine hsound ⟨rfl, rfl, rfl, fun kind _ h => by cases kind <;> exact h, fun _ hx => ?_, rfl,
        .inl rfl⟩
      cases hx
  | restart now =>
      obtain rfl := Option.some.inj hs
      refine hsound ⟨?_, rfl, rfl, fun kind _ h => ?_, fun _ hx => ?_, rfl, .inr ?_⟩
      · exact hidentified.saved.trans hidentified.token.symm
      · cases kind <;> cases h
      · cases hx
      · exact ⟨fun _ _ => Pass.noConfusion, fun _ => Pass.noConfusion⟩

/-! ## Runs -/

theorem initial_sound (h : s.Initial) : s.Live ∧ s.Numbered ∧ s.Identified := by
  obtain ⟨s₀, now, rfl, hidentity⟩ := h
  refine ⟨live_of_ne fun kind => restState_ne (s₀.tokenFile.getD 0) kind, ⟨?_, ?_, ?_⟩,
    ⟨hidentity.symm, hidentity.symm, ?_, ?_⟩⟩
  · intro kind id hid
    cases kind <;> cases hid
  · intro id kind hmem
    cases hmem
  · intro kind id kind' _ hmem
    cases hmem
  · exact fun _ _ hpass => Pass.noConfusion hpass
  · exact fun _ hpass => Pass.noConfusion hpass

theorem reachable_sound
    (h : ReachableUnder (NetworkEntry.step c grace) Dependable Initial s) :
    s.Live ∧ s.Numbered ∧ s.Identified := by
  refine h.invariant (fun _ => initial_sound) ?_
  intro s a s' hs hguard hstep
  obtain ⟨hlive, hnumbered, hidentified⟩ := hs
  exact ⟨hlive.step hnumbered hguard hstep, step_sound hnumbered hidentified hguard hstep⟩

/-- If nothing is outstanding, the state does not say that something is. -/
theorem Live.settled (h : s.Live) (hnone : s.outstanding = false) (kind : RequestKind) :
    s.status.state ≠ stateOf kind := by
  intro hstate
  unfold outstanding at hnone
  simp only [Bool.or_eq_false_iff, Option.isSome_eq_false_iff, Option.isNone_iff_eq_none,
    Bool.not_eq_false', List.isEmpty_iff] at hnone
  obtain ⟨⟨⟨⟨hjoin, hcreate⟩, howed⟩, hcompleting⟩, hpass⟩ := hnone
  obtain hslot | hdue | hdone | hsending := h kind hstate
  · cases kind with
    | join => exact hslot hjoin
    | imports => exact hslot hcreate
  · rw [howed] at hdue
    cases hdue
  · rw [hcompleting] at hdone
    cases hdone
  · rw [hsending] at hpass
    cases hpass

/-- The worker is between two passes, or in one that has found the node joining. -/
def Pass.Waits (pass : Pass) : Prop :=
  pass = .idle ∨ pass = .refreshed ∨ ∃ status now, pass = .deciding status now ∧
    status.state = "joining" ∧ status.token = 0 ∧ status.attached = false

theorem Pass.Waits.copy {pass : Pass} {status : BootstrapStatus} {now : Time} (h : pass.Waits)
    (hpass : pass = .deciding status now) :
    status.state = "joining" ∧ status.token = 0 ∧ status.attached = false := by
  obtain hno | hno | ⟨copy, at', hdeciding, hcopy⟩ := h
  · cases hpass.symm.trans hno
  · cases hpass.symm.trans hno
  · obtain ⟨rfl, -⟩ := Pass.deciding.inj (hpass.symm.trans hdeciding)
    exact hcopy

theorem Pass.Waits.not_calling {pass : Pass} (h : pass.Waits) (call : BootstrapCall) :
    pass ≠ .calling call := by
  rintro rfl
  obtain hno | hno | ⟨_, _, hno, -⟩ := h <;> cases hno

theorem Pass.Waits.not_sending {pass : Pass} (h : pass.Waits) (kind : RequestKind) :
    pass ≠ .sending kind := by
  rintro rfl
  obtain hno | hno | ⟨_, _, hno, -⟩ := h <;> cases hno

/-- The state says that a join is on its way, and it is not. -/
structure Forgotten (s : NetworkEntry) : Prop where
  state : s.status.state = "joining"
  token : s.status.token = 0
  attached : s.status.attached = false
  nodePath : s.nodePath = false
  calls : s.joinCall = none ∧ s.createCall = none
  completing : s.completing = false
  received : s.received = []
  owed : s.owed = []
  pass : s.pass.Waits

/-- After the delay, a pass ends in the exception of `Cancel`. -/
theorem bootstrap_cancels {b : Bootstrap} {status : BootstrapStatus} {now : Time}
    {throws : BootstrapCall → Bool} (hstate : status.state = "joining") (htoken : status.token = 0)
    (hattached : status.attached = false) (havailable : status.daemonAvailable = true)
    (hdelay : c.createAfter grace ≤ b.elapsed now) :
    ∃ calls, (c.maintainBootstrap grace b status now throws).2 = .cancelJoin :: calls ∧
      (throws .cancelJoin = true → calls = []) := by
  have himporting : status.state ≠ "importing" := by
    rw [hstate]
    decide
  have hdue : c.createAfter grace ≤ Bootstrap.elapsed { b with
      applicationReady := false, localModelStage := 0, nextLocalModelAction := 0 } now := hdelay
  unfold MeshSwarmCoordinator.maintainBootstrap
  dsimp only
  rw [if_neg (by rw [hattached]; exact Bool.false_ne_true),
    if_neg (by rw [havailable]; exact Bool.false_ne_true.symm), if_neg (not_not_intro htoken),
    if_pos ⟨hdue, himporting⟩, if_pos hstate]
  by_cases hthrows : throws .cancelJoin = true
  · rw [if_pos (by rw [List.any_cons, hthrows, Bool.true_or])]
    exact ⟨[], rfl, fun _ => rfl⟩
  · rw [if_neg (by rw [List.any_cons, List.any_nil, Bool.or_false]; exact hthrows)]
    split
    · exact ⟨[], rfl, fun _ => rfl⟩
    · exact ⟨_, rfl, fun h => absurd h hthrows⟩

/-- A pass that has found the node joining does nothing, or cancels the join. -/
theorem bootstrap_waits {b : Bootstrap} {status : BootstrapStatus} {now : Time}
    {throws : BootstrapCall → Bool} (hstate : status.state = "joining") (htoken : status.token = 0)
    (hattached : status.attached = false) :
    (c.maintainBootstrap grace b status now throws).2 = [] ∨
      ∃ calls, (c.maintainBootstrap grace b status now throws).2 = .cancelJoin :: calls := by
  by_cases hdue : status.daemonAvailable = true ∧ c.createAfter grace ≤ b.elapsed now
  · obtain ⟨calls, hcalls, -⟩ := bootstrap_cancels hstate htoken hattached hdue.1 hdue.2
    exact .inr ⟨calls, hcalls⟩
  · left
    unfold MeshSwarmCoordinator.maintainBootstrap
    dsimp only
    rw [if_neg (by rw [hattached]; exact Bool.false_ne_true)]
    cases havailable : status.daemonAvailable with
    | false => rw [if_pos rfl]
    | true =>
        rw [if_neg Bool.false_ne_true.symm, if_neg (not_not_intro htoken),
          if_neg fun h => hdue ⟨havailable, h.1⟩, if_neg fun h => h.1 hstate]

/-- The worker goes on, and the request stays forgotten. -/
theorem Forgotten.move (h : s.Forgotten) {status : BootstrapStatus} {bootstrap : Bootstrap}
    {pass : Pass} (hstatus : status.state = "joining" ∧ status.token = 0 ∧ status.attached = false)
    (hpass : pass.Waits) :
    Forgotten { s with status := status, bootstrap := bootstrap, pass := pass } :=
  ⟨hstatus.1, hstatus.2.1, hstatus.2.2, h.nodePath, h.calls, h.completing, h.received, h.owed, hpass⟩

theorem Forgotten.refreshStatus (h : s.Forgotten) (available : Bool) :
    (s.refreshStatus available).Forgotten := by
  unfold NetworkEntry.refreshStatus
  cases available with
  | false =>
      rw [if_pos rfl]
      have hkept : (if s.status.state ≠ "joining" ∧ s.status.state ≠ "creating" then
          "daemon_unavailable" else s.status.state) = "joining" := by
        rw [if_neg fun hno => hno.1 h.state]
        exact h.state
      exact ⟨hkept, h.token, rfl, rfl, h.calls, h.completing, h.received, h.owed, .inr (.inl rfl)⟩
  | true =>
      have hup : s.status.state ≠ "daemon_unavailable" := by
        rw [h.state]
        decide
      rw [if_neg Bool.false_ne_true.symm]
      dsimp only
      rw [if_neg hup, h.nodePath]
      exact ⟨h.state, h.token, h.attached, rfl, h.calls, h.completing, h.received, h.owed,
        .inr (.inl rfl)⟩

theorem Forgotten.decide (h : s.Forgotten) {cancelThrows : Bool}
    (hs : s.step c grace (.decide cancelThrows) = some s') : s'.Forgotten := by
  simp only [NetworkEntry.step] at hs
  split at hs
  · rename_i status now hpass
    obtain ⟨hstate, htoken, hattached⟩ := h.pass.copy hpass
    have hidle : ∀ b, Forgotten { s with bootstrap := b, pass := .idle } := fun b =>
      h.move ⟨h.state, h.token, h.attached⟩ (.inl rfl)
    have hcalls : (c.maintainBootstrap grace s.bootstrap status now
          fun call => call == .cancelJoin && cancelThrows).2 = [] ∨
        ∃ calls, (c.maintainBootstrap grace s.bootstrap status now
          fun call => call == .cancelJoin && cancelThrows).2 = .cancelJoin :: calls :=
      bootstrap_waits hstate htoken hattached
    obtain hno | ⟨calls, hcancel⟩ := hcalls
    · simp only [hno] at hs
      obtain rfl := Option.some.inj hs
      exact hidle _
    · -- There is no `Join` to cancel, so `Cancel` throws.
      simp only [hcancel] at hs
      split at hs
      · obtain rfl := Option.some.inj hs
        exact hidle _
      · rw [h.owed, h.received, if_neg (by decide)] at hs
        cases hs
  · cases hs

theorem Forgotten.step (h : s.Forgotten) {a : Action} (hguard : ∀ now, a ≠ .restart now)
    (hs : s.step c grace a = some s') : s'.Forgotten := by
  have hcalling : ∀ call, s.pass ≠ .calling call := h.pass.not_calling
  have hsending : ∀ kind, s.pass ≠ .sending kind := h.pass.not_sending
  cases a with
  | refresh available =>
      obtain ⟨-, hsome⟩ := Option.ite_none_right_eq_some.mp hs
      obtain rfl := Option.some.inj hsome
      exact h.refreshStatus available
  | query answer =>
      obtain ⟨hquery, -⟩ := Option.ite_none_right_eq_some.mp hs
      obtain hno | hno | ⟨_, _, hno, -⟩ := h.pass <;> cases hquery.symm.trans hno
  | maintain now =>
      obtain ⟨-, hsome⟩ := Option.ite_none_right_eq_some.mp hs
      obtain rfl := Option.some.inj hsome
      exact h.move ⟨h.state, h.token, h.attached⟩
        (.inr (.inr ⟨s.status, now, rfl, h.state, h.token, h.attached⟩))
  | decide cancelThrows => exact h.decide hs
  | call throws =>
      simp only [NetworkEntry.step] at hs
      cases hs
  | send throws =>
      simp only [NetworkEntry.step] at hs
      cases hs
  | accept id kind =>
      obtain ⟨hmem, -⟩ := Option.ite_none_right_eq_some.mp hs
      -- The daemon has no request of the node any more, so it answers none.
      rw [h.received] at hmem
      cases hmem.2
  | refuse id dropped =>
      have hsame : s.replyError id = s := by
        unfold NetworkEntry.replyError
        rw [h.calls.1, h.calls.2, if_neg (by simp), if_neg (by simp)]
      obtain rfl := Option.some.inj hs
      rw [hsame]
      cases dropped with
      | false => exact h
      | true =>
          refine ⟨h.state, h.token, h.attached, h.nodePath, h.calls, h.completing, ?_, h.owed, h.pass⟩
          show s.received.filter _ = []
          rw [h.received]
          rfl
  | joinComplete kind token written =>
      obtain ⟨hmem, -⟩ := Option.ite_none_right_eq_some.mp hs
      rw [h.owed] at hmem
      cases hmem.1
  | completed =>
      obtain ⟨hcompleting, -⟩ := Option.ite_none_right_eq_some.mp hs
      rw [h.completing] at hcompleting
      cases hcompleting
  | joinFailed =>
      obtain ⟨hmem, -⟩ := Option.ite_none_right_eq_some.mp hs
      rw [h.owed] at hmem
      cases hmem
  | daemonStarts =>
      obtain rfl := Option.some.inj hs
      exact ⟨h.state, h.token, h.attached, h.nodePath, h.calls, h.completing, h.received, h.owed,
        h.pass⟩
  | daemonLost =>
      obtain rfl := Option.some.inj hs
      exact ⟨h.state, h.token, h.attached, h.nodePath, h.calls, h.completing, rfl, rfl, h.pass⟩
  | restart now => exact absurd rfl (hguard now)

/-- The daemon goes away with a `Join` that it has accepted, and nothing else is outstanding. -/
def Lost (s : NetworkEntry) : Prop :=
  ∃ s₀ : NetworkEntry, s₀.status.state = "joining" ∧ .join ∈ s₀.owed ∧ s₀.pass.Waits ∧
    s₀.status.token = 0 ∧ s₀.status.attached = false ∧ s₀.nodePath = false ∧
    s₀.joinCall = none ∧ s₀.createCall = none ∧ s₀.completing = false ∧
    s = { s₀ with daemonUp := false, received := [], owed := [] }

/-- There is no `Join` to cancel. -/
theorem Forgotten.cancel (h : s.Forgotten) {status : BootstrapStatus} {now : Time}
    (hpass : s.pass = .deciding status now) (havailable : status.daemonAvailable = true)
    (hdelay : c.createAfter grace ≤ s.bootstrap.elapsed now) :
    s.step c grace (.decide false) = none ∧
      ∃ s', s.step c grace (.decide true) = some s' ∧ s'.pass = .idle ∧
        (c.maintainBootstrap grace s.bootstrap status now (· == .cancelJoin)).2 = [.cancelJoin] := by
  obtain ⟨hstate, htoken, hattached⟩ := h.pass.copy hpass
  have hcancels := fun throws => @bootstrap_cancels c grace s.bootstrap status now throws hstate
    htoken hattached havailable hdelay
  constructor
  · obtain ⟨calls, hcalls, -⟩ := hcancels fun call => call == .cancelJoin && false
    simp only [NetworkEntry.step, hpass, hcalls, h.owed, h.received, if_neg Bool.false_ne_true]
    exact if_neg (by decide)
  · obtain ⟨calls, hcalls, hnone⟩ := hcancels (· == .cancelJoin)
    obtain rfl := hnone rfl
    refine ⟨{ s with
      bootstrap := (c.maintainBootstrap grace s.bootstrap status now (· == .cancelJoin)).1
      pass := .idle }, ?_, rfl, hcalls⟩
    simp only [NetworkEntry.step, hpass, Bool.and_true, hcalls, if_true]

/-- **A forgotten join is waited for.** After the daemon has gone away with an accepted `Join`, the
node stays in the state "joining" and makes no new attempt, whatever the daemon and the clock do,
until the process or the application is started again. After the creation delay each pass that finds
the daemon ends in the exception of `Cancel`. -/
theorem join_forgotten (h : ReachableUnder (NetworkEntry.step c grace)
    (fun _ a => ∀ now, a ≠ .restart now) Lost s) :
    s.status.state = "joining" ∧ s.status.token = 0 ∧ s.outstanding = false ∧
      (∀ call, s.pass ≠ .calling call) ∧ (∀ kind, s.pass ≠ .sending kind) ∧
      ∀ status now, s.pass = .deciding status now → status.daemonAvailable = true →
        c.createAfter grace ≤ s.bootstrap.elapsed now →
          s.step c grace (.decide false) = none ∧
            ∃ s', s.step c grace (.decide true) = some s' ∧ s'.pass = .idle ∧
              (c.maintainBootstrap grace s.bootstrap status now (· == .cancelJoin)).2 =
                [.cancelJoin] := by
  have hs : s.Forgotten := by
    refine h.invariant ?_ fun _ _ _ hs hguard hstep => hs.step hguard hstep
    rintro s ⟨s₀, hstate, -, hpass, htoken, hattached, hnode, hjoin, hcreate, hcompleting, rfl⟩
    exact ⟨hstate, htoken, hattached, hnode, ⟨hjoin, hcreate⟩, hcompleting, rfl, rfl, hpass⟩
  have hcalling : ∀ call, s.pass ≠ .calling call := hs.pass.not_calling
  have hsending : ∀ kind, s.pass ≠ .sending kind := hs.pass.not_sending
  refine ⟨hs.state, hs.token, ?_, hcalling, hsending, fun status now => hs.cancel⟩
  unfold outstanding
  rw [hs.calls.1, hs.calls.2, hs.owed, hs.completing]
  split
  · exact absurd ‹_› (hsending _)
  · rfl

end

/-! ## Two runs -/

/-- The coordinator of `uav3`, the first of two members. -/
def firstMember : MeshSwarmCoordinator where
  config := { peerWhitelist := ["uav3", "uav4"], meshProvisionerPreference := "ordered" }
  localNumber := 3
  whitelistFingerprint := swarmFingerprint ["uav3", "uav4"] "ordered"
  memberPriority := [3, 4]
  activeNumber := 3
  activeProvisioner := "uav3"
  localIsActive := true
  swarmId := 0
  swarmParticipating := true

/-- A node that has never been in a network. -/
def newNode : NetworkEntry where
  status := { attached := false, daemonAvailable := false, token := 0, state := "exported" }
  bootstrap := { bootstrapStartedAt := 0 }

/-- The daemon appears, and the node asks to join. -/
def joiningRun : List Action :=
  [.refresh false, .maintain (seconds 1), .decide false, .daemonStarts, .refresh true,
    .maintain (seconds 2), .decide false, .call false, .send false, .accept 0 .join]

/-- Nobody provisions the node in time, so the daemon gives up. -/
def failedRun : List Action :=
  joiningRun ++
    [Action.refresh true, .maintain (seconds 62), .decide false, .joinFailed, .refresh true]

theorem newNode_initial : newNode.Initial := ⟨newNode, 0, rfl, rfl⟩

/-- The daemon has accepted the join, and the next pass is under way. -/
def joined : NetworkEntry where
  status := { attached := false, daemonAvailable := true, token := 0, state := "joining" }
  bootstrap := { bootstrapStartedAt := 0, lastBootstrapAction := seconds 2 }
  pass := .deciding { attached := false, daemonAvailable := true, token := 0, state := "joining" }
    (seconds 62)
  daemonUp := true
  owed := [.join]
  nextCall := 1

/-- The daemon restarts during this pass, and two more follow long after the delay. -/
def lostRun : List Action :=
  [.daemonLost, .decide false, .daemonStarts, .refresh true, .maintain (seconds 600), .decide true,
    .refresh true, .maintain (seconds 900)]

theorem join_forgotten_lostRun :
    ReachableUnder (NetworkEntry.step firstMember 120) Dependable Initial joined ∧
      ∃ s, Run.exec (NetworkEntry.step firstMember 120) joined lostRun = some s ∧
        s.status.state = "joining" ∧ s.outstanding = false ∧
        s.step firstMember 120 (.decide false) = none ∧
        ∃ s', s.step firstMember 120 (.decide true) = some s' ∧ s'.pass = .idle := by
  have hjoined : Run.exec (NetworkEntry.step firstMember 120) newNode
      (joiningRun ++ [Action.refresh true, .maintain (seconds 62)]) = some joined := by
    decide +kernel
  have hguarded : Run.Guarded (NetworkEntry.step firstMember 120) Dependable newNode
      (joiningRun ++ [Action.refresh true, .maintain (seconds 62)]) :=
    Run.guarded_of_decide (by decide +kernel)
  have hlost : Lost { joined with daemonUp := false, owed := [] } :=
    ⟨joined, rfl, List.mem_singleton_self _, .inr (.inr ⟨_, _, rfl, rfl, rfl, rfl⟩), rfl, rfl, rfl,
      rfl, rfl, rfl, rfl⟩
  have hrun : ((Run.exec (NetworkEntry.step firstMember 120) joined lostRun).map fun s =>
      (s.pass, decide (firstMember.createAfter 120 ≤ s.bootstrap.elapsed (seconds 900)))) =
      some (.deciding ⟨false, true, 0, "joining"⟩ (seconds 900), true) := by decide +kernel
  obtain ⟨s, hs, hdeciding⟩ := Option.map_eq_some_iff.mp hrun
  rw [Prod.mk.injEq] at hdeciding
  have hrest : Run.Guarded (NetworkEntry.step firstMember 120)
      (fun _ a => ∀ now, a ≠ .restart now) { joined with daemonUp := false, owed := [] }
      lostRun.tail := by
    simp [Run.Guarded, lostRun]
  obtain ⟨hstate, -, hnone, -, -, hcancel⟩ := join_forgotten (.exec (.start hlost) hrest hs)
  obtain ⟨hno, s', hs', hidle, -⟩ := hcancel _ _ hdeciding.1 rfl (of_decide_eq_true hdeciding.2)
  exact ⟨.exec (.start newNode_initial) hguarded hjoined, s, hs, hstate, hnone, hno, s', hs', hidle⟩

end NetworkEntry

end UavBluetooth.Mesh
