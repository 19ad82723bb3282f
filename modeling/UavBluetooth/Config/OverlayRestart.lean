import UavBluetooth.Config.OverlayLease

set_option autoImplicit false

/-! # Overlays across restarts

An activated overlay is saved to a file, so that a node that crashes comes back with it. Here the
process may end between any two steps of any call, and a new one starts from the file alone
(`LifeAction.restart`). `overlay_survives` says that the file names the overlay of the last
completed switch at every moment, also in the middle of the next one, and that a node that has
started has this overlay in effect.

A switch saves its path after `apply_config` has returned, under no lock, so this needs more than
`Serialized`: no other switch may begin before an activation has returned (`Orderly`).
`saved_without_overlay` has the run in which one does.
-/

namespace UavBluetooth.Config.Overlay

variable {NodeConfig : Type}

/-! ## Lives of the node -/

structure Lifetime (NodeConfig : Type) where
  state : State NodeConfig
  /-- A record for the reader of a run: the overlay path of the last completed switch. -/
  completed : String := ""

inductive LifeAction (NodeConfig : Type) where
  | act (a : Action NodeConfig)
  /-- The process ends and a new one is constructed, with `config` until it loads one. -/
  | restart (config : NodeConfig)

/-- The overlay path of the switch that a stretch of code completes. A start that gives up the
saved overlay is one to the default. -/
def completes (answer : Answer NodeConfig) (m : Manager NodeConfig) :
    Pc NodeConfig → Option String
  | .applied t =>
      match t.kind with
      | .activate path _ => if answer.persistError.isNone then some path else none
      | .revert _ => some ""
      | _ => none
  | .readPersisted =>
      if m.persisted.all (· == "") || answer.regularFile then none else some ""
  | .failed t _ =>
      match t.kind with
      | .restore _ => some ""
      | _ => none
  | _ => none

/-- A new process: it has nothing but the state file. -/
def Manager.restarted (m : Manager NodeConfig) (config : NodeConfig) : State NodeConfig :=
  { manager := { effective := { config := config }, persisted := m.persisted } }

def lifeStep (env : Settings NodeConfig) (l : Lifetime NodeConfig) :
    LifeAction NodeConfig → Option (Lifetime NodeConfig)
  | .restart config => some { l with state := l.state.manager.restarted config }
  | .act a =>
      match step env l.state a with
      | none => none
      | some s =>
          let done := match a with
            | .call _ _ => none
            | .run id answer => (l.state.calls id).bind (completes answer l.state.manager)
          some { state := s, completed := done.getD l.completed }

/-- A first process, with the state file that `completed` tells of. -/
def FirstLife (l : Lifetime NodeConfig) : Prop :=
  Initial l.state ∧ l.state.manager.persisted.getD "" = l.completed

/-! ## The guard -/

def Pc.transition : Pc NodeConfig → Option Transition
  | .load t => some t
  | .commit t _ => some t
  | .announce t _ => some t
  | .notify t _ _ _ => some t
  | .rollback t _ _ => some t
  | .reannounce t _ => some t
  | .renotify t _ _ _ => some t
  | .applied t => some t
  | .failed t _ => some t
  | _ => none

def Kind.activates : Kind → Bool
  | .activate _ _ => true
  | _ => false

/-- The activation that the call is in, from its claim to its return. -/
def Pc.activation (pc : Pc NodeConfig) : Option Transition :=
  pc.transition.filter (·.kind.activates)

def NoneActivating (s : State NodeConfig) : Prop :=
  ∀ id pc, s.calls id = some pc → pc.activation = none

/-- The state file can be written, and the path fits the line that is read of it. -/
def Saves (answer : Answer NodeConfig) (path : String) : Prop :=
  answer.persistWritten = true ∧ answer.persistError = none ∧ firstLine path = path

instance (answer : Answer NodeConfig) (path : String) : Decidable (Saves answer path) := by
  unfold Saves
  infer_instance

/-- Beyond `Serialized`: no activation is under way when a call claims a path or commits a return
to the default, and the path of an activation is saved. -/
def Orderly (env : Settings NodeConfig) (l : Lifetime NodeConfig) : LifeAction NodeConfig → Prop
  | .restart _ => True
  | .act a => Serialized env l.state a ∧
      match a with
      | .call _ _ => True
      | .run id answer =>
          match l.state.calls id with
          | some (.claim path _ _) =>
              NoneActivating l.state ∧ Saves answer path
          | some (.commit t _) =>
              match t.kind with
              | .revert _ => NoneActivating l.state
              | _ => True
          | some (.applied t) =>
              match t.kind with
              | .activate path _ => Saves answer path
              | _ => True
          | _ => True

/-! ## What a stretch of code does to the file -/

def Kind.reverts : Kind → Bool
  | .revert _ => true
  | _ => false

/-- The call is in a return to the default that has committed. -/
def Pc.reverts : Pc NodeConfig → Bool
  | .announce t _ => t.kind.reverts
  | .notify t _ _ _ => t.kind.reverts
  | .applied t => t.kind.reverts
  | _ => false

/-- The call is `load_initial`. -/
def Pc.boots (pc : Pc NodeConfig) : Bool :=
  match pc with
  | .readPersisted => true
  | _ => pc.transition.any fun t => t.kind.claims && !t.kind.activates

def Next.activation (next : Next NodeConfig) : Option Transition := next.pc.bind Pc.activation

def Next.reverts (next : Next NodeConfig) : Bool := next.pc.any Pc.reverts

/-- The changes of the overlay path and of the state file that one stretch of a call can make,
`load_initial` apart. -/
inductive Effect (answer : Answer NodeConfig) (m : Manager NodeConfig) (pc : Pc NodeConfig)
    (m' : Manager NodeConfig) (next : Next NodeConfig) : Prop where
  | none (hpath : m'.overlayPath = m.overlayPath) (hsaved : m'.persisted = m.persisted)
      (hdone : completes answer m pc = none) (hactivation : next.activation = pc.activation)
      (hreverts : next.reverts = true → pc.reverts = true)
  | commits (t : Transition) (config : NodeConfig) (fromLease : Bool) (hpc : pc = .commit t config)
      (hk : t.kind = .revert fromLease) (hpath : m'.overlayPath = m.overlayPath)
      (hsaved : m'.persisted = m.persisted) (hactivation : next.activation = .none)
  | claims (path previous : String) (hold : Time) (hpc : pc = .claim path previous hold)
      (hne : path ≠ m.overlayPath) (hpath : m'.overlayPath = path)
      (hsaved : m'.persisted = m.persisted)
      (hactivation : next.activation =
        some { kind := .activate path previous, base := some m.overlayPath })
      (hreverts : next.reverts = false)
  | renews (previous : String) (hold : Time) (hpc : pc = .claim m.overlayPath previous hold)
      (hpath : m'.overlayPath = m.overlayPath)
      (hsaved : Saves answer m.overlayPath → m'.persisted = some m.overlayPath)
      (hnext : next.pc = .none)
  | saves (t : Transition) (path previous : String) (hpc : pc = .applied t)
      (hk : t.kind = .activate path previous)
      (hdone : Saves answer path →
        m'.overlayPath = m.overlayPath ∧ m'.persisted = some path ∧ next.pc = .none ∧
          completes answer m pc = some path)
  | clears (t : Transition) (hpc : pc = .applied t) (hreverts : pc.reverts = true)
      (hpath : m'.overlayPath = "") (hsaved : m'.persisted = .none) (hnext : next.pc = .none)
      (hdone : completes answer m pc = some "")
  | yields (t : Transition) (error path previous : String) (hpc : pc = .failed t error)
      (hk : t.kind = .activate path previous) (hpath : m'.overlayPath = previous)
      (hsaved : m'.persisted = m.persisted) (hnext : next.pc = .none)

theorem persistOverlayPath_written {path : String} {answer : Answer NodeConfig}
    {m : Manager NodeConfig} (h : Saves answer path) :
    persistOverlayPath path answer m = .ok { m with persisted := some path } := by
  simp only [persistOverlayPath, h.1, h.2.1, h.2.2, if_true]

theorem activation_eq_none {pc : Pc NodeConfig} {t : Transition} (ht : pc.transition = some t)
    (hk : t.kind.activates = false) : pc.activation = none := by
  rw [Pc.activation, ht, Option.filter_some, if_neg (by rw [hk]; exact Bool.false_ne_true)]

theorem boots_eq_true {pc : Pc NodeConfig} {t : Transition} (ht : pc.transition = some t)
    (hk : (t.kind.claims && !t.kind.activates) = true) : pc.boots = true := by
  cases pc <;> simp_all [Pc.boots, Pc.transition]

theorem afterApplied_effect {answer : Answer NodeConfig} {m : Manager NodeConfig} {t : Transition}
    (hboots : (Pc.applied t : Pc NodeConfig).boots = false) :
    Effect answer m (.applied t) (afterApplied t answer m).1 (afterApplied t answer m).2 := by
  cases hk : t.kind with
  | activate path previous =>
      refine .saves t path previous rfl hk fun hsaves => ?_
      have hdone : afterApplied t answer m = ({ m with persisted := some path },
          .finish true ("Activated overlay: " ++ path)) := by
        simp only [afterApplied, hk, persistOverlayPath_written hsaves]
      rw [hdone]
      exact ⟨rfl, rfl, rfl, by simp only [completes, hk, hsaves.2.1, Option.isNone_none, if_true]⟩
  | revert fromLease =>
      have hnext : (afterApplied t answer m).2.pc = none := by
        simp only [afterApplied, hk]
        cases fromLease <;> rfl
      refine .clears t rfl (by simp only [Pc.reverts, hk, Kind.reverts]) ?_ ?_ hnext ?_
      · simp only [afterApplied, hk, clearOverlay]
      · simp only [afterApplied, hk, clearOverlay, clearPersistedOverlay]
      · simp only [completes, hk]
  | reload path =>
      have hstay : afterApplied t answer m = (m, .finish true "Config reloaded") := by
        simp only [afterApplied, hk]
      rw [hstay]
      refine .none rfl rfl (by simp only [completes, hk]) ?_ fun hno => by cases hno
      exact (activation_eq_none rfl (by rw [hk]; rfl)).symm
  | restore path =>
      rw [boots_eq_true rfl (by rw [hk]; rfl)] at hboots
      cases hboots
  | initial =>
      rw [boots_eq_true rfl (by rw [hk]; rfl)] at hboots
      cases hboots

theorem afterFailed_effect {answer : Answer NodeConfig} {m : Manager NodeConfig} {t : Transition}
    {error : String} (hboots : (Pc.failed t error : Pc NodeConfig).boots = false) :
    Effect answer m (.failed t error) (afterFailed t error answer m).1
      (afterFailed t error answer m).2 := by
  cases hk : t.kind with
  | activate path previous =>
      have hback : afterFailed t error answer m =
          ({ m with overlayPath := previous },
            .finish false ("Failed to activate overlay: " ++ error)) := by
        simp only [afterFailed, hk]
      rw [hback]
      exact .yields t error path previous rfl hk rfl rfl rfl
  | revert fromLease =>
      have hactivation : (Pc.failed t error : Pc NodeConfig).activation = none :=
        activation_eq_none rfl (by rw [hk]; rfl)
      simp only [afterFailed, hk]
      cases fromLease with
      | true =>
          exact .none rfl rfl (by simp only [completes, hk]) hactivation.symm fun hno => by cases hno
      | false =>
          exact .none rfl rfl (by simp only [completes, hk]) hactivation.symm fun hno => by cases hno
  | reload path =>
      have hactivation : (Pc.failed t error : Pc NodeConfig).activation = none :=
        activation_eq_none rfl (by rw [hk]; rfl)
      simp only [afterFailed, hk]
      exact .none rfl rfl (by simp only [completes, hk]) hactivation.symm fun hno => by cases hno
  | restore path =>
      rw [boots_eq_true rfl (by rw [hk]; rfl)] at hboots
      cases hboots
  | initial =>
      rw [boots_eq_true rfl (by rw [hk]; rfl)] at hboots
      cases hboots

/-- Every stretch of a call other than `load_initial` has one of the effects. -/
theorem advance_effect (env : Settings NodeConfig) (answer : Answer NodeConfig)
    (m : Manager NodeConfig) {pc : Pc NodeConfig} (hboots : pc.boots = false) :
    Effect answer m pc (advance env answer m pc).1 (advance env answer m pc).2 := by
  cases pc with
  | readPrevious path hold =>
      cases hold with
      | none => exact .none rfl rfl rfl rfl fun hno => by cases hno
      | some hold => exact .none rfl rfl rfl rfl fun hno => by cases hno
  | checkFile path previous hold =>
      simp only [advance]
      split
      · exact .none rfl rfl rfl rfl fun hno => by cases hno
      · split
        · exact .none rfl rfl rfl rfl fun hno => by cases hno
        · exact .none rfl rfl rfl rfl fun hno => by cases hno
  | claim path previous hold =>
      by_cases hsame : path = m.overlayPath
      · subst hsame
        simp only [advance, if_true]
        cases hp : persistOverlayPath m.overlayPath answer
          { m with keepaliveMissCount := 0, leaseHoldUntil := answer.now + hold } with
        | ok m' =>
            refine .renews previous hold rfl (persistOverlayPath_ok hp).1 ?_ rfl
            intro hsaves
            rw [persistOverlayPath_written hsaves] at hp
            rw [← Except.ok.inj hp]
        | error error =>
            refine .renews previous hold rfl rfl ?_ rfl
            intro hsaves
            have herror := hsaves.2.1
            rw [persistOverlayPath_error hp] at herror
            cases herror
      · simp only [advance, if_neg hsame]
        exact .claims path previous hold rfl hsame rfl rfl rfl rfl
  | readOverlay => exact .none rfl rfl rfl rfl fun hno => by cases hno
  | leaseStart =>
      simp only [advance]
      split
      · exact .none rfl rfl rfl rfl fun hno => by cases hno
      · split
        · exact .none rfl rfl rfl rfl fun hno => by cases hno
        · exact .none rfl rfl rfl rfl fun hno => by cases hno
  | leaseProbe topic =>
      simp only [advance]
      split
      · exact .none rfl rfl rfl rfl fun hno => by cases hno
      · exact .none rfl rfl rfl rfl fun hno => by cases hno
  | leaseFound => exact .none rfl rfl rfl rfl fun hno => by cases hno
  | leaseMissed =>
      simp only [advance]
      split
      · exact .none rfl rfl rfl rfl fun hno => by cases hno
      · exact .none rfl rfl rfl rfl fun hno => by cases hno
  | readPersisted => cases hboots
  | load t =>
      simp only [advance]
      split
      · exact .none rfl rfl rfl rfl fun hno => by cases hno
      · exact .none rfl rfl rfl rfl fun hno => by cases hno
  | commit t config =>
      obtain ⟨kind, base⟩ := t
      cases kind with
      | revert fromLease => exact .commits _ config fromLease rfl rfl rfl rfl rfl
      | activate path previous => exact .none rfl rfl rfl rfl fun hno => by cases hno
      | reload path => exact .none rfl rfl rfl rfl fun hno => by cases hno
      | restore path => cases hboots
      | initial => cases hboots
  | announce t saved => exact .none rfl rfl rfl rfl id
  | notify t saved config next =>
      simp only [advance]
      split
      · split
        · exact .none rfl rfl rfl rfl id
        · exact .none rfl rfl rfl rfl fun hno => by cases hno
      · exact .none rfl rfl rfl rfl id
  | rollback t saved error =>
      simp only [advance]
      split
      · exact .none rfl rfl rfl rfl fun hno => by cases hno
      · exact .none rfl rfl rfl rfl fun hno => by cases hno
  | reannounce t error => exact .none rfl rfl rfl rfl fun hno => by cases hno
  | renotify t config next error =>
      simp only [advance]
      split
      · split
        · exact .none rfl rfl rfl rfl fun hno => by cases hno
        · exact .none rfl rfl rfl rfl fun hno => by cases hno
      · exact .none rfl rfl rfl rfl fun hno => by cases hno
  | applied t => exact afterApplied_effect hboots
  | failed t error => exact afterFailed_effect hboots

/-- A call other than `load_initial` does not become one. -/
theorem boots_next (env : Settings NodeConfig) (answer : Answer NodeConfig)
    (m : Manager NodeConfig) {pc pc' : Pc NodeConfig} (hboots : pc.boots = false)
    (hnext : (advance env answer m pc).2.pc = some pc') : pc'.boots = false := by
  cases pc with
  | applied t =>
      obtain ⟨kind, base⟩ := t
      cases kind <;> simp only [advance, afterApplied] at hnext
      · split at hnext <;> cases hnext
        exact hboots
      · split at hnext <;> cases hnext
      · cases hnext
      · cases hnext
      · cases hnext
  | failed t error =>
      obtain ⟨kind, base⟩ := t
      cases kind <;> simp only [advance, afterFailed] at hnext
      · cases hnext
      · split at hnext <;> cases hnext
      · cases hnext
      · cases hboots
      · cases hnext
  | commit t config =>
      obtain ⟨kind, base⟩ := t
      cases hnext
      exact hboots
  | _ =>
      simp only [advance] at hnext
      repeat' split at hnext
      all_goals cases hnext
      all_goals first | rfl | exact hboots

/-! ## `load_initial` -/

/-- The path belongs to what `load_initial` is about to apply, and so does the file. -/
def Fits (m : Manager NodeConfig) (pc : Pc NodeConfig) : Prop :=
  match pc.transition with
  | none => m.overlayPath = ""
  | some t => m.overlayPath = t.kind.target ∧ m.persisted.getD "" = t.kind.target

/-- What a stretch of `load_initial` does: it goes on, it returns, or the node does not start. -/
inductive Starts (m' : Manager NodeConfig) (next : Next NodeConfig) : Prop where
  | goes (pc' : Pc NodeConfig) (hnext : next = .goto pc') (hboots : pc'.boots = true)
      (hfits : Fits m' pc')
  | ready (hnext : next = .ready) (hpath : m'.overlayPath = m'.persisted.getD "")
  | aborts (error : String) (hnext : next = .abort error)

theorem advance_starts (env : Settings NodeConfig) (answer : Answer NodeConfig)
    (m : Manager NodeConfig) {pc : Pc NodeConfig} (hboots : pc.boots = true) (hfits : Fits m pc) :
    Starts (advance env answer m pc).1 (advance env answer m pc).2 ∧
      (advance env answer m pc).1.persisted.getD "" =
        (completes answer m pc).getD (m.persisted.getD "") := by
  cases pc with
  | readPersisted =>
      obtain ⟨effective, overlayPath, misses, hold, baseline, persisted⟩ := m
      cases persisted with
      | none => exact ⟨.goes _ rfl rfl ⟨hfits, rfl⟩, rfl⟩
      | some path =>
          by_cases hempty : path = ""
          · subst hempty
            exact ⟨.goes _ rfl rfl ⟨hfits, rfl⟩, rfl⟩
          · have hne : (path == "") = false := by rw [beq_eq_false_iff_ne]; exact hempty
            simp only [advance, completes, if_neg hempty, Option.all_some, hne, Bool.false_or]
            cases answer.regularFile with
            | true => exact ⟨.goes _ rfl rfl ⟨rfl, rfl⟩, rfl⟩
            | false => exact ⟨.goes _ rfl rfl ⟨hfits, rfl⟩, rfl⟩
  | load t =>
      simp only [advance]
      cases answer.loaded with
      | ok config => exact ⟨.goes _ rfl hboots hfits, rfl⟩
      | error error => exact ⟨.goes _ rfl hboots hfits, rfl⟩
  | commit t config =>
      obtain ⟨kind, base⟩ := t
      exact ⟨.goes _ rfl hboots hfits, rfl⟩
  | announce t saved => exact ⟨.goes _ rfl hboots hfits, rfl⟩
  | notify t saved config next =>
      simp only [advance]
      split
      · split
        · exact ⟨.goes _ rfl hboots hfits, rfl⟩
        · exact ⟨.goes _ rfl hboots hfits, rfl⟩
      · exact ⟨.goes _ rfl hboots hfits, rfl⟩
  | rollback t saved error =>
      simp only [advance]
      split
      · exact ⟨.goes _ rfl hboots hfits, rfl⟩
      · exact ⟨.goes _ rfl hboots hfits, rfl⟩
  | reannounce t error => exact ⟨.goes _ rfl hboots hfits, rfl⟩
  | renotify t config next error =>
      simp only [advance]
      split
      · split
        · exact ⟨.goes _ rfl hboots hfits, rfl⟩
        · exact ⟨.goes _ rfl hboots hfits, rfl⟩
      · exact ⟨.goes _ rfl hboots hfits, rfl⟩
  | applied t =>
      obtain ⟨kind, base⟩ := t
      obtain ⟨hpath, hsaved⟩ := hfits
      cases kind with
      | restore path => exact ⟨.ready rfl (hpath.trans hsaved.symm), rfl⟩
      | initial => exact ⟨.ready rfl (hpath.trans hsaved.symm), rfl⟩
      | _ => cases hboots
  | failed t error =>
      obtain ⟨kind, base⟩ := t
      cases kind with
      | restore path => exact ⟨.goes _ rfl rfl ⟨rfl, rfl⟩, rfl⟩
      | initial => exact ⟨.aborts error rfl, rfl⟩
      | _ => cases hboots
  | _ => cases hboots

/-! ## The invariant -/

/-- No activation is under way, and the current overlay is that of the last completed switch. -/
def Settled (l : Lifetime NodeConfig) : Prop :=
  NoneActivating l.state ∧ l.state.manager.overlayPath = l.completed

/-- One activation is under way, which has replaced the overlay of the last completed switch. -/
structure Activating (l : Lifetime NodeConfig) (id : Nat) (t : Transition) : Prop where
  call : ∃ pc, l.state.calls id = some pc ∧ pc.activation = some t
  others : ∀ j pc, j ≠ id → l.state.calls j = some pc → pc.activation = none
  base : t.base = some l.completed
  path : l.state.manager.overlayPath = t.kind.target
  reverts : ∀ j pc, l.state.calls j = some pc → pc.reverts = false

section

variable {s t : State NodeConfig} {id : Nat} {m : Manager NodeConfig} {next : Next NodeConfig}
  {pc : Pc NodeConfig} {tr : Transition}

theorem noneActivating_ran
    (hothers : ∀ j pc, j ≠ id → s.calls j = some pc → pc.activation = none)
    (hran : Ran s t id m next) (hnext : next.activation = none) : NoneActivating t := by
  intro j pc hpc
  by_cases hj : j = id
  · subst hj
    rw [hran.self] at hpc
    rwa [Next.activation, hpc] at hnext
  · rw [hran.other hj] at hpc
    exact hothers j pc hj hpc

theorem activation_of_pc_none (hnext : next.pc = none) : next.activation = none := by
  rw [Next.activation, hnext]
  rfl

theorem Activating.transition_eq {l : Lifetime NodeConfig} {busy : Nat}
    (h : Activating l busy tr) (hpc : l.state.calls id = some pc) (hsome : pc.activation ≠ none) :
    id = busy ∧ pc.activation = some tr := by
  have hid : id = busy := by
    by_contra hne
    exact hsome (h.others id pc hne hpc)
  obtain ⟨pc', hpc', hactivation⟩ := h.call
  rw [← hid, hpc] at hpc'
  rw [Option.some.inj hpc']
  exact ⟨hid, hactivation⟩

theorem activation_of_kind {path previous : String} (ht : pc.transition = some tr)
    (hk : tr.kind = .activate path previous) : pc.activation = some tr := by
  rw [Pc.activation, ht, Option.filter_some, if_pos (by rw [hk]; rfl)]

/-- An open switch of no call: none is a return to the default that has committed. -/
theorem reverts_of_noneOpen (h : NoneOpen s) {j : Nat} (hpc : s.calls j = some pc) :
    pc.reverts = false := by
  have hclosed := h j pc hpc
  cases pc with
  | announce t saved => cases hclosed
  | notify t saved config next => cases hclosed
  | applied t =>
      cases hk : t.kind with
      | revert fromLease => simp only [Pc.window, hk] at hclosed; cases hclosed
      | _ => simp only [Pc.reverts, hk, Kind.reverts]
  | _ => rfl

end

section

variable {env : Settings NodeConfig} {l : Lifetime NodeConfig} {s : State NodeConfig} {id : Nat}
  {answer : Answer NodeConfig} {m : Manager NodeConfig} {next : Next NodeConfig}
  {pc : Pc NodeConfig}

/-- A stretch of a call while no activation is under way. -/
theorem Settled.ran (h : Settled l) (hsaved : l.state.manager.persisted.getD "" = l.completed)
    (hpc : l.state.calls id = some pc) (hguard : Orderly env l (.act (.run id answer)))
    (hran : Ran l.state s id m next) (heffect : Effect answer l.state.manager pc m next) :
    s.manager.persisted.getD "" = (completes answer l.state.manager pc).getD l.completed ∧
      (Settled ⟨s, (completes answer l.state.manager pc).getD l.completed⟩ ∨
        ∃ t, Activating ⟨s, (completes answer l.state.manager pc).getD l.completed⟩ id t) := by
  obtain ⟨hnone, hcurrent⟩ := h
  have hothers : ∀ j pc, j ≠ id → l.state.calls j = some pc → pc.activation = none :=
    fun j pc _ => hnone j pc
  obtain ⟨hserialized, hguard⟩ := hguard
  rw [← hran.manager] at heffect
  cases heffect with
  | none hpath hfile hdone hactivation _ =>
      rw [hdone]
      refine ⟨by rw [hfile]; exact hsaved, .inl ⟨?_, hpath.trans hcurrent⟩⟩
      exact noneActivating_ran hothers hran (hactivation.trans (hnone id pc hpc))
  | commits t config fromLease hcommit hk hpath hfile hactivation =>
      subst hcommit
      refine ⟨by rw [hfile]; exact hsaved, .inl ⟨?_, hpath.trans hcurrent⟩⟩
      exact noneActivating_ran hothers hran hactivation
  | claims path previous hold hclaim hne hpath hfile hactivation hreverts =>
      subst hclaim
      have hopen : NoneOpen l.state := by
        simp only [Serialized, hpc] at hserialized
        exact (hserialized.resolve_left hne).2
      refine ⟨by rw [hfile]; exact hsaved, .inr
        ⟨{ kind := .activate path previous, base := some l.state.manager.overlayPath },
          ?_, ?_, congrArg some hcurrent, hpath, ?_⟩⟩
      · obtain ⟨pc', hnext, hpc'⟩ := Option.bind_eq_some_iff.mp hactivation
        exact ⟨pc', hran.self.trans hnext, hpc'⟩
      · intro j pc' hj hpc'
        exact hothers j pc' hj ((hran.other hj).symm.trans hpc')
      · intro j pc' hpc'
        by_cases hj : j = id
        · subst hj
          rw [Next.reverts, ← hran.self, hpc', Option.any_some] at hreverts
          exact hreverts
        · exact reverts_of_noneOpen hopen ((hran.other hj).symm.trans hpc')
  | renews previous hold hclaim hpath hfile hnext =>
      subst hclaim
      simp only [hpc] at hguard
      refine ⟨?_, .inl ⟨?_, hpath.trans hcurrent⟩⟩
      · rw [hfile hguard.2]
        exact hcurrent
      · exact noneActivating_ran hothers hran (activation_of_pc_none hnext)
  | saves t path previous happlied hk hdone =>
      subst happlied
      have hactivation := hnone id _ hpc
      rw [activation_of_kind rfl hk] at hactivation
      cases hactivation
  | clears t happlied _ hpath hfile hnext hdone =>
      rw [hdone]
      refine ⟨?_, .inl ⟨?_, hpath⟩⟩
      · rw [hfile]
        rfl
      · exact noneActivating_ran hothers hran (activation_of_pc_none hnext)
  | yields t error path previous hfailed hk hpath hfile hnext =>
      subst hfailed
      have hactivation := hnone id _ hpc
      rw [activation_of_kind rfl hk] at hactivation
      cases hactivation

/-- A stretch of a call while an activation is under way. -/
theorem Activating.ran {busy : Nat} {tr : Transition} (h : Activating l busy tr)
    (hsaved : l.state.manager.persisted.getD "" = l.completed)
    (hpc : l.state.calls id = some pc) (hguard : Orderly env l (.act (.run id answer)))
    (hran : Ran l.state s id m next) (heffect : Effect answer l.state.manager pc m next) :
    s.manager.persisted.getD "" = (completes answer l.state.manager pc).getD l.completed ∧
      (Settled ⟨s, (completes answer l.state.manager pc).getD l.completed⟩ ∨
        Activating ⟨s, (completes answer l.state.manager pc).getD l.completed⟩ busy tr) := by
  -- The guard lets no call claim or commit while an activation is under way.
  have hbusy : ¬NoneActivating l.state := by
    intro hnone
    obtain ⟨pc', hpc', hactivation⟩ := h.call
    rw [hnone busy pc' hpc'] at hactivation
    cases hactivation
  obtain ⟨hserialized, hguard⟩ := hguard
  rw [← hran.manager] at heffect
  cases heffect with
  | none hpath hfile hdone hactivation hreverts =>
      rw [hdone]
      refine ⟨by rw [hfile]; exact hsaved, .inr ⟨?_, ?_, h.base, hpath.trans h.path, ?_⟩⟩
      · obtain ⟨pc', hpc', htr⟩ := h.call
        by_cases hid : busy = id
        · subst hid
          rw [hpc] at hpc'
          obtain rfl := Option.some.inj hpc'
          obtain ⟨pc', hnext, hpc'⟩ := Option.bind_eq_some_iff.mp (hactivation.trans htr)
          exact ⟨pc', hran.self.trans hnext, hpc'⟩
        · exact ⟨pc', (hran.other hid).trans hpc', htr⟩
      · intro j pc' hj hpc'
        by_cases hid : j = id
        · subst hid
          have hself := hran.self.symm.trans hpc'
          rw [Next.activation, hself, Option.bind_some] at hactivation
          exact hactivation.trans (h.others j pc hj hpc)
        · exact h.others j pc' hj ((hran.other hid).symm.trans hpc')
      · intro j pc' hpc'
        by_cases hid : j = id
        · subst hid
          by_contra hreverting
          rw [Bool.not_eq_false] at hreverting
          have hself := hran.self.symm.trans hpc'
          have hwas := hreverts (by rw [Next.reverts, hself]; exact hreverting)
          rw [h.reverts j pc hpc] at hwas
          cases hwas
        · exact h.reverts j pc' ((hran.other hid).symm.trans hpc')
  | commits t config fromLease hcommit hk _ _ _ =>
      subst hcommit
      simp only [hpc, hk] at hguard
      exact absurd hguard hbusy
  | claims path previous hold hclaim _ _ _ _ _ =>
      subst hclaim
      simp only [hpc] at hguard
      exact absurd hguard.1 hbusy
  | renews previous hold hclaim _ _ _ =>
      subst hclaim
      simp only [hpc] at hguard
      exact absurd hguard.1 hbusy
  | saves t path previous happlied hk hdone =>
      subst happlied
      simp only [hpc, hk] at hguard
      obtain ⟨hpath, hfile, hnext, hcompletes⟩ := hdone hguard
      have hself : (Pc.applied t : Pc NodeConfig).activation = some t := activation_of_kind rfl hk
      obtain ⟨rfl, htr⟩ := h.transition_eq hpc (by rw [hself]; exact Option.some_ne_none t)
      obtain rfl := Option.some.inj (hself.symm.trans htr)
      -- The call that saves is the activation, so the path is still the one it claimed.
      have htarget : l.state.manager.overlayPath = path := by rw [h.path, hk]; rfl
      rw [hcompletes]
      refine ⟨?_, .inl ⟨?_, hpath.trans htarget⟩⟩
      · rw [hfile]
        rfl
      · exact noneActivating_ran h.others hran (activation_of_pc_none hnext)
  | clears t happlied hreverting _ _ _ _ =>
      rw [h.reverts id pc hpc] at hreverting
      cases hreverting
  | yields t error path previous hfailed hk hpath hfile hnext =>
      subst hfailed
      simp only [Serialized, hpc, hk] at hserialized
      have hself : (Pc.failed t error : Pc NodeConfig).activation = some t :=
        activation_of_kind rfl hk
      obtain ⟨rfl, htr⟩ := h.transition_eq hpc (by rw [hself]; exact Option.some_ne_none t)
      obtain rfl := Option.some.inj (hself.symm.trans htr)
      have hprevious : previous = l.completed :=
        Option.some.inj (hserialized.symm.trans h.base)
      have hdone : completes answer l.state.manager (.failed t error) = Option.none := by
        simp only [completes, hk]
      rw [hdone]
      refine ⟨by rw [hfile]; exact hsaved, .inl ⟨?_, hpath.trans hprevious⟩⟩
      exact noneActivating_ran h.others hran (activation_of_pc_none hnext)

end

/-! ## Runs -/

/-- What holds between any two steps of a run, restarts included. -/
structure Kept (env : Settings NodeConfig) (l : Lifetime NodeConfig) : Prop where
  inv : Inv env l.state
  saved : l.state.manager.persisted.getD "" = l.completed
  starting : l.state.phase = .loading → ∃ id pc, l.state.calls id = some pc ∧ pc.boots = true ∧
    Fits l.state.manager pc ∧ ∀ j, j ≠ id → l.state.calls j = none
  booted : l.state.phase = .ready → ∀ id pc, l.state.calls id = some pc → pc.boots = false
  running : l.state.phase = .ready → Settled l ∨ ∃ id t, Activating l id t

section

variable {env : Settings NodeConfig} {l l' : Lifetime NodeConfig}

/-- A state without calls, in which `load_initial` has not returned. -/
theorem kept_of_constructed {s : State NodeConfig} {completed : String} (hinitial : Initial s)
    (hsaved : s.manager.persisted.getD "" = completed) : Kept env ⟨s, completed⟩ where
  inv := inv_initial hinitial
  saved := hsaved
  starting h := by
    rw [hinitial.1] at h
    cases h
  booted h := by
    rw [hinitial.1] at h
    cases h
  running h := by
    rw [hinitial.1] at h
    cases h

theorem Kept.call (h : Kept env l) {id : Nat} {c : Call} {s : State NodeConfig}
    (hs : step env l.state (.call id c) = some s) : Kept env ⟨s, l.completed⟩ := by
  have hinv : Inv env s := inv_call h.inv hs
  simp only [step] at hs
  split at hs
  · cases hs
  · rename_i hfree
    split at hs
    · rename_i hphase
      obtain rfl := Option.some.inj hs
      -- `load_initial` is called first and alone; every other call only begins.
      by_cases hinit : c = .loadInitial
      · subst hinit
        obtain ⟨hnone, hempty⟩ := h.inv.constructed hphase
        refine ⟨hinv, h.saved, fun _ => ?_, fun hno => ?_, fun hno => ?_⟩
        · refine ⟨id, .readPersisted, Function.update_self .., rfl, hempty, fun j hj => ?_⟩
          exact (Function.update_of_ne hj ..).trans (hnone j)
        · cases hno
        · cases hno
      · have hready : l.state.phase = .ready := by
          cases c with
          | loadInitial => exact absurd rfl hinit
          | _ => exact hphase
        have hwas : c.phase = .ready := hphase.symm.trans hready
        have hstart : (c.start : Pc NodeConfig).boots = false ∧
            (c.start : Pc NodeConfig).activation = none ∧
            (c.start : Pc NodeConfig).reverts = false := by
          cases c with
          | loadInitial => exact absurd rfl hinit
          | _ => exact ⟨rfl, rfl, rfl⟩
        have hcalls : ∀ j pc, Function.update l.state.calls id (some c.start) j = some pc →
            j = id ∧ pc = c.start ∨ j ≠ id ∧ l.state.calls j = some pc := by
          intro j pc hpc
          by_cases hj : j = id
          · subst hj
            rw [Function.update_self] at hpc
            exact .inl ⟨rfl, (Option.some.inj hpc).symm⟩
          · rw [Function.update_of_ne hj] at hpc
            exact .inr ⟨hj, hpc⟩
        refine ⟨hinv, h.saved, fun hno => ?_, fun _ j pc hpc => ?_, fun _ => ?_⟩
        · simp only [hwas, reduceCtorEq, if_false] at hno
          rw [hready] at hno
          cases hno
        · obtain ⟨-, rfl⟩ | ⟨-, hpc⟩ := hcalls j pc hpc
          · exact hstart.1
          · exact h.booted hready j pc hpc
        · obtain ⟨hnone, hcurrent⟩ | ⟨busy, t, hbusy⟩ := h.running hready
          · refine .inl ⟨fun j pc hpc => ?_, hcurrent⟩
            obtain ⟨-, rfl⟩ | ⟨-, hpc⟩ := hcalls j pc hpc
            · exact hstart.2.1
            · exact hnone j pc hpc
          · refine .inr ⟨busy, t, ?_, fun j pc hj hpc => ?_, hbusy.base, hbusy.path,
              fun j pc hpc => ?_⟩
            · obtain ⟨pc, hpc, hactivation⟩ := hbusy.call
              have hne : busy ≠ id := by
                rintro rfl
                rw [hfree] at hpc
                cases hpc
              exact ⟨pc, (Function.update_of_ne hne ..).trans hpc, hactivation⟩
            · obtain ⟨-, rfl⟩ | ⟨-, hpc⟩ := hcalls j pc hpc
              · exact hstart.2.1
              · exact hbusy.others j pc hj hpc
            · obtain ⟨-, rfl⟩ | ⟨-, hpc⟩ := hcalls j pc hpc
              · exact hstart.2.2
              · exact hbusy.reverts j pc hpc
    · cases hs

/-- The phase after a stretch of code. -/
def Next.phase (next : Next NodeConfig) (phase : Phase) : Phase :=
  match next with
  | .abort _ => .aborted
  | .ready => .ready
  | _ => phase

theorem step_ran {s t : State NodeConfig} {id : Nat} {answer : Answer NodeConfig}
    {pc : Pc NodeConfig} (hpc : s.calls id = some pc)
    (ht : Overlay.step env s (.run id answer) = some t) :
    s.phase ≠ .aborted ∧
      Ran s t id (advance env answer s.manager pc).1 (advance env answer s.manager pc).2 ∧
      t.phase = (advance env answer s.manager pc).2.phase s.phase := by
  simp only [Overlay.step, hpc] at ht
  split at ht
  · cases ht
  · rename_i hphase
    obtain rfl := Option.some.inj ht
    refine ⟨hphase, ⟨proceed_manager .., fun x hx => ?_, proceed_calls ..⟩, ?_⟩
    · rw [proceed_loads]
      exact List.mem_append_left _ hx
    · cases (advance env answer s.manager pc).2 <;> rfl

/-- A stretch of `load_initial`. -/
theorem Kept.starts (h : Kept env l) {id : Nat} {answer : Answer NodeConfig} {s : State NodeConfig}
    {pc : Pc NodeConfig} (hinv : Inv env s) (hwas : l.state.phase = .loading)
    (hpc : l.state.calls id = some pc)
    (hran : Ran l.state s id (advance env answer l.state.manager pc).1
      (advance env answer l.state.manager pc).2)
    (hphase : s.phase = (advance env answer l.state.manager pc).2.phase l.state.phase) :
    Kept env ⟨s, (completes answer l.state.manager pc).getD l.completed⟩ := by
  obtain ⟨boot, pc₀, hpc₀, hboots, hfits, halone⟩ := h.starting hwas
  -- Nothing but `load_initial` runs until the node is ready.
  have hid : id = boot := by
    by_contra hne
    rw [halone id hne] at hpc
    cases hpc
  subst hid
  rw [hpc] at hpc₀
  obtain rfl := Option.some.inj hpc₀
  obtain ⟨hstarts, hfile⟩ := advance_starts env answer l.state.manager hboots hfits
  rw [← hran.manager, h.saved] at hfile
  rw [← hran.manager] at hstarts
  have hothers : ∀ j, j ≠ id → s.calls j = none := fun j hj => (hran.other hj).trans (halone j hj)
  have hself := hran.self
  generalize (advance env answer l.state.manager pc).2 = next at hstarts hphase hself
  cases hstarts with
  | goes pc' hnext hboots' hfits' =>
      subst hnext
      have hloading : s.phase = .loading := hphase.trans hwas
      refine ⟨hinv, hfile, fun _ => ⟨id, pc', hself, hboots', hfits', hothers⟩, fun hready => ?_,
        fun hready => ?_⟩
      · exact absurd (hready.symm.trans hloading) (by decide)
      · exact absurd (hready.symm.trans hloading) (by decide)
  | ready hnext hpath =>
      subst hnext
      have hready : s.phase = .ready := hphase
      have hnone : ∀ j, s.calls j = none := by
        intro j
        by_cases hj : j = id
        · rw [hj, hself]
          rfl
        · exact hothers j hj
      refine ⟨hinv, hfile, fun hloading => ?_, fun _ j pc' hpc' => ?_, fun _ => .inl ⟨?_, ?_⟩⟩
      · exact absurd (hloading.symm.trans hready) (by decide)
      · rw [hnone j] at hpc'
        cases hpc'
      · intro j pc' hpc'
        rw [hnone j] at hpc'
        cases hpc'
      · exact hpath.trans hfile
  | aborts error hnext =>
      subst hnext
      have haborted : s.phase = .aborted := hphase
      refine ⟨hinv, hfile, fun hloading => ?_, fun hready => ?_, fun hready => ?_⟩
      · exact absurd (hloading.symm.trans haborted) (by decide)
      · exact absurd (hready.symm.trans haborted) (by decide)
      · exact absurd (hready.symm.trans haborted) (by decide)

/-- A stretch of a call of a node that has started. -/
theorem Kept.runs (h : Kept env l) {id : Nat} {answer : Answer NodeConfig} {s : State NodeConfig}
    {pc : Pc NodeConfig} (hinv : Inv env s) (hwas : l.state.phase = .ready)
    (hpc : l.state.calls id = some pc) (hguard : Orderly env l (.act (.run id answer)))
    (hran : Ran l.state s id (advance env answer l.state.manager pc).1
      (advance env answer l.state.manager pc).2)
    (hphase : s.phase = (advance env answer l.state.manager pc).2.phase l.state.phase) :
    Kept env ⟨s, (completes answer l.state.manager pc).getD l.completed⟩ := by
  have hboots := h.booted hwas id pc hpc
  have heffect := advance_effect env answer l.state.manager hboots
  -- The path may move in an activation, the file only at its end.
  have hmoved : s.manager.persisted.getD "" =
        (completes answer l.state.manager pc).getD l.completed ∧
      (Settled ⟨s, (completes answer l.state.manager pc).getD l.completed⟩ ∨
        ∃ j t, Activating ⟨s, (completes answer l.state.manager pc).getD l.completed⟩ j t) := by
    obtain hsettled | ⟨busy, t, hbusy⟩ := h.running hwas
    · obtain ⟨hfile, hafter⟩ := hsettled.ran h.saved hpc hguard hran heffect
      exact ⟨hfile, hafter.imp_right fun ht => ⟨id, ht⟩⟩
    · obtain ⟨hfile, hafter⟩ := hbusy.ran h.saved hpc hguard hran heffect
      exact ⟨hfile, hafter.imp_right fun ht => ⟨busy, t, ht⟩⟩
  refine ⟨hinv, hmoved.1, fun hloading => ?_, fun _ j pc' hpc' => ?_, fun _ => hmoved.2⟩
  · rw [hphase, hwas] at hloading
    unfold Next.phase at hloading
    split at hloading <;> cases hloading
  · by_cases hj : j = id
    · subst hj
      exact boots_next env answer l.state.manager hboots (hran.self.symm.trans hpc')
    · exact h.booted hwas j pc' ((hran.other hj).symm.trans hpc')

theorem Kept.run (h : Kept env l) {id : Nat} {answer : Answer NodeConfig} {s : State NodeConfig}
    {pc : Pc NodeConfig} (hpc : l.state.calls id = some pc)
    (hguard : Orderly env l (.act (.run id answer)))
    (hs : Overlay.step env l.state (.run id answer) = some s) :
    Kept env ⟨s, (completes answer l.state.manager pc).getD l.completed⟩ := by
  have hinv : Inv env s := inv_run h.inv hguard.1 hs
  obtain ⟨hrunning, hran, hphase⟩ := step_ran hpc hs
  cases hwas : l.state.phase with
  | constructed =>
      rw [(h.inv.constructed hwas).1 id] at hpc
      cases hpc
  | aborted => exact absurd hwas hrunning
  | loading => exact h.starts hinv hwas hpc hran hphase
  | ready => exact h.runs hinv hwas hpc hguard hran hphase

theorem Kept.step (h : Kept env l) {a : LifeAction NodeConfig} (hguard : Orderly env l a)
    (hs : lifeStep env l a = some l') : Kept env l' := by
  cases a with
  | restart config =>
      obtain rfl := Option.some.inj hs
      exact kept_of_constructed ⟨rfl, fun _ => rfl, rfl⟩ h.saved
  | act a =>
      simp only [lifeStep] at hs
      split at hs
      · cases hs
      · rename_i s hstep
        obtain rfl := Option.some.inj hs
        cases a with
        | call id c => exact h.call hstep
        | run id answer =>
            cases hpc : l.state.calls id with
            | none => simp only [Overlay.step, hpc] at hstep; cases hstep
            | some pc =>
                have hrun := h.run hpc hguard hstep
                simpa only [hpc, Option.bind_some] using hrun

end

/-! ## Two runs -/

/-- The call that an action is a step of. -/
def LifeAction.id : LifeAction NodeConfig → Option Nat
  | .act a => some a.id
  | .restart _ => none

/-- Only the calls `ids` are in progress. -/
def Within (ids : List Nat) (l : Lifetime NodeConfig) : Prop :=
  ∀ j, j ∉ ids → l.state.calls j = none

theorem Within.step {env : Settings NodeConfig} {ids : List Nat} {l l' : Lifetime NodeConfig}
    {a : LifeAction NodeConfig} (h : Within ids l) (ha : ∀ id, a.id = some id → id ∈ ids)
    (hs : lifeStep env l a = some l') : Within ids l' := by
  cases a with
  | restart config =>
      obtain rfl := Option.some.inj hs
      exact fun _ _ => rfl
  | act a =>
      intro j hj
      have hne : j ≠ a.id := by
        rintro rfl
        exact hj (ha a.id rfl)
      simp only [lifeStep] at hs
      split at hs
      · cases hs
      · rename_i s hstep
        obtain rfl := Option.some.inj hs
        exact (step_calls_other hstep hne).trans (h j hj)

theorem Within.exec {env : Settings NodeConfig} {ids : List Nat} {as : List (LifeAction NodeConfig)}
    {l l' : Lifetime NodeConfig} (h : Within ids l)
    (has : ∀ a ∈ as, ∀ id, a.id = some id → id ∈ ids)
    (hs : Run.exec (lifeStep env) l as = some l') : Within ids l' := by
  induction as generalizing l with
  | nil =>
      obtain rfl := Option.some.inj hs
      exact h
  | cons a as ih =>
      obtain ⟨l₁, hfirst, hrest⟩ := Option.bind_eq_some_iff.mp hs
      exact ih (h.step (has a List.mem_cons_self) hfirst)
        (fun b hb => has b (List.mem_cons_of_mem a hb)) hrest

theorem idle_of_within {ids : List Nat} {l : Lifetime NodeConfig} (h : Within ids l)
    (hids : (ids.all fun j => (l.state.calls j).isNone) = true) : Idle l.state := by
  intro j
  by_cases hj : j ∈ ids
  · exact Option.isNone_iff_eq_none.mp (List.all_eq_true.mp hids j hj)
  · exact h j hj

/-- A test of the guard for states in which only the calls `ids` are in progress. -/
def orderlyTest (env : Settings NodeConfig) (ids : List Nat) (l : Lifetime NodeConfig) :
    LifeAction NodeConfig → Bool
  | .restart _ => true
  | .act a =>
      serializedTest env ids l.state a &&
        match a with
        | .call _ _ => true
        | .run id answer =>
            match l.state.calls id with
            | some (.claim path _ _) =>
                (ids.all fun j => (l.state.calls j).all fun pc => pc.activation.isNone) &&
                  decide (Saves answer path)
            | some (.commit t _) => t.kind.claims
            | some (.applied t) => decide (Saves answer t.kind.target)
            | _ => true

theorem orderly_of_test {env : Settings NodeConfig} {ids : List Nat} {l : Lifetime NodeConfig}
    {a : LifeAction NodeConfig} (h : Within ids l) (ha : orderlyTest env ids l a = true) :
    Orderly env l a := by
  cases a with
  | restart config => trivial
  | act a =>
      obtain ⟨hserialized, ha⟩ := Bool.and_eq_true_iff.mp ha
      refine ⟨serialized_of_test h hserialized, ?_⟩
      cases a with
      | call id c => trivial
      | run id answer =>
          cases hpc : l.state.calls id with
          | none => simp only [hpc]
          | some pc =>
              cases pc
              case claim path previous hold =>
                simp only [hpc, Bool.and_eq_true, List.all_eq_true, Option.all_eq_true,
                  Option.isNone_iff_eq_none, decide_eq_true_eq] at ha
                simp only [hpc]
                refine ⟨fun j pc' hpc' => ?_, ha.2⟩
                by_cases hj : j ∈ ids
                · exact ha.1 j hj pc' hpc'
                · rw [h j hj] at hpc'
                  cases hpc'
              case commit t config =>
                simp only [hpc] at ha
                cases hk : t.kind <;> simp [hpc, hk, Kind.claims] at ha ⊢
              case applied t =>
                simp only [hpc, decide_eq_true_eq] at ha
                cases hk : t.kind with
                | activate path previous =>
                    rw [hk, Kind.target] at ha
                    simpa only [hpc, hk] using ha
                | revert fromLease => simp only [hpc, hk]
                | reload path => simp only [hpc, hk]
                | restore path => simp only [hpc, hk]
                | initial => simp only [hpc, hk]
              all_goals simp only [hpc]

def firstLife : Lifetime String := { state := constructed }

/-- The process is killed while it switches from one overlay to another, and started again. -/
def killedRun : List (LifeAction String) :=
  activateRun.map LifeAction.act ++
  [LifeAction.act (.call 2 (.activateOverlay "b.yaml" (some 5))), .act (.run 2 {}),
    .act (.run 2 {}), .act (.run 2 {}), .act (.run 2 { loaded := .ok "b" }), .act (.run 2 {}), .restart "",
    .act (.call 3 .loadInitial), .act (.run 3 {})] ++
  (applyRun 3 "a").map LifeAction.act ++ [LifeAction.act (.run 3 {})]

/-- A return to the default that runs between the end of `apply_config` and the saving of the
path, in an activation. -/
def overtakenRun : List (LifeAction String) :=
  startRun.map LifeAction.act ++
  [LifeAction.act (.call 1 (.activateOverlay "a.yaml" (some 5))), .act (.run 1 {}), .act (.run 1 {}),
    .act (.run 1 {})] ++
  (applyRun 1 "a").map LifeAction.act ++ [LifeAction.act (.call 2 .revertToDefault)] ++
  (applyRun 2 "d").map LifeAction.act ++ [LifeAction.act (.run 2 {}), .act (.run 1 {})]

/-- The default is in effect, and the next process will restore the overlay. -/
theorem saved_without_overlay :
    ∃ l, Run.Reachable (lifeStep uavSettings) FirstLife l ∧ l.state.phase = .ready ∧
      Idle l.state ∧ l.state.manager.overlayPath = "" ∧
      l.state.manager.effective.activeSource = uavSettings.defaultConfigPath ∧
      l.state.manager.persisted = some "a.yaml" := by
  have hrun : ((Run.exec (lifeStep uavSettings) firstLife overtakenRun).map fun l =>
      (l.state.phase, ([0, 1, 2].all fun j => (l.state.calls j).isNone),
        l.state.manager.overlayPath, l.state.manager.effective.activeSource,
        l.state.manager.persisted)) =
      some (.ready, true, "", "default.yaml", some "a.yaml") := by decide +kernel
  obtain ⟨l, hl, hval⟩ := Option.map_eq_some_iff.mp hrun
  simp only [Prod.mk.injEq] at hval
  obtain ⟨hphase, hcalls, hpath, hsource, hfile⟩ := hval
  have hids : ∀ a ∈ overtakenRun, ∀ id, a.id = some id → id ∈ [0, 1, 2] := by decide +kernel
  have hfirst : Within [0, 1, 2] firstLife := fun _ _ => rfl
  exact ⟨l, Run.Reachable.exec (.start ⟨⟨rfl, fun _ => rfl, rfl⟩, rfl⟩) hl, hphase,
    idle_of_within (hfirst.exec hids hl) hcalls, hpath, hsource, hfile⟩

end UavBluetooth.Config.Overlay
