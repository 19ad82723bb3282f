import UavBluetooth.Config.OverlayConfigManager

set_option autoImplicit false

/-! # Open switches

`activate_overlay` writes the overlay path before it switches the configuration,
`revert_to_default` clears it afterwards, and neither holds a lock across the two. A switch is
*open* between its first and its last change (`Pc.window`). This file says which steps keep
path and configuration together (`Serialized`), and what one stretch of a call can change at
all (`Change`, `advance_change`); `OverlayLease.lean` draws the conclusions for whole runs.
-/

namespace UavBluetooth.Config.Overlay

variable {NodeConfig : Type}

/-! ## Open switches -/

/-- Whether the transition writes the overlay path before it applies the configuration. -/
def Kind.claims : Kind → Bool
  | .activate _ _ => true
  | .restore _ => true
  | .initial => true
  | .revert _ => false
  | .reload _ => false

/-- How far an open switch has come. -/
inductive Window (NodeConfig : Type) where
  /-- The path is written, the configuration is still (or again) the old one. -/
  | claimed
  /-- The configuration is the new one, and the old one may still be restored. -/
  | switched (saved : Effective NodeConfig)
  /-- The configuration is the new one for good, the path is still to be cleared. -/
  | landed

/-- The open switch of a call, if it has one. -/
def Pc.window : Pc NodeConfig → Option (Transition × Window NodeConfig)
  | .readPersisted => some ({ kind := .initial }, .claimed)
  | .load t => if t.kind.claims then some (t, .claimed) else none
  | .commit t _ => if t.kind.claims then some (t, .claimed) else none
  | .announce t saved => some (t, .switched saved)
  | .notify t saved _ _ => some (t, .switched saved)
  | .rollback t saved _ => some (t, .switched saved)
  | .reannounce t _ => if t.kind.claims then some (t, .claimed) else none
  | .renotify t _ _ _ => if t.kind.claims then some (t, .claimed) else none
  | .failed t _ => if t.kind.claims then some (t, .claimed) else none
  | .applied t =>
      match t.kind with
      | .revert _ => some (t, .landed)
      | _ => none
  | _ => none

def Next.window : Next NodeConfig → Option (Transition × Window NodeConfig)
  | .goto pc => pc.window
  | _ => none

/-- The next program counter of a call that goes on. -/
def Next.pc : Next NodeConfig → Option (Pc NodeConfig)
  | .goto pc => some pc
  | _ => none

/-- The transition with the path that is current when it commits. -/
def Transition.atCommit (t : Transition) (m : Manager NodeConfig) : Transition :=
  { t with
    base := match t.kind with
      | .revert _ | .reload _ => some m.overlayPath
      | _ => t.base }

/-- No call has an open switch. -/
def NoneOpen (s : State NodeConfig) : Prop :=
  ∀ id pc, s.calls id = some pc → pc.window = none

/-- Every open switch leads from a configuration to the same one. -/
def OnlyNeutral (s : State NodeConfig) : Prop :=
  ∀ id pc, s.calls id = some pc → ∀ t w, pc.window = some (t, w) → t.base = some t.kind.target

/-- The steps that keep path and configuration together:

* an activation claims a path, other than the default's, while no switch is open (or the path
  is already the current one), and its state file is written or cleaned up without an
  exception;
* the start restores no path that is the default's;
* an activation that fails puts back the path it had replaced;
* a reload commits the path that is still the current one, and a return to the default commits,
  while no switch between two different configurations is open. -/
def Serialized (env : Settings NodeConfig) (s : State NodeConfig) : Action NodeConfig → Prop
  | .call _ _ => True
  | .run id answer =>
      match s.calls id with
      | none => True
      | some (.claim path _ _) =>
          path = s.manager.overlayPath ∨ (path ≠ env.defaultConfigPath ∧ NoneOpen s)
      | some .readPersisted => s.manager.persisted ≠ some env.defaultConfigPath
      | some (.commit t _) =>
          match t.kind with
          | .reload path => path = s.manager.overlayPath ∧ OnlyNeutral s
          | .revert _ => NoneOpen s ∨ (s.manager.overlayPath = "" ∧ OnlyNeutral s)
          | _ => True
      | some (.applied t) =>
          match t.kind with
          | .activate _ _ => answer.persistError = none
          | _ => True
      | some (.failed t _) =>
          match t.kind with
          | .activate _ previous => t.base = some previous
          | _ => True
      | some _ => True

/-! ## What a stretch of code can change -/

/-- The changes of `overlay_path_`, of the effective configuration and of the open switches
that one stretch of a call can make. -/
inductive Change (env : Settings NodeConfig) (answer : Answer NodeConfig)
    (m : Manager NodeConfig) (pc : Pc NodeConfig) (m' : Manager NodeConfig)
    (next : Next NodeConfig) : Prop where
  | silent (hpath : m'.overlayPath = m.overlayPath) (heff : m'.effective = m.effective)
      (hwin : next.window = pc.window)
  | claimed (path previous : String) (hold : Time) (hpc : pc = .claim path previous hold)
      (hne : path ≠ m.overlayPath) (hpath : m'.overlayPath = path)
      (heff : m'.effective = m.effective)
      (hwin : next.window =
        some ({ kind := .activate path previous, base := some m.overlayPath }, .claimed))
  | booted (path : String) (hpc : pc = .readPersisted) (hsaved : m.persisted = some path)
      (hpath : m'.overlayPath = path) (heff : m'.effective = m.effective)
      (hwin : next.window = some ({ kind := .restore path }, .claimed))
  | committed (t : Transition) (config : NodeConfig) (hpc : pc = .commit t config)
      (hpath : m'.overlayPath = m.overlayPath)
      (heff : m'.effective = ⟨config, env.sourceOf t.kind.target, env.keepaliveTopic config⟩)
      (hwin : next.window = some (t.atCommit m, .switched m.effective))
  | landed (t : Transition) (saved : Effective NodeConfig)
      (hpc : pc.window = some (t, .switched saved)) (hpath : m'.overlayPath = m.overlayPath)
      (heff : m'.effective = m.effective)
      (hwin : next.window = (Pc.applied t : Pc NodeConfig).window)
  | rolledBack (t : Transition) (saved : Effective NodeConfig)
      (hpc : pc.window = some (t, .switched saved)) (hpath : m'.overlayPath = m.overlayPath)
      (heff : m'.effective = saved)
      (hwin : next.window = if t.kind.claims then some (t, .claimed) else none)
  | cleared (t : Transition) (fromLease : Bool) (hpc : pc.window = some (t, .landed))
      (hk : t.kind = .revert fromLease) (hpath : m'.overlayPath = "")
      (heff : m'.effective = m.effective) (hwin : next.window = none)
  | unclaimed (t : Transition) (error path previous : String) (hpc : pc = .failed t error)
      (hk : t.kind = .activate path previous) (hpath : m'.overlayPath = previous)
      (heff : m'.effective = m.effective) (hwin : next.window = none)
  | unrestored (t : Transition) (path : String) (hpc : pc.window = some (t, .claimed))
      (hk : t.kind = .restore path) (hpath : m'.overlayPath = "")
      (heff : m'.effective = m.effective)
      (hwin : next.window = some ({ kind := .initial }, .claimed))
  | unsaved (t : Transition) (error path previous : String) (hpc : pc = .applied t)
      (hk : t.kind = .activate path previous) (herror : answer.persistError = some error)
  | aborted (error : String) (hnext : next = .abort error)

theorem persistOverlayPath_ok {path : String} {answer : Answer NodeConfig}
    {m m' : Manager NodeConfig} (h : persistOverlayPath path answer m = .ok m') :
    m'.overlayPath = m.overlayPath ∧ m'.effective = m.effective := by
  unfold persistOverlayPath at h
  split at h
  · cases h
  · cases h
    split <;> exact ⟨rfl, rfl⟩

theorem persistOverlayPath_error {path error : String} {answer : Answer NodeConfig}
    {m : Manager NodeConfig} (h : persistOverlayPath path answer m = .error error) :
    answer.persistError = some error := by
  unfold persistOverlayPath at h
  split at h
  · rename_i error' herror
    cases h
    exact herror
  · cases h

theorem afterApplied_change (env : Settings NodeConfig) (answer : Answer NodeConfig)
    (m : Manager NodeConfig) (t : Transition) :
    Change env answer m (.applied t) (afterApplied t answer m).1 (afterApplied t answer m).2 := by
  unfold afterApplied
  cases hk : t.kind with
  | activate path previous =>
      cases hp : persistOverlayPath path answer m with
      | ok m' =>
          simp only [hp]
          obtain ⟨hpath, heff⟩ := persistOverlayPath_ok hp
          exact .silent hpath heff (by simp [Next.window, Pc.window, hk])
      | error error =>
          exact .unsaved t error path previous rfl hk (persistOverlayPath_error hp)
  | revert fromLease =>
      refine .cleared t fromLease (by simp [Pc.window, hk]) hk rfl rfl ?_
      cases fromLease <;> rfl
  | reload path => exact .silent rfl rfl (by simp [Next.window, Pc.window, hk])
  | restore path => exact .silent rfl rfl (by simp [Next.window, Pc.window, hk])
  | initial => exact .silent rfl rfl (by simp [Next.window, Pc.window, hk])

theorem afterFailed_change (env : Settings NodeConfig) (answer : Answer NodeConfig)
    (m : Manager NodeConfig) (t : Transition) (error : String) :
    Change env answer m (.failed t error) (afterFailed t error answer m).1
      (afterFailed t error answer m).2 := by
  unfold afterFailed
  cases hk : t.kind with
  | activate path previous => exact .unclaimed t error path previous rfl hk rfl rfl rfl
  | revert fromLease =>
      cases fromLease with
      | true => exact .silent rfl rfl (by simp [Next.window, Pc.window, Kind.claims, hk])
      | false => exact .silent rfl rfl (by simp [Next.window, Pc.window, Kind.claims, hk])
  | reload path => exact .silent rfl rfl (by simp [Next.window, Pc.window, Kind.claims, hk])
  | restore path =>
      exact .unrestored t path (by simp [Pc.window, Kind.claims, hk]) hk rfl rfl
        (by simp [Next.window, Pc.window, Kind.claims])
  | initial => exact .aborted error rfl

/-- Every stretch of a call makes one of the changes. -/
theorem advance_change (env : Settings NodeConfig) (answer : Answer NodeConfig)
    (m : Manager NodeConfig) (pc : Pc NodeConfig) :
    Change env answer m pc (advance env answer m pc).1 (advance env answer m pc).2 := by
  cases pc with
  | readPrevious path hold =>
      cases hold with
      | none => exact .silent rfl rfl rfl
      | some hold => exact .silent rfl rfl rfl
  | checkFile path previous hold =>
      simp only [advance]
      split
      · exact .silent rfl rfl rfl
      · split <;> exact .silent rfl rfl rfl
  | claim path previous hold =>
      simp only [advance]
      split
      · split
        · rename_i m' hm'
          obtain ⟨hpath, heff⟩ := persistOverlayPath_ok hm'
          exact .silent hpath heff rfl
        · exact .silent rfl rfl rfl
      · rename_i hne
        exact .claimed path previous hold rfl hne rfl rfl rfl
  | readOverlay => exact .silent rfl rfl rfl
  | leaseStart =>
      simp only [advance]
      split
      · exact .silent rfl rfl rfl
      · split <;> exact .silent rfl rfl rfl
  | leaseProbe topic =>
      simp only [advance]
      split <;> exact .silent rfl rfl rfl
  | leaseFound => exact .silent rfl rfl rfl
  | leaseMissed =>
      simp only [advance]
      split <;> exact .silent rfl rfl rfl
  | readPersisted =>
      simp only [advance]
      split
      · exact .silent rfl rfl rfl
      · rename_i path hsaved
        split
        · exact .silent rfl rfl rfl
        · split
          · exact .booted path rfl hsaved rfl rfl rfl
          · exact .silent rfl rfl rfl
  | load t =>
      simp only [advance]
      split <;> exact .silent rfl rfl rfl
  | commit t config => exact .committed t config rfl rfl rfl rfl
  | announce t saved => exact .silent rfl rfl rfl
  | notify t saved config next =>
      simp only [advance]
      split
      · split <;> exact .silent rfl rfl rfl
      · exact .landed t saved rfl rfl rfl rfl
  | rollback t saved error =>
      simp only [advance]
      refine .rolledBack t saved rfl rfl rfl ?_
      split <;> rfl
  | reannounce t error => exact .silent rfl rfl rfl
  | renotify t config next error =>
      simp only [advance]
      split
      · split <;> exact .silent rfl rfl rfl
      · exact .silent rfl rfl rfl
  | applied t => exact afterApplied_change env answer m t
  | failed t error => exact afterFailed_change env answer m t error

end UavBluetooth.Config.Overlay
