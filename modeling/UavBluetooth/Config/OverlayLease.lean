import UavBluetooth.Config.OverlaySwitch

set_option autoImplicit false

/-! # The overlay lease

Whether the path that the lease timer watches is the path of the configuration in effect.
When two switches between different configurations are open at once, one of them can leave
its half behind (`overlay_without_lease`). In a serialized run every state is either *quiet*,
path and configuration agree, or *busy* with the one switch that is open (`Inv`); so they
agree whenever no call is in progress (`lease_consistent`).
-/

namespace UavBluetooth.Config.Overlay

variable {NodeConfig : Type}

/-! ## Path and configuration -/

/-- The configuration in effect is one loaded for the overlay path `path`. -/
structure Agrees (env : Settings NodeConfig) (loads : List (String × NodeConfig))
    (path : String) (e : Effective NodeConfig) : Prop where
  source : e.activeSource = env.sourceOf path
  loaded : (path, e.config) ∈ loads
  distinct : path ≠ "" → path ≠ env.defaultConfigPath

theorem Agrees.mono {env : Settings NodeConfig} {loads loads' : List (String × NodeConfig)}
    {path : String} {e : Effective NodeConfig} (h : Agrees env loads path e)
    (hl : ∀ x ∈ loads, x ∈ loads') : Agrees env loads' path e :=
  ⟨h.source, hl _ h.loaded, h.distinct⟩

/-- What an open switch has already done, and what it can still restore. -/
def Holds (env : Settings NodeConfig) (m : Manager NodeConfig)
    (loads : List (String × NodeConfig)) (t : Transition) : Window NodeConfig → Prop
  | .claimed =>
      t.kind.claims = true ∧ m.overlayPath = t.kind.target ∧
      (t.kind.target ≠ "" → t.kind.target ≠ env.defaultConfigPath) ∧
      ∀ path, t.base = some path → Agrees env loads path m.effective
  | .switched saved =>
      (t.kind.claims = true → m.overlayPath = t.kind.target) ∧
      (t.kind.claims = false →
        t.base = some m.overlayPath ∧ ∃ fromLease, t.kind = .revert fromLease) ∧
      Agrees env loads t.kind.target m.effective ∧
      ∀ path, t.base = some path → Agrees env loads path saved
  | .landed => Agrees env loads "" m.effective

/-- Path and configuration agree, and so do the configurations that open switches may still
restore. -/
structure Quiet (env : Settings NodeConfig) (s : State NodeConfig) : Prop where
  agrees : Agrees env s.loads s.manager.overlayPath s.manager.effective
  neutral : ∀ id pc, s.calls id = some pc → ∀ t w, pc.window = some (t, w) →
    t.kind.claims = false ∧ t.base = some s.manager.overlayPath ∧
    t.kind.target = s.manager.overlayPath ∧
    ∀ saved, w = .switched saved → Agrees env s.loads s.manager.overlayPath saved

/-- One switch between two configurations is open, and no other switch is. -/
structure Busy (env : Settings NodeConfig) (s : State NodeConfig) (id : Nat) : Prop where
  opened : ∃ pc t w, s.calls id = some pc ∧ pc.window = some (t, w) ∧
    Holds env s.manager s.loads t w ∧ t.base ≠ some t.kind.target
  others : ∀ j pc, j ≠ id → s.calls j = some pc → pc.window = none

/-- What one stretch of a call does to the state, apart from results and phase. -/
structure Ran (s t : State NodeConfig) (id : Nat) (m : Manager NodeConfig)
    (next : Next NodeConfig) : Prop where
  manager : t.manager = m
  loads : ∀ x ∈ s.loads, x ∈ t.loads
  calls : t.calls = Function.update s.calls id next.pc

theorem Ran.other {s t : State NodeConfig} {id : Nat} {m : Manager NodeConfig}
    {next : Next NodeConfig} (h : Ran s t id m next) {j : Nat} (hj : j ≠ id) :
    t.calls j = s.calls j := by
  rw [h.calls, Function.update_of_ne hj]

theorem Ran.self {s t : State NodeConfig} {id : Nat} {m : Manager NodeConfig}
    {next : Next NodeConfig} (h : Ran s t id m next) : t.calls id = next.pc := by
  rw [h.calls, Function.update_self]

theorem Next.window_of_pc {next : Next NodeConfig} {pc : Pc NodeConfig}
    (h : next.pc = some pc) : next.window = pc.window := by
  cases next <;> cases h
  rfl

theorem Next.pc_of_window {next : Next NodeConfig} {x : Transition × Window NodeConfig}
    (h : next.window = some x) : ∃ pc, next.pc = some pc ∧ pc.window = some x := by
  cases next with
  | goto pc => exact ⟨pc, rfl, h⟩
  | finish success message => cases h
  | done => cases h
  | throw error => cases h
  | abort error => cases h
  | ready => cases h

section

variable {env : Settings NodeConfig} {s t : State NodeConfig} {id : Nat}
  {m : Manager NodeConfig} {next : Next NodeConfig}

/-- The state stays quiet when the path stays and what the call leaves open is neutral. -/
theorem Quiet.keep (hq : Quiet env s) (hran : Ran s t id m next)
    (hpath : t.manager.overlayPath = s.manager.overlayPath)
    (hagrees : Agrees env t.loads s.manager.overlayPath t.manager.effective)
    (hnext : ∀ tr w, next.window = some (tr, w) →
      tr.kind.claims = false ∧ tr.base = some s.manager.overlayPath ∧
      tr.kind.target = s.manager.overlayPath ∧
      ∀ saved, w = .switched saved → Agrees env s.loads s.manager.overlayPath saved) :
    Quiet env t := by
  refine ⟨hpath ▸ hagrees, fun j pc hpc tr w hw => ?_⟩
  rw [hpath]
  have hneutral : tr.kind.claims = false ∧ tr.base = some s.manager.overlayPath ∧
      tr.kind.target = s.manager.overlayPath ∧
      ∀ saved, w = .switched saved → Agrees env s.loads s.manager.overlayPath saved := by
    -- The call that ran has what `hnext` says of it; the others have not moved.
    by_cases hj : j = id
    · subst hj
      rw [hran.self] at hpc
      exact hnext tr w ((Next.window_of_pc hpc).trans hw)
    · rw [hran.other hj] at hpc
      exact hq.neutral j pc hpc tr w hw
  obtain ⟨h1, h2, h3, h4⟩ := hneutral
  exact ⟨h1, h2, h3, fun saved hs => (h4 saved hs).mono hran.loads⟩

/-- The state is quiet when nothing is open and path and configuration agree. -/
theorem quiet_of_none (hothers : ∀ j pc, j ≠ id → s.calls j = some pc → pc.window = none)
    (hran : Ran s t id m next) (hnext : next.window = none)
    (hagrees : Agrees env t.loads t.manager.overlayPath t.manager.effective) :
    Quiet env t := by
  refine ⟨hagrees, fun j pc hpc tr w hw => ?_⟩
  by_cases hj : j = id
  · subst hj
    rw [hran.self] at hpc
    have := (Next.window_of_pc hpc).symm.trans hnext
    rw [this] at hw
    cases hw
  · rw [hran.other hj] at hpc
    rw [hothers j pc hj hpc] at hw
    cases hw

/-- The state is busy with the switch that the call has open. -/
theorem busy_of_self (hothers : ∀ j pc, j ≠ id → s.calls j = some pc → pc.window = none)
    (hran : Ran s t id m next) {tr : Transition} {w : Window NodeConfig}
    (hnext : next.window = some (tr, w)) (hholds : Holds env t.manager t.loads tr w)
    (hne : tr.base ≠ some tr.kind.target) : Busy env t id := by
  obtain ⟨pc, hpc, hw⟩ := Next.pc_of_window hnext
  refine ⟨⟨pc, tr, w, hran.self.trans hpc, hw, hholds, hne⟩, fun j pc' hj hpc' => ?_⟩
  rw [hran.other hj] at hpc'
  exact hothers j pc' hj hpc'

theorem Holds.mono {loads' : List (String × NodeConfig)} {m' : Manager NodeConfig}
    {loads : List (String × NodeConfig)} {tr : Transition} {w : Window NodeConfig}
    (h : Holds env m loads tr w) (hl : ∀ x ∈ loads, x ∈ loads')
    (hpath : m'.overlayPath = m.overlayPath) (heff : m'.effective = m.effective) :
    Holds env m' loads' tr w := by
  cases w with
  | claimed =>
      obtain ⟨h1, h2, h3, h4⟩ := h
      exact ⟨h1, hpath.trans h2, h3, fun p hp => heff ▸ (h4 p hp).mono hl⟩
  | switched saved =>
      obtain ⟨h1, h2, h3, h4⟩ := h
      refine ⟨fun hc => hpath.trans (h1 hc), fun hc => ?_, heff ▸ h3.mono hl,
        fun p hp => (h4 p hp).mono hl⟩
      rw [hpath]
      exact h2 hc
  | landed =>
      show Agrees env loads' "" m'.effective
      exact heff ▸ Agrees.mono h hl

variable {answer : Answer NodeConfig} {pc : Pc NodeConfig}

theorem not_unsaved {tr : Transition} {error path previous : String}
    (hpc : s.calls id = some (.applied tr)) (hser : Serialized env s (.run id answer))
    (hk : tr.kind = .activate path previous) (herror : answer.persistError = some error) :
    False := by
  simp only [Serialized, hpc, hk] at hser
  rw [hser] at herror
  cases herror

/-- A stretch of any call in a quiet state. -/
theorem quiet_ran (hq : Quiet env s) (hpc : s.calls id = some pc)
    (hser : Serialized env s (.run id answer))
    (hcommit : ∀ tr config, pc = .commit tr config → (tr.kind.target, config) ∈ s.loads)
    (hran : Ran s t id m next) (hch : Change env answer s.manager pc m next) :
    (Quiet env t ∨ Busy env t id) ∨ ∃ error, next = .abort error := by
  have hneutral := hq.neutral id pc hpc
  cases hch with
  | silent hpath heff hwin =>
      refine Or.inl (Or.inl (hq.keep hran (hran.manager ▸ hpath) ?_ ?_))
      · rw [hran.manager, heff]
        exact hq.agrees.mono hran.loads
      · rw [hwin]
        exact hneutral
  | claimed path previous hold hclaim hne hpath heff hwin =>
      subst hclaim
      simp only [Serialized, hpc] at hser
      -- A new path opens the one switch there is.
      rcases hser with hsame | ⟨hdefault, hnone⟩
      · exact absurd hsame hne
      · refine Or.inl (Or.inr (busy_of_self (fun j pc' _ => hnone j pc') hran hwin ?_ ?_))
        · refine ⟨rfl, by rw [hran.manager, hpath]; rfl, fun _ => hdefault, ?_⟩
          intro p hp
          cases hp
          rw [hran.manager, heff]
          exact hq.agrees.mono hran.loads
        · intro hbase
          exact hne (Option.some.inj hbase).symm
  | booted path hboot _ _ _ _ =>
      subst hboot
      cases (hneutral _ _ rfl).1
  | committed tr config hcomm hpath heff hwin =>
      subst hcomm
      have hnew : tr.kind.target = s.manager.overlayPath →
          Agrees env t.loads s.manager.overlayPath t.manager.effective := by
        intro htarget
        rw [hran.manager, heff]
        exact ⟨by rw [htarget], hran.loads _ (htarget ▸ hcommit tr config rfl),
          hq.agrees.distinct⟩
      simp only [Serialized, hpc] at hser
      -- A call that claims its path has an open switch before it commits.
      have hclaims : tr.kind.claims = true → False := by
        intro hc
        have := (hneutral tr .claimed (by simp [Pc.window, hc])).1
        rw [hc] at this
        cases this
      cases hk : tr.kind with
      | activate path previous => exact (hclaims (by simp [Kind.claims, hk])).elim
      | restore path => exact (hclaims (by simp [Kind.claims, hk])).elim
      | initial => exact (hclaims (by simp [Kind.claims, hk])).elim
      | reload path =>
          simp only [hk] at hser
          have htarget : tr.kind.target = s.manager.overlayPath := by rw [hk]; exact hser.1
          refine Or.inl (Or.inl (hq.keep hran (hran.manager ▸ hpath) (hnew htarget) ?_))
          intro tr' w hw
          rw [hwin] at hw
          cases hw
          refine ⟨by simp [Transition.atCommit, hk, Kind.claims],
            by simp [Transition.atCommit, hk], htarget, ?_⟩
          intro saved hs
          cases hs
          exact hq.agrees
      | revert fromLease =>
          simp only [hk] at hser
          -- Without an overlay the default is loaded again; with one, its switch is open from now
          -- on.
          by_cases hempty : s.manager.overlayPath = ""
          · have htarget : tr.kind.target = s.manager.overlayPath := by
              rw [hk, hempty]
              rfl
            refine Or.inl (Or.inl (hq.keep hran (hran.manager ▸ hpath) (hnew htarget) ?_))
            intro tr' w hw
            rw [hwin] at hw
            cases hw
            refine ⟨by simp [Transition.atCommit, hk, Kind.claims],
              by simp [Transition.atCommit, hk], htarget, ?_⟩
            intro saved hs
            cases hs
            exact hq.agrees
          · have hnone : NoneOpen s := by
              rcases hser with hnone | ⟨h, _⟩
              · exact hnone
              · exact absurd h hempty
            have htarget : (tr.atCommit s.manager).kind.target = "" := by
              simp [Transition.atCommit, hk, Kind.target]
            have hbase : (tr.atCommit s.manager).base = some s.manager.overlayPath := by
              simp [Transition.atCommit, hk]
            refine Or.inl (Or.inr (busy_of_self (fun j pc' _ => hnone j pc') hran hwin ?_ ?_))
            · refine ⟨fun hc => ?_, fun _ => ⟨?_, fromLease, hk⟩, ?_, ?_⟩
              · simp [Transition.atCommit, hk, Kind.claims] at hc
              · rw [hbase, hran.manager, hpath]
              · rw [htarget, hran.manager, heff]
                refine ⟨by rw [hk]; rfl, hran.loads _ ?_, fun h => absurd rfl h⟩
                have := hcommit tr config rfl
                rwa [hk] at this
              · intro p hp
                rw [hbase] at hp
                cases hp
                exact hq.agrees.mono hran.loads
            · rw [hbase, htarget]
              intro h
              exact hempty (Option.some.inj h)
  | landed tr saved hwpc hpath heff hwin =>
      obtain ⟨hc, hb, htarget, _⟩ := hneutral tr _ hwpc
      refine Or.inl (Or.inl (hq.keep hran (hran.manager ▸ hpath) ?_ ?_))
      · rw [hran.manager, heff]
        exact hq.agrees.mono hran.loads
      · intro tr' w hw
        rw [hwin] at hw
        cases hk : tr.kind <;> simp only [Pc.window, hk] at hw <;> cases hw
        exact ⟨hc, hb, htarget, fun saved hs => by cases hs⟩
  | rolledBack tr saved hwpc hpath heff hwin =>
      obtain ⟨hc, _, _, hsaved⟩ := hneutral tr _ hwpc
      refine Or.inl (Or.inl (hq.keep hran (hran.manager ▸ hpath) ?_ ?_))
      · rw [hran.manager, heff]
        exact (hsaved saved rfl).mono hran.loads
      · intro tr' w hw
        rw [hwin, hc] at hw
        cases hw
  | cleared tr fromLease hwpc hk hpath heff hwin =>
      obtain ⟨_, _, htarget, _⟩ := hneutral tr _ hwpc
      rw [hk] at htarget
      refine Or.inl (Or.inl (hq.keep hran ?_ ?_ ?_))
      · rw [hran.manager, hpath]
        exact htarget
      · rw [hran.manager, heff]
        exact hq.agrees.mono hran.loads
      · intro tr' w hw
        rw [hwin] at hw
        cases hw
  | unclaimed tr error path previous hfail hk _ _ _ =>
      subst hfail
      have := (hneutral tr .claimed (by simp [Pc.window, hk, Kind.claims])).1
      simp [hk, Kind.claims] at this
  | unrestored tr path hwpc hk _ _ _ =>
      have := (hneutral tr _ hwpc).1
      simp [hk, Kind.claims] at this
  | unsaved tr error path previous happ hk herror =>
      exact (not_unsaved (happ ▸ hpc) hser hk herror).elim
  | aborted error hnext => exact Or.inr ⟨error, hnext⟩

/-- A stretch of the call whose switch is open. -/
theorem busy_ran_self (hb : Busy env s id) (hpc : s.calls id = some pc)
    (hser : Serialized env s (.run id answer))
    (hcommit : ∀ tr config, pc = .commit tr config → (tr.kind.target, config) ∈ s.loads)
    (hran : Ran s t id m next) (hch : Change env answer s.manager pc m next) :
    (Quiet env t ∨ Busy env t id) ∨ ∃ error, next = .abort error := by
  obtain ⟨⟨pc', tr, w, hpc', hw, hholds, hne⟩, hothers⟩ := hb
  rw [hpc] at hpc'
  cases hpc'
  cases hch with
  | silent hpath heff hwin =>
      exact Or.inl (Or.inr (busy_of_self hothers hran (hwin.trans hw)
        (hholds.mono hran.loads (hran.manager ▸ hpath) (hran.manager ▸ heff)) hne))
  | claimed path previous hold hclaim _ _ _ _ =>
      subst hclaim
      cases hw
  | booted path hboot hsaved hpath _ hwin =>
      subst hboot
      simp only [Serialized, hpc] at hser
      refine Or.inl (Or.inr (busy_of_self hothers hran hwin ?_ (by simp)))
      refine ⟨rfl, by rw [hran.manager, hpath]; rfl, fun _ hd => ?_, fun p hp => by cases hp⟩
      rw [hsaved] at hser
      exact hser (congrArg some hd)
  | committed tr' config hcomm hpath heff hwin =>
      subst hcomm
      by_cases hc : tr'.kind.claims = true
      · simp only [Pc.window, hc, if_true, Option.some.injEq, Prod.mk.injEq] at hw
        obtain ⟨rfl, rfl⟩ := hw
        obtain ⟨_, htarget, hdist, hbase⟩ := hholds
        -- The base of a claiming switch was taken when it claimed.
        have hat : tr'.atCommit s.manager = tr' := by
          unfold Transition.atCommit
          cases hk : tr'.kind <;> simp [hk, Kind.claims] at hc ⊢ <;> rw [← hk]
        rw [hat] at hwin
        refine Or.inl (Or.inr (busy_of_self hothers hran hwin ?_ hne))
        refine ⟨fun _ => by rw [hran.manager, hpath, htarget], fun h => ?_, ?_,
          fun p hp => (hbase p hp).mono hran.loads⟩
        · rw [hc] at h
          cases h
        · rw [hran.manager, heff]
          exact ⟨rfl, hran.loads _ (hcommit tr' config rfl), hdist⟩
      · simp only [Pc.window, hc] at hw
        cases hw
  | landed tr' saved hwpc hpath heff hwin =>
      rw [hwpc] at hw
      cases hw
      obtain ⟨hclaimed, hrevert, hagrees, _⟩ := hholds
      -- The switch is over for an activation; a return has still to clear the path.
      have heff' : Agrees env t.loads tr.kind.target t.manager.effective := by
        rw [hran.manager, heff]
        exact hagrees.mono hran.loads
      by_cases hc : tr.kind.claims = true
      · refine Or.inl (Or.inl (quiet_of_none hothers hran ?_ ?_))
        · rw [hwin]
          cases hk : tr.kind <;> simp [hk, Kind.claims, Pc.window] at hc ⊢
        · have hp : t.manager.overlayPath = tr.kind.target := by
            rw [hran.manager, hpath, hclaimed hc]
          rw [hp]
          exact heff'
      · obtain ⟨_, fromLease, hk⟩ := hrevert (by simpa using hc)
        have hlanded : next.window = some (tr, .landed) := by
          rw [hwin]
          simp only [Pc.window, hk]
        refine Or.inl (Or.inr (busy_of_self hothers hran hlanded ?_ hne))
        rw [hk] at heff'
        exact heff'
  | rolledBack tr' saved hwpc hpath heff hwin =>
      rw [hwpc] at hw
      cases hw
      obtain ⟨hclaimed, hrevert, hagrees, hsaved⟩ := hholds
      by_cases hc : tr.kind.claims = true
      · refine Or.inl (Or.inr (busy_of_self hothers hran (by rw [hwin, hc]; rfl) ?_ hne))
        refine ⟨hc, by rw [hran.manager, hpath, hclaimed hc], hagrees.distinct, ?_⟩
        intro p hp
        rw [hran.manager, heff]
        exact (hsaved p hp).mono hran.loads
      · refine Or.inl (Or.inl (quiet_of_none hothers hran (by rw [hwin]; simp [hc]) ?_))
        rw [hran.manager, heff, hpath]
        exact (hsaved _ (hrevert (by simpa using hc)).1).mono hran.loads
  | cleared tr' fromLease hwpc hk hpath heff hwin =>
      rw [hwpc] at hw
      cases hw
      refine Or.inl (Or.inl (quiet_of_none hothers hran hwin ?_))
      rw [hran.manager, hpath, heff]
      exact Agrees.mono hholds hran.loads
  | unclaimed tr' error path previous hfail hk hpath heff hwin =>
      subst hfail
      simp only [Serialized, hpc, hk] at hser
      simp only [Pc.window, hk, Kind.claims, if_true, Option.some.injEq, Prod.mk.injEq] at hw
      obtain ⟨rfl, rfl⟩ := hw
      refine Or.inl (Or.inl (quiet_of_none hothers hran hwin ?_))
      rw [hran.manager, hpath, heff]
      exact (hholds.2.2.2 previous hser).mono hran.loads
  | unrestored tr' path hwpc hk hpath heff hwin =>
      refine Or.inl (Or.inr (busy_of_self hothers hran hwin ?_ (by simp)))
      exact ⟨rfl, by rw [hran.manager, hpath]; rfl, fun h => absurd rfl h,
        fun p hp => by cases hp⟩
  | unsaved tr' error path previous happ hk herror =>
      exact (not_unsaved (happ ▸ hpc) hser hk herror).elim
  | aborted error hnext => exact Or.inr ⟨error, hnext⟩

/-- A stretch of another call while a switch is open. -/
theorem busy_ran_other {busy : Nat} (hb : Busy env s busy) (hne : id ≠ busy)
    (hpc : s.calls id = some pc) (hser : Serialized env s (.run id answer))
    (hran : Ran s t id m next) (hch : Change env answer s.manager pc m next) :
    Busy env t busy ∨ ∃ error, next = .abort error := by
  have hnone : pc.window = none := hb.others id pc hne hpc
  obtain ⟨pc₀, tr₀, w₀, hpc₀, hw₀, hholds, hbase⟩ := hb.opened
  -- While a switch is open the guard keeps the others from path and configuration.
  have hopen : ¬ NoneOpen s := by
    intro h
    rw [h busy pc₀ hpc₀] at hw₀
    cases hw₀
  have hneutral : ¬ OnlyNeutral s := fun h => hbase (h busy pc₀ hpc₀ tr₀ w₀ hw₀)
  cases hch with
  | silent hpath heff hwin =>
      refine Or.inl ⟨⟨pc₀, tr₀, w₀, (hran.other hne.symm).trans hpc₀, hw₀,
        hholds.mono hran.loads (hran.manager ▸ hpath) (hran.manager ▸ heff), hbase⟩, ?_⟩
      intro j pc' hj hpc'
      by_cases hjid : j = id
      · subst hjid
        rw [hran.self] at hpc'
        exact (Next.window_of_pc hpc').symm.trans (hwin.trans hnone)
      · rw [hran.other hjid] at hpc'
        exact hb.others j pc' hj hpc'
  | claimed path previous hold hclaim hdiff _ _ _ =>
      subst hclaim
      simp only [Serialized, hpc] at hser
      rcases hser with hsame | ⟨_, h⟩
      · exact absurd hsame hdiff
      · exact absurd h hopen
  | booted path hboot _ _ _ _ =>
      subst hboot
      cases hnone
  | committed tr config hcomm _ _ _ =>
      subst hcomm
      simp only [Serialized, hpc] at hser
      cases hk : tr.kind with
      | activate path previous => simp [Pc.window, hk, Kind.claims] at hnone
      | restore path => simp [Pc.window, hk, Kind.claims] at hnone
      | initial => simp [Pc.window, hk, Kind.claims] at hnone
      | reload path =>
          simp only [hk] at hser
          exact absurd hser.2 hneutral
      | revert fromLease =>
          simp only [hk] at hser
          rcases hser with h | ⟨_, h⟩
          · exact absurd h hopen
          · exact absurd h hneutral
  | landed tr saved hwpc _ _ _ => rw [hnone] at hwpc; cases hwpc
  | rolledBack tr saved hwpc _ _ _ => rw [hnone] at hwpc; cases hwpc
  | cleared tr fromLease hwpc _ _ _ _ => rw [hnone] at hwpc; cases hwpc
  | unclaimed tr error path previous hfail hk _ _ _ =>
      subst hfail
      simp [Pc.window, hk, Kind.claims] at hnone
  | unrestored tr path hwpc _ _ _ _ => rw [hnone] at hwpc; cases hwpc
  | unsaved tr error path previous happ hk herror =>
      exact (not_unsaved (happ ▸ hpc) hser hk herror).elim
  | aborted error hnext => exact Or.inr ⟨error, hnext⟩

end

/-! ## Runs -/

/-- What holds between any two steps of a run. -/
structure Inv (env : Settings NodeConfig) (s : State NodeConfig) : Prop where
  /-- A configuration waiting to be committed was loaded for the transition's overlay. -/
  loaded : ∀ id t config, s.calls id = some (.commit t config) →
    (t.kind.target, config) ∈ s.loads
  constructed : s.phase = .constructed →
    (∀ id, s.calls id = none) ∧ s.manager.overlayPath = ""
  consistent : s.phase = .loading ∨ s.phase = .ready → Quiet env s ∨ ∃ id, Busy env s id

@[simp] theorem proceed_manager (s : State NodeConfig) (id : Nat) (next : Next NodeConfig) :
    (s.proceed id next).manager = s.manager := by
  cases next <;> rfl

@[simp] theorem proceed_loads (s : State NodeConfig) (id : Nat) (next : Next NodeConfig) :
    (s.proceed id next).loads = s.loads := by
  cases next <;> rfl

@[simp] theorem proceed_calls (s : State NodeConfig) (id : Nat) (next : Next NodeConfig) :
    (s.proceed id next).calls = Function.update s.calls id next.pc := by
  cases next <;> rfl

/-- Only `load_initial` changes the phase when it ends. -/
theorem proceed_phase (s : State NodeConfig) (id : Nat) (next : Next NodeConfig) :
    (s.proceed id next).phase = s.phase ∨ (s.proceed id next).phase = .ready ∨
      (s.proceed id next).phase = .aborted := by
  cases next <;> simp [State.proceed]

/-- A configuration that the next stretch will commit has just been loaded. -/
theorem loadsOf_commit {env : Settings NodeConfig} {answer : Answer NodeConfig}
    {m : Manager NodeConfig} {pc : Pc NodeConfig} {t : Transition} {config : NodeConfig}
    (h : (advance env answer m pc).2.pc = some (.commit t config)) :
    (t.kind.target, config) ∈ loadsOf answer pc := by
  cases pc with
  | load t' =>
      simp only [advance] at h
      split at h
      · rename_i config' hl
        simp only [Next.pc, Option.some.injEq, Pc.commit.injEq] at h
        obtain ⟨rfl, rfl⟩ := h
        simp [loadsOf, hl]
      · simp [Next.pc] at h
  | applied t' =>
      simp only [advance, afterApplied] at h
      split at h
      · split at h <;> simp [Next.pc] at h
      · split at h <;> simp [Next.pc] at h
      all_goals simp [Next.pc] at h
  | failed t' error =>
      simp only [advance, afterFailed] at h
      split at h
      · simp [Next.pc] at h
      · split at h <;> simp [Next.pc] at h
      all_goals simp [Next.pc] at h
  | _ =>
      simp only [advance] at h
      repeat' split at h
      all_goals simp [Next.pc] at h

theorem inv_run {env : Settings NodeConfig} {s t : State NodeConfig} {id : Nat}
    {answer : Answer NodeConfig} (h : Inv env s) (hser : Serialized env s (.run id answer))
    (ht : step env s (.run id answer) = some t) : Inv env t := by
  simp only [step] at ht
  split at ht
  · cases ht
  · rename_i pc hpc
    split at ht
    · cases ht
    · rename_i hphase
      cases ht
      set next := (advance env answer s.manager pc).2 with hnext
      have hran : Ran s ({ s with
          manager := (advance env answer s.manager pc).1
          loads := s.loads ++ loadsOf answer pc }.proceed id next) id
          (advance env answer s.manager pc).1 next :=
        ⟨by simp, by simp +contextual, by simp⟩
      have hconstructed : s.phase ≠ .constructed := by
        intro hc
        have := (h.constructed hc).1 id
        rw [hpc] at this
        cases this
      constructor
      · intro j tr config hj
        by_cases hjid : j = id
        · subst hjid
          rw [hran.self] at hj
          rw [proceed_loads]
          exact List.mem_append_right _ (loadsOf_commit hj)
        · rw [hran.other hjid] at hj
          exact hran.loads _ (h.loaded j tr config hj)
      · intro hc
        rcases proceed_phase _ id next with hp | hp | hp <;> rw [hp] at hc
        · exact absurd hc hconstructed
        · cases hc
        · cases hc
      · intro hp
        have hrunning : s.phase = .loading ∨ s.phase = .ready := by
          cases hs : s.phase with
          | constructed => exact absurd hs hconstructed
          | loading => exact Or.inl rfl
          | ready => exact Or.inr rfl
          | aborted => exact absurd hs hphase
        have hch := advance_change env answer s.manager pc
        have hcommit : ∀ tr config, pc = .commit tr config → (tr.kind.target, config) ∈ s.loads :=
          fun tr config hpc' => h.loaded id tr config (hpc' ▸ hpc)
        have hnotAborted : ¬ ∃ error, next = .abort error := by
          rintro ⟨error, he⟩
          rw [he] at hp
          simp [State.proceed] at hp
        -- Either no switch is open, or this call's, or that of another.
        rcases h.consistent hrunning with hq | ⟨busy, hb⟩
        · rcases quiet_ran hq hpc hser hcommit hran hch with (hq' | hb') | hab
          · exact Or.inl hq'
          · exact Or.inr ⟨id, hb'⟩
          · exact absurd hab hnotAborted
        · by_cases hid : id = busy
          · subst hid
            rcases busy_ran_self hb hpc hser hcommit hran hch with (hq' | hb') | hab
            · exact Or.inl hq'
            · exact Or.inr ⟨id, hb'⟩
            · exact absurd hab hnotAborted
          · rcases busy_ran_other hb hid hpc hser hran hch with hb' | hab
            · exact Or.inr ⟨busy, hb'⟩
            · exact absurd hab hnotAborted

/-- A call that begins has no switch open; only `load_initial` begins inside one. -/
theorem start_window (c : Call) (hc : c ≠ .loadInitial) :
    (c.start : Pc NodeConfig).window = none := by
  cases c with
  | loadInitial => exact absurd rfl hc
  | activateOverlay path hold => rfl
  | revertToDefault => rfl
  | reload => rfl
  | checkLease => rfl

theorem start_ne_commit (c : Call) (t : Transition) (config : NodeConfig) :
    c.start ≠ .commit t config := by
  cases c <;> simp [Call.start]

theorem inv_call {env : Settings NodeConfig} {s t : State NodeConfig} {id : Nat} {c : Call}
    (h : Inv env s) (ht : step env s (.call id c) = some t) : Inv env t := by
  simp only [step] at ht
  split at ht
  · cases ht
  · rename_i hfree
    split at ht
    · rename_i hphase
      cases ht
      have hran : Ran s { s with
          calls := Function.update s.calls id (some c.start)
          phase := if c.phase = .constructed then .loading else s.phase } id s.manager
          (.goto c.start) :=
        ⟨rfl, fun _ hx => hx, rfl⟩
      constructor
      · intro j tr config hj
        by_cases hjid : j = id
        · subst hjid
          rw [hran.self] at hj
          exact absurd (Option.some.inj hj) (start_ne_commit c tr config)
        · rw [hran.other hjid] at hj
          exact h.loaded j tr config hj
      · intro hc
        cases c <;> simp [Call.phase] at hphase hc <;> simp [hphase] at hc
      · intro _
        by_cases hinit : c = .loadInitial
        · subst hinit
          obtain ⟨hnone, hempty⟩ := h.constructed hphase
          right
          refine ⟨id, busy_of_self (fun j pc hj hpc => ?_) hran rfl ?_ (by simp)⟩
          · rw [hnone j] at hpc
            cases hpc
          · exact ⟨rfl, hempty, fun hne => absurd rfl hne, fun p hp => by cases hp⟩
        · have hready : s.phase = .ready := by
            cases c <;> simp_all [Call.phase]
          have hwin := @start_window NodeConfig c hinit
          rcases h.consistent (Or.inr hready) with hq | ⟨busy, hb⟩
          · left
            refine hq.keep hran rfl hq.agrees (fun tr w hw => ?_)
            have : (c.start : Pc NodeConfig).window = some (tr, w) := hw
            rw [hwin] at this
            cases this
          · right
            obtain ⟨⟨pc, tr, w, hpc, hw, hholds, hne⟩, hothers⟩ := hb
            have hbusy : busy ≠ id := by
              rintro rfl
              rw [hfree] at hpc
              cases hpc
            refine ⟨busy, ⟨pc, tr, w, (hran.other hbusy).trans hpc, hw, hholds, hne⟩, ?_⟩
            intro j pc' hj hpc'
            by_cases hjid : j = id
            · subst hjid
              rw [hran.self] at hpc'
              cases hpc'
              exact hwin
            · rw [hran.other hjid] at hpc'
              exact hothers j pc' hj hpc'
    · cases ht

theorem inv_initial {env : Settings NodeConfig} {s : State NodeConfig} (h : Initial s) :
    Inv env s := by
  obtain ⟨hphase, hcalls, hpath⟩ := h
  refine ⟨fun id t config hc => ?_, fun _ => ⟨hcalls, hpath⟩, fun hp => ?_⟩
  · rw [hcalls id] at hc
    cases hc
  · rw [hphase] at hp
    rcases hp with hp | hp <;> cases hp

theorem inv_serialized {env : Settings NodeConfig} {s : State NodeConfig}
    (hs : Run.ReachableUnder (step env) (Serialized env) Initial s) : Inv env s := by
  refine hs.invariant (fun _ h0 => inv_initial h0) (fun s a t hi hser ht => ?_)
  cases a with
  | call id c => exact inv_call hi ht
  | run id answer => exact inv_run hi hser ht

/-! ## Lease consistency -/

/-- The path that the lease timer watches names the configuration in effect: it is empty
exactly when the default configuration is in effect, and otherwise the configuration is one
loaded from it. -/
structure LeaseConsistent (env : Settings NodeConfig) (s : State NodeConfig) : Prop where
  empty_iff : s.manager.overlayPath = "" ↔
    s.manager.effective.activeSource = env.defaultConfigPath
  source : s.manager.overlayPath ≠ "" →
    s.manager.effective.activeSource = s.manager.overlayPath
  loaded : s.manager.overlayPath ≠ "" →
    (s.manager.overlayPath, s.manager.effective.config) ∈ s.loads

theorem Agrees.leaseConsistent {env : Settings NodeConfig} {s : State NodeConfig}
    (h : Agrees env s.loads s.manager.overlayPath s.manager.effective) :
    LeaseConsistent env s := by
  have hsource : s.manager.overlayPath ≠ "" →
      s.manager.effective.activeSource = s.manager.overlayPath := by
    intro hne
    rw [h.source, Settings.sourceOf, if_neg hne]
  refine ⟨⟨fun hempty => ?_, fun hdefault => ?_⟩, hsource, fun _ => h.loaded⟩
  · rw [h.source, Settings.sourceOf, if_pos hempty]
  · by_contra hne
    exact h.distinct hne ((hsource hne).symm.trans hdefault)

/-- **Lease consistency.** In every run whose steps are serialized, whenever the node has
started and no call is in progress, the watched path and the configuration in effect belong
together. -/
theorem lease_consistent {env : Settings NodeConfig} {s : State NodeConfig}
    (hs : Run.ReachableUnder (step env) (Serialized env) Initial s)
    (hready : s.phase = .ready) (hidle : Idle s) : LeaseConsistent env s := by
  rcases (inv_serialized hs).consistent (Or.inr hready) with hq | ⟨id, hb⟩
  · exact hq.agrees.leaseConsistent
  · obtain ⟨pc, _, _, hpc, _⟩ := hb.opened
    rw [hidle id] at hpc
    cases hpc

/-! ## Two runs -/

/-- The call that an action is a step of. -/
def Action.id : Action NodeConfig → Nat
  | .call id _ => id
  | .run id _ => id

/-- A step of one call does not move the others. -/
theorem step_calls_other {env : Settings NodeConfig} {s t : State NodeConfig}
    {a : Action NodeConfig} (h : step env s a = some t) {j : Nat} (hj : j ≠ a.id) :
    t.calls j = s.calls j := by
  cases a with
  | call id c =>
      simp only [step] at h
      split at h
      · cases h
      · split at h
        · cases h
          exact Function.update_of_ne hj _ _
        · cases h
  | run id answer =>
      simp only [step] at h
      split at h
      · cases h
      · split at h
        · cases h
        · cases h
          rw [proceed_calls]
          exact Function.update_of_ne hj _ _

/-- A run leaves the calls alone that it has no action of. -/
theorem exec_calls_other {env : Settings NodeConfig} {as : List (Action NodeConfig)}
    {s t : State NodeConfig} (h : Run.exec (step env) s as = some t) {j : Nat}
    (hj : ∀ a ∈ as, j ≠ a.id) : t.calls j = s.calls j := by
  induction as generalizing s with
  | nil =>
      cases h
      rfl
  | cons a as ih =>
      obtain ⟨u, hu, hrest⟩ := Option.bind_eq_some_iff.mp h
      rw [ih hrest (fun b hb => hj b (List.mem_cons_of_mem _ hb))]
      exact step_calls_other hu (hj a List.mem_cons_self)

/-- A run from an idle state is idle again once the calls it has actions of have returned. -/
theorem idle_of_exec {env : Settings NodeConfig} {as : List (Action NodeConfig)}
    {s t : State NodeConfig} (hs : Idle s) (h : Run.exec (step env) s as = some t)
    (hdone : ∀ a ∈ as, t.calls a.id = none) : Idle t := by
  intro j
  by_cases hj : ∃ a ∈ as, j = a.id
  · obtain ⟨a, ha, rfl⟩ := hj
    exact hdone a ha
  · rw [exec_calls_other h (fun a ha he => hj ⟨a, ha, he⟩)]
    exact hs j

/-- A test of the guard for states in which only the calls `ids` are in progress. -/
def serializedTest (env : Settings NodeConfig) (ids : List Nat) (s : State NodeConfig) :
    Action NodeConfig → Bool
  | .call _ _ => true
  | .run id answer =>
      match s.calls id with
      | some (.claim path _ _) =>
          path != env.defaultConfigPath &&
            ids.all fun j => (s.calls j).all fun pc => pc.window.isNone
      | some .readPersisted => s.manager.persisted != some env.defaultConfigPath
      | some (.commit t _) => t.kind.claims
      | some (.applied _) => answer.persistError.isNone
      | some (.failed t _) => !t.kind.claims
      | _ => true

theorem serialized_of_test {env : Settings NodeConfig} {ids : List Nat} {s : State NodeConfig}
    {a : Action NodeConfig} (hids : ∀ j, j ∉ ids → s.calls j = none)
    (h : serializedTest env ids s a = true) : Serialized env s a := by
  cases a with
  | call id c => trivial
  | run id answer =>
      cases hpc : s.calls id with
      | none => simp only [Serialized, hpc]
      | some pc =>
          cases pc
          case claim path previous hold =>
            simp only [serializedTest, hpc, Bool.and_eq_true, bne_iff_ne, List.all_eq_true,
              Option.all_eq_true, Option.isNone_iff_eq_none] at h
            simp only [Serialized, hpc]
            refine Or.inr ⟨h.1, fun j pc' hj => ?_⟩
            by_cases hmem : j ∈ ids
            · exact h.2 j hmem pc' hj
            · rw [hids j hmem] at hj
              cases hj
          case readPersisted =>
            simp only [serializedTest, hpc, bne_iff_ne] at h
            simpa only [Serialized, hpc] using h
          case commit t config =>
            simp only [serializedTest, hpc] at h
            cases hk : t.kind <;> simp [Serialized, hpc, hk, Kind.claims] at h ⊢
          case applied t =>
            simp only [serializedTest, hpc, Option.isNone_iff_eq_none] at h
            cases hk : t.kind <;> simp [Serialized, hpc, hk, h]
          case failed t error =>
            simp only [serializedTest, hpc] at h
            cases hk : t.kind <;> simp [Serialized, hpc, hk, Kind.claims] at h ⊢
          all_goals simp only [Serialized, hpc]

def uavSettings : Settings String where
  defaultConfigPath := "default.yaml"
  hostname := "uav1"
  overlayKeepaliveTopicSuffix := id
  callbacks := 1

def constructed : State String := { manager := { effective := { config := "" } } }

/-- The stages of `apply_config` in call `id` when nothing fails. -/
def applyRun (id : Nat) (config : String) : List (Action String) :=
  [.run id { loaded := .ok config }, .run id {}, .run id {}, .run id {}, .run id {}]

def startRun : List (Action String) :=
  [Action.call 0 .loadInitial, .run 0 {}] ++ applyRun 0 "d" ++ [Action.run 0 {}]

def activateRun : List (Action String) :=
  startRun ++
  [Action.call 1 (.activateOverlay "a.yaml" (some 5)), .run 1 {}, .run 1 {}, .run 1 {}] ++
  applyRun 1 "a" ++ [Action.run 1 {}]

/-- An activation on its own is serialized. -/
theorem lease_consistent_activateRun :
    ∃ s, Run.exec (step uavSettings) constructed activateRun = some s ∧ s.phase = .ready ∧
      Idle s ∧ s.manager.overlayPath = "a.yaml" ∧ LeaseConsistent uavSettings s := by
  have hrun : ((Run.exec (step uavSettings) constructed activateRun).map fun s =>
      (s.phase, (activateRun.all fun a => (s.calls a.id).isNone), s.manager.overlayPath)) =
      some (.ready, true, "a.yaml") := by decide +kernel
  obtain ⟨s, hs, hval⟩ := Option.map_eq_some_iff.mp hrun
  simp only [Prod.mk.injEq, List.all_eq_true, Option.isNone_iff_eq_none] at hval
  obtain ⟨hphase, hcalls, hpath⟩ := hval
  have hidle := idle_of_exec (fun _ => rfl) hs hcalls
  have hguard : Run.Guarded (step uavSettings) (Serialized uavSettings) constructed
      activateRun := by
    refine Run.guarded_of_allowed (J := fun s => ∀ j, j ∉ [0, 1] → s.calls j = none)
      (fun _ _ => serialized_of_test) ?_ (fun _ _ => rfl) (by decide +kernel)
    intro s a t ha hJ ht j hj
    have hid : ∀ a ∈ activateRun, a.id ∈ [0, 1] := by decide +kernel
    have hne : j ≠ a.id := fun he => hj (by rw [he]; exact hid a ha)
    rw [step_calls_other ht hne]
    exact hJ j hj
  exact ⟨s, hs, hphase, hidle, hpath,
    lease_consistent (.exec (.start ⟨rfl, fun _ => rfl, rfl⟩) hguard hs) hphase hidle⟩

/-- A return to the default that commits before an activation commits, and clears the path
after the activation has written it. -/
def raceRun : List (Action String) :=
  startRun ++
  [Action.call 1 (.activateOverlay "a.yaml" (some 5)), .run 1 {}, .run 1 {},
    .call 2 .revertToDefault] ++
  applyRun 2 "d" ++ [Action.run 1 {}] ++ applyRun 1 "a" ++ [Action.run 1 {}, .run 2 {}]

/-- Both calls report success, the overlay stays in effect, and no lease watches it. -/
theorem overlay_without_lease :
    ∃ s, Run.Reachable (step uavSettings) Initial s ∧ s.phase = .ready ∧ Idle s ∧
      s.manager.effective.activeSource = "a.yaml" ∧ s.manager.overlayPath = "" ∧
      ¬ LeaseConsistent uavSettings s := by
  have hrun : ((Run.exec (step uavSettings) constructed raceRun).map fun s =>
      (s.phase, (raceRun.all fun a => (s.calls a.id).isNone),
        s.manager.effective.activeSource, s.manager.overlayPath)) =
      some (.ready, true, "a.yaml", "") := by decide +kernel
  obtain ⟨s, hs, hval⟩ := Option.map_eq_some_iff.mp hrun
  simp only [Prod.mk.injEq, List.all_eq_true, Option.isNone_iff_eq_none] at hval
  obtain ⟨hphase, hcalls, hsource, hpath⟩ := hval
  have hreach : Run.Reachable (step uavSettings) Initial s :=
    Run.Reachable.exec (.start ⟨rfl, fun _ => rfl, rfl⟩) hs
  refine ⟨s, hreach, hphase, idle_of_exec (fun _ => rfl) hs hcalls, hsource, hpath, ?_⟩
  intro h
  have hdefault := h.empty_iff.mp hpath
  rw [hsource] at hdefault
  exact absurd hdefault (by decide)

end UavBluetooth.Config.Overlay
