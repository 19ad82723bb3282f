import UavBluetooth.Config.OverlayLease

set_option autoImplicit false

/-! # An activation that fails

One call of the manager on its own, from its first stretch to its return: a run of the node in which
no other call takes a step (`exec_of_alone`). `apply_config` either leaves the manager as it was or
brings the new configuration into effect (`alone_load`); what an activation writes around it is not
undone with it, and `activateOverlay_unchanged_iff` says for which failed activations that makes no
difference.
-/

namespace UavBluetooth.Config.Overlay

variable {NodeConfig : Type}

/-! ## One call on its own -/

/-- At most `stretches` stretches of one call: the manager when it returns, and how. The outside
world answers by the place where the call stands; no call comes to one place twice. -/
def alone (env : Settings NodeConfig) (answers : Pc NodeConfig → Answer NodeConfig) :
    Nat → Manager NodeConfig → Pc NodeConfig → Option (Manager NodeConfig × Next NodeConfig)
  | 0, _, _ => none
  | stretches + 1, m, pc =>
      match (advance env (answers pc) m pc).2 with
      | .goto pc' => alone env answers stretches (advance env (answers pc) m pc).1 pc'
      | next => some ((advance env (answers pc) m pc).1, next)

section

variable {env : Settings NodeConfig} {answers : Pc NodeConfig → Answer NodeConfig}
  {stretches : Nat} {m : Manager NodeConfig} {pc : Pc NodeConfig}
  {result : Manager NodeConfig × Next NodeConfig}

/-- A call is a stretch and the rest of the call. -/
theorem alone_step (h : alone env answers stretches m pc = some result)
    {m' : Manager NodeConfig} {next : Next NodeConfig}
    (hadvance : advance env (answers pc) m pc = (m', next)) :
    (∀ pc', next = .goto pc' → ∃ rest, alone env answers rest m' pc' = some result) ∧
      ((∀ pc', next ≠ .goto pc') → result = (m', next)) := by
  cases stretches with
  | zero => cases h
  | succ stretches =>
      rw [alone, hadvance] at h
      cases next with
      | goto pc' =>
          refine ⟨?_, fun hno => absurd rfl (hno pc')⟩
          rintro _ ⟨rfl⟩
          exact ⟨stretches, h⟩
      | finish _ _ | done | throw _ | abort _ | ready =>
          refine ⟨?_, fun _ => (Option.some.inj h).symm⟩
          intro pc' hno
          cases hno

theorem alone_goto (h : alone env answers stretches m pc = some result)
    {m' : Manager NodeConfig} {pc' : Pc NodeConfig}
    (hadvance : advance env (answers pc) m pc = (m', .goto pc')) :
    ∃ rest, alone env answers rest m' pc' = some result :=
  (alone_step h hadvance).1 pc' rfl

theorem alone_end (h : alone env answers stretches m pc = some result)
    {m' : Manager NodeConfig} {next : Next NodeConfig}
    (hadvance : advance env (answers pc) m pc = (m', next)) (hend : ∀ pc', next ≠ .goto pc') :
    result = (m', next) :=
  (alone_step h hadvance).2 hend

/-- **A call on its own is a run** of the node in which no other call takes a step. -/
theorem exec_of_alone (h : alone env answers stretches m pc = some result) {s : State NodeConfig}
    {id : Nat} (hm : s.manager = m) (hpc : s.calls id = some pc) (hphase : s.phase ≠ .aborted) :
    ∃ as t, (∀ a ∈ as, a.id = id) ∧ Run.exec (step env) s as = some t ∧ t.manager = result.1 ∧
      t.calls id = none := by
  induction stretches generalizing m pc s with
  | zero => cases h
  | succ stretches ih =>
      have hstep : step env s (.run id (answers pc)) =
          some ({ s with
            manager := (advance env (answers pc) m pc).1
            loads := s.loads ++ loadsOf (answers pc) pc }.proceed id
              (advance env (answers pc) m pc).2) := by
        simp only [step, hpc, if_neg hphase, hm]
      rw [alone] at h
      cases hnext : (advance env (answers pc) m pc).2 with
      | goto pc' =>
          rw [hnext] at h hstep
          obtain ⟨as, t, hids, hexec, hend⟩ := @ih _ pc' h
            ({ s with
              manager := (advance env (answers pc) m pc).1
              loads := s.loads ++ loadsOf (answers pc) pc }.proceed id (.goto pc'))
            rfl (Function.update_self ..) hphase
          refine ⟨.run id (answers pc) :: as, t, ?_, ?_, hend⟩
          · intro a ha
            rcases List.mem_cons.mp ha with rfl | ha
            · rfl
            · exact hids a ha
          · rw [Run.exec, hstep, Option.bind_some]
            exact hexec
      | finish _ _ | done | throw _ | abort _ | ready =>
          rw [hnext] at h hstep
          obtain rfl := Option.some.inj h
          refine ⟨[.run id (answers pc)], _, ?_, by rw [Run.exec, hstep]; rfl, rfl,
            Function.update_self ..⟩
          intro a ha
          rw [List.mem_singleton] at ha
          rw [ha]
          rfl

/-! ## `apply_config` -/

/-- The configuration in effect once `apply_config` has installed it for an overlay path. -/
def effectiveFor (env : Settings NodeConfig) (path : String) (config : NodeConfig) :
    Effective NodeConfig where
  config := config
  activeSource := env.sourceOf path
  keepaliveTopic := env.keepaliveTopic config

/-- The configuration is loaded and every observer accepts it. -/
def Applies (env : Settings NodeConfig) (answers : Pc NodeConfig → Answer NodeConfig)
    (m : Manager NodeConfig) (t : Transition) (config : NodeConfig) : Prop :=
  (answers (.load t)).loaded = .ok config ∧
    ∀ i, i < env.callbacks →
      (answers (.notify (t.atCommit m) m.effective config i)).callbackError = none

theorem alone_renotify {t : Transition} {config : NodeConfig} {next : Nat} {error : String}
    (h : alone env answers stretches m (.renotify t config next error) = some result) :
    ∃ rest, alone env answers rest m (.failed t error) = some result := by
  induction stretches generalizing next with
  | zero => cases h
  | succ stretches ih =>
      rw [alone] at h
      simp only [advance] at h
      by_cases hmore : next < env.callbacks
      · rw [if_pos hmore] at h
        cases herror : (answers (.renotify t config next error)).callbackError with
        | none =>
            rw [herror] at h
            exact ih h
        | some e =>
            rw [herror] at h
            exact ⟨stretches, h⟩
      · rw [if_neg hmore] at h
        exact ⟨stretches, h⟩

/-- The rollback brings back the configuration, and the transition has failed. -/
theorem alone_rollback {t : Transition} {saved : Effective NodeConfig} {error : String}
    (h : alone env answers stretches m (.rollback t saved error) = some result) :
    ∃ rest, alone env answers rest { m with effective := saved } (.failed t error) =
      some result := by
  by_cases hsource : saved.activeSource = ""
  · exact alone_goto h (by rw [advance, if_pos hsource])
  · obtain ⟨rest, hreannounce⟩ := alone_goto h (by rw [advance, if_neg hsource])
    obtain ⟨rest, hrenotify⟩ := alone_goto hreannounce (by rw [advance])
    exact alone_renotify hrenotify

/-- The observers are called in turn until one of them throws. -/
theorem alone_notify {t : Transition} {saved : Effective NodeConfig} {config : NodeConfig}
    {next : Nat} (h : alone env answers stretches m (.notify t saved config next) = some result) :
    (∃ rest error, alone env answers rest m (.rollback t saved error) = some result ∧
      ∃ i, i < env.callbacks ∧ (answers (.notify t saved config i)).callbackError ≠ none) ∨
    ∃ rest, alone env answers rest m (.applied t) = some result ∧
      ∀ i, next ≤ i → i < env.callbacks →
        (answers (.notify t saved config i)).callbackError = none := by
  induction stretches generalizing next with
  | zero => cases h
  | succ stretches ih =>
      rw [alone] at h
      simp only [advance] at h
      by_cases hmore : next < env.callbacks
      · rw [if_pos hmore] at h
        cases herror : (answers (.notify t saved config next)).callbackError with
        | none =>
            rw [herror] at h
            rcases ih h with hfailed | ⟨rest, happlied, hothers⟩
            · exact Or.inl hfailed
            · refine Or.inr ⟨rest, happlied, ?_⟩
              intro i hle hlt
              rcases Nat.eq_or_lt_of_le hle with rfl | hlater
              · exact herror
              · exact hothers i hlater hlt
        | some error =>
            rw [herror] at h
            exact Or.inl ⟨stretches, error, h, next, hmore, by rw [herror]; exact Option.some_ne_none _⟩
      · rw [if_neg hmore] at h
        refine Or.inr ⟨stretches, h, ?_⟩
        intro i hle hlt
        omega

/-- **`apply_config` is all or nothing**: the transition fails with the manager as it was, or
succeeds with the new configuration in effect. -/
theorem alone_load {t : Transition} (h : alone env answers stretches m (.load t) = some result) :
    (∃ rest t' error, t'.kind = t.kind ∧ alone env answers rest m (.failed t' error) = some result ∧
      ∀ config, ¬Applies env answers m t config) ∨
    ∃ rest t' config, t'.kind = t.kind ∧ Applies env answers m t config ∧
      alone env answers rest { m with effective := effectiveFor env t.kind.target config }
        (.applied t') = some result := by
  cases hloaded : (answers (.load t)).loaded with
  | error error =>
      obtain ⟨rest, hfailed⟩ := alone_goto h (by rw [advance, hloaded])
      refine Or.inl ⟨rest, t, error, rfl, hfailed, ?_⟩
      rintro config ⟨hok, -⟩
      rw [hloaded] at hok
      cases hok
  | ok config =>
      obtain ⟨rest, hcommit⟩ := alone_goto h (by rw [advance, hloaded])
      obtain ⟨rest, hannounce⟩ := alone_goto hcommit (by rw [advance])
      obtain ⟨rest, hnotify⟩ := alone_goto hannounce (by rw [advance])
      rcases alone_notify hnotify with ⟨rest, error, hrollback, i, hi, hthrows⟩ | ⟨rest, happlied, hall⟩
      · obtain ⟨rest, hfailed⟩ := alone_rollback hrollback
        refine Or.inl ⟨rest, t.atCommit m, error, rfl, hfailed, ?_⟩
        rintro config' ⟨hok, haccept⟩
        rw [hloaded] at hok
        cases hok
        exact hthrows (haccept i hi)
      · refine Or.inr ⟨rest, t.atCommit m, config, rfl, ⟨hloaded, ?_⟩, happlied⟩
        intro i hi
        exact hall i (Nat.zero_le i) hi

end

/-! ## Failed activations -/

/-- Path, lease and configuration are as they were. -/
structure Unchanged (before after : Manager NodeConfig) : Prop where
  overlayPath : after.overlayPath = before.overlayPath
  leaseHoldUntil : after.leaseHoldUntil = before.leaseHoldUntil
  keepaliveMissCount : after.keepaliveMissCount = before.keepaliveMissCount
  config : after.effective.config = before.effective.config
  activeSource : after.effective.activeSource = before.effective.activeSource
  keepaliveTopic : after.effective.keepaliveTopic = before.effective.keepaliveTopic

theorem Unchanged.refl (m : Manager NodeConfig) : Unchanged m m := ⟨rfl, rfl, rfl, rfl, rfl, rfl⟩

theorem Unchanged.effective {before after : Manager NodeConfig} (h : Unchanged before after) :
    after.effective = before.effective := by
  have hext : ∀ e e' : Effective NodeConfig, e.config = e'.config →
      e.activeSource = e'.activeSource → e.keepaliveTopic = e'.keepaliveTopic → e = e' := by
    rintro ⟨_, _, _⟩ ⟨_, _, _⟩ rfl rfl rfl
    rfl
  exact hext _ _ h.config h.activeSource h.keepaliveTopic

/-- If the request passes the checks, the lease is already the one that the activation sets; and if
the observers accept the configuration, it is the one already in effect. -/
def LosesNothing (env : Settings NodeConfig) (answers : Pc NodeConfig → Answer NodeConfig)
    (m : Manager NodeConfig) (path : String) (hold : Option Time) : Prop :=
  ∀ duration, hold = some duration → path ≠ "" →
    (answers (.checkFile path m.overlayPath duration)).regularFile = true →
      m.keepaliveMissCount = 0 ∧
      m.leaseHoldUntil = (answers (.claim path m.overlayPath duration)).now + duration ∧
      ∀ config, Applies env answers
          { m with
            overlayPath := path
            keepaliveMissCount := 0
            leaseHoldUntil := (answers (.claim path m.overlayPath duration)).now + duration }
          { kind := .activate path m.overlayPath, base := some m.overlayPath } config →
        effectiveFor env path config = m.effective

section

variable {env : Settings NodeConfig} {answers : Pc NodeConfig → Answer NodeConfig}
  {stretches : Nat} {m m' : Manager NodeConfig} {message : String}

/-- An activation is over once its path is saved. -/
theorem afterApplied_activate {path previous : String} {t : Transition}
    (answer : Answer NodeConfig) (m : Manager NodeConfig)
    (hkind : t.kind = .activate path previous) :
    advance env answer m (.applied t) =
      match persistOverlayPath path answer m with
      | .ok m' => (m', .finish true ("Activated overlay: " ++ path))
      | .error error => (m, .goto (.failed t error)) := by
  cases hpersist : persistOverlayPath path answer m <;>
    simp only [advance, afterApplied, hkind, hpersist]

/-- An activation that fails gives the path back. -/
theorem afterFailed_activate {path previous : String} {t : Transition} (error : String)
    (answer : Answer NodeConfig) (m : Manager NodeConfig)
    (hkind : t.kind = .activate path previous) :
    advance env answer m (.failed t error) =
      ({ m with overlayPath := previous },
        .finish false ("Failed to activate overlay: " ++ error)) := by
  rw [advance, afterFailed, hkind]

/-- The overlay that is active already gets a new lease. -/
theorem advance_claim_same {path previous : String} {duration : Time} (answer : Answer NodeConfig)
    (m : Manager NodeConfig) (hsame : path = m.overlayPath) :
    advance env answer m (.claim path previous duration) =
      match persistOverlayPath path answer
        { m with keepaliveMissCount := 0, leaseHoldUntil := answer.now + duration } with
      | .ok m' => (m', .finish true ("Overlay already active: " ++ path))
      | .error error =>
          ({ m with keepaliveMissCount := 0, leaseHoldUntil := answer.now + duration },
            .throw error) := by
  cases hpersist : persistOverlayPath path answer
      { m with keepaliveMissCount := 0, leaseHoldUntil := answer.now + duration } <;>
    simp only [advance, if_pos hsame, hpersist]

/-- A return to the default that fails changes nothing. -/
theorem revert_unchanged
    (h : alone env answers stretches m (.load { kind := .revert false }) =
      some (m', .finish false message)) : Unchanged m m' := by
  rcases alone_load h with ⟨rest, t, error, hkind, hfailed, -⟩ | ⟨rest, t, config, hkind, -, happlied⟩
  · have hadvance : advance env (answers (.failed t error)) m (.failed t error) =
        (m, .finish false ("Failed to revert: " ++ error)) := by
      rw [advance, afterFailed, hkind]
      rfl
    cases alone_end hfailed hadvance (by intro pc hno; cases hno)
    exact Unchanged.refl m
  · have hadvance : ∀ m₁ : Manager NodeConfig, advance env (answers (.applied t)) m₁ (.applied t) =
        (clearOverlay (clearPersistedOverlay m₁), .finish true "Reverted to default config") := by
      intro m₁
      rw [advance, afterApplied, hkind]
      rfl
    cases alone_end happlied (hadvance _) (by intro pc hno; cases hno)

/-- An activation that fails after the claim leaves the new lease behind. It fails in
`apply_config`, which undoes what it did, or in saving the path, when the new configuration
stays. -/
theorem activate_failed {path previous : String} {base : Option String}
    (h : alone env answers stretches m (.load { kind := .activate path previous, base := base }) =
      some (m', .finish false message)) :
    m'.overlayPath = previous ∧ m'.leaseHoldUntil = m.leaseHoldUntil ∧
      m'.keepaliveMissCount = m.keepaliveMissCount ∧
      ((m'.effective = m.effective ∧
          ∀ config, ¬Applies env answers m { kind := .activate path previous, base := base } config) ∨
        ∃ config, Applies env answers m { kind := .activate path previous, base := base } config ∧
          m'.effective = effectiveFor env path config) := by
  rcases alone_load h with ⟨rest, t, error, hkind, hfailed, hno⟩ | ⟨rest, t, config, hkind, happlies,
    happlied⟩
  · cases alone_end hfailed (afterFailed_activate error _ m hkind) (by intro pc hno; cases hno)
    exact ⟨rfl, rfl, rfl, Or.inl ⟨rfl, hno⟩⟩
  · have hadvance := @afterApplied_activate _ env path previous t (answers (.applied t))
      { m with effective := effectiveFor env path config } hkind
    cases hpersist : persistOverlayPath path (answers (.applied t))
        { m with effective := effectiveFor env path config } with
    | ok m'' =>
        rw [hpersist] at hadvance
        cases alone_end happlied hadvance (by intro pc hno; cases hno)
    | error error =>
        rw [hpersist] at hadvance
        obtain ⟨rest, hfailed⟩ := alone_goto happlied hadvance
        cases alone_end hfailed (afterFailed_activate error _ _ hkind) (by intro pc hno; cases hno)
        exact ⟨rfl, rfl, rfl, Or.inr ⟨config, happlies, rfl⟩⟩

/-- **A failed activation changes nothing** exactly if it is refused before it claims the path, or
the lease and the configuration that it leaves behind are those of before. -/
theorem activateOverlay_unchanged_iff {path : String} {hold : Option Time}
    (h : alone env answers stretches m (.readPrevious path hold) =
      some (m', .finish false message)) :
    Unchanged m m' ↔ LosesNothing env answers m path hold := by
  cases hold with
  | none =>
      cases alone_end h rfl (by intro pc hno; cases hno)
      refine iff_of_true (Unchanged.refl m) ?_
      intro duration hno
      cases hno
  | some duration =>
      obtain ⟨rest, hcheck⟩ := alone_goto h (by rw [advance])
      by_cases hempty : path = ""
      · obtain ⟨rest, hrevert⟩ := alone_goto hcheck (by rw [advance, if_pos hempty])
        exact iff_of_true (revert_unchanged hrevert) fun _ _ hno => absurd hempty hno
      · cases hregular : (answers (.checkFile path m.overlayPath duration)).regularFile with
        | false =>
            have hadvance : advance env (answers (.checkFile path m.overlayPath duration)) m
                (.checkFile path m.overlayPath duration) =
                  (m, .finish false ("Overlay file not found: " ++ path)) := by
              rw [advance, if_neg hempty, hregular, if_neg Bool.false_ne_true]
            cases alone_end hcheck hadvance (by intro pc hno; cases hno)
            refine iff_of_true (Unchanged.refl m) ?_
            rintro _ ⟨rfl⟩ _ hno
            rw [hregular] at hno
            cases hno
        | true =>
            obtain ⟨rest, hclaim⟩ := alone_goto hcheck
              (by rw [advance, if_neg hempty, hregular, if_pos rfl])
            by_cases hsame : path = m.overlayPath
            · -- The overlay is active already: the call succeeds or throws.
              have hadvance := @advance_claim_same _ env path m.overlayPath duration
                (answers (.claim path m.overlayPath duration)) m hsame
              cases hpersist : persistOverlayPath path (answers (.claim path m.overlayPath duration))
                  { m with
                    keepaliveMissCount := 0
                    leaseHoldUntil :=
                      (answers (.claim path m.overlayPath duration)).now + duration } with
              | ok m'' =>
                  rw [hpersist] at hadvance
                  cases alone_end hclaim hadvance (by intro pc hno; cases hno)
              | error error =>
                  rw [hpersist] at hadvance
                  cases alone_end hclaim hadvance (by intro pc hno; cases hno)
            · obtain ⟨rest, hload⟩ := alone_goto hclaim (by rw [advance, if_neg hsame])
              obtain ⟨hpath, hlease, hmisses, heffective⟩ := activate_failed hload
              constructor
              · rintro hunchanged _ ⟨rfl⟩ _ _
                refine ⟨hunchanged.keepaliveMissCount.symm.trans hmisses,
                  hunchanged.leaseHoldUntil.symm.trans hlease, ?_⟩
                intro config happlies
                rcases heffective with ⟨-, hno⟩ | ⟨config', happlies', hnew⟩
                · exact absurd happlies (hno config)
                · have hconfig : config = config' := by
                    have hok := happlies.1.symm.trans happlies'.1
                    cases hok
                    rfl
                  rw [hconfig, ← hnew, hunchanged.effective]
              · intro hloses
                obtain ⟨hmissed, hheld, hinstalled⟩ := hloses duration rfl hempty hregular
                have hrestored : m'.effective = m.effective := by
                  rcases heffective with ⟨hback, -⟩ | ⟨config, happlies, hnew⟩
                  · exact hback
                  · exact hnew.trans (hinstalled config happlies)
                exact ⟨hpath, hlease.trans hheld.symm, hmisses.trans hmissed.symm,
                  by rw [hrestored], by rw [hrestored], by rw [hrestored]⟩

end

/-- An overlay whose keepalive has been missed twice. -/
def leased : Manager String where
  effective := { config := "a", activeSource := "a.yaml", keepaliveTopic := "/uav1/bluetooth/config/a" }
  overlayPath := "a.yaml"
  keepaliveMissCount := 2
  leaseHoldUntil := seconds 10

/-- At 100 s another overlay is requested, and it cannot be loaded. -/
def unloadable : Pc String → Answer String := fun _ =>
  { now := seconds 100, loaded := .error "bad overlay" }

theorem activateOverlay_unchanged_iff_unloadable :
    alone uavSettings unloadable 6 leased (.readPrevious "b.yaml" (some (seconds 60))) =
        some ({ leased with keepaliveMissCount := 0, leaseHoldUntil := seconds 160 },
          .finish false "Failed to activate overlay: bad overlay") ∧
      (Unchanged leased { leased with keepaliveMissCount := 0, leaseHoldUntil := seconds 160 } ↔
        LosesNothing uavSettings unloadable leased "b.yaml" (some (seconds 60))) := by
  have hrun : alone uavSettings unloadable 6 leased (.readPrevious "b.yaml" (some (seconds 60))) =
      some ({ leased with keepaliveMissCount := 0, leaseHoldUntil := seconds 160 },
        .finish false "Failed to activate overlay: bad overlay") := rfl
  exact ⟨hrun, activateOverlay_unchanged_iff hrun⟩

/-- The overlay that stays active has the lease of the one that could not be loaded. -/
theorem failedActivation_extends_lease : ¬∀ (env : Settings String)
    (answers : Pc String → Answer String) (stretches : Nat) (m m' : Manager String)
    (path message : String) (hold : Option Time),
      alone env answers stretches m (.readPrevious path hold) = some (m', .finish false message) →
        Unchanged m m' := by
  intro hclaim
  have hunchanged := hclaim uavSettings unloadable 6 leased _ "b.yaml" _ (some (seconds 60)) rfl
  exact absurd hunchanged.leaseHoldUntil (by decide)

end UavBluetooth.Config.Overlay
