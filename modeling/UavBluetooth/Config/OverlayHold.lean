import UavBluetooth.Config.OverlayActivation
import UavBluetooth.Lib.Binary64

set_option autoImplicit false

/-! # The hold of an overlay lease

How long `check_lease` leaves an overlay alone. The hold of an activation comes as a double; it is
multiplied into nanoseconds, cut to a 64-bit count and added to the clock, and nothing checks that
it fits. Where it fits, the lease is left alone until then, and after that until three checks in a
row have found no publisher (`leaseHold_honoured_iff`).
-/

namespace UavBluetooth.Config.Overlay

open Binary64

variable {NodeConfig : Type}

/-! ## The hold in ticks of the clock -/

/-- The largest count of nanoseconds. -/
def maxTicks : Nat := 2 ^ 63 - 1

/-- `duration_cast` of a number of seconds. The conversion of a value from `2 ^ 63` on is
undefined. -/
def holdTicks (holdSeconds : ℚ) : Option Time :=
  if nearest (holdSeconds * 10 ^ 9) < 2 ^ 63 then some ⌊nearest (holdSeconds * 10 ^ 9)⌋.toNat
  else none

/-- The clock reading at the end of the hold. An addition that overflows is undefined. -/
def leaseDeadline (now : Time) (holdSeconds : ℚ) : Option Time :=
  (holdTicks holdSeconds).bind fun hold => if now + hold ≤ maxTicks then some (now + hold) else none

/-- How far the product of seconds may be from the exact one. -/
def holdError (holdSeconds : ℚ) : ℚ := holdSeconds * 10 ^ 9 / 2 ^ 53 + smallest / 2

theorem holdTicks_close {holdSeconds : ℚ} {hold : Time} (hseconds : 0 ≤ holdSeconds)
    (h : holdTicks holdSeconds = some hold) :
    (hold : ℚ) ≤ holdSeconds * 10 ^ 9 + holdError holdSeconds ∧
      holdSeconds * 10 ^ 9 < hold + 1 + holdError holdSeconds := by
  have hproduct : 0 ≤ holdSeconds * 10 ^ 9 := by positivity
  unfold holdTicks at h
  unfold holdError
  revert h hproduct
  generalize holdSeconds * 10 ^ 9 = product
  intro h hproduct
  have herror := abs_le.mp (abs_nearest_sub_le hproduct)
  split at h
  · obtain rfl := Option.some.inj h
    have hfloor : 0 ≤ ⌊nearest product⌋ := Int.floor_nonneg.mpr (nearest_nonneg hproduct)
    have hcast : ((⌊nearest product⌋.toNat : ℕ) : ℚ) = ⌊nearest product⌋ := by
      exact_mod_cast Int.toNat_of_nonneg hfloor
    have hle := Int.floor_le (nearest product)
    have hlt := Int.lt_floor_add_one (nearest product)
    rw [hcast]
    constructor
    · linarith [herror.2]
    · linarith [herror.1]
  · cases h

theorem leaseDeadline_eq_some {now deadline : Time} {holdSeconds : ℚ} :
    leaseDeadline now holdSeconds = some deadline ↔
      ∃ hold, holdTicks holdSeconds = some hold ∧ deadline = now + hold ∧ now + hold ≤ maxTicks := by
  unfold leaseDeadline
  rw [Option.bind_eq_some_iff]
  constructor
  · rintro ⟨hold, hhold, h⟩
    split at h
    · rename_i hfits
      exact ⟨hold, hhold, (Option.some.inj h).symm, hfits⟩
    · cases h
  · rintro ⟨hold, hhold, rfl, hfits⟩
    exact ⟨hold, hhold, if_pos hfits⟩

/-! ## Checks of the lease -/

/-- One call of `check_lease`: how the outside world answers to it, and how many stretches it may
take. The clock does not go back during the call. -/
structure LeaseCheck (NodeConfig : Type) where
  answers : Pc NodeConfig → Answer NodeConfig
  stretches : Nat
  later : ∀ pc, (answers .leaseStart).now ≤ (answers pc).now

/-- The clock reading that the check begins with. -/
def LeaseCheck.now (c : LeaseCheck NodeConfig) : Time := (c.answers .leaseStart).now

/-- Whether the check looks for publishers. -/
def probes (m : Manager NodeConfig) (c : LeaseCheck NodeConfig) : Bool :=
  m.overlayPath != "" && decide (m.leaseHoldUntil ≤ c.now) && m.effective.keepaliveTopic != ""

/-- Whether it finds some. -/
def finds (m : Manager NodeConfig) (c : LeaseCheck NodeConfig) : Bool :=
  (c.answers (.leaseProbe m.effective.keepaliveTopic)).publishers

/-- What is recorded of a check: when it began, and whether it looked in vain. -/
structure LeaseRecord where
  now : Time
  missed : Bool
  deriving DecidableEq, Repr

structure LeaseState (NodeConfig : Type) where
  manager : Manager NodeConfig
  clock : Time
  history : List LeaseRecord := []

/-- One check after another, at readings of the clock that do not go back. -/
def leaseStep (env : Settings NodeConfig) (s : LeaseState NodeConfig) (c : LeaseCheck NodeConfig) :
    Option (LeaseState NodeConfig) :=
  if c.now < s.clock then none
  else
    match alone env c.answers c.stretches s.manager .leaseStart with
    | some (m, .done) =>
        some { manager := m
               clock := c.now
               history := s.history ++ [⟨c.now, probes s.manager c && !finds s.manager c⟩] }
    | _ => none

section

variable {env : Settings NodeConfig} {answers : Pc NodeConfig → Answer NodeConfig}
  {stretches : Nat} {m m' : Manager NodeConfig}

/-- A return to the default from the lease timer clears the overlay, or puts the next try off. -/
theorem leaseRevert_cases
    (h : alone env answers stretches m (.load { kind := .revert true }) = some (m', .done)) :
    (m'.overlayPath = "" ∧ m'.keepaliveMissCount = 0) ∨
      ∃ pc, m' = { m with leaseHoldUntil := (answers pc).now + revertRetryDelay } := by
  rcases alone_load h with ⟨rest, t, error, hkind, hfailed, -⟩ | ⟨rest, t, config, hkind, -, happlied⟩
  · have hadvance : advance env (answers (.failed t error)) m (.failed t error) =
        ({ m with leaseHoldUntil := (answers (.failed t error)).now + revertRetryDelay }, .done) := by
      rw [advance, afterFailed, hkind]
      rfl
    cases alone_end hfailed hadvance (by intro pc hno; cases hno)
    exact Or.inr ⟨_, rfl⟩
  · have hadvance : ∀ m₁ : Manager NodeConfig, advance env (answers (.applied t)) m₁ (.applied t) =
        (clearOverlay (clearPersistedOverlay m₁), .done) := by
      intro m₁
      rw [advance, afterApplied, hkind]
      rfl
    cases alone_end happlied (hadvance _) (by intro pc hno; cases hno)
    exact Or.inl ⟨rfl, rfl⟩

/-- **What one check does.** It does nothing when there is no lease to watch; it counts, or begins
to count anew; or at the third miss it tries to return to the default. -/
theorem leaseCheck_cases {c : LeaseCheck NodeConfig}
    (h : alone env c.answers c.stretches m .leaseStart = some (m', .done)) :
    (probes m c = false ∧ m' = m) ∨
    (probes m c = true ∧ finds m c = true ∧ m' = { m with keepaliveMissCount := 0 }) ∨
    (probes m c = true ∧ finds m c = false ∧ m.keepaliveMissCount + 1 < requiredMisses ∧
      m' = { m with keepaliveMissCount := m.keepaliveMissCount + 1 }) ∨
    (probes m c = true ∧ finds m c = false ∧ requiredMisses ≤ m.keepaliveMissCount + 1 ∧
      ((m'.overlayPath = "" ∧ m'.keepaliveMissCount = 0) ∨
        ∃ pc, m' = { m with
          keepaliveMissCount := 0
          leaseHoldUntil := (c.answers pc).now + revertRetryDelay })) := by
  by_cases hidle : m.overlayPath = "" ∨ (c.answers .leaseStart).now < m.leaseHoldUntil
  · left
    have hadvance : advance env (c.answers .leaseStart) m .leaseStart = (m, .done) := by
      rw [advance, if_pos hidle]
    cases alone_end h hadvance (by intro pc hno; cases hno)
    refine ⟨?_, rfl⟩
    unfold probes LeaseCheck.now
    rcases hidle with hpath | hheld
    · simp [hpath]
    · simp [Nat.not_le.mpr hheld]
  · by_cases htopic : m.effective.keepaliveTopic = ""
    · left
      have hadvance : advance env (c.answers .leaseStart) m .leaseStart = (m, .done) := by
        rw [advance, if_neg hidle, if_pos htopic]
      cases alone_end h hadvance (by intro pc hno; cases hno)
      exact ⟨by simp [probes, htopic], rfl⟩
    · right
      have hprobes : probes m c = true := by
        rw [not_or, Nat.not_lt] at hidle
        simp [probes, LeaseCheck.now, hidle, htopic]
      obtain ⟨rest, hprobe⟩ := alone_goto h (by rw [advance, if_neg hidle, if_neg htopic])
      cases hfinds : finds m c with
      | true =>
          left
          obtain ⟨rest, hfound⟩ := alone_goto hprobe (by rw [advance, ← finds, hfinds, if_pos rfl])
          have hadvance : advance env (c.answers .leaseFound) m .leaseFound =
              ({ m with keepaliveMissCount := 0 }, .done) := rfl
          cases alone_end hfound hadvance (by intro pc hno; cases hno)
          exact ⟨hprobes, rfl, rfl⟩
      | false =>
          right
          obtain ⟨rest, hmissed⟩ := alone_goto hprobe
            (by rw [advance, ← finds, hfinds, if_neg Bool.false_ne_true])
          by_cases hfew : m.keepaliveMissCount + 1 < requiredMisses
          · left
            have hadvance : advance env (c.answers .leaseMissed) m .leaseMissed =
                ({ m with keepaliveMissCount := m.keepaliveMissCount + 1 }, .done) := by
              rw [advance, if_pos hfew]
            cases alone_end hmissed hadvance (by intro pc hno; cases hno)
            exact ⟨hprobes, rfl, hfew, rfl⟩
          · right
            obtain ⟨rest, hload⟩ := alone_goto hmissed (by rw [advance, if_neg hfew])
            refine ⟨hprobes, rfl, Nat.not_lt.mp hfew, ?_⟩
            rcases leaseRevert_cases hload with hcleared | ⟨pc, hlater⟩
            · exact Or.inl hcleared
            · exact Or.inr ⟨pc, hlater⟩

end

/-! ## Runs of checks -/

/-- The last checks were so many misses, none of them before the deadline. -/
def LastMissed (deadline : Time) (misses : Nat) (history : List LeaseRecord) : Prop :=
  ∃ older recent, history = older ++ recent ∧ recent.length = misses ∧
    ∀ r ∈ recent, r.missed = true ∧ deadline ≤ r.now

theorem LastMissed.zero {deadline : Time} (history : List LeaseRecord) :
    LastMissed deadline 0 history :=
  ⟨history, [], (List.append_nil history).symm, rfl, fun _ hr => absurd hr List.not_mem_nil⟩

theorem LastMissed.missed {deadline now : Time} {misses : Nat} {history : List LeaseRecord}
    (h : LastMissed deadline misses history) (hnow : deadline ≤ now) :
    LastMissed deadline (misses + 1) (history ++ [⟨now, true⟩]) := by
  obtain ⟨older, recent, rfl, hlength, hrecent⟩ := h
  refine ⟨older, recent ++ [⟨now, true⟩], List.append_assoc .., ?_, ?_⟩
  · rw [List.length_append, hlength, List.length_singleton]
  · intro r hr
    rcases List.mem_append.mp hr with hr | hr
    · exact hrecent r hr
    · rw [List.mem_singleton] at hr
      subst hr
      exact ⟨rfl, hnow⟩

theorem LastMissed.fewer {deadline : Time} {misses fewer : Nat} {history : List LeaseRecord}
    (h : LastMissed deadline misses history) (hle : fewer ≤ misses) :
    LastMissed deadline fewer history := by
  obtain ⟨older, recent, rfl, hlength, hrecent⟩ := h
  refine ⟨older ++ recent.take (misses - fewer), recent.drop (misses - fewer), ?_, ?_, ?_⟩
  · rw [List.append_assoc, List.take_append_drop]
  · rw [List.length_drop, hlength]
    omega
  · intro r hr
    exact hrecent r (List.mem_of_mem_drop hr)

/-- While the overlay is active its hold is not before the deadline. The miss counter counts the
checks that have just missed; when it does not stand at zero, the next check looks as well. -/
structure LeaseInv (deadline : Time) (s : LeaseState NodeConfig) : Prop where
  held : s.manager.overlayPath ≠ "" → deadline ≤ s.manager.leaseHoldUntil
  missed : LastMissed deadline s.manager.keepaliveMissCount s.history
  counting : 0 < s.manager.keepaliveMissCount → s.manager.overlayPath ≠ "" ∧
    s.manager.leaseHoldUntil ≤ s.clock ∧ s.manager.effective.keepaliveTopic ≠ ""

section

variable {env : Settings NodeConfig} {s s' : LeaseState NodeConfig} {c : LeaseCheck NodeConfig}
  {deadline : Time}

theorem leaseStep_eq_some (h : leaseStep env s c = some s') :
    s.clock ≤ c.now ∧ s'.clock = c.now ∧
      alone env c.answers c.stretches s.manager .leaseStart = some (s'.manager, .done) ∧
        s'.history = s.history ++ [⟨c.now, probes s.manager c && !finds s.manager c⟩] := by
  unfold leaseStep at h
  split at h
  · cases h
  · rename_i hclock
    split at h
    · rename_i m hcheck
      cases h
      exact ⟨Nat.not_lt.mp hclock, rfl, hcheck, rfl⟩
    · cases h

theorem probes_eq_true {m : Manager NodeConfig} : probes m c = true ↔
    m.overlayPath ≠ "" ∧ m.leaseHoldUntil ≤ c.now ∧ m.effective.keepaliveTopic ≠ "" := by
  unfold probes
  rw [Bool.and_eq_true, Bool.and_eq_true, decide_eq_true_eq, bne_iff_ne, bne_iff_ne, and_assoc]

/-- A check keeps the invariant, and if it does more than count, then it is the third miss in a
row. -/
theorem leaseInv_step (h : LeaseInv deadline s) (hstep : leaseStep env s c = some s') :
    LeaseInv deadline s' ∧
      (s'.manager ≠ { s.manager with keepaliveMissCount := s'.manager.keepaliveMissCount } →
        deadline ≤ c.now ∧ LastMissed deadline requiredMisses s'.history) := by
  obtain ⟨hclock, hclock', hcheck, hhistory⟩ := leaseStep_eq_some hstep
  -- A check that looks in vain adds a miss.
  have hmiss : probes s.manager c = true → finds s.manager c = false →
      deadline ≤ c.now ∧
        LastMissed deadline (s.manager.keepaliveMissCount + 1) s'.history := by
    intro hprobes hfinds
    obtain ⟨hpath, hheld, -⟩ := probes_eq_true.mp hprobes
    have hnow : deadline ≤ c.now := le_trans (h.held hpath) hheld
    refine ⟨hnow, ?_⟩
    rw [hhistory, hprobes, hfinds]
    exact h.missed.missed hnow
  rcases leaseCheck_cases hcheck with ⟨hprobes, hm⟩ | ⟨hprobes, hfinds, hm⟩ |
    ⟨hprobes, hfinds, hfew, hm⟩ | ⟨hprobes, hfinds, hmany, hm⟩
  · -- No lease to watch: then the counter stands at zero.
    have hzero : s.manager.keepaliveMissCount = 0 := by
      by_contra hcount
      obtain ⟨hpath, hheld, htopic⟩ := h.counting (Nat.pos_of_ne_zero hcount)
      have hyes := probes_eq_true.mpr ⟨hpath, le_trans hheld hclock, htopic⟩
      rw [hprobes] at hyes
      cases hyes
    refine ⟨⟨?_, ?_, ?_⟩, ?_⟩
    · rw [hm]
      exact h.held
    · rw [hm, hzero]
      exact LastMissed.zero _
    · rw [hm, hzero]
      intro hno
      exact absurd hno (lt_irrefl 0)
    · intro hno
      rw [hm] at hno
      exact absurd rfl hno
  · refine ⟨⟨?_, ?_, ?_⟩, ?_⟩
    · rw [hm]
      exact h.held
    · rw [hm]
      exact LastMissed.zero _
    · rw [hm]
      intro hno
      exact absurd hno (lt_irrefl 0)
    · intro hno
      rw [hm] at hno
      exact absurd rfl hno
  · obtain ⟨hnow, hmissed⟩ := hmiss hprobes hfinds
    obtain ⟨hpath, hheld, htopic⟩ := probes_eq_true.mp hprobes
    refine ⟨⟨?_, ?_, ?_⟩, ?_⟩
    · rw [hm]
      exact h.held
    · rw [hm]
      exact hmissed
    · rw [hm, hclock']
      intro _
      exact ⟨hpath, hheld, htopic⟩
    · intro hno
      rw [hm] at hno
      exact absurd rfl hno
  · obtain ⟨hnow, hmissed⟩ := hmiss hprobes hfinds
    refine ⟨?_, fun _ => ⟨hnow, hmissed.fewer hmany⟩⟩
    rcases hm with ⟨hpath, hzero⟩ | ⟨pc, hm⟩
    · refine ⟨?_, ?_, ?_⟩
      · intro hno
        exact absurd hpath hno
      · rw [hzero]
        exact LastMissed.zero _
      · rw [hzero]
        intro hno
        exact absurd hno (lt_irrefl 0)
    · refine ⟨?_, ?_, ?_⟩
      · intro _
        rw [hm]
        exact le_trans hnow (le_trans (c.later pc) (Nat.le_add_right _ _))
      · rw [hm]
        exact LastMissed.zero _
      · rw [hm]
        intro hno
        exact absurd hno (lt_irrefl 0)

theorem leaseInv_reachable {s₀ : LeaseState NodeConfig} (h₀ : LeaseInv deadline s₀)
    (hs : Run.Reachable (leaseStep env) (· = s₀) s) : LeaseInv deadline s := by
  refine hs.invariant (P := fun s => LeaseInv deadline s) ?_ ?_
  · rintro _ rfl
    exact h₀
  · intro s c s' hinv _ hstep
    exact (leaseInv_step hinv hstep).1

end

/-! ## Activations -/

section

variable {env : Settings NodeConfig} {answers : Pc NodeConfig → Answer NodeConfig}
  {stretches : Nat} {m₀ m : Manager NodeConfig} {path message : String} {hold : Time}

/-- Saving the path leaves the lease alone. -/
theorem persistOverlayPath_lease {answer : Answer NodeConfig}
    (h : persistOverlayPath path answer m₀ = .ok m) : m.overlayPath = m₀.overlayPath ∧
      m.keepaliveMissCount = m₀.keepaliveMissCount ∧ m.leaseHoldUntil = m₀.leaseHoldUntil := by
  unfold persistOverlayPath at h
  split at h
  · cases h
  · split at h
    · cases h
      exact ⟨rfl, rfl, rfl⟩
    · cases h
      exact ⟨rfl, rfl, rfl⟩

/-- An activation that succeeds has begun its lease at the clock reading of the claim. -/
theorem activateOverlay_lease
    (h : alone env answers stretches m₀ (.readPrevious path (some hold)) =
      some (m, .finish true message)) (hpath : path ≠ "") :
    m.overlayPath = path ∧ m.keepaliveMissCount = 0 ∧
      m.leaseHoldUntil = (answers (.claim path m₀.overlayPath hold)).now + hold := by
  obtain ⟨rest, hcheck⟩ := alone_goto h (by rw [advance])
  cases hregular : (answers (.checkFile path m₀.overlayPath hold)).regularFile with
  | false =>
      have hadvance : advance env (answers (.checkFile path m₀.overlayPath hold)) m₀
          (.checkFile path m₀.overlayPath hold) =
            (m₀, .finish false ("Overlay file not found: " ++ path)) := by
        rw [advance, if_neg hpath, hregular, if_neg Bool.false_ne_true]
      cases alone_end hcheck hadvance (by intro pc hno; cases hno)
  | true =>
      obtain ⟨rest, hclaim⟩ := alone_goto hcheck
        (by rw [advance, if_neg hpath, hregular, if_pos rfl])
      by_cases hsame : path = m₀.overlayPath
      · have hadvance := @advance_claim_same _ env path m₀.overlayPath hold
          (answers (.claim path m₀.overlayPath hold)) m₀ hsame
        cases hpersist : persistOverlayPath path (answers (.claim path m₀.overlayPath hold))
            { m₀ with
              keepaliveMissCount := 0
              leaseHoldUntil := (answers (.claim path m₀.overlayPath hold)).now + hold } with
        | ok m' =>
            rw [hpersist] at hadvance
            cases alone_end hclaim hadvance (by intro pc hno; cases hno)
            obtain ⟨hpath', hmisses, hlease⟩ := persistOverlayPath_lease hpersist
            exact ⟨hpath'.trans hsame.symm, hmisses, hlease⟩
        | error error =>
            rw [hpersist] at hadvance
            cases alone_end hclaim hadvance (by intro pc hno; cases hno)
      · obtain ⟨rest, hload⟩ := alone_goto hclaim (by rw [advance, if_neg hsame])
        rcases alone_load hload with ⟨rest, t, error, hkind, hfailed, -⟩ |
          ⟨rest, t, config, hkind, -, happlied⟩
        · cases alone_end hfailed (afterFailed_activate error _ _ hkind) (by intro pc hno; cases hno)
        · have hadvance := @afterApplied_activate _ env path m₀.overlayPath t
            (answers (.applied t)) { m₀ with
              effective := effectiveFor env path config
              overlayPath := path
              keepaliveMissCount := 0
              leaseHoldUntil := (answers (.claim path m₀.overlayPath hold)).now + hold } hkind
          cases hpersist : persistOverlayPath path (answers (.applied t)) { m₀ with
              effective := effectiveFor env path config
              overlayPath := path
              keepaliveMissCount := 0
              leaseHoldUntil := (answers (.claim path m₀.overlayPath hold)).now + hold } with
          | ok m' =>
              rw [hpersist] at hadvance
              cases alone_end happlied hadvance (by intro pc hno; cases hno)
              exact persistOverlayPath_lease hpersist
          | error error =>
              rw [hpersist] at hadvance
              obtain ⟨rest, hfailed⟩ := alone_goto happlied hadvance
              cases alone_end hfailed (afterFailed_activate error _ _ hkind) (by intro pc hno; cases hno)

end

/-! ## The hold -/

/-- What an activation at `t` promises: its hold ends at a reading of the clock, at most one tick
and the rounding before the requested one. Over every sequence of checks after it, a check that
does more than count does not come before that, and is the third in a row that finds no
publisher. -/
def HoldHonoured (env : Settings NodeConfig) (t : Time) (holdSeconds : ℚ) : Prop :=
  ∃ hold deadline, holdTicks holdSeconds = some hold ∧ leaseDeadline t holdSeconds = some deadline ∧
    t + holdSeconds * 10 ^ 9 < deadline + 1 + holdError holdSeconds ∧
    ∀ answers stretches m₀ path message m, path ≠ "" →
      alone env answers stretches m₀ (.readPrevious path (some hold)) =
        some (m, .finish true message) →
      (answers (.claim path m₀.overlayPath hold)).now = t →
      ∀ s, Run.Reachable (leaseStep env) (· = { manager := m, clock := t }) s →
        ∀ c s', leaseStep env s c = some s' →
          s'.manager ≠ { s.manager with keepaliveMissCount := s'.manager.keepaliveMissCount } →
            deadline ≤ c.now ∧ LastMissed deadline requiredMisses s'.history

/-- **The lease hold is honoured** exactly if it fits into the clock: the hold in nanoseconds is
below `2 ^ 63`, and so is its end. -/
theorem leaseHold_honoured_iff (env : Settings NodeConfig) (t : Time) {holdSeconds : ℚ}
    (hseconds : 0 ≤ holdSeconds) :
    HoldHonoured env t holdSeconds ↔
      ∃ hold, holdTicks holdSeconds = some hold ∧ t + hold ≤ maxTicks := by
  constructor
  · rintro ⟨hold, deadline, -, hdeadline, -⟩
    obtain ⟨hold, hticks, -, hfits⟩ := leaseDeadline_eq_some.mp hdeadline
    exact ⟨hold, hticks, hfits⟩
  · rintro ⟨hold, hticks, hfits⟩
    refine ⟨hold, t + hold, hticks, leaseDeadline_eq_some.mpr ⟨hold, hticks, rfl, hfits⟩, ?_, ?_⟩
    · have hclose := (holdTicks_close hseconds hticks).2
      push_cast
      linarith
    · intro answers stretches m₀ path message m hpath hactivate hclaim s hs c s' hstep hchanges
      obtain ⟨-, hmisses, hlease⟩ := activateOverlay_lease hactivate hpath
      have hbegin : LeaseInv (t + hold) ({ manager := m, clock := t } : LeaseState NodeConfig) := by
        refine ⟨?_, ?_, ?_⟩
        · intro _
          rw [hlease, hclaim]
        · rw [hmisses]
          exact LastMissed.zero _
        · intro hno
          rw [hmisses] at hno
          exact absurd hno (lt_irrefl 0)
      exact (leaseInv_step (leaseInv_reachable hbegin hs) hstep).2 hchanges

/-- A minute after ten seconds of uptime. -/
theorem leaseHold_honoured_iff_minute :
    HoldHonoured uavSettings (seconds 10) 60 ∧ leaseDeadline (seconds 10) 60 = some (seconds 70) := by
  have hticks : holdTicks 60 = some (seconds 60) := by decide +kernel
  exact ⟨(leaseHold_honoured_iff uavSettings (seconds 10) (by norm_num)).mpr
    ⟨seconds 60, hticks, by decide⟩, by decide +kernel⟩

/-- A hold of ten thousand million seconds is finite and not negative, and it does not fit. -/
theorem longHold_not_honoured : ¬∀ (t : Time) (holdSeconds : ℚ), 0 ≤ holdSeconds →
    HoldHonoured uavSettings t holdSeconds := by
  intro hclaim
  obtain ⟨hold, -, hticks, -⟩ := hclaim 0 (10 ^ 10) (by norm_num)
  have hnone : holdTicks (10 ^ 10) = none := by decide +kernel
  rw [hnone] at hticks
  cases hticks

end UavBluetooth.Config.Overlay
