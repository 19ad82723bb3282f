import UavBluetooth.Bridge.NewestExport
import UavBluetooth.Lib.Pacing

set_option autoImplicit false

/-! # The rate of an export bridge

The manager's runs with the readings of the steady clock. `flush` takes a value when the deadline
of its entry has come, the transport accepts it some time later, and the deadline is then moved on
along the grid of the entry's spacing, past the present. Between them the timer, the subscription
and other entries go on. For each entry the accepted values are the admissions of a gate
(`Pacing.Paced`), which bounds their number in every window.
-/

namespace UavBluetooth.Bridge

open Config Pacing

/-! ## Runs with a clock -/

/-- The state of the manager, the last reading of the clock, and the record with the time of each
event. -/
structure TimedState where
  state : State := {}
  clock : Time := 0
  history : List (Time × Event) := []

structure TimedAction where
  now : Time
  action : Action

/-- What a step reads from the clock by itself. -/
def clockReading : Action → Option Time
  | .flushTake _ _ now => some now
  | .flushSettle now => some now
  | _ => none

/-- The events of a step, with their time. -/
def stamped (now : Time) (s t : State) : List (Time × Event) :=
  (t.log.drop s.log.length).map fun e => (now, e)

/-- One step of any thread at a reading of the clock that is not before the last one. -/
def timedStep (s : TimedState) (a : TimedAction) : Option TimedState :=
  if a.now < s.clock ∨ (clockReading a.action).any (· != a.now) then none
  else
    match step s.state a.action with
    | none => none
    | some t => some ⟨t, a.now, s.history ++ stamped a.now s.state t⟩

def TimedInitial (s : TimedState) : Prop := s = {}

/-- When the sender accepted values of the entry, oldest first. -/
def acceptanceTimes (key : String) (generation : Nat) (history : List (Time × Event)) :
    List Time :=
  history.filterMap fun
    | (now, .handed k g _ _ true) => if k = key ∧ g = generation then some now else none
    | _ => none

/-- How many values of the entry the sender accepted in a window. -/
def acceptedWithin (key : String) (generation : Nat) (start length : Time) (s : TimedState) :
    Nat :=
  ((acceptanceTimes key generation s.history).filter fun now =>
    start ≤ now ∧ now ≤ start + length).length

/-- What the sender has answered to the attempt for the entry that is under way. -/
def verdictOf (key : String) (generation : Nat) (s : State) : Option Bool :=
  match s.dispatching with
  | some d => if d.key = key ∧ d.generation = generation then d.accepted else none
  | none => none

section

variable {s t : TimedState} {a : TimedAction} {key : String} {generation : Nat}

theorem timedStep_eq_some (h : timedStep s a = some t) :
    s.clock ≤ a.now ∧ t.clock = a.now ∧
      (∀ reading, clockReading a.action = some reading → reading = a.now) ∧
        step s.state a.action = some t.state ∧
          t.history = s.history ++ stamped a.now s.state t.state := by
  unfold timedStep at h
  split at h
  · cases h
  · rename_i hclock
    split at h
    · cases h
    · rename_i u hu
      cases h
      rw [not_or, Nat.not_lt] at hclock
      refine ⟨hclock.1, rfl, ?_, hu, rfl⟩
      intro reading hreading
      simpa [hreading] using hclock.2

theorem stamped_of_append {now : Time} {u v : State} {events : List Event}
    (h : v.log = u.log ++ events) : stamped now u v = events.map fun e => (now, e) := by
  rw [stamped, h, List.drop_left]

@[simp] theorem acceptanceTimes_append (history later : List (Time × Event)) :
    acceptanceTimes key generation (history ++ later) =
      acceptanceTimes key generation history ++ acceptanceTimes key generation later :=
  List.filterMap_append ..

theorem acceptanceTimes_handed (now : Time) (k : String) (g revision : Nat) (payload : Bytes)
    (accepted : Bool) :
    acceptanceTimes key generation [(now, .handed k g revision payload accepted)] =
      if accepted = true ∧ k = key ∧ g = generation then [now] else [] := by
  cases accepted with
  | false => rfl
  | true =>
      by_cases hmine : k = key ∧ g = generation
      · rw [if_pos ⟨rfl, hmine⟩]
        simp [acceptanceTimes, hmine]
      · rw [if_neg (fun h => hmine h.2)]
        simp [acceptanceTimes, hmine]

end

/-! ## The deadline -/

theorem spacing_pos (rateHz : ℚ) : 0 < spacing rateHz := by
  unfold spacing
  exact lt_of_lt_of_le Nat.one_pos (le_max_left _ _)

section

variable {deadline now step : Time}

theorem nextDeadline_eq_gridAfter (h : deadline ≠ 0) :
    nextDeadline deadline now step = gridAfter step now deadline := by
  rw [nextDeadline, if_neg h, gridAfter]

theorem lt_nextDeadline (hstep : 0 < step) : now < nextDeadline deadline now step := by
  by_cases h : deadline = 0
  · rw [nextDeadline, if_pos h]
    exact Nat.lt_add_of_pos_right hstep
  · rw [nextDeadline_eq_gridAfter h]
    exact lt_gridAfter hstep

theorem add_step_le_nextDeadline : deadline + step ≤ nextDeadline deadline now step := by
  by_cases h : deadline = 0
  · rw [nextDeadline, if_pos h, h, Nat.zero_add]
    exact Nat.le_add_left step now
  · rw [nextDeadline_eq_gridAfter h]
    exact add_step_le_gridAfter

end

/-- A value is taken with the configuration of its entry, and not before the deadline. -/
theorem flushTake_due {key : String} {generation : Nat} {now : Time} {m m' : Manager}
    {d : Dispatch} {entry : Entry} (h : flushTake key generation now m = some (d, m'))
    (hm : m.entries[key]? = some entry) :
    d.config = entry.config ∧ (0 < entry.config.rateHz → entry.nextDispatchAt ≤ now) := by
  simp only [flushTake, hm] at h
  split at h
  · cases h
  · split at h
    · cases h
    · split at h
      · cases h
      · rename_i hdue
        cases h
        refine ⟨rfl, ?_⟩
        intro hrate
        by_contra hearly
        exact hdue ⟨hrate, Nat.not_le.mp hearly⟩

/-- Only an accepted attempt moves the deadline of its entry. -/
theorem flushSettle_deadline {d : Dispatch} (accepted : Bool) (now : Time) {m : Manager}
    {entry : Entry} (hm : m.entries[d.key]? = some entry)
    (hg : entry.generation = d.generation) :
    (∃ entry', (flushSettle d accepted now m).entries[d.key]? = some entry' ∧
      entry'.generation = entry.generation ∧ entry'.config = entry.config ∧
      entry'.nextDispatchAt =
        if accepted = true ∧ 0 < d.config.rateHz then
          nextDeadline entry.nextDispatchAt now (spacing d.config.rateHz)
        else entry.nextDispatchAt) ∧
    ∀ k, k ≠ d.key → (flushSettle d accepted now m).entries[k]? = m.entries[k]? := by
  unfold flushSettle
  simp only [hm, hg, ne_eq, not_true_eq_false, if_false]
  cases accepted with
  | true =>
      simp only [if_true, true_and]
      split
      · refine ⟨⟨_, (Manager.getElem?_setEntry ..).trans (if_pos rfl), rfl, rfl, rfl⟩, ?_⟩
        intro k hk
        rw [Manager.getElem?_setEntry, if_neg (Ne.symm hk)]
      · exact ⟨⟨entry, hm, hg, rfl, rfl⟩, fun _ _ => rfl⟩
  | false =>
      simp only [Bool.false_eq_true, if_false, false_and]
      split
      · refine ⟨⟨_, (Manager.getElem?_setEntry ..).trans (if_pos rfl), rfl, rfl, rfl⟩, ?_⟩
        intro k hk
        rw [Manager.getElem?_setEntry, if_neg (Ne.symm hk)]
      · exact ⟨⟨entry, hm, hg, rfl, rfl⟩, fun _ _ => rfl⟩

/-! ## The entry as a gate -/

/-- The accepted values of one generation of an entry are the admissions of a gate whose deadline
is the entry's. A generation to come has none. -/
structure RateKept (key : String) (generation : Nat) (s : TimedState) : Prop where
  fresh : s.state.manager.nextGeneration < generation →
    acceptanceTimes key generation s.history = []
  attempt : ∀ d, s.state.dispatching = some d → d.key = key → d.generation = generation →
    ∀ entry : Entry, s.state.manager.entries[key]? = some entry → entry.generation = generation →
      d.config = entry.config ∧
        (d.accepted = none → 0 < entry.config.rateHz → entry.nextDispatchAt ≤ s.clock)
  paced : ∀ entry : Entry, s.state.manager.entries[key]? = some entry →
    entry.generation = generation → 0 < entry.config.rateHz →
      ∃ admissions : List Admission,
        admissions.map Admission.time = acceptanceTimes key generation s.history ∧
        Paced (spacing entry.config.rateHz) entry.nextDispatchAt s.clock
          (verdictOf key generation s.state == some true) admissions

section

variable {key : String} {generation : Nat} {s t : TimedState}

theorem rateKept_initial : RateKept key generation {} := by
  constructor
  · intro _
    rfl
  · intro d hd
    cases hd
  · intro entry hentry
    simp at hentry

/-- A step that moves neither the deadline nor the attempt of the entry. -/
theorem RateKept.quiet (h : RateKept key generation s) (hclock : s.clock ≤ t.clock)
    (hnext : s.state.manager.nextGeneration ≤ t.state.manager.nextGeneration)
    (hdispatching : t.state.dispatching = s.state.dispatching)
    (htimes : acceptanceTimes key generation t.history =
      acceptanceTimes key generation s.history)
    (hentries : ∀ entry' : Entry, t.state.manager.entries[key]? = some entry' →
      entry'.generation = generation → ∃ entry : Entry,
        s.state.manager.entries[key]? = some entry ∧ entry.generation = generation ∧
          entry.config = entry'.config ∧ entry.nextDispatchAt = entry'.nextDispatchAt) :
    RateKept key generation t := by
  constructor
  · intro hfresh
    rw [htimes]
    exact h.fresh (lt_of_le_of_lt hnext hfresh)
  · intro d hd hkey hgeneration entry' hentry' hg'
    obtain ⟨entry, hentry, hg, hconfig, hdeadline⟩ := hentries entry' hentry' hg'
    obtain ⟨hsame, hdue⟩ := h.attempt d (hdispatching ▸ hd) hkey hgeneration entry hentry hg
    rw [← hconfig, ← hdeadline]
    exact ⟨hsame, fun haccepted hrate => le_trans (hdue haccepted hrate) hclock⟩
  · intro entry' hentry' hg' hrate
    obtain ⟨entry, hentry, hg, hconfig, hdeadline⟩ := hentries entry' hentry' hg'
    obtain ⟨admissions, hadmissions, hpaced⟩ := h.paced entry hentry hg (hconfig ▸ hrate)
    refine ⟨admissions, hadmissions.trans htimes.symm, ?_⟩
    rw [← hconfig, ← hdeadline, verdictOf, hdispatching]
    exact hpaced.later hclock

/-- The entries are all new: what is there under the generation has not begun. -/
theorem RateKept.replaced (h : RateKept key generation s)
    (hidle : t.state.dispatching = none)
    (hnext : s.state.manager.nextGeneration ≤ t.state.manager.nextGeneration)
    (htimes : acceptanceTimes key generation t.history =
      acceptanceTimes key generation s.history)
    (hentries : ∀ entry' : Entry, t.state.manager.entries[key]? = some entry' →
      s.state.manager.nextGeneration < entry'.generation) : RateKept key generation t := by
  constructor
  · intro hfresh
    rw [htimes]
    exact h.fresh (lt_of_le_of_lt hnext hfresh)
  · intro d hd
    rw [hidle] at hd
    cases hd
  · intro entry' hentry' hg' _
    have hnone : acceptanceTimes key generation t.history = [] := by
      rw [htimes]
      exact h.fresh (hg' ▸ hentries entry' hentry')
    refine ⟨[], hnone.symm, ?_⟩
    rw [verdictOf, hidle]
    exact Paced.nil

/-- `flush` takes a value, and an attempt begins. -/
theorem RateKept.taken (h : RateKept key generation s) {d : Dispatch} {entry₀ : Entry}
    (hclock : s.clock ≤ t.clock) (hidle : s.state.dispatching = none)
    (hentry₀ : s.state.manager.entries[d.key]? = some entry₀)
    (hconfig₀ : d.config = entry₀.config)
    (hdue₀ : 0 < entry₀.config.rateHz → entry₀.nextDispatchAt ≤ t.clock)
    (haccepted : d.accepted = none)
    (hmanager : t.state.manager =
      s.state.manager.setEntry d.key { entry₀ with pendingPayload := none })
    (hdispatching : t.state.dispatching = some d)
    (htimes : acceptanceTimes key generation t.history =
      acceptanceTimes key generation s.history) : RateKept key generation t := by
  -- The entry keeps its deadline and its configuration.
  have hback : ∀ entry' : Entry, t.state.manager.entries[key]? = some entry' →
      ∃ entry : Entry, s.state.manager.entries[key]? = some entry ∧
        entry.generation = entry'.generation ∧ entry.config = entry'.config ∧
          entry.nextDispatchAt = entry'.nextDispatchAt := by
    intro entry' hentry'
    rw [hmanager, Manager.getElem?_setEntry] at hentry'
    split at hentry'
    · rename_i hkey
      cases hentry'
      exact ⟨entry₀, hkey ▸ hentry₀, rfl, rfl, rfl⟩
    · exact ⟨entry', hentry', rfl, rfl, rfl⟩
  have hnext : t.state.manager.nextGeneration = s.state.manager.nextGeneration := by
    rw [hmanager, Manager.nextGeneration_setEntry]
  constructor
  · intro hfresh
    rw [htimes]
    exact h.fresh (hnext ▸ hfresh)
  · intro d' hd' hkey hgeneration entry' hentry' hg'
    rw [hdispatching] at hd'
    cases hd'
    obtain ⟨entry, hentry, hg, hconfig, hdeadline⟩ := hback entry' hentry'
    rw [hkey, hentry] at hentry₀
    cases hentry₀
    rw [← hconfig, ← hdeadline]
    exact ⟨hconfig₀, fun _ hrate => hdue₀ hrate⟩
  · intro entry' hentry' hg' hrate
    obtain ⟨entry, hentry, hg, hconfig, hdeadline⟩ := hback entry' hentry'
    obtain ⟨admissions, hadmissions, hpaced⟩ :=
      h.paced entry hentry (hg.trans hg') (hconfig ▸ hrate)
    refine ⟨admissions, hadmissions.trans htimes.symm, ?_⟩
    have hbefore : (verdictOf key generation s.state == some true) = false := by
      rw [verdictOf, hidle]
      rfl
    have hafter : (verdictOf key generation t.state == some true) = false := by
      simp [verdictOf, hdispatching, haccepted]
    rw [hbefore, hconfig, hdeadline] at hpaced
    rw [hafter]
    exact hpaced.later hclock

/-- The sender answers. -/
theorem RateKept.handed (h : RateKept key generation s) (hwf : WellFormed s.state)
    {d : Dispatch} {accepted : Bool} (hclock : s.clock ≤ t.clock)
    (hs : s.state.dispatching = some d) (hnone : d.accepted = none)
    (hmanager : t.state.manager = s.state.manager)
    (hdispatching : t.state.dispatching = some { d with accepted := some accepted })
    (htimes : acceptanceTimes key generation t.history =
      acceptanceTimes key generation s.history ++
        if accepted = true ∧ d.key = key ∧ d.generation = generation then [t.clock] else []) :
    RateKept key generation t := by
  constructor
  · intro hfresh
    rw [hmanager] at hfresh
    -- The entry of the attempt is there, so its generation is not to come.
    obtain ⟨entry, hentry, hg⟩ := hwf.dispatch_live d hs
    have hle := hwf.generation_le d.key entry hentry
    have hother : ¬(accepted = true ∧ d.key = key ∧ d.generation = generation) := by
      rintro ⟨-, -, hgeneration⟩
      omega
    rw [htimes, if_neg hother, List.append_nil]
    exact h.fresh hfresh
  · intro d' hd' hkey hgeneration entry hentry hg
    rw [hdispatching] at hd'
    cases hd'
    rw [hmanager] at hentry
    refine ⟨(h.attempt d hs hkey hgeneration entry hentry hg).1, ?_⟩
    intro hno
    cases hno
  · intro entry hentry hg hrate
    rw [hmanager] at hentry
    obtain ⟨admissions, hadmissions, hpaced⟩ := h.paced entry hentry hg hrate
    have hbefore : (verdictOf key generation s.state == some true) = false := by
      simp [verdictOf, hs, hnone]
    rw [hbefore] at hpaced
    by_cases hmine : accepted = true ∧ d.key = key ∧ d.generation = generation
    · obtain ⟨rfl, hkey, hgeneration⟩ := hmine
      have hdue := (h.attempt d hs hkey hgeneration entry hentry hg).2 hnone hrate
      have hafter : (verdictOf key generation t.state == some true) = true := by
        simp [verdictOf, hdispatching, hkey, hgeneration]
      refine ⟨admissions ++ [⟨entry.nextDispatchAt, t.clock⟩], ?_, ?_⟩
      · rw [htimes, if_pos ⟨rfl, hkey, hgeneration⟩, List.map_append, hadmissions]
        rfl
      · rw [hafter]
        exact (hpaced.later hclock).admitted (le_trans hdue hclock)
    · have hafter : (verdictOf key generation t.state == some true) = false := by
        simp only [verdictOf, hdispatching]
        split
        · rename_i hkey
          cases accepted with
          | true => exact absurd ⟨rfl, hkey⟩ hmine
          | false => rfl
        · rfl
      refine ⟨admissions, ?_, ?_⟩
      · rw [htimes, if_neg hmine, List.append_nil, hadmissions]
      · rw [hafter]
        exact hpaced.later hclock

/-- `flush` settles the attempt. -/
theorem RateKept.settled (h : RateKept key generation s) (hwf : WellFormed s.state)
    {d : Dispatch} {accepted : Bool} (hclock : s.clock ≤ t.clock)
    (hs : s.state.dispatching = some d) (hd : d.accepted = some accepted)
    (hmanager : t.state.manager = flushSettle d accepted t.clock s.state.manager)
    (hdispatching : t.state.dispatching = none)
    (htimes : acceptanceTimes key generation t.history =
      acceptanceTimes key generation s.history) : RateKept key generation t := by
  have hnext : t.state.manager.nextGeneration = s.state.manager.nextGeneration := by
    rw [hmanager, nextGeneration_flushSettle]
  have hafter : (verdictOf key generation t.state == some true) = false := by
    rw [verdictOf, hdispatching]
    rfl
  obtain ⟨entry₀, hentry₀, hg₀⟩ := hwf.dispatch_live d hs
  obtain ⟨⟨entry₁, hentry₁, hg₁, hconfig₁, hdeadline₁⟩, hothers⟩ :=
    flushSettle_deadline accepted t.clock hentry₀ hg₀
  constructor
  · intro hfresh
    rw [htimes]
    exact h.fresh (hnext ▸ hfresh)
  · intro d' hd'
    rw [hdispatching] at hd'
    cases hd'
  · intro entry' hentry' hg' hrate
    rw [hmanager] at hentry'
    rw [hafter, htimes]
    by_cases hkey : key = d.key
    · subst hkey
      rw [hentry₁] at hentry'
      cases hentry'
      have hgeneration : d.generation = generation := by rw [← hg₀, ← hg₁, hg']
      have hconfig : d.config = entry₀.config :=
        (h.attempt d hs rfl hgeneration entry₀ hentry₀ (hg₁ ▸ hg')).1
      obtain ⟨admissions, hadmissions, hpaced⟩ :=
        h.paced entry₀ hentry₀ (hg₁ ▸ hg') (hconfig₁ ▸ hrate)
      have hbefore : verdictOf d.key generation s.state = some accepted := by
        simp [verdictOf, hs, hgeneration, hd]
      rw [hbefore] at hpaced
      refine ⟨admissions, hadmissions, ?_⟩
      rw [hconfig₁, hdeadline₁, hconfig]
      cases accepted with
      | true =>
          rw [if_pos ⟨rfl, hconfig₁ ▸ hrate⟩]
          exact (hpaced.later hclock).settle (lt_nextDeadline (spacing_pos _))
            add_step_le_nextDeadline
      | false =>
          rw [if_neg (fun hno => absurd hno.1 Bool.false_ne_true)]
          exact hpaced.later hclock
    · rw [hothers key hkey] at hentry'
      obtain ⟨admissions, hadmissions, hpaced⟩ := h.paced entry' hentry' hg' hrate
      have hbefore : (verdictOf key generation s.state == some true) = false := by
        simp [verdictOf, hs, Ne.symm hkey]
      rw [hbefore] at hpaced
      exact ⟨admissions, hadmissions, hpaced.later hclock⟩

theorem rateKept_step {a : TimedAction} (hwf : WellFormed s.state)
    (h : RateKept key generation s) (hstep : timedStep s a = some t) :
    RateKept key generation t := by
  obtain ⟨hle, hclock, hreading, haction, hhistory⟩ := timedStep_eq_some hstep
  rw [← hclock] at hle
  -- The record grows by what the step logs.
  have htimes : ∀ events, t.state.log = s.state.log ++ events →
      acceptanceTimes key generation t.history =
        acceptanceTimes key generation s.history ++
          acceptanceTimes key generation (events.map fun e => (t.clock, e)) := by
    intro events hlog
    rw [hhistory, acceptanceTimes_append, stamped_of_append hlog, hclock]
  have hunlogged : t.state.log = s.state.log →
      acceptanceTimes key generation t.history =
        acceptanceTimes key generation s.history := by
    intro hlog
    rw [htimes [] (hlog.trans (List.append_nil _).symm)]
    exact List.append_nil _
  cases haction' : a.action with
  | localMessage k g encoded =>
      rw [haction', step] at haction
      rcases handleLocalMessage_cases k g encoded s.state.manager with
        ⟨hsame, hlog⟩ | ⟨entry, payload, hm, hg, hset, hlog⟩
      · rw [hsame, hlog, List.append_nil] at haction
        cases ht : t.state
        rw [ht] at haction
        cases haction
        refine h.quiet hle ?_ ?_ (hunlogged ?_) ?_
        all_goals rw [ht]
        intro entry' hentry' hg'
        exact ⟨entry', hentry', hg', rfl, rfl⟩
      · rw [hset, hlog] at haction
        cases ht : t.state
        rw [ht] at haction
        cases haction
        refine h.quiet hle ?_ ?_ ?_ ?_
        · rw [ht]
          exact le_refl _
        · rw [ht]
        · rw [htimes _ (by rw [ht])]
          exact List.append_nil _
        · intro entry' hentry' hg'
          rw [ht, Manager.getElem?_setEntry] at hentry'
          split at hentry'
          · rename_i hk
            cases hentry'
            exact ⟨entry, hk ▸ hm, hg', rfl, rfl⟩
          · exact ⟨entry', hentry', hg', rfl, rfl⟩
  | flushTake k g now =>
      have hnow : now = t.clock := by
        rw [hclock]
        exact hreading now (by rw [haction', clockReading])
      rw [haction'] at haction
      simp only [step] at haction
      split at haction
      · cases haction
      · rename_i hidle
        split at haction
        · injection haction with ht
          refine h.quiet hle ?_ ?_ (hunlogged ?_) ?_
          all_goals rw [← ht]
          intro entry' hentry' hg'
          exact ⟨entry', hentry', hg', rfl, rfl⟩
        · rename_i d m htake
          injection haction with ht
          obtain ⟨entry, hm, hg, hp, hkey, hgd, hr, hd, hset⟩ := flushTake_eq_some htake
          obtain ⟨hconfig, hdue⟩ := flushTake_due htake hm
          refine h.taken hle hidle (hkey.symm ▸ hm) hconfig (hnow ▸ hdue) hd ?_ ?_ (hunlogged ?_)
          all_goals rw [← ht]
          rw [hset, hkey]
  | callSender result =>
      rw [haction'] at haction
      simp only [step] at haction
      split at haction
      · cases haction
      · rename_i d hs
        split at haction
        · cases haction
        · rename_i hd
          injection haction with ht
          refine h.handed hwf hle hs hd (by rw [← ht]) (by rw [← ht]) ?_
          rw [htimes _ (by rw [← ht])]
          exact congrArg _ (acceptanceTimes_handed ..)
  | flushSettle now =>
      have hnow : now = t.clock := by
        rw [hclock]
        exact hreading now (by rw [haction', clockReading])
      rw [haction'] at haction
      simp only [step] at haction
      split at haction
      · cases haction
      · rename_i d hs
        split at haction
        · cases haction
        · rename_i accepted hd
          injection haction with ht
          refine h.settled hwf hle hs hd ?_ ?_ (hunlogged ?_)
          all_goals rw [← ht]
          rw [hnow]
  | configure loadable topics peersPrefix peerWhitelist =>
      rw [haction'] at haction
      simp only [step] at haction
      split at haction
      · cases haction
      · rename_i hidle
        injection haction with ht
        obtain ⟨hnext, hentries⟩ :=
          configure_entries loadable topics peersPrefix peerWhitelist s.state.manager
        refine h.replaced ?_ ?_ ?_ ?_
        · rw [← ht, hidle]
        · rw [← ht]
          exact hnext
        · rw [htimes _ (by rw [← ht])]
          exact List.append_nil _
        · intro entry' hentry'
          rw [← ht] at hentry'
          exact (hentries key entry' hentry').1
  | clear =>
      rw [haction'] at haction
      simp only [step] at haction
      split at haction
      · cases haction
      · rename_i hidle
        injection haction with ht
        refine h.replaced ?_ ?_ ?_ ?_
        · rw [← ht, hidle]
        · rw [← ht]
          exact le_refl _
        · rw [htimes _ (by rw [← ht])]
          exact List.append_nil _
        · intro entry' hentry'
          rw [← ht] at hentry'
          simp [Bridge.clear] at hentry'
  | setSenders advertisement mesh =>
      rw [haction', step] at haction
      injection haction with ht
      refine h.quiet hle ?_ ?_ (hunlogged ?_) ?_
      all_goals rw [← ht]
      intro entry' hentry' hg'
      exact ⟨entry', hentry', hg', rfl, rfl⟩

theorem rateKept_reachable (hs : Run.Reachable timedStep TimedInitial s) :
    WellFormed s.state ∧ RateKept key generation s := by
  refine hs.invariant (P := fun s => WellFormed s.state ∧ RateKept key generation s) ?_ ?_
  · rintro _ rfl
    exact ⟨wellFormed_initial, rateKept_initial⟩
  · rintro s a t ⟨hwf, hkept⟩ _ hstep
    exact ⟨wellFormed_moves hwf (step_moves (timedStep_eq_some hstep).2.2.2.1),
      rateKept_step hwf hkept hstep⟩

/-! ## Moves of the deadline -/

/-- The step with which `flush` records an accepted value of the entry. -/
def settlesAccepted (key : String) (generation : Nat) (s : TimedState) (a : TimedAction) : Prop :=
  a.action = .flushSettle a.now ∧ verdictOf key generation s.state = some true

/-- Only `flushSettle` ends an attempt. -/
theorem flushSettle_of_idle {u v : State} {action : Action} {d : Dispatch}
    (h : step u action = some v) (hd : u.dispatching = some d) (hidle : v.dispatching = none) :
    ∃ now, action = .flushSettle now := by
  cases action with
  | flushSettle now => exact ⟨now, rfl⟩
  | localMessage _ _ _ =>
      cases h
      rw [hd] at hidle
      cases hidle
  | setSenders _ _ =>
      cases h
      rw [hd] at hidle
      cases hidle
  | callSender result =>
      simp only [step, hd] at h
      split at h
      · cases h
      · cases h
        cases hidle
  | flushTake _ _ _ => simp [step, hd] at h
  | configure _ _ _ _ => simp [step, hd] at h
  | clear => simp [step, hd] at h

/-- **What a step does to a deadline**, for an entry that is not made by the step. -/
theorem deadline_step {a : TimedAction} {entry' : Entry} (hwf : WellFormed s.state)
    (hkept : RateKept key generation s) (hstep : timedStep s a = some t)
    (hentry' : t.state.manager.entries[key]? = some entry') (hg' : entry'.generation = generation)
    (hold : generation ≤ s.state.manager.nextGeneration) :
    ∃ entry : Entry, s.state.manager.entries[key]? = some entry ∧
      entry.generation = generation ∧
      (¬settlesAccepted key generation s a → entry'.nextDispatchAt = entry.nextDispatchAt) ∧
      (settlesAccepted key generation s a → 0 < entry.config.rateHz →
        entry'.nextDispatchAt =
          nextDeadline entry.nextDispatchAt a.now (spacing entry.config.rateHz)) ∧
      entry.nextDispatchAt ≤ entry'.nextDispatchAt := by
  obtain ⟨-, -, hreading, haction, -⟩ := timedStep_eq_some hstep
  by_cases hsettle : ∃ now, a.action = .flushSettle now
  · obtain ⟨now, hflush⟩ := hsettle
    obtain rfl : now = a.now := hreading now (by rw [hflush, clockReading])
    rw [hflush] at haction
    simp only [step] at haction
    split at haction
    · cases haction
    · rename_i d hs
      split at haction
      · cases haction
      · rename_i accepted hd
        injection haction with ht
        rw [← ht] at hentry'
        obtain ⟨entry₀, hentry₀, hg₀⟩ := hwf.dispatch_live d hs
        obtain ⟨⟨entry₁, hentry₁, hg₁, -, hdeadline⟩, hothers⟩ :=
          flushSettle_deadline accepted a.now hentry₀ hg₀
        by_cases hkey : key = d.key
        · subst hkey
          rw [hentry₁] at hentry'
          cases hentry'
          have hgeneration : d.generation = generation := by rw [← hg₀, ← hg₁, hg']
          have hconfig : d.config = entry₀.config :=
            (hkept.attempt d hs rfl hgeneration entry₀ hentry₀ (hg₁ ▸ hg')).1
          have hverdict : verdictOf d.key generation s.state = some accepted := by
            simp [verdictOf, hs, hgeneration, hd]
          rw [hconfig] at hdeadline
          refine ⟨entry₀, hentry₀, hg₁ ▸ hg', ?_, ?_, ?_⟩
          · intro hno
            rw [hdeadline, if_neg]
            rintro ⟨rfl, -⟩
            exact hno ⟨hflush, hverdict⟩
          · rintro ⟨-, haccepted⟩ hrate
            rw [hverdict, Option.some.injEq] at haccepted
            rw [hdeadline, if_pos ⟨haccepted, hrate⟩]
          · rw [hdeadline]
            split
            · exact le_trans (Nat.le_add_right _ _) add_step_le_nextDeadline
            · exact le_refl _
        · rw [hothers key hkey] at hentry'
          refine ⟨entry', hentry', hg', fun _ => rfl, ?_, le_refl _⟩
          rintro ⟨-, haccepted⟩
          simp [verdictOf, hs, Ne.symm hkey] at haccepted
  · -- Every other step leaves the deadline of an entry that stays.
    have hno : ¬settlesAccepted key generation s a := fun h => hsettle ⟨a.now, h.1⟩
    have hsame : ∃ entry : Entry, s.state.manager.entries[key]? = some entry ∧
        entry.generation = generation ∧ entry'.nextDispatchAt = entry.nextDispatchAt := by
      cases hmoves : t.state
      rw [hmoves] at haction hentry'
      cases step_moves haction with
      | quiet hentries _ _ _ => exact ⟨entry', hentries ▸ hentry', hg', rfl⟩
      | encoded k entry payload hm =>
          rw [Manager.getElem?_setEntry] at hentry'
          split at hentry'
          · rename_i hk
            cases hentry'
            exact ⟨entry, hk ▸ hm, hg', rfl⟩
          · exact ⟨entry', hentry', hg', rfl⟩
      | taken d entry _ hm _ _ _ _ =>
          rw [Manager.getElem?_setEntry] at hentry'
          split at hentry'
          · rename_i hk
            cases hentry'
            exact ⟨entry, hk ▸ hm, hg', rfl⟩
          · exact ⟨entry', hentry', hg', rfl⟩
      | handed d _ _ _ => exact ⟨entry', hentry', hg', rfl⟩
      | settled d accepted now hs _ =>
          exact absurd (flushSettle_of_idle haction hs rfl) hsettle
      | replaced m _ _ hentries =>
          have hnew := (hentries key entry' hentry').1
          omega
    obtain ⟨entry, hentry, hg, hdeadline⟩ := hsame
    exact ⟨entry, hentry, hg, fun _ => hdeadline, fun h => absurd h hno, le_of_eq hdeadline.symm⟩

theorem nextGeneration_le_of_moves {u v : State} (h : Moves u v) :
    u.manager.nextGeneration ≤ v.manager.nextGeneration := by
  cases h with
  | quiet _ hnext _ _ => exact le_of_eq hnext.symm
  | encoded _ _ _ _ => exact le_refl _
  | taken _ _ _ _ _ _ _ _ => exact le_refl _
  | handed _ _ _ _ => exact le_refl _
  | settled d accepted now _ _ => exact le_of_eq (nextGeneration_flushSettle ..).symm
  | replaced _ _ hnext _ => exact hnext

/-- Over a run the deadline of an entry that stays does not move back. -/
theorem deadline_le_of_exec {entry entry' : Entry} {as : List TimedAction}
    (hs : Run.Reachable timedStep TimedInitial s)
    (hentry : s.state.manager.entries[key]? = some entry)
    (hrun : Run.exec timedStep s as = some t)
    (hentry' : t.state.manager.entries[key]? = some entry')
    (hg : entry'.generation = entry.generation) :
    entry.nextDispatchAt ≤ entry'.nextDispatchAt := by
  have hall : ∀ u, Run.Reachable timedStep (· = s) u →
      (Run.Reachable timedStep TimedInitial u ∧
        entry.generation ≤ u.state.manager.nextGeneration) ∧
      ∀ e : Entry, u.state.manager.entries[key]? = some e → e.generation = entry.generation →
        entry.nextDispatchAt ≤ e.nextDispatchAt := by
    intro u hu
    refine hu.invariant (P := fun u => (Run.Reachable timedStep TimedInitial u ∧
        entry.generation ≤ u.state.manager.nextGeneration) ∧
      ∀ e : Entry, u.state.manager.entries[key]? = some e → e.generation = entry.generation →
        entry.nextDispatchAt ≤ e.nextDispatchAt) ?_ ?_
    · rintro u rfl
      refine ⟨⟨hs, (@rateKept_reachable key 0 u hs).1.generation_le
        key entry hentry⟩, ?_⟩
      intro e he _
      rw [hentry] at he
      cases he
      exact le_refl _
    · rintro u a v ⟨⟨hu, hle⟩, hdeadline⟩ - hstep
      obtain ⟨hwf, hkept⟩ := @rateKept_reachable key entry.generation u hu
      refine ⟨⟨.next hu trivial hstep, le_trans hle ?_⟩, ?_⟩
      · exact nextGeneration_le_of_moves (step_moves (timedStep_eq_some hstep).2.2.2.1)
      · intro e he hge
        obtain ⟨e₀, he₀, hg₀, -, -, hmono⟩ := deadline_step hwf hkept hstep he hge hle
        exact le_trans (hdeadline e₀ he₀ hg₀) hmono
  exact (hall t (Run.Reachable.exec (.start rfl) hrun)).2 entry' hentry' hg

end

/-! ## The rate cap -/

/-- **Export rate cap.** In every run with a clock that does not go back, the sender accepts at
most `length / spacing + 2` values of a rate-limited entry in any window of that length. The
deadline moves with accepted values only: to one spacing from now for the first, by the loop
otherwise, which ends past the present; it never moves back while the entry stays. -/
theorem exportRate_capped {s : TimedState} (hs : Run.Reachable timedStep TimedInitial s)
    {key : String} {entry : Entry} (hentry : s.state.manager.entries[key]? = some entry)
    (hrate : 0 < entry.config.rateHz) :
    (∀ start length, acceptedWithin key entry.generation start length s ≤
      length / spacing entry.config.rateHz + 2) ∧
    (∀ a t entry', timedStep s a = some t → t.state.manager.entries[key]? = some entry' →
      entry'.generation = entry.generation →
        (¬settlesAccepted key entry.generation s a →
          entry'.nextDispatchAt = entry.nextDispatchAt) ∧
        (settlesAccepted key entry.generation s a → a.now < entry'.nextDispatchAt ∧
          (entry.nextDispatchAt = 0 →
            entry'.nextDispatchAt = a.now + spacing entry.config.rateHz) ∧
          (entry.nextDispatchAt ≠ 0 → ∃ rounds, ∀ more,
            catchUp (spacing entry.config.rateHz) a.now (rounds + more) entry.nextDispatchAt =
              some entry'.nextDispatchAt))) ∧
    ∀ as t entry', Run.exec timedStep s as = some t →
      t.state.manager.entries[key]? = some entry' → entry'.generation = entry.generation →
        entry.nextDispatchAt ≤ entry'.nextDispatchAt := by
  obtain ⟨hwf, hkept⟩ := @rateKept_reachable key entry.generation s hs
  have hspacing := spacing_pos entry.config.rateHz
  refine ⟨?_, ?_, ?_⟩
  · intro start length
    obtain ⟨admissions, hadmissions, hpaced⟩ := hkept.paced entry hentry rfl hrate
    rw [acceptedWithin, ← hadmissions, List.filter_map, List.length_map]
    exact hpaced.length_le_window hspacing start length
  · intro a t entry' hstep hentry' hg
    obtain ⟨entry₀, hentry₀, -, hstays, hmoves, -⟩ := deadline_step hwf hkept hstep hentry' hg
      (hwf.generation_le key entry hentry)
    rw [hentry] at hentry₀
    cases hentry₀
    refine ⟨hstays, ?_⟩
    intro hsettles
    rw [hmoves hsettles hrate]
    refine ⟨lt_nextDeadline hspacing, ?_, ?_⟩
    · intro hfirst
      rw [nextDeadline, if_pos hfirst]
    · intro hlater
      rw [nextDeadline_eq_gridAfter hlater]
      exact ⟨_, fun more => catchUp_eq_some hspacing (Nat.le_add_right _ more)⟩
  · intro as t entry' hrun hentry' hg
    exact deadline_le_of_exec hs hentry hrun hentry' hg

/-- A spacing of 100 ticks. The second value is late on the grid and the third is not, so that
they are one tick apart. -/
def lateThenPunctual : List TimedAction :=
  [ ⟨5, .setSenders true true⟩,
    ⟨5, .configure (fun _ => true)
      [{ transport := .mesh, mode := .export, channelId := 7, rateHz := 10000000 }] "" []⟩,
    ⟨6, .localMessage "mesh:7" 1 (some [1])⟩, ⟨7, .flushTake "mesh:7" 1 7⟩,
    ⟨8, .callSender .accept⟩, ⟨9, .flushSettle 9⟩,
    ⟨9, .localMessage "mesh:7" 1 (some [2])⟩, ⟨50, .flushTake "mesh:7" 1 50⟩,
    ⟨208, .flushTake "mesh:7" 1 208⟩, ⟨208, .callSender .accept⟩, ⟨208, .flushSettle 208⟩,
    ⟨208, .localMessage "mesh:7" 1 (some [3])⟩, ⟨209, .flushTake "mesh:7" 1 209⟩,
    ⟨209, .callSender .accept⟩ ]

theorem exportRate_capped_lateThenPunctual :
    ∃ s entry, Run.exec timedStep {} lateThenPunctual = some s ∧
      s.state.manager.entries["mesh:7"]? = some entry ∧ 0 < entry.config.rateHz ∧
      spacing entry.config.rateHz = 100 ∧ entry.nextDispatchAt = 209 ∧
      acceptedWithin "mesh:7" entry.generation 208 1 s = 1 / spacing entry.config.rateHz + 2 ∧
      ∀ start length, acceptedWithin "mesh:7" entry.generation start length s ≤
        length / spacing entry.config.rateHz + 2 := by
  have hrun : ((Run.exec timedStep {} lateThenPunctual).bind fun s =>
      (s.state.manager.entries["mesh:7"]?).map fun entry =>
        (decide (0 < entry.config.rateHz), spacing entry.config.rateHz, entry.nextDispatchAt,
          acceptedWithin "mesh:7" entry.generation 208 1 s)) =
        some (true, 100, 209, 2) := by
    decide +kernel
  obtain ⟨s, hs, hentry⟩ := Option.bind_eq_some_iff.mp hrun
  obtain ⟨entry, hentry, hvalues⟩ := Option.map_eq_some_iff.mp hentry
  simp only [Prod.mk.injEq, decide_eq_true_eq] at hvalues
  obtain ⟨hrate, hspacing, hdeadline, hwithin⟩ := hvalues
  have hreachable : Run.Reachable timedStep TimedInitial s := Run.Reachable.exec (.start rfl) hs
  refine ⟨s, entry, hs, hentry, hrate, hspacing, hdeadline, ?_,
    (exportRate_capped hreachable hentry hrate).1⟩
  rw [hwithin, hspacing]

/-- The values are sent at once. -/
def acceptedAt (now : Time) (payload : UInt8) : List TimedAction :=
  [ ⟨now, .localMessage "mesh:7" 1 (some [payload])⟩, ⟨now, .flushTake "mesh:7" 1 now⟩,
    ⟨now, .callSender .accept⟩, ⟨now, .flushSettle now⟩ ]

/-- Three values in a second, at most. A third of a second is cut to 333333333 ticks; the second
value is one tick before the grid, and the next five are on it. -/
def thirdsOfSecond : List TimedAction :=
  [ ⟨1, .setSenders true true⟩,
    ⟨1, .configure (fun _ => true)
      [{ transport := .mesh, mode := .export, channelId := 7, rateHz := 3 }] "" []⟩ ] ++
    acceptedAt 10 1 ++ acceptedAt 666666675 2 ++ acceptedAt 666666676 3 ++
    acceptedAt 1000000009 4 ++ acceptedAt 1333333342 5 ++ acceptedAt 1666666675 6 ++
    acceptedAt 2000000008 7

/-- With the exact quotient for the spacing the bound is broken: six values are accepted within less
than four thirds of a second. -/
theorem exact_rate_exceeded : ¬∀ s, Run.Reachable timedStep TimedInitial s →
    ∀ (key : String) (entry : Entry), s.state.manager.entries[key]? = some entry →
      0 < entry.config.rateHz → ∀ start length,
        (acceptedWithin key entry.generation start length s : ℤ) ≤
          ⌊(length : ℚ) / (10 ^ 9 / entry.config.rateHz)⌋ + 2 := by
  intro hclaim
  have hrun : ((Run.exec timedStep {} thirdsOfSecond).bind fun s =>
      (s.state.manager.entries["mesh:7"]?).map fun entry =>
        (entry.config.rateHz, acceptedWithin "mesh:7" entry.generation 666666675 1333333333 s)) =
        some (3, 6) := by
    decide +kernel
  obtain ⟨s, hs, hentry⟩ := Option.bind_eq_some_iff.mp hrun
  obtain ⟨entry, hentry, hvalues⟩ := Option.map_eq_some_iff.mp hentry
  obtain ⟨hrate, hwithin⟩ := Prod.mk.inj hvalues
  have hbound := hclaim s (Run.Reachable.exec (.start rfl) hs) "mesh:7" entry hentry
    (by rw [hrate]; decide) 666666675 1333333333
  rw [hwithin, hrate] at hbound
  revert hbound
  decide +kernel

end UavBluetooth.Bridge
