import UavBluetooth.Bridge.TransportBridgeManager
import UavBluetooth.Lib.Mailbox

set_option autoImplicit false

/-! # The newest value of an export bridge

Each entry of the transport bridge manager is a one-slot mailbox: `handle_local_message` puts
a value, `flush` takes it, offers it to the transport and gives a refused value back. The
manager's steps are simulated, for every key and generation, by the operations of
`Mailbox`, whatever the other entries and generations do in between; the mailbox invariant
then gives the ordering and the retention of values (`newest_value_export`).
-/

namespace UavBluetooth.Bridge

open Config Util

/-! ## What the log says about one generation of one entry -/

/-- The values encoded for the entry, with their revisions, oldest first. -/
def encodedOf (key : String) (generation : Nat) (log : List Event) : List (Nat × Bytes) :=
  log.filterMap fun
    | .encoded k g revision payload =>
        if k = key ∧ g = generation then some (revision, payload) else none
    | _ => none

/-- The values of the entry that the transport sender accepted, oldest first. -/
def acceptedOf (key : String) (generation : Nat) (log : List Event) : List (Nat × Bytes) :=
  log.filterMap fun
    | .handed k g revision payload true =>
        if k = key ∧ g = generation then some (revision, payload) else none
    | _ => none

/-- The attempt a dispatch makes for the entry. -/
def attemptOf (key : String) (generation : Nat) :
    Option Dispatch → Option (Mailbox.Attempt Bytes)
  | some d =>
      if d.key = key ∧ d.generation = generation then
        some ⟨d.revision, d.payload, d.accepted⟩
      else none
  | none => none

/-! ## What each operation does to the entries -/

@[simp] theorem Manager.getElem?_setEntry (m : Manager) (key k : String) (entry : Entry) :
    (m.setEntry key entry).entries[k]? = if key = k then some entry else m.entries[k]? := by
  simp [Manager.setEntry, Std.ExtTreeMap.getElem?_insert]

@[simp] theorem Manager.nextGeneration_setEntry (m : Manager) (key : String) (entry : Entry) :
    (m.setEntry key entry).nextGeneration = m.nextGeneration := rfl

/-- A local message that is not encoded for a live entry changes nothing. -/
theorem handleLocalMessage_cases (key : String) (generation : Nat) (encoded : Option Bytes)
    (m : Manager) :
    (handleLocalMessage key generation encoded m = m ∧
      localMessageEvents key generation encoded m = []) ∨
    ∃ entry payload, m.entries[key]? = some entry ∧ entry.generation = generation ∧
      handleLocalMessage key generation encoded m = m.setEntry key
        { entry with pendingPayload := some payload, revision := entry.revision + 1 } ∧
      localMessageEvents key generation encoded m =
        [.encoded key generation (entry.revision + 1) payload] := by
  cases hm : m.entries[key]? with
  | none => left; simp [handleLocalMessage, localMessageEvents, hm]
  | some entry =>
      by_cases hg : entry.generation = generation
      · cases encoded with
        | none => left; simp [handleLocalMessage, localMessageEvents, hm]
        | some payload =>
            right
            exact ⟨entry, payload, rfl, hg, by simp [handleLocalMessage, hm, hg],
              by simp [localMessageEvents, hm, hg]⟩
      · left
        cases encoded <;> simp [handleLocalMessage, localMessageEvents, hm, hg]

/-- A successful take copies the entry's revision and payload and empties the slot. -/
theorem flushTake_eq_some {key : String} {generation : Nat} {now : Time} {m m' : Manager}
    {d : Dispatch} (h : flushTake key generation now m = some (d, m')) :
    ∃ entry, m.entries[key]? = some entry ∧ entry.generation = generation ∧
      entry.pendingPayload = some d.payload ∧ d.key = key ∧ d.generation = generation ∧
      d.revision = entry.revision ∧ d.accepted = none ∧
      m' = m.setEntry key { entry with pendingPayload := none } := by
  unfold flushTake at h
  cases hm : m.entries[key]? with
  | none => simp [hm] at h
  | some entry =>
      simp only [hm] at h
      split at h
      · cases h
      · rename_i hg
        split at h
        · cases h
        · rename_i payload hp
          split at h
          · cases h
          · cases h
            exact ⟨entry, rfl, by simpa using hg, hp, rfl, rfl, rfl, rfl, rfl⟩

/-- Settling touches only the dispatched entry, and there only the deadline and an empty slot
of the same revision. -/
theorem flushSettle_entries {d : Dispatch} (accepted : Bool) (now : Time) {m : Manager}
    {entry : Entry} (hm : m.entries[d.key]? = some entry)
    (hg : entry.generation = d.generation) :
    ∃ entry', entry'.generation = d.generation ∧ entry'.revision = entry.revision ∧
      entry'.pendingPayload =
        (if accepted = false ∧ entry.revision = d.revision ∧ entry.pendingPayload.isNone then
          some d.payload else entry.pendingPayload) ∧
      ∀ k, (flushSettle d accepted now m).entries[k]? =
        if d.key = k then some entry' else m.entries[k]? := by
  have hsame : ∀ k, m.entries[k]? = if d.key = k then some entry else m.entries[k]? := by
    intro k
    split
    · rename_i hk; rw [← hk, hm]
    · rfl
  unfold flushSettle
  simp only [hm, hg, ne_eq, not_true_eq_false, if_false]
  cases accepted with
  | true =>
      simp only [if_true, Bool.true_eq_false, false_and, if_false]
      split
      · refine ⟨_, ?_, ?_, ?_, fun k => Manager.getElem?_setEntry _ _ _ _⟩
        all_goals rfl
      · exact ⟨entry, hg, rfl, rfl, hsame⟩
  | false =>
      simp only [Bool.false_eq_true, if_false, true_and, Option.isNone_iff_eq_none]
      split
      · refine ⟨_, ?_, ?_, ?_, fun k => Manager.getElem?_setEntry _ _ _ _⟩
        all_goals rfl
      · exact ⟨entry, hg, rfl, rfl, hsame⟩

@[simp] theorem nextGeneration_flushSettle (d : Dispatch) (accepted : Bool) (now : Time)
    (m : Manager) : (flushSettle d accepted now m).nextGeneration = m.nextGeneration := by
  unfold flushSettle
  repeat' split
  all_goals rfl

/-- The loop of `configure` keeps the entries it finds and adds empty ones, each under a
generation of its own. -/
theorem configureTopics_entries (loadable : String → Bool) (topics : List SharedTopicConfig)
    (m : Manager) :
    m.nextGeneration ≤ (configureTopics loadable topics m).2.nextGeneration ∧
    ∀ (k : String) (entry : Entry), (configureTopics loadable topics m).2.entries[k]? = some entry →
      m.entries[k]? = some entry ∨
      (m.nextGeneration < entry.generation ∧
        entry.generation ≤ (configureTopics loadable topics m).2.nextGeneration ∧
        entry.revision = 0 ∧ entry.pendingPayload = none) := by
  induction topics generalizing m with
  | nil => exact ⟨Nat.le_refl _, fun k entry h => Or.inl h⟩
  | cons configured rest ih =>
      simp only [configureTopics]
      split
      · exact ih m
      · split
        · exact ⟨Nat.le_refl _, fun k entry h => Or.inl h⟩
        · -- The entry is made before its type support is loaded.
          have hmade : ∀ (k : String) (entry : Entry),
              (Manager.setEntry { m with nextGeneration := m.nextGeneration + 1 }
                (entryKey configured.transport configured.channelId)
                { config := configured, generation := m.nextGeneration + 1 }).entries[k]? =
                some entry →
              m.entries[k]? = some entry ∨
              (entry.generation = m.nextGeneration + 1 ∧ entry.revision = 0 ∧
                entry.pendingPayload = none) := by
            intro k entry h
            rw [Manager.getElem?_setEntry] at h
            split at h
            · cases h
              exact Or.inr ⟨rfl, rfl, rfl⟩
            · exact Or.inl h
          split
          · have hrest := ih (Manager.setEntry { m with nextGeneration := m.nextGeneration + 1 }
                (entryKey configured.transport configured.channelId)
                { config := configured, generation := m.nextGeneration + 1 })
            simp only [Manager.nextGeneration_setEntry] at hrest
            refine ⟨by omega, fun k entry h => ?_⟩
            rcases hrest.2 k entry h with hold | ⟨hlt, hle, hr, hp⟩
            · rcases hmade k entry hold with h0 | ⟨hg, hr, hp⟩
              · exact Or.inl h0
              · exact Or.inr ⟨by omega, by omega, hr, hp⟩
            · exact Or.inr ⟨by omega, hle, hr, hp⟩
          · refine ⟨Nat.le_succ _, fun k entry h => ?_⟩
            rcases hmade k entry h with h0 | ⟨hg, hr, hp⟩
            · exact Or.inl h0
            · exact Or.inr ⟨by omega, le_of_eq hg, hr, hp⟩

/-- `configure`, also when it throws, leaves only empty entries of new generations. -/
theorem configure_entries (loadable : String → Bool) (topics : List SharedTopicConfig)
    (peersPrefix : String) (peerWhitelist : List String) (m : Manager) :
    m.nextGeneration ≤
      (configure loadable topics peersPrefix peerWhitelist m).2.nextGeneration ∧
    ∀ (k : String) (entry : Entry), (configure loadable topics peersPrefix peerWhitelist m).2.entries[k]? =
        some entry →
      m.nextGeneration < entry.generation ∧
      entry.generation ≤
        (configure loadable topics peersPrefix peerWhitelist m).2.nextGeneration ∧
      entry.revision = 0 ∧ entry.pendingPayload = none := by
  unfold configure
  split
  · refine ⟨Nat.le_refl _, fun k entry h => ?_⟩
    simp at h
  · have h := configureTopics_entries loadable topics
      { m with
        entries := ∅
        peersPrefix := peersPrefix
        peerWhitelist := peerWhitelist.map lowerTrimCopy
        meshPeers := meshPeerByAddress (peerWhitelist.map lowerTrimCopy) }
    refine ⟨h.1, fun k entry hk => ?_⟩
    rcases h.2 k entry hk with hold | hnew
    · simp at hold
    · exact hnew

/-! ## What a step can do -/

/-- The moves of the manager: every step is one of these. -/
inductive Moves (s : State) : State → Prop where
  | quiet {t : State} (hentries : t.manager.entries = s.manager.entries)
      (hnext : t.manager.nextGeneration = s.manager.nextGeneration)
      (hdispatching : t.dispatching = s.dispatching) (hlog : t.log = s.log) : Moves s t
  | encoded (key : String) (entry : Entry) (payload : Bytes)
      (hm : s.manager.entries[key]? = some entry) :
      Moves s { s with
        manager := s.manager.setEntry key
          { entry with pendingPayload := some payload, revision := entry.revision + 1 }
        log := s.log ++ [.encoded key entry.generation (entry.revision + 1) payload] }
  | taken (d : Dispatch) (entry : Entry) (hidle : s.dispatching = none)
      (hm : s.manager.entries[d.key]? = some entry) (hg : entry.generation = d.generation)
      (hp : entry.pendingPayload = some d.payload) (hr : d.revision = entry.revision)
      (hd : d.accepted = none) :
      Moves s { s with
        manager := s.manager.setEntry d.key { entry with pendingPayload := none }
        dispatching := some d }
  | handed (d : Dispatch) (accepted : Bool) (hs : s.dispatching = some d)
      (hd : d.accepted = none) :
      Moves s { s with
        dispatching := some { d with accepted := some accepted }
        log := s.log ++ [.handed d.key d.generation d.revision d.payload accepted] }
  | settled (d : Dispatch) (accepted : Bool) (now : Time) (hs : s.dispatching = some d)
      (hd : d.accepted = some accepted) :
      Moves s { s with
        manager := flushSettle d accepted now s.manager, dispatching := none }
  | replaced (m : Manager) (hidle : s.dispatching = none)
      (hnext : s.manager.nextGeneration ≤ m.nextGeneration)
      (hentries : ∀ (k : String) (entry : Entry), m.entries[k]? = some entry →
        s.manager.nextGeneration < entry.generation ∧ entry.generation ≤ m.nextGeneration ∧
        entry.revision = 0 ∧ entry.pendingPayload = none) :
      Moves s { s with
        manager := m, log := s.log ++ [.replaced s.manager.nextGeneration] }

theorem step_moves {s t : State} {a : Action} (h : step s a = some t) : Moves s t := by
  cases a with
  | localMessage key generation encoded =>
      cases h
      rcases handleLocalMessage_cases key generation encoded s.manager with
        ⟨hsame, hlog⟩ | ⟨entry, payload, hm, hg, hset, hlog⟩
      · simp only [hsame, hlog, List.append_nil]
        exact .quiet rfl rfl rfl rfl
      · subst hg
        simp only [hset, hlog]
        exact .encoded key entry payload hm
  | flushTake key generation now =>
      simp only [step] at h
      split at h
      · cases h
      · rename_i hidle
        split at h
        · cases h
          exact .quiet rfl rfl rfl rfl
        · rename_i d m htake
          cases h
          obtain ⟨entry, hm, hg, hp, rfl, hgd, hr, hd, rfl⟩ := flushTake_eq_some htake
          exact .taken d entry hidle hm (hg.trans hgd.symm) hp hr hd
  | callSender result =>
      simp only [step] at h
      split at h
      · cases h
      · rename_i d hs
        split at h
        · cases h
        · rename_i hd
          cases h
          exact .handed d _ hs hd
  | flushSettle now =>
      simp only [step] at h
      split at h
      · cases h
      · rename_i d hs
        split at h
        · cases h
        · rename_i accepted hd
          cases h
          exact .settled d accepted now hs hd
  | configure loadable topics peersPrefix peerWhitelist =>
      simp only [step] at h
      split at h
      · cases h
      · rename_i hidle
        cases h
        have hnew := configure_entries loadable topics peersPrefix peerWhitelist s.manager
        exact .replaced _ hidle hnew.1 hnew.2
  | clear =>
      simp only [step] at h
      split at h
      · cases h
      · rename_i hidle
        cases h
        refine .replaced _ hidle (Nat.le_refl _) (fun k entry hk => ?_)
        simp [clear] at hk
  | setSenders advertisement mesh =>
      cases h
      exact .quiet rfl rfl rfl rfl

/-! ## Well-formed states -/

/-- Generations only grow, a dispatch in progress belongs to a live entry, and every entry is
newer than every replacement of the configuration so far. -/
structure WellFormed (s : State) : Prop where
  generation_le : ∀ (k : String) (entry : Entry), s.manager.entries[k]? = some entry →
    entry.generation ≤ s.manager.nextGeneration
  dispatch_live : ∀ d, s.dispatching = some d →
    ∃ entry, s.manager.entries[d.key]? = some entry ∧ entry.generation = d.generation
  replaced_le : ∀ g, Event.replaced g ∈ s.log → g ≤ s.manager.nextGeneration
  replaced_lt : ∀ g, Event.replaced g ∈ s.log → ∀ (k : String) (entry : Entry),
    s.manager.entries[k]? = some entry → g < entry.generation
  /-- What is handed over after a replacement belongs to a newer generation. -/
  handed_after : ∀ before after g, s.log = before ++ .replaced g :: after →
    ∀ k generation revision payload accepted,
      Event.handed k generation revision payload accepted ∈ after → g < generation

/-- An appended event that is no replacement, and if it is a hand-over then of a generation
newer than every replacement, keeps the order of replacements and hand-overs. -/
theorem handed_after_append {log : List Event} {e : Event}
    (h : ∀ before after g, log = before ++ .replaced g :: after →
      ∀ k generation revision payload accepted,
        Event.handed k generation revision payload accepted ∈ after → g < generation)
    (he : ∀ k generation revision payload accepted,
      e = .handed k generation revision payload accepted →
        ∀ g, Event.replaced g ∈ log → g < generation) :
    ∀ before after g, log ++ [e] = before ++ .replaced g :: after →
      ∀ k generation revision payload accepted,
        Event.handed k generation revision payload accepted ∈ after → g < generation := by
  intro before after g heq k generation revision payload accepted hmem
  rcases List.eq_nil_or_concat after with rfl | ⟨init, last, rfl⟩
  · cases hmem
  · have hsplit : log = before ++ .replaced g :: init ∧ e = last := by
      have : log ++ [e] = (before ++ .replaced g :: init) ++ [last] := by simpa using heq
      exact ⟨(List.append_inj' this rfl).1, by simpa using (List.append_inj' this rfl).2⟩
    obtain ⟨hlog, rfl⟩ := hsplit
    rw [List.concat_eq_append, List.mem_append, List.mem_singleton] at hmem
    rcases hmem with hinit | hlast
    · exact h before init g hlog k generation revision payload accepted hinit
    · exact he k generation revision payload accepted hlast.symm g (by simp [hlog])

theorem wellFormed_initial : WellFormed {} := by
  constructor <;> simp

/-- Replacing the entry of a key by one of the same generation keeps the state well formed. -/
theorem WellFormed.update {s t : State} {key : String} {entry entry' : Entry}
    (h : WellFormed s) (hm : s.manager.entries[key]? = some entry)
    (hentries : ∀ k : String, t.manager.entries[k]? =
      if key = k then some entry' else s.manager.entries[k]?)
    (hg : entry'.generation = entry.generation)
    (hnext : t.manager.nextGeneration = s.manager.nextGeneration)
    (hlog : ∀ e ∈ t.log, e ∈ s.log ∨ ∀ g, e ≠ .replaced g)
    (hdispatch : ∀ d, t.dispatching = some d →
      ∃ e, s.manager.entries[d.key]? = some e ∧ e.generation = d.generation)
    (hafter : ∀ before after g, t.log = before ++ .replaced g :: after →
      ∀ k generation revision payload accepted,
        Event.handed k generation revision payload accepted ∈ after → g < generation) :
    WellFormed t := by
  -- An entry of `t` has the generation of the entry of `s` under the same key.
  have hback : ∀ (k : String) (e : Entry), t.manager.entries[k]? = some e →
      ∃ e₀, s.manager.entries[k]? = some e₀ ∧ e.generation = e₀.generation := by
    intro k e he
    rw [hentries] at he
    split at he
    · rename_i hk
      cases he
      exact ⟨entry, hk ▸ hm, hg⟩
    · exact ⟨e, he, rfl⟩
  have hrep : ∀ g, Event.replaced g ∈ t.log → Event.replaced g ∈ s.log := by
    intro g he
    rcases hlog _ he with hs | hne
    · exact hs
    · exact absurd rfl (hne g)
  constructor
  · intro k e he
    obtain ⟨e₀, he₀, heq⟩ := hback k e he
    rw [heq, hnext]
    exact h.generation_le k e₀ he₀
  · intro d hd
    obtain ⟨e, he, heq⟩ := hdispatch d hd
    by_cases hk : key = d.key
    · refine ⟨entry', by rw [hentries, if_pos hk], ?_⟩
      rw [← hk, hm] at he
      cases he
      rw [hg, heq]
    · exact ⟨e, by rw [hentries, if_neg hk, he], heq⟩
  · intro g he
    rw [hnext]
    exact h.replaced_le g (hrep g he)
  · intro g he k e hk
    obtain ⟨e₀, he₀, heq⟩ := hback k e hk
    rw [heq]
    exact h.replaced_lt g (hrep g he) k e₀ he₀
  · exact hafter

/-- Entries all of new generations keep the state well formed. -/
theorem WellFormed.replace {s : State} {m : Manager} (h : WellFormed s)
    (hidle : s.dispatching = none)
    (hnext : s.manager.nextGeneration ≤ m.nextGeneration)
    (hentries : ∀ (k : String) (entry : Entry), m.entries[k]? = some entry →
      s.manager.nextGeneration < entry.generation ∧ entry.generation ≤ m.nextGeneration) :
    WellFormed { s with
      manager := m, log := s.log ++ [.replaced s.manager.nextGeneration] } := by
  constructor
  · intro k entry hk
    exact (hentries k entry hk).2
  · intro d hd
    simp [hidle] at hd
  · intro g hg
    rcases List.mem_append.mp hg with hold | hnew
    · exact le_trans (h.replaced_le g hold) hnext
    · simp only [List.mem_singleton, Event.replaced.injEq] at hnew
      exact hnew ▸ hnext
  · intro g hg k entry hk
    have hlt := (hentries k entry hk).1
    rcases List.mem_append.mp hg with hold | hnew
    · exact lt_of_le_of_lt (h.replaced_le g hold) hlt
    · simp only [List.mem_singleton, Event.replaced.injEq] at hnew
      exact hnew ▸ hlt
  · exact handed_after_append h.handed_after (fun _ _ _ _ _ he => by cases he)

theorem wellFormed_moves {s t : State} (h : WellFormed s) (ht : Moves s t) : WellFormed t := by
  cases ht with
  | quiet hentries hnext hdispatching hlog =>
      constructor
      · rw [hentries, hnext]; exact h.generation_le
      · rw [hentries, hdispatching]; exact h.dispatch_live
      · rw [hlog, hnext]; exact h.replaced_le
      · rw [hlog, hentries]; exact h.replaced_lt
      · rw [hlog]; exact h.handed_after
  | encoded key entry payload hm =>
      refine h.update hm (fun k => Manager.getElem?_setEntry _ _ _ _) rfl rfl ?_
        h.dispatch_live (handed_after_append h.handed_after (fun _ _ _ _ _ he => by cases he))
      intro e he
      rcases List.mem_append.mp he with hold | hnew
      · exact Or.inl hold
      · rw [List.mem_singleton] at hnew
        subst hnew
        exact Or.inr (fun g hg => by cases hg)
  | taken d entry hidle hm hg hp hr hd =>
      refine h.update hm (fun k => Manager.getElem?_setEntry _ _ _ _) rfl rfl
        (fun e he => Or.inl he) ?_ h.handed_after
      intro d' hd'
      cases hd'
      exact ⟨entry, hm, hg⟩
  | handed d accepted hs hd =>
      obtain ⟨entry, hm, hg⟩ := h.dispatch_live d hs
      constructor
      · exact h.generation_le
      · intro d' hd'
        cases hd'
        exact ⟨entry, hm, hg⟩
      · intro g he
        exact h.replaced_le g (by simpa using he)
      · intro g he
        exact h.replaced_lt g (by simpa using he)
      · refine handed_after_append h.handed_after ?_
        intro k generation revision payload accepted' he g hmem
        cases he
        exact hg ▸ h.replaced_lt g hmem d.key entry hm
  | settled d accepted now hs hd =>
      obtain ⟨entry, hm, hg⟩ := h.dispatch_live d hs
      obtain ⟨entry', hg', _, _, hentries⟩ :=
        flushSettle_entries accepted now hm hg
      exact h.update hm hentries (hg'.trans hg.symm) (nextGeneration_flushSettle _ _ _ _)
        (fun e he => Or.inl he) (fun d' hd' => by cases hd') h.handed_after
  | replaced m hidle hnext hentries =>
      exact h.replace hidle hnext
        (fun k entry hk => ⟨(hentries k entry hk).1, (hentries k entry hk).2.1⟩)

/-! ## The simulation -/

/-- The mailbox `b` is the manager's entry for one key and generation: not made yet, live, or
gone with its configuration. -/
structure Represents (key : String) (generation : Nat) (s : State) (b : Mailbox Bytes) :
    Prop where
  puts : b.puts = encodedOf key generation s.log
  accepted : b.accepted = acceptedOf key generation s.log
  attempt : b.attempt = attemptOf key generation s.dispatching
  live : ∀ entry : Entry, s.manager.entries[key]? = some entry →
    entry.generation = generation →
      b.revision = entry.revision ∧ b.slot = entry.pendingPayload
  fresh : s.manager.nextGeneration < generation → b = {}

theorem represents_initial (key : String) (generation : Nat) :
    Represents key generation {} {} := by
  constructor <;> simp [encodedOf, acceptedOf, attemptOf]

/-- **Every move of the manager is at most one operation of the mailbox**, for each key and
generation. -/
theorem represents_moves {key : String} {generation : Nat} {s t : State} {b : Mailbox Bytes}
    (hs : WellFormed s) (h : Represents key generation s b) (ht : Moves s t) :
    Represents key generation t b ∨
      ∃ op b', b.step op = some b' ∧ Represents key generation t b' := by
  cases ht with
  | quiet hentries hnext hdispatching hlog =>
      left
      constructor
      · rw [hlog]; exact h.puts
      · rw [hlog]; exact h.accepted
      · rw [hdispatching]; exact h.attempt
      · rw [hentries]; exact h.live
      · rw [hnext]; exact h.fresh
  | encoded k entry payload hm =>
      by_cases hkey : k = key ∧ entry.generation = generation
      · right
        obtain ⟨rfl, rfl⟩ := hkey
        obtain ⟨hrev, _⟩ := h.live entry hm rfl
        refine ⟨.put payload, b.put payload, rfl, ?_, ?_, h.attempt, ?_, ?_⟩
        · simp [Mailbox.put, h.puts, hrev, encodedOf]
        · simp [Mailbox.put, h.accepted, acceptedOf]
        · intro e he _
          simp only [Manager.getElem?_setEntry, if_true, Option.some.injEq] at he
          subst he
          exact ⟨congrArg (· + 1) hrev, rfl⟩
        · intro hlt
          have := hs.generation_le k entry hm
          simp only [Manager.nextGeneration_setEntry] at hlt
          omega
      · left
        refine ⟨?_, ?_, h.attempt, ?_, h.fresh⟩
        · simp [h.puts, encodedOf, hkey]
        · simp [h.accepted, acceptedOf]
        · intro e he hg
          simp only [Manager.getElem?_setEntry] at he
          split at he
          · rename_i hk
            cases he
            exact absurd ⟨hk, hg⟩ hkey
          · exact h.live e he hg
  | taken d entry hidle hm hg hp hr hd =>
      have hattempt : b.attempt = none := by rw [h.attempt, hidle]; rfl
      by_cases hkey : d.key = key ∧ d.generation = generation
      · right
        obtain ⟨rfl, rfl⟩ := hkey
        obtain ⟨hrev, hslot⟩ := h.live entry hm hg
        rw [hp] at hslot
        refine ⟨.take, { b with slot := none, attempt := some ⟨b.revision, d.payload, none⟩ },
          ?_, h.puts, h.accepted, ?_, ?_, ?_⟩
        · simp [Mailbox.step, Mailbox.take, hattempt, hslot]
        · simp [attemptOf, hd, hr, hrev]
        · intro e he _
          simp only [Manager.getElem?_setEntry, if_true, Option.some.injEq] at he
          subst he
          exact ⟨hrev, rfl⟩
        · intro hlt
          have := hs.generation_le d.key entry hm
          simp only [Manager.nextGeneration_setEntry] at hlt
          omega
      · left
        refine ⟨h.puts, h.accepted, ?_, ?_, h.fresh⟩
        · simp [attemptOf, hkey, hattempt]
        · intro e he hge
          simp only [Manager.getElem?_setEntry] at he
          split at he
          · rename_i hk
            cases he
            exact absurd ⟨hk, hg.symm.trans hge⟩ hkey
          · exact h.live e he hge
  | handed d accepted hd hnone =>
      obtain ⟨entry, hm, hg⟩ := hs.dispatch_live d hd
      by_cases hkey : d.key = key ∧ d.generation = generation
      · right
        obtain ⟨rfl, rfl⟩ := hkey
        have hattempt : b.attempt = some ⟨d.revision, d.payload, none⟩ := by
          rw [h.attempt, hd]
          simp [attemptOf, hnone]
        refine ⟨.offer accepted, { b with
          attempt := some ⟨d.revision, d.payload, some accepted⟩
          accepted :=
            if accepted then b.accepted ++ [(d.revision, d.payload)] else b.accepted },
          ?_, ?_, ?_, ?_, h.live, ?_⟩
        · simp [Mailbox.step, Mailbox.offer, hattempt]
        · simp [h.puts, encodedOf]
        · cases accepted <;> simp [h.accepted, acceptedOf]
        · simp [attemptOf]
        · intro hlt
          have := hs.generation_le d.key entry hm
          have hlt' : s.manager.nextGeneration < d.generation := hlt
          omega
      · left
        refine ⟨?_, ?_, ?_, h.live, h.fresh⟩
        · simp [h.puts, encodedOf]
        · cases accepted <;> simp [h.accepted, acceptedOf, hkey]
        · rw [h.attempt, hd]
          simp [attemptOf, hkey]
  | settled d accepted now hd hsome =>
      obtain ⟨entry, hm, hg⟩ := hs.dispatch_live d hd
      obtain ⟨entry', hg', hr', hp', hentries⟩ :=
        flushSettle_entries accepted now hm hg
      by_cases hkey : d.key = key ∧ d.generation = generation
      · right
        obtain ⟨rfl, rfl⟩ := hkey
        obtain ⟨hrev, hslot⟩ := h.live entry hm hg
        have hattempt : b.attempt = some ⟨d.revision, d.payload, some accepted⟩ := by
          rw [h.attempt, hd]
          simp [attemptOf, hsome]
        refine ⟨.settle, { b with
          attempt := none
          slot :=
            if accepted = false ∧ b.revision = d.revision ∧ b.slot.isNone then some d.payload
            else b.slot }, ?_, h.puts, h.accepted, rfl, ?_, ?_⟩
        · simp [Mailbox.step, Mailbox.settle, hattempt]
        · intro e he _
          rw [hentries, if_pos rfl] at he
          cases he
          exact ⟨hrev.trans hr'.symm, by rw [hp', hrev, hslot]⟩
        · intro hlt
          have := hs.generation_le d.key entry hm
          simp only [nextGeneration_flushSettle] at hlt
          omega
      · left
        refine ⟨h.puts, h.accepted, ?_, ?_, ?_⟩
        · rw [h.attempt, hd]
          simp [attemptOf, hkey]
        · intro e he hge
          rw [hentries] at he
          split at he
          · rename_i hk
            cases he
            exact absurd ⟨hk, hg'.symm.trans hge⟩ hkey
          · exact h.live e he hge
        · simpa using h.fresh
  | replaced m hidle hnext hentries =>
      left
      refine ⟨?_, ?_, h.attempt, ?_, ?_⟩
      · simp [h.puts, encodedOf]
      · simp [h.accepted, acceptedOf]
      · intro e he hge
        obtain ⟨hlt, _, hr, hp⟩ := hentries key e he
        -- A new entry: nothing has happened under its generation yet.
        have hb : b = {} := h.fresh (hge ▸ hlt)
        simp [hb, hr, hp]
      · intro hlt
        exact h.fresh (lt_of_le_of_lt hnext hlt)

/-- Along every run, each entry is some reachable mailbox. -/
theorem represents_reachable {s : State} (hs : Run.Reachable step Initial s) (key : String)
    (generation : Nat) :
    WellFormed s ∧ ∃ b, Run.Reachable Mailbox.step Mailbox.Initial b ∧
      Represents key generation s b := by
  refine hs.invariant (P := fun s => WellFormed s ∧ ∃ b,
    Run.Reachable Mailbox.step Mailbox.Initial b ∧ Represents key generation s b) ?_ ?_
  · rintro _ rfl
    exact ⟨wellFormed_initial, {}, .start rfl, represents_initial key generation⟩
  · rintro s a t ⟨hwf, b, hb, hrep⟩ _ hstep
    have ht := step_moves hstep
    refine ⟨wellFormed_moves hwf ht, ?_⟩
    rcases represents_moves hwf hrep ht with hsame | ⟨op, b', hop, hrep'⟩
    · exact ⟨b, hb, hsame⟩
    · exact ⟨b', .next hb trivial hop, hrep'⟩

/-! ## Newest-value export -/

/-- What the manager promises for one generation of one export entry. -/
structure NewestExport (key : String) (generation : Nat) (s : State) : Prop where
  /-- Accepted values have strictly increasing revisions. -/
  increasing : ((acceptedOf key generation s.log).map Prod.fst).Pairwise (· < ·)
  /-- Only encoded values are accepted, each under its own revision. -/
  encoded : ∀ x ∈ acceptedOf key generation s.log, x ∈ encodedOf key generation s.log
  /-- Between dispatches the newest encoded value was the last accepted or is pending. -/
  newest : s.dispatching = none → ∀ entry : Entry, s.manager.entries[key]? = some entry →
    entry.generation = generation → ∀ newest,
      (encodedOf key generation s.log).getLast? = some newest →
        (acceptedOf key generation s.log).getLast? = some newest ∨
          entry.pendingPayload = some newest.2

/-- **Newest-value export.** After any interleaving of local messages, flushes, sender
results, reconfigurations and clears, every entry keeps the export promise, and nothing
handed to a sender after `configure` or `clear` returned is of an older generation. -/
theorem newest_value_export {s : State} (hs : Run.Reachable step Initial s) :
    (∀ key generation, NewestExport key generation s) ∧
    ∀ before after replaced, s.log = before ++ .replaced replaced :: after →
      ∀ key generation revision payload accepted,
        Event.handed key generation revision payload accepted ∈ after →
          replaced < generation := by
  refine ⟨fun key generation => ?_, ?_⟩
  · obtain ⟨_, b, hb, hrep⟩ := represents_reachable hs key generation
    have hinv := Mailbox.inv_reachable hb
    constructor
    · rw [← hrep.accepted]
      exact hinv.accepted_increasing
    · rw [← hrep.accepted, ← hrep.puts]
      exact hinv.accepted_put
    · intro hidle entry hentry hg newest hnewest
      have hattempt : b.attempt = none := by rw [hrep.attempt, hidle]; rfl
      rw [← hrep.puts] at hnewest
      rw [← hrep.accepted, ← (hrep.live entry hentry hg).2]
      exact hinv.newest_kept hattempt hnewest
  · exact (represents_reachable hs "" 0).1.handed_after

/-- A value refused while a newer one arrives, then the newer one accepted. -/
def refusedThenNewer : List Action :=
  [ .setSenders true true,
    .configure (fun _ => true) [{ transport := .mesh, mode := .export, channelId := 7 }] "" [],
    .localMessage "mesh:7" 1 (some [1]), .flushTake "mesh:7" 1 0,
    .localMessage "mesh:7" 1 (some [2]), .callSender .reject, .flushSettle 0,
    .flushTake "mesh:7" 1 0, .callSender .accept, .flushSettle 0, .clear ]

theorem newest_value_export_refusedThenNewer :
    ∃ s, Run.exec step {} refusedThenNewer = some s ∧
      acceptedOf "mesh:7" 1 s.log = [(2, [2])] ∧
      (∀ key generation, NewestExport key generation s) ∧
      ∀ before after replaced, s.log = before ++ .replaced replaced :: after →
        ∀ key generation revision payload accepted,
          Event.handed key generation revision payload accepted ∈ after →
            replaced < generation := by
  have hrun : ((Run.exec step {} refusedThenNewer).map
      fun s => acceptedOf "mesh:7" 1 s.log) = some [(2, [2])] := by decide +kernel
  obtain ⟨s, hs, hacc⟩ := Option.map_eq_some_iff.mp hrun
  exact ⟨s, hs, hacc, newest_value_export (Run.Reachable.exec (.start rfl) hs)⟩

end UavBluetooth.Bridge
