import UavBluetooth.Bridge.Receive
import UavBluetooth.Bridge.NewestExport

set_option autoImplicit false

/-! # Replacing the configuration

When `configure` accepts a list of topics (`configure_ok_iff`), and what a refusal leaves
behind.
-/

namespace UavBluetooth.Bridge

open Config Util

/-! ## Keys of transport channels -/

theorem toList_entryKey (transport : Transport) (channel : UInt16) :
    (entryKey transport channel).toList =
      transport.name.toList ++ ':' :: (toString channel.toNat).toList := by
  simp [entryKey, String.toList_append]

/-- Decimal numerals of different numbers differ. -/
theorem toList_toString_inj {n n' : Nat} (h : (toString n).toList = (toString n').toList) :
    n = n' := by
  rw [Nat.toString_eq_repr, Nat.toString_eq_repr, Nat.toList_repr, Nat.toList_repr] at h
  have hvalue := congrArg (fun digits => Nat.ofDigitChars 10 digits 0) h
  simpa using hvalue

/-- The transports differ in their first letter. -/
theorem head_entryKey (transport : Transport) (channel : UInt16) :
    (entryKey transport channel).toList.head? = transport.name.toList.head? := by
  rw [toList_entryKey]
  cases transport <;> rfl

/-- A key names one transport and one channel. -/
theorem entryKey_inj {t t' : Transport} {c c' : UInt16} :
    entryKey t c = entryKey t' c' ↔ t = t' ∧ c = c' := by
  constructor
  · intro h
    have hhead : t.name.toList.head? = t'.name.toList.head? := by
      rw [← head_entryKey t c, h, head_entryKey]
    have ht : t = t' := by
      revert hhead
      cases t <;> cases t' <;> decide
    subst ht
    have hlist := congrArg String.toList h
    rw [toList_entryKey, toList_entryKey] at hlist
    have hdigits := (List.cons.inj (List.append_cancel_left hlist)).2
    exact ⟨rfl, UInt16.toNat_inj.mp (toList_toString_inj hdigits)⟩
  · rintro ⟨rfl, rfl⟩
    rfl

/-! ## Accepted topics -/

/-- The topics that get an entry. -/
def bridged (topics : List SharedTopicConfig) : List SharedTopicConfig :=
  topics.filter fun item => item.transport != .gatt

/-- A topic that competes for the dynamic field of the advertisement. -/
def advertisementExporter (item : SharedTopicConfig) : Bool :=
  item.transport == .advertisement && exports item

/-- What `configure` asks of the topics. -/
structure Acceptable (loadable : String → Bool) (topics : List SharedTopicConfig) : Prop where
  exporters : topics.countP advertisementExporter ≤ 1
  channels : ((bridged topics).map fun item => (item.transport, item.channelId)).Nodup
  loads : ∀ item ∈ bridged topics, loadable item.messageType = true

instance (loadable : String → Bool) (topics : List SharedTopicConfig) :
    Decidable (Acceptable loadable topics) :=
  decidable_of_iff
    (topics.countP advertisementExporter ≤ 1 ∧
      ((bridged topics).map fun item => (item.transport, item.channelId)).Nodup ∧
      ∀ item ∈ bridged topics, loadable item.messageType = true)
    ⟨fun h => ⟨h.1, h.2.1, h.2.2⟩, fun h => ⟨h.exporters, h.channels, h.loads⟩⟩

section

variable (loadable : String → Bool)

/-- The entry made for one topic. -/
def Manager.addEntry (m : Manager) (configured : SharedTopicConfig) : Manager :=
  { m with nextGeneration := m.nextGeneration + 1 }.setEntry
    (entryKey configured.transport configured.channelId)
    { config := configured, generation := m.nextGeneration + 1 }

/-- The loop gets through if no topic meets a taken channel or an unknown message type. -/
theorem configureTopics_ok_iff (topics : List SharedTopicConfig) (m : Manager) :
    (configureTopics loadable topics m).1 = .ok () ↔
      ((bridged topics).map fun item => (item.transport, item.channelId)).Nodup ∧
        (∀ item ∈ bridged topics, loadable item.messageType = true) ∧
        ∀ item ∈ bridged topics,
          m.entries.contains (entryKey item.transport item.channelId) = false := by
  induction topics generalizing m with
  | nil => simp [configureTopics, bridged]
  | cons configured rest ih =>
      simp only [configureTopics]
      cases hgatt : configured.transport == .gatt with
      | true =>
          have hbridged : bridged (configured :: rest) = bridged rest := by
            simp [bridged, beq_iff_eq.mp hgatt]
          rw [if_pos rfl, hbridged]
          exact ih m
      | false =>
          have hbridged : bridged (configured :: rest) = configured :: bridged rest := by
            have : configured.transport ≠ .gatt := by simpa using hgatt
            simp [bridged, this]
          rw [if_neg Bool.false_ne_true, hbridged]
          simp only [List.map_cons, List.nodup_cons, List.forall_mem_cons]
          cases hfree : m.entries.contains (entryKey configured.transport configured.channelId) with
          | true => simp
          | false =>
              cases hload : loadable configured.messageType with
              | false => simp
              | true =>
                  -- In the rest of the loop the channel of this topic is taken as well.
                  have hcontains : ∀ item : SharedTopicConfig,
                      (m.addEntry configured).entries.contains
                        (entryKey item.transport item.channelId) = false ↔
                      (item.transport, item.channelId) ≠
                          (configured.transport, configured.channelId) ∧
                        m.entries.contains (entryKey item.transport item.channelId) = false := by
                    intro item
                    simp only [Manager.addEntry, Manager.setEntry, Std.ExtTreeMap.contains_insert,
                      Bool.or_eq_false_iff, beq_eq_false_iff_ne, ne_eq,
                      Std.LawfulEqCmp.compare_eq_iff_eq, entryKey_inj, Prod.mk.injEq]
                    constructor
                    · rintro ⟨hne, hm⟩
                      exact ⟨fun heq => hne ⟨heq.1.symm, heq.2.symm⟩, hm⟩
                    · rintro ⟨hne, hm⟩
                      exact ⟨fun heq => hne ⟨heq.1.symm, heq.2.symm⟩, hm⟩
                  have hrest := ih (m.addEntry configured)
                  simp only [hcontains] at hrest
                  rw [if_neg Bool.false_ne_true, if_pos rfl]
                  refine Iff.trans hrest ?_
                  constructor
                  · rintro ⟨hnodup, hloads, hfrees⟩
                    refine ⟨⟨fun hmem => ?_, hnodup⟩, ⟨rfl, hloads⟩, rfl,
                      fun item hitem => (hfrees item hitem).2⟩
                    obtain ⟨item, hitem, heq⟩ := List.mem_map.mp hmem
                    exact (hfrees item hitem).1 heq
                  · rintro ⟨⟨hnew, hnodup⟩, ⟨_, hloads⟩, _, hfrees⟩
                    refine ⟨hnodup, hloads, fun item hitem => ⟨fun heq => ?_, hfrees item hitem⟩⟩
                    exact hnew (heq ▸ List.mem_map_of_mem hitem)

/-- **The topics that `configure` accepts.** -/
theorem configure_ok_iff (topics : List SharedTopicConfig) (peersPrefix : String)
    (peerWhitelist : List String) (m : Manager) :
    (configure loadable topics peersPrefix peerWhitelist m).1 = .ok () ↔
      Acceptable loadable topics := by
  unfold configure
  simp only
  have hcount : topics.countP (fun item => item.transport == .advertisement && exports item) =
      topics.countP advertisementExporter := rfl
  split
  · rename_i hmany
    rw [hcount] at hmany
    constructor
    · intro h
      cases h
    · intro h
      have := h.exporters
      omega
  · rename_i hfew
    rw [hcount] at hfew
    rw [configureTopics_ok_iff]
    constructor
    · rintro ⟨hnodup, hloads, _⟩
      exact ⟨by omega, hnodup, hloads⟩
    · rintro ⟨_, hnodup, hloads⟩
      exact ⟨hnodup, hloads, by simp⟩

/-- A refusal inside the loop leaves an entry behind. -/
theorem configureTopics_error {topics : List SharedTopicConfig} {m : Manager} {e : String}
    (h : (configureTopics loadable topics m).1 = .error e) :
    ∃ (key : String) (entry : Entry),
      (configureTopics loadable topics m).2.entries[key]? = some entry := by
  induction topics generalizing m with
  | nil => cases h
  | cons configured rest ih =>
      simp only [configureTopics] at h ⊢
      split
      · rename_i hgatt
        rw [if_pos hgatt] at h
        exact ih h
      · rename_i hgatt
        rw [if_neg hgatt] at h
        split
        · rename_i htaken
          rw [Std.ExtTreeMap.contains_eq_isSome_getElem?] at htaken
          obtain ⟨entry, hentry⟩ := Option.isSome_iff_exists.mp htaken
          exact ⟨_, entry, hentry⟩
        · rename_i hfree
          rw [if_neg hfree] at h
          split
          · rename_i hload
            rw [if_pos hload] at h
            exact ih h
          · exact ⟨entryKey configured.transport configured.channelId, _,
              by rw [Manager.getElem?_setEntry, if_pos rfl]⟩

end

end UavBluetooth.Bridge
