import UavBluetooth.Lib.CanonicalPaths
import UavBluetooth.Util.Topics

set_option autoImplicit false

/-! # Canonical topics

Topics are normalised several times on their way to a publisher. `sanitize_topic_suffix` does not
mind; `normalize_ros_topic` strips white space before it strips trailing slashes, and leaves the
white space that stood before these. `canonical_iff` says for which topics the normal form is
canonical.
-/

namespace UavBluetooth.Util

/-! ## Components -/

theorem isAlphanum_topicChar (c : Char) : (topicChar c).isAlphanum = c.isAlphanum := by
  unfold topicChar
  split
  · rfl
  · rename_i hother
    rw [Bool.or_eq_true, not_or, Bool.not_eq_true] at hother
    rw [hother.1]
    rfl

theorem topicChar_topicChar (c : Char) : topicChar (topicChar c) = topicChar c := by
  have hsafe := topicSafe_topicChar c
  unfold topicSafe at hsafe
  generalize topicChar c = d at hsafe ⊢
  rw [topicChar, if_pos hsafe]

/-- **Sanitising twice is sanitising once.** -/
theorem sanitizeTopicSuffix_sanitizeTopicSuffix (value : String) :
    sanitizeTopicSuffix (sanitizeTopicSuffix value) = sanitizeTopicSuffix value := by
  by_cases hcore : core value = []
  · have hdefault : sanitizeTopicSuffix value = "ble_device" := by
      rw [sanitizeTopicSuffix_eq, if_pos hcore]
    rw [hdefault]
    decide
  · have hname : sanitizeTopicSuffix value = String.ofList ((core value).map topicChar) := by
      rw [sanitizeTopicSuffix_eq, if_neg hcore]
    have hagain : core (String.ofList ((core value).map topicChar)) =
        (core value).map topicChar := by
      have hclass : (fun c : Char => !c.isAlphanum) ∘ topicChar = fun c => !c.isAlphanum := by
        funext c
        rw [Function.comp_apply, isAlphanum_topicChar]
      have hstrip : Strip.strip (fun c => !c.isAlphanum) (core value) = core value :=
        Strip.strip_of_tight Strip.tight_strip
      rw [core, String.toList_ofList, Strip.strip_map, hclass, hstrip]
    have hmap : ((core value).map topicChar).map topicChar = (core value).map topicChar := by
      rw [List.map_map]
      exact List.map_congr_left fun c _ => topicChar_topicChar c
    rw [hname, sanitizeTopicSuffix_eq, hagain, hmap,
      if_neg fun hnil => hcore (List.map_eq_nil_iff.mp hnil)]

/-! ## Topics -/

/-- An absolute topic without repeated and without trailing slashes. -/
structure CanonicalTopic (topic : String) : Prop where
  absolute : topic.toList.head? = some '/'
  single : ¬ "//".toList <:+: topic.toList
  last : topic.toList.getLast? = some '/' → topic = "/"

theorem canonicalTopic_normalize (value : String) : CanonicalTopic (normalizeRosTopic value) := by
  have hpath : Paths.Canonical '/' (normalizeRosTopic value).toList := by
    rw [normalizeRosTopic, String.toList_ofList]
    exact Paths.canonical_normalize value.toList
  exact ⟨hpath.absolute, hpath.single, fun hlast => String.toList_inj.mp (hpath.last hlast)⟩

/-- The trimmed topic without its trailing slashes does not end in white space. -/
def SettledTopic (value : String) : Prop := Paths.Settled isSpace '/' value.toList

instance (value : String) : Decidable (SettledTopic value) :=
  inferInstanceAs (Decidable (Paths.Settled isSpace '/' value.toList))

/-- The topics differ in surrounding white space, repeated slashes or trailing slashes only. -/
def AlikeTopics (value value' : String) : Prop :=
  Paths.Alike isSpace '/' value.toList value'.toList

theorem normalizeRosTopic_normalizeRosTopic_iff {value : String} :
    normalizeRosTopic (normalizeRosTopic value) = normalizeRosTopic value ↔
      SettledTopic value := by
  have hchars : (normalizeRosTopic value).toList = Paths.normalize isSpace '/' value.toList :=
    String.toList_ofList
  rw [← String.toList_inj, normalizeRosTopic, String.toList_ofList, hchars]
  exact Paths.normalize_normalize_iff rfl

theorem normalizeRosTopic_of_alike {value value' : String} (h : AlikeTopics value value')
    (hvalue : SettledTopic value) (hvalue' : SettledTopic value') :
    normalizeRosTopic value = normalizeRosTopic value' :=
  congrArg String.ofList (Paths.normalize_of_alike rfl h hvalue hvalue')

/-- Two topics are normalised to a canonical form. -/
structure Canonically (value value' : String) : Prop where
  topic : ∀ s ∈ [value, value'], normalizeRosTopic (normalizeRosTopic s) = normalizeRosTopic s
  suffix : ∀ s ∈ [value, value'],
    sanitizeTopicSuffix (sanitizeTopicSuffix s) = sanitizeTopicSuffix s
  shape : ∀ s ∈ [value, value'], CanonicalTopic (normalizeRosTopic s)
  alike : AlikeTopics value value' → normalizeRosTopic value = normalizeRosTopic value'

/-- **When normalisation is canonical**: exactly for topics that have no white space before their
trailing slashes. -/
theorem canonical_iff (value value' : String) :
    Canonically value value' ↔ SettledTopic value ∧ SettledTopic value' := by
  constructor
  · intro h
    exact ⟨normalizeRosTopic_normalizeRosTopic_iff.mp (h.topic value (by simp)),
      normalizeRosTopic_normalizeRosTopic_iff.mp (h.topic value' (by simp))⟩
  · rintro ⟨hvalue, hvalue'⟩
    refine ⟨fun s hs => normalizeRosTopic_normalizeRosTopic_iff.mpr ?_,
      fun s _ => sanitizeTopicSuffix_sanitizeTopicSuffix s,
      fun s _ => canonicalTopic_normalize s,
      fun halike => normalizeRosTopic_of_alike halike hvalue hvalue'⟩
    rcases List.mem_pair.mp hs with rfl | rfl
    · exact hvalue
    · exact hvalue'

/-- White space before a trailing slash is stripped the second time only. -/
theorem topic_normalized_twice : ¬ ∀ value value' : String, Canonically value value' := by
  intro hclaim
  have hsettled := (hclaim "a /" "a /").topic "a /" (by simp)
  exact absurd hsettled (by decide)

theorem canonical_odometry : Canonically " /uav1//odometry/ " "/uav1/odometry" :=
  (canonical_iff _ _).mpr ⟨by decide, by decide⟩

end UavBluetooth.Util
