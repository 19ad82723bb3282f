import UavBluetooth.Lib.Fallible
import UavBluetooth.Lib.Templates
import UavBluetooth.Util.Text

set_option autoImplicit false

/-! # Topic names

`topic_utils.cpp`: the normal form of a topic, the hostname placeholder and `~`. A component
that is a sanitised name can be read back from a normal form (`component_of_normalize`).
-/

namespace UavBluetooth.Util

open Fallible

/-- Make a ROS topic absolute and collapse repeated separators. -/
def normalizeRosTopic (value : String) : String :=
  String.ofList (Paths.normalize isSpace '/' value.toList)

theorem normalizeRosTopic_eq (value : String) :
    (normalizeRosTopic value).toList =
      Paths.path '/' (Paths.segments '/' (Strip.strip isSpace value.toList)) := by
  unfold normalizeRosTopic
  rw [String.toList_ofList, Paths.normalize_eq]

/-- Two topics with one normal form have the same segments. -/
theorem segments_of_normalize {value value' : String}
    (h : normalizeRosTopic value = normalizeRosTopic value') :
    Paths.segments '/' (Strip.strip isSpace value.toList) =
      Paths.segments '/' (Strip.strip isSpace value'.toList) := by
  have hpath := congrArg (fun topic => Paths.segments '/' topic.toList) h
  simp only [normalizeRosTopic_eq] at hpath
  rwa [Paths.segments_path (fun seg hseg => Paths.mem_segments hseg),
    Paths.segments_path (fun seg hseg => Paths.mem_segments hseg)] at hpath

/-! ## The hostname placeholder -/

/-- A configured text, with `none` for each occurrence of the placeholder. -/
abbrev Template := List (Option Char)

def placeholder : List Char := "{hostname}".toList

/-- Find the occurrences of the placeholder from the left. The first `skip` characters belong
to one that has been found. -/
def template : Nat → List Char → Template
  | _, [] => []
  | skip + 1, _ :: rest => template skip rest
  | 0, c :: rest =>
      if placeholder.isPrefixOf (c :: rest) then none :: template (placeholder.length - 1) rest
      else some c :: template 0 rest

/-- Replace all occurrences of `{hostname}`. -/
def expandHostname (value hostname : String) : String :=
  String.ofList (Templates.fill (sanitizeTopicSuffix hostname).toList (template 0 value.toList))

def nodePrefix (hostname : String) : Except String String := do
  require (hostname ≠ "") "hostname must be provided by the launch file"
  return "/" ++ sanitizeTopicSuffix hostname ++ "/bluetooth"

/-- Expand `{hostname}` and a leading `~`, then normalise. -/
def resolveTopicPath (value hostname : String) : Except String String :=
  let path := expandHostname value hostname
  match path.toList with
  | '~' :: rest => do
      require (rest.head?.all (· == '/'))
        "ROS topic paths must use ~ or ~/ before the package-relative path"
      let root ← nodePrefix hostname
      return normalizeRosTopic (root ++ String.ofList rest)
  | _ => .ok (normalizeRosTopic path)

/-! ## Templates of topics -/

/-- The normal form of a template. -/
def Template.normalize (text : Template) : Template :=
  Paths.normalize (Templates.blank isSpace) (some '/') text

/-- A template with its leading `~` written out. -/
def Template.rooted : Template → Template
  | some '~' :: rest => some '/' :: none :: "/bluetooth".toList.map some ++ rest
  | text => text

/-- A sanitised name is neither blank nor a separator anywhere. -/
theorem expands_sanitized (hostname : String) :
    Paths.Expands (Templates.blank isSpace) (some '/') isSpace '/'
      fun x => x.elim (sanitizeTopicSuffix hostname).toList fun c => [c] :=
  Templates.expands (sanitizeTopicSuffix_safe hostname).1
    (fun c hc => not_isSpace_of_topicSafe ((sanitizeTopicSuffix_safe hostname).2 c hc))
    (fun c hc => ne_slash_of_topicSafe ((sanitizeTopicSuffix_safe hostname).2 c hc))

/-- A filled template is normalised by normalising the template. -/
theorem normalizeRosTopic_fill {topic hostname : String} {text : Template}
    (h : topic.toList = Templates.fill (sanitizeTopicSuffix hostname).toList text) :
    (normalizeRosTopic topic).toList =
      Templates.fill (sanitizeTopicSuffix hostname).toList text.normalize := by
  unfold normalizeRosTopic Template.normalize
  rw [String.toList_ofList, h]
  exact Paths.normalize_expand (expands_sanitized hostname) text

theorem segments_fill (hostname : String) (text : Template) :
    Paths.segments '/' (Templates.fill (sanitizeTopicSuffix hostname).toList text) =
      (Paths.segments (some '/') text).map
        (Templates.fill (sanitizeTopicSuffix hostname).toList) :=
  (expands_sanitized hostname).segments text

/-- **A resolved topic is a filled template.** -/
theorem resolveTopicPath_fill {value hostname topic : String}
    (h : resolveTopicPath value hostname = .ok topic) :
    topic.toList = Templates.fill (sanitizeTopicSuffix hostname).toList
      (template 0 value.toList).rooted.normalize := by
  unfold resolveTopicPath expandHostname at h
  generalize template 0 value.toList = text at h ⊢
  obtain ⟨c, cs, hname⟩ := List.exists_cons_of_ne_nil (sanitizeTopicSuffix_safe hostname).1
  have hc : c ≠ '~' := by
    rintro rfl
    have hsafe := (sanitizeTopicSuffix_safe hostname).2 '~' (by rw [hname]; exact List.mem_cons_self)
    exact absurd hsafe (by decide)
  -- Only a tilde of the text itself is a leading tilde, the name does not begin with one.
  have hplain : ∀ text : Template, (∀ rest, text ≠ some '~' :: rest) →
      ∀ rest, Templates.fill (sanitizeTopicSuffix hostname).toList text ≠ '~' :: rest := by
    intro text htext rest hrest
    cases text with
    | nil => cases hrest
    | cons x text =>
        cases x with
        | none =>
            rw [Templates.fill_cons_none, hname, List.cons_append] at hrest
            exact hc (List.cons.inj hrest).1
        | some d =>
            rw [Templates.fill_cons_some] at hrest
            exact htext text (by rw [(List.cons.inj hrest).1])
  by_cases htilde : ∃ rest, text = some '~' :: rest
  · obtain ⟨rest, rfl⟩ := htilde
    simp only [String.toList_ofList, Templates.fill_cons_some, nodePrefix, bind_eq_ok,
      require_eq_ok, pure_eq_ok] at h
    obtain ⟨_, _, _, ⟨_, _, rfl⟩, rfl⟩ := h
    refine normalizeRosTopic_fill ?_
    simp [Template.rooted]
  · have htext : ∀ rest, text ≠ some '~' :: rest := fun rest hrest => htilde ⟨rest, hrest⟩
    have hrooted : text.rooted = text := by
      unfold Template.rooted
      split
      · exact absurd rfl (htext _)
      · rfl
    simp only [String.toList_ofList] at h
    split at h
    · rename_i rest hrest
      exact absurd hrest (hplain text htext rest)
    · obtain rfl := Except.ok.inj h
      rw [hrooted]
      exact normalizeRosTopic_fill String.toList_ofList

/-! ## One component -/

section

variable {before token after : List Char}

theorem tight_component (htoken : token ≠ [])
    (hsafe : ∀ c ∈ token, topicSafe c = true) :
    Strip.Tight isSpace
      (before.dropWhile isSpace ++ '/' :: (token ++ after.rdropWhile isSpace)) := by
  constructor
  · intro c hc
    cases hleft : before.dropWhile isSpace with
    | nil =>
        rw [hleft] at hc
        cases hc
        rfl
    | cons x xs =>
        rw [hleft] at hc
        cases hc
        have hne : before.dropWhile isSpace ≠ [] := by simp [hleft]
        have hhead := List.head_dropWhile_not isSpace hne
        simpa only [hleft, List.head_cons, Bool.not_eq_true] using hhead
  · intro c hc
    rcases List.eq_nil_or_concat (after.rdropWhile isSpace) with hright | ⟨xs, x, hright⟩
    · obtain ⟨body, y, rfl⟩ := (List.eq_nil_or_concat token).resolve_left htoken
      have hform : before.dropWhile isSpace ++ '/' :: (body.concat y ++ []) =
          (before.dropWhile isSpace ++ '/' :: body) ++ [y] := by simp
      rw [hright, hform, List.getLast?_concat] at hc
      cases hc
      exact not_isSpace_of_topicSafe (hsafe c (by simp))
    · have hform : before.dropWhile isSpace ++ '/' :: (token ++ xs.concat x) =
          (before.dropWhile isSpace ++ '/' :: (token ++ xs)) ++ [x] := by simp
      rw [hright, hform, List.getLast?_concat] at hc
      have hlast : x = c := by simpa using hc
      have hne : after.rdropWhile isSpace ≠ [] := by simp [hright]
      have hnot := List.rdropWhile_last_not isSpace after hne
      simp only [hright, List.concat_eq_append, List.getLast_append_singleton] at hnot
      rw [← hlast]
      simpa using hnot

theorem strip_component (htoken : token ≠ [])
    (hsafe : ∀ c ∈ token, topicSafe c = true) :
    Strip.strip isSpace (before ++ '/' :: (token ++ after)) =
      before.dropWhile isSpace ++ '/' :: (token ++ after.rdropWhile isSpace) := by
  have hsplit : before ++ '/' :: (token ++ after) =
      before.takeWhile isSpace ++
        ((before.dropWhile isSpace ++ '/' :: (token ++ after.rdropWhile isSpace)) ++
          after.rtakeWhile isSpace) := by
    have hbefore : before.takeWhile isSpace ++ before.dropWhile isSpace = before :=
      List.takeWhile_append_dropWhile
    have hafter : after.rdropWhile isSpace ++ after.rtakeWhile isSpace = after :=
      List.rdropWhile_append_rtakeWhile
    rw [List.append_assoc, ← List.append_assoc (before.takeWhile isSpace), hbefore,
      List.cons_append, List.append_assoc, hafter]
  rw [hsplit]
  exact Strip.strip_eq (fun c hc => List.mem_takeWhile_imp hc) (tight_component htoken hsafe)
    (fun c hc => List.mem_rtakeWhile_imp hc)

/-- What is left of the rest of a topic still begins with a separator, or is nothing. -/
theorem rdropWhile_after (hafter : after = [] ∨ ∃ rest, after = '/' :: rest) :
    after.rdropWhile isSpace = [] ∨ ∃ rest, after.rdropWhile isSpace = '/' :: rest := by
  rcases hafter with rfl | ⟨rest, rfl⟩
  · exact Or.inl rfl
  · obtain ⟨gone, hgone⟩ := List.rdropWhile_prefix isSpace (l := '/' :: rest)
    cases hleft : ('/' :: rest).rdropWhile isSpace with
    | nil => exact Or.inl rfl
    | cons c cs =>
        rw [hleft] at hgone
        cases hgone
        exact Or.inr ⟨cs, rfl⟩

/-- A sanitised component is a segment of its own. -/
theorem segments_component (htoken : token ≠ [])
    (hsafe : ∀ c ∈ token, topicSafe c = true)
    (hafter : after = [] ∨ ∃ rest, after = '/' :: rest) :
    ∃ later, Paths.segments '/' (Strip.strip isSpace (before ++ '/' :: (token ++ after))) =
      Paths.segments '/' (before.dropWhile isSpace) ++ token :: later := by
  have htokenSegment : Paths.segments '/' token = [token] :=
    Paths.segments_of_no_sep (fun c hc => ne_slash_of_topicSafe (hsafe c hc)) htoken
  rw [strip_component htoken hsafe, Paths.segments_append_sep]
  rcases rdropWhile_after hafter with hright | ⟨rest, hright⟩
  · rw [hright, List.append_nil, htokenSegment]
    exact ⟨[], rfl⟩
  · rw [hright, Paths.segments_append_sep, htokenSegment]
    exact ⟨Paths.segments '/' rest, rfl⟩

end

/-- **A component can be read back from a topic's normal form**, whatever follows it. -/
theorem component_of_normalize {before token token' after after' : String}
    (htoken : token.toList ≠ [] ∧ ∀ c ∈ token.toList, topicSafe c = true)
    (htoken' : token'.toList ≠ [] ∧ ∀ c ∈ token'.toList, topicSafe c = true)
    (hafter : after.toList = [] ∨ ∃ rest, after.toList = '/' :: rest)
    (hafter' : after'.toList = [] ∨ ∃ rest, after'.toList = '/' :: rest)
    (h : normalizeRosTopic (before ++ "/" ++ token ++ after) =
      normalizeRosTopic (before ++ "/" ++ token' ++ after')) : token = token' := by
  have hchars : ∀ t rest : String, (before ++ "/" ++ t ++ rest).toList =
      before.toList ++ '/' :: (t.toList ++ rest.toList) := by
    intro t rest
    simp
  have hsegments := segments_of_normalize h
  rw [hchars, hchars] at hsegments
  obtain ⟨later, hlater⟩ := @segments_component before.toList _ _ htoken.1 htoken.2 hafter
  obtain ⟨later', hlater'⟩ :=
    @segments_component before.toList _ _ htoken'.1 htoken'.2 hafter'
  rw [hlater, hlater'] at hsegments
  have htail := List.append_cancel_left hsegments
  exact String.toList_inj.mp (List.cons.inj htail).1

end UavBluetooth.Util
