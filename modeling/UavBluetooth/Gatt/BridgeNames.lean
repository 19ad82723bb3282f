import UavBluetooth.Config.Loader

set_option autoImplicit false

/-! # Names of GATT bridges

The exporter names its characteristic after the bridge name of its own configuration
(`topic_bridge_service.cpp`), an importer after the peer's name and the bridge path of the
importer's configuration (`service_node_notifications.cpp`). Both configurations come from one
document, expanded on two hosts.

The two names agree if the hostname drops out of the bridge path: `PathAgrees` is when it
does, `bridge_names_agree_iff` the result for whole documents.
-/

namespace UavBluetooth.Gatt

open Config Fallible Util Yaml

/-! ## The two names -/

/-- The characteristic name beneath a bridge service. -/
def characteristicNameForBridge (bridgeName : String) : String :=
  if "bridge:".toList.isPrefixOf bridgeName.toList then
    String.ofList (bridgeName.toList.drop "bridge:".length)
  else bridgeName ++ "/value"

/-- The peer-facing characteristic name for a host-specific bridge. -/
def bridgeCharacteristicNameForHost (host bridgeTopicPath : String) : String :=
  "/" ++ sanitizeTopicSuffix host ++ bridgeTopicPath

/-- The name from which `TopicBridgeService` derives the UUID of its characteristic. -/
def exportedName (topic : SharedTopicConfig) : String :=
  characteristicNameForBridge topic.bridgeName

/-- The name from which `refresh_import_bridges_for_device` derives `bridge_uuid`. -/
def importedName (peer : String) (topic : SharedTopicConfig) : String :=
  bridgeCharacteristicNameForHost peer topic.bridgeTopicPath

theorem characteristicNameForBridge_bridge (name : String) :
    characteristicNameForBridge ("bridge:" ++ name) = name := by
  unfold characteristicNameForBridge
  rw [String.toList_append, if_pos (by simp)]
  have hlength : "bridge:".length = "bridge:".toList.length := by decide
  rw [hlength, List.drop_left, String.ofList_toList]

/-- An exporter's name is made like an importer's, from the exporter's own host and path. -/
theorem exportedName_eq {context : TopicContext} {raw : Node} {topic : SharedTopicConfig}
    (h : Bridged context raw topic) :
    exportedName topic = importedName context.hostname topic := by
  have hname : topic.bridgeName = "bridge:" ++ importedName context.hostname topic := by
    rw [h.name]
    show "bridge:" ++ "/" ++ _ ++ _ = "bridge:" ++ ("/" ++ _ ++ _)
    rw [String.append_assoc, String.append_assoc, String.append_assoc]
  rw [exportedName, hname, characteristicNameForBridge_bridge]

/-- Names of one peer differ in their paths. -/
theorem importedName_inj {peer : String} {topic topic' : SharedTopicConfig} :
    importedName peer topic = importedName peer topic' ↔
      topic.bridgeTopicPath = topic'.bridgeTopicPath := by
  constructor
  · intro h
    have hlist := congrArg String.toList h
    simp only [importedName, bridgeCharacteristicNameForHost, String.toList_append] at hlist
    exact String.toList_inj.mp (List.append_cancel_left hlist)
  · intro h
    rw [importedName, importedName, h]

/-! ## The bridge path of a template -/

/-- The template of an entry's export topic, normalised as often as the loader does before it
looks at the first segment. -/
def exportTemplate (raw : Node) : Template :=
  (template 0 (asStringOr "" (raw.get "export_topic")).toList).rooted.normalize.normalize

/-- What is left of a template when its first segment is a UAV's name. -/
def canonicalTemplate (leads : List Char → Bool) (name : List Char) (text : Template) :
    Template :=
  match Paths.segments (some '/') text with
  | [] => text
  | first :: rest =>
      if leads (Templates.fill name first) then Paths.path (some '/') rest else text

/-- Whether the loader takes a first segment for a UAV's name. -/
def leadsUav (context : TopicContext) (segment : List Char) : Bool :=
  isUavHostname context.regexMatch (String.ofList segment) context.pattern

theorem canonicalSharedTopic_fill {regexMatch : String → String → Bool}
    {topic pattern hostname : String} {text : Template}
    (h : (normalizeRosTopic topic).toList =
      Templates.fill (sanitizeTopicSuffix hostname).toList text) :
    (canonicalSharedTopic regexMatch topic pattern).toList =
      Templates.fill (sanitizeTopicSuffix hostname).toList
        (canonicalTemplate
          (fun segment => isUavHostname regexMatch (String.ofList segment) pattern)
          (sanitizeTopicSuffix hostname).toList text) := by
  unfold canonicalSharedTopic canonicalTemplate
  simp only
  rw [h, segments_fill]
  cases Paths.segments (some '/') text with
  | nil => exact h
  | cons first rest =>
      simp only [List.map_cons]
      split
      · rw [String.toList_ofList, Templates.path_map_fill]
      · exact h

/-- **The bridge path is a filled template.** -/
theorem bridgeTopicPath_fill {context : TopicContext} {raw : Node} {topic : SharedTopicConfig}
    (h : Bridged context raw topic) :
    topic.bridgeTopicPath.toList = Templates.fill (sanitizeTopicSuffix context.hostname).toList
      (canonicalTemplate (leadsUav context) (sanitizeTopicSuffix context.hostname).toList
        (exportTemplate raw)).normalize := by
  have hexport := normalizeRosTopic_fill (resolveTopicPath_fill h.exportTopic)
  have hpath : bridgeTopicPath (context.canonical topic.exportTopic) =
      normalizeRosTopic (context.canonical topic.exportTopic) := by
    unfold bridgeTopicPath
    simp only
    split
    · rename_i hroot
      exact hroot.symm
    · rfl
  rw [h.path, hpath]
  exact normalizeRosTopic_fill (canonicalSharedTopic_fill hexport)

/-! ## When two hosts make one path -/

/-- The placeholder is in the first segment only, which both hosts take for a UAV's name. -/
def LeadingOnly (leads : List Char → Bool) (a b : List Char) : List Template → Prop
  | [] => False
  | first :: rest =>
      none ∉ rest.flatten ∧ leads (Templates.fill a first) = true ∧
        leads (Templates.fill b first) = true

instance (leads : List Char → Bool) (a b : List Char) :
    (segments : List Template) → Decidable (LeadingOnly leads a b segments)
  | [] => inferInstanceAs (Decidable False)
  | first :: rest =>
      inferInstanceAs (Decidable (none ∉ rest.flatten ∧ leads (Templates.fill a first) = true ∧
        leads (Templates.fill b first) = true))

/-- The hostnames have one sanitised form, or the topic does not mention the hostname, or it
does so only where the loader strips it. -/
def PathAgrees (leads : List Char → Bool) (a b : List Char) (text : Template) : Prop :=
  a = b ∨ none ∉ text ∨ LeadingOnly leads a b (Paths.segments (some '/') text)

instance (leads : List Char → Bool) (a b : List Char) (text : Template) :
    Decidable (PathAgrees leads a b text) :=
  inferInstanceAs (Decidable (a = b ∨ none ∉ text ∨
    LeadingOnly leads a b (Paths.segments (some '/') text)))

/-- A hole survives normalisation. -/
theorem mem_normalize {text : Template} : none ∈ text.normalize ↔ none ∈ text :=
  Paths.mem_normalize rfl (by simp)

theorem fill_normalize_iff {a b : List Char} {text : Template} :
    Templates.fill a text.normalize = Templates.fill b text.normalize ↔ a = b ∨ none ∉ text := by
  rw [Templates.fill_eq_iff, mem_normalize]

section

variable {leads : List Char → Bool} {a b : List Char} {text : Template} {first : Template}
  {rest : List Template}
  (ha : Paths.Expands (Templates.blank isSpace) (some '/') isSpace '/' fun x => x.elim a ([·]))
  (hb : Paths.Expands (Templates.blank isSpace) (some '/') isSpace '/' fun x => x.elim b ([·]))

include ha hb

/-- Stripping the first segment on one host only leaves paths of different lengths. -/
theorem fill_ne_of_strip (hsegs : Paths.segments (some '/') text = first :: rest)
    (htext : Paths.path (some '/') (Paths.segments (some '/') text) = text)
    (hhole : none ∈ first) :
    Templates.fill a (Template.normalize (Paths.path (some '/') rest)) ≠
      Templates.fill b text.normalize := by
  intro h
  have hlength := congrArg (fun topic => (Paths.segments '/' topic).length) h
  simp only [Templates.fill, ha.segments, hb.segments, List.length_map, Template.normalize,
    Paths.segments_normalize] at hlength
  have hfirst : first ∈ Paths.segments (some '/') text := by
    rw [hsegs]
    exact List.mem_cons_self
  have hlonger := @Paths.length_segments_path_cons _ _ (Templates.blank isSpace) (some '/')
    rfl first rest (Paths.mem_segments hfirst) none hhole rfl
  rw [← hsegs, htext] at hlonger
  omega

/-- **When the hostname drops out of the bridge path.** -/
theorem fill_canonical_iff
    (htext : Paths.path (some '/') (Paths.segments (some '/') text) = text) :
    Templates.fill a (canonicalTemplate leads a text).normalize =
        Templates.fill b (canonicalTemplate leads b text).normalize ↔
      PathAgrees leads a b text := by
  unfold canonicalTemplate PathAgrees
  cases hsegs : Paths.segments (some '/') text with
  | nil =>
      rw [fill_normalize_iff]
      simp [LeadingOnly]
  | cons first rest =>
      have hmem : none ∈ text ↔ none ∈ first ∨ none ∈ rest.flatten := by
        have hflatten := @Paths.flatten_segments _ _ (some '/') text
        rw [hsegs, List.flatten_cons] at hflatten
        rw [← List.mem_append, hflatten, List.mem_filter]
        simp
      have hpath : none ∈ Paths.path (some '/') rest ↔ none ∈ rest.flatten :=
        Paths.mem_path (by simp)
      -- A segment on which the hosts differ has a hole, and then so do the names.
      have hdiffer : leads (Templates.fill a first) ≠ leads (Templates.fill b first) →
          ¬(a = b ∨ none ∉ text) ∧ none ∈ first := by
        intro hne
        have hhole : none ∈ first := by
          by_contra hhole
          exact hne (by rw [Templates.fill_congr hhole])
        refine ⟨?_, hhole⟩
        rintro (rfl | hnone)
        · exact hne rfl
        · exact hnone (hmem.mpr (Or.inl hhole))
      cases hu : leads (Templates.fill a first) with
      | true =>
          cases hv : leads (Templates.fill b first) with
          | true =>
              simp only [hu, hv, if_true, LeadingOnly, and_true]
              rw [fill_normalize_iff, hpath, hmem]
              tauto
          | false =>
              obtain ⟨hneither, hhole⟩ := hdiffer (by simp [hu, hv])
              simp only [hu, hv, if_true, Bool.false_eq_true, if_false, LeadingOnly, and_false,
                or_false]
              exact iff_of_false (fill_ne_of_strip ha hb hsegs htext hhole) hneither
      | false =>
          cases hv : leads (Templates.fill b first) with
          | true =>
              obtain ⟨hneither, hhole⟩ := hdiffer (by simp [hu, hv])
              simp only [hu, hv, if_true, Bool.false_eq_true, if_false, LeadingOnly, false_and,
                and_false, or_false]
              exact iff_of_false
                (fun h => fill_ne_of_strip hb ha hsegs htext hhole h.symm) hneither
          | false =>
              simp only [hu, hv, Bool.false_eq_true, if_false, LeadingOnly, and_false,
                or_false]
              exact fill_normalize_iff

end

/-! ## Documents on two hosts -/

/-- What is promised of one document on an exporter `A` and an importer: the names of each
GATT topic agree, and on either side those of different topics differ. -/
structure NamesAgree (A : String) (exporter importer : List SharedTopicConfig) : Prop where
  agree : List.Forall₂ (fun mine yours => mine.transport = .gatt →
    exportedName mine = importedName A yours) exporter importer
  exported : ((exporter.filter (·.transport = .gatt)).map exportedName).Nodup
  imported : ((importer.filter (·.transport = .gatt)).map (importedName A)).Nodup

section

variable {contextA contextB : TopicContext} {raw : Node} {raws : List Node}
  {mine yours : SharedTopicConfig} {exporter importer : List SharedTopicConfig}

/-- One topic. -/
theorem name_agrees_iff (hmine : Bridged contextA raw mine) (hyours : Bridged contextB raw yours)
    (hleads : leadsUav contextA = leadsUav contextB) :
    exportedName mine = importedName contextA.hostname yours ↔
      PathAgrees (leadsUav contextA) (sanitizeTopicSuffix contextA.hostname).toList
        (sanitizeTopicSuffix contextB.hostname).toList (exportTemplate raw) := by
  have htext : Paths.path (some '/') (Paths.segments (some '/') (exportTemplate raw)) =
      exportTemplate raw := by
    unfold exportTemplate Template.normalize
    rw [Paths.path_segments_normalize]
  rw [exportedName_eq hmine, importedName_inj, ← String.toList_inj, bridgeTopicPath_fill hmine,
    bridgeTopicPath_fill hyours, ← hleads]
  exact fill_canonical_iff (expands_sanitized _) (expands_sanitized _) htext

theorem names_agree_iff (hmine : List.Forall₂ (Bridged contextA) raws exporter)
    (hyours : List.Forall₂ (Bridged contextB) raws importer)
    (hleads : leadsUav contextA = leadsUav contextB) :
    List.Forall₂ (fun mine yours => mine.transport = .gatt →
        exportedName mine = importedName contextA.hostname yours) exporter importer ↔
      ∀ raw ∈ raws, parseTransport "" raw = .ok .gatt →
        PathAgrees (leadsUav contextA) (sanitizeTopicSuffix contextA.hostname).toList
          (sanitizeTopicSuffix contextB.hostname).toList (exportTemplate raw) := by
  induction hmine generalizing importer with
  | nil =>
      cases hyours
      simp
  | cons hfirst hrest ih =>
      cases hyours with
      | cons hfirst' hrest' =>
          rw [List.forall₂_cons, ih hrest', List.forall_mem_cons]
          refine and_congr_left fun _ => ?_
          rw [name_agrees_iff hfirst hfirst' hleads, hfirst.transport]
          simp

/-- Different GATT topics have different names, as their keys differ. -/
theorem names_nodup {name : SharedTopicConfig → String} (h : Loaded contextA raws exporter)
    (hname : ∀ topic ∈ exporter, ∀ topic' ∈ exporter, name topic = name topic' →
      topic.bridgeName = topic'.bridgeName) :
    ((exporter.filter (·.transport = .gatt)).map name).Nodup := by
  have hkeys : ((exporter.filter (·.transport = .gatt)).map uniqueKey).Nodup :=
    h.keys.sublist (List.filter_sublist.map uniqueKey)
  rw [List.Nodup, List.pairwise_map] at hkeys ⊢
  refine hkeys.imp_of_mem ?_
  intro topic topic' htopic htopic' hne heq
  obtain ⟨hmem, htransport⟩ := List.mem_filter.mp htopic
  obtain ⟨hmem', htransport'⟩ := List.mem_filter.mp htopic'
  obtain ⟨_, _, hbridged⟩ := exists_of_forall₂ h.bridged hmem
  obtain ⟨_, _, hbridged'⟩ := exists_of_forall₂ h.bridged hmem'
  refine hne ?_
  rw [uniqueKey, uniqueKey, of_decide_eq_true htransport, of_decide_eq_true htransport',
    hbridged.key, hbridged'.key, hname topic hmem topic' hmem' heq]

end

/-- **GATT names agree** between an exporter and an importer exactly when the hostname drops
out of the path of every GATT topic. -/
theorem bridge_names_agree_iff (regexMatch : String → String → Bool) (doc : Node)
    (A B pattern : String) (cfgA cfgB : NodeConfig)
    (hA : parseNodeConfig regexMatch doc A pattern = .ok cfgA)
    (hB : parseNodeConfig regexMatch doc B pattern = .ok cfgB) :
    NamesAgree A cfgA.sharedTopics cfgB.sharedTopics ↔
      ∀ raw ∈ rawTopics doc, parseTransport "" raw = .ok .gatt →
        PathAgrees (leadsUav (topicContext regexMatch A pattern cfgA))
          (sanitizeTopicSuffix A).toList (sanitizeTopicSuffix B).toList (exportTemplate raw) := by
  obtain ⟨baseA, hbaseA, hcfgA, hloadedA, _⟩ := parseNodeConfig_spec hA
  obtain ⟨baseB, hbaseB, hcfgB, hloadedB, _⟩ := parseNodeConfig_spec hB
  have hpattern : baseA.autoConnectPattern = baseB.autoConnectPattern := by
    have hread := (readNode_pattern hbaseA).symm.trans (readNode_pattern hbaseB)
    exact Except.ok.inj hread
  have hleadsA : leadsUav (topicContext regexMatch A pattern cfgA) =
      leadsUav (topicContext regexMatch A pattern baseA) := by
    rw [hcfgA]
    rfl
  have hleads : leadsUav (topicContext regexMatch A pattern baseA) =
      leadsUav (topicContext regexMatch B pattern baseB) := by
    unfold leadsUav topicContext
    simp only
    rw [hpattern]
  have hagree := names_agree_iff hloadedA.bridged hloadedB.bridged hleads
  rw [hleadsA]
  constructor
  · exact fun h => hagree.mp h.agree
  · intro h
    refine ⟨hagree.mpr h, names_nodup hloadedA ?_, names_nodup hloadedB ?_⟩
    · intro topic htopic topic' htopic' heq
      obtain ⟨_, _, hbridged⟩ := exists_of_forall₂ hloadedA.bridged htopic
      obtain ⟨_, _, hbridged'⟩ := exists_of_forall₂ hloadedA.bridged htopic'
      rw [exportedName_eq hbridged, exportedName_eq hbridged', importedName_inj] at heq
      rw [hbridged.name, hbridged'.name, heq]
    · intro topic htopic topic' htopic' heq
      obtain ⟨_, _, hbridged⟩ := exists_of_forall₂ hloadedB.bridged htopic
      obtain ⟨_, _, hbridged'⟩ := exists_of_forall₂ hloadedB.bridged htopic'
      rw [hbridged.name, hbridged'.name, importedName_inj.mp heq]

/-- The default pattern of UAV hostnames: `uav` and one to five digits. -/
def matchUav (_pattern text : String) : Bool :=
  match text.toList with
  | 'u' :: 'a' :: 'v' :: digits => 1 ≤ digits.length && digits.length ≤ 5 && digits.all Char.isDigit
  | _ => false

/-- A GATT bridge in the ROS serialisation. -/
def gattEntry (topic : String) : Node :=
  .map [(.scalar "export_topic", .scalar topic), (.scalar "message_type", .scalar "std_msgs/msg/Empty"),
    (.scalar "payload_format", .scalar "ros2")]

def leadingHostname : Node :=
  topicsDocument [gattEntry "/{hostname}/odom", gattEntry "~/status", gattEntry "/fleet"]

/-- A leading hostname, a leading `~` and a fixed path. -/
theorem bridge_names_agree_iff_leading :
    ∃ cfgA cfgB, parseNodeConfig matchUav leadingHostname "uav1" "" = .ok cfgA ∧
      parseNodeConfig matchUav leadingHostname "uav2" "" = .ok cfgB ∧
      NamesAgree "uav1" cfgA.sharedTopics cfgB.sharedTopics := by
  have hboth : ((parseNodeConfig matchUav leadingHostname "uav1" "").toOption.any fun cfgA =>
      (parseNodeConfig matchUav leadingHostname "uav2" "").toOption.isSome &&
        decide (∀ raw ∈ rawTopics leadingHostname,
          PathAgrees (leadsUav (topicContext matchUav "uav1" "" cfgA))
            (sanitizeTopicSuffix "uav1").toList (sanitizeTopicSuffix "uav2").toList
            (exportTemplate raw))) = true := by decide +kernel
  obtain ⟨cfgA, hA, hrest⟩ := exists_ok_of_any hboth
  obtain ⟨hB, hagree⟩ := Bool.and_eq_true_iff.mp hrest
  obtain ⟨cfgB, hB, _⟩ := exists_ok_of_any (p := fun _ => true) (by simpa using hB)
  exact ⟨cfgA, cfgB, hA, hB, (bridge_names_agree_iff matchUav leadingHostname "uav1" "uav2" ""
    cfgA cfgB hA hB).mpr fun raw hraw _ => of_decide_eq_true hagree raw hraw⟩

def innerHostname : Node := topicsDocument [gattEntry "/fleet/{hostname}/odom"]

/-- With the hostname in the second segment the importer looks for a name nobody exports. -/
theorem bridge_names_disagree :
    ¬ ∀ (doc : Node) (A B pattern : String) (cfgA cfgB : NodeConfig), A ≠ B →
      parseNodeConfig matchUav doc A pattern = .ok cfgA →
      parseNodeConfig matchUav doc B pattern = .ok cfgB →
      isUavHostname matchUav A (topicContext matchUav A pattern cfgA).pattern = true →
      isUavHostname matchUav B (topicContext matchUav B pattern cfgB).pattern = true →
        NamesAgree A cfgA.sharedTopics cfgB.sharedTopics := by
  intro hclaim
  have hboth : ((parseNodeConfig matchUav innerHostname "uav1" "").toOption.any fun cfgA =>
      (parseNodeConfig matchUav innerHostname "uav2" "").toOption.any fun cfgB =>
        isUavHostname matchUav "uav1" (topicContext matchUav "uav1" "" cfgA).pattern &&
          isUavHostname matchUav "uav2" (topicContext matchUav "uav2" "" cfgB).pattern &&
          (cfgA.sharedTopics.zip cfgB.sharedTopics).any fun pair =>
            pair.1.transport == .gatt && exportedName pair.1 != importedName "uav1" pair.2) =
      true := by
    decide +kernel
  obtain ⟨cfgA, hA, hrest⟩ := exists_ok_of_any hboth
  obtain ⟨cfgB, hB, hrest⟩ := exists_ok_of_any hrest
  obtain ⟨hmatch, hany⟩ := Bool.and_eq_true_iff.mp hrest
  obtain ⟨hmatchA, hmatchB⟩ := Bool.and_eq_true_iff.mp hmatch
  obtain ⟨⟨mine, yours⟩, hpair, hdiffer⟩ := List.any_eq_true.mp hany
  obtain ⟨htransport, hne⟩ := Bool.and_eq_true_iff.mp hdiffer
  have hagree := hclaim innerHostname "uav1" "uav2" "" cfgA cfgB (by decide) hA hB hmatchA hmatchB
  have hsame := (List.forall₂_iff_zip.mp hagree.agree).2 hpair (beq_iff_eq.mp htransport)
  exact absurd hsame (by simpa using hne)

end UavBluetooth.Gatt
