import UavBluetooth.Config.NodeConfig
import UavBluetooth.Config.Scalars
import UavBluetooth.Util.Topics
import UavBluetooth.Util.Uuid

set_option autoImplicit false

/-! # Shared topics

The loop of `parse_node_config` over `shared_topics`: one entry is read by `parseTopic`, and
`parseSharedTopics_spec` says what the entries that get through have in common with their document.
-/

namespace UavBluetooth.Config

open Fallible Util Yaml

/-! ## Names -/

def bridgeTopicPath (canonicalTopic : String) : String :=
  let normalized := normalizeRosTopic canonicalTopic
  if normalized = "/" then "/" else normalized

/-- Strip a leading UAV hostname from a topic. -/
def canonicalSharedTopic (regexMatch : String → String → Bool) (exportTopic pattern : String) :
    String :=
  let normalized := normalizeRosTopic exportTopic
  match Paths.segments '/' normalized.toList with
  | [] => normalized
  | first :: rest =>
      if isUavHostname regexMatch (String.ofList first) pattern then
        String.ofList (Paths.path '/' rest)
      else normalized

def lowerCopy (value : String) : String := String.ofList (value.toList.map Char.toLower)

/-! ## Members -/

/-- The supported wire types and their widths. -/
def structFormatSizes : List (String × Nat) :=
  [("bool", 1), ("int8", 1), ("uint8", 1), ("int16", 2), ("uint16", 2), ("int32", 4),
   ("uint32", 4), ("int64", 8), ("uint64", 8), ("float32", 4), ("float64", 8)]

def rosTypeAliases : List (String × String) :=
  [("boolean", "bool"), ("byte", "int8"), ("octet", "uint8"), ("char", "uint8"),
   ("float", "float32"), ("double", "float64")]

def normalizeValueType (valueType : String) : Except String String := do
  let candidate := (rosTypeAliases.lookup valueType).getD valueType
  require (structFormatSizes.lookup candidate).isSome
    ("Unsupported bridge member type: " ++ valueType)
  return candidate

/-- Refuse a mapping with other keys than these. -/
def checkKeys (allowed : List String) (message : String) :
    List (Node × Node) → Except String Unit
  | [] => .ok ()
  | (key, _) :: rest => do
      let key ← asString (some key)
      require (key ∈ allowed) (message ++ key)
      checkKeys allowed message rest

def parseMemberSpec (item : Node) : Except String BridgeMemberSpec := do
  require item.isMap "members_encode item must be a mapping"
  let target := asStringOr "" (item.get "target")
  let valueType ← normalizeValueType (lowerCopy (asStringOr "" (item.get "type")))
  let expression := asStringOr "" (item.get "expression")
  checkKeys ["target", "type", "expression"] "Unsupported members_encode field: " item.entries
  require (target ≠ "") "members_encode item needs a target"
  return ⟨target, valueType, expression⟩

def parseAssignmentSpec (item : Node) : Except String BridgeAssignmentSpec := do
  require item.isMap "members_decode item must be a mapping"
  let target := asStringOr "" (item.get "target")
  let expression := asStringOr "" (item.get "expression")
  require (target ≠ "" && expression ≠ "") "members_decode item needs target and expression"
  checkKeys ["target", "expression"] "Unsupported members_decode field: " item.entries
  return ⟨target, expression⟩

/-- An optional list of mappings. -/
def parseList {α : Type} (parse : Node → Except String α) (node : Option Node)
    (message : String) : Except String (List α) :=
  match node with
  | none => .ok []
  | some (.sequence items) => items.mapM parse
  | some _ => .error message

/-- Refuse a target that was encoded before. -/
def checkTargets : List String → List BridgeMemberSpec → Except String Unit
  | _, [] => .ok ()
  | seen, member :: rest => do
      require (member.target ∉ seen) ("Duplicate members_encode target: " ++ member.target)
      checkTargets (member.target :: seen) rest

/-- The wire members of one entry, with the default of the raw format. -/
def parseMembers (at_ : String) (format : PayloadFormat) (raw : Node) :
    Except String (List BridgeMemberSpec × List BridgeAssignmentSpec) := do
  let encoded ← parseList parseMemberSpec (raw.get "members_encode")
    "members_encode must be a list"
  let decoded ← parseList parseAssignmentSpec (raw.get "members_decode")
    "members_decode must be a list"
  let members :=
    if format = .raw ∧ encoded = [] then [⟨"data[:]", "uint8", ""⟩] else encoded
  require (format = .ros2 || members ≠ [])
    (at_ ++ " requires at least one members_encode definition")
  checkTargets [] members
  return (members, decoded)

/-! ## Enumerated fields -/

def parseTransport (at_ : String) (raw : Node) : Except String Transport :=
  let transport := lowerTrimCopy (asStringOr "gatt" (raw.get "transport"))
  if transport = "gatt" ∨ transport = "" then .ok .gatt
  else if transport ∈ ["advertisement", "advertising", "advertisement_data"] then
    .ok .advertisement
  else if transport = "mesh" then .ok .mesh
  else .error (at_ ++ ".transport must be gatt, advertisement, or mesh")

def parseMode (at_ : String) (raw : Node) : Except String Mode :=
  let mode := lowerCopy (asStringOr "both" (raw.get "mode"))
  if mode = "both" ∨ mode = "" then .ok .both
  else if mode = "export" then .ok .export
  else if mode = "import" then .ok .import
  else .error (at_ ++ ".mode must be export, import, or both")

def parsePayloadFormat (at_ : String) (raw : Node) : Except String PayloadFormat :=
  let format := lowerTrimCopy (asStringOr "struct" (raw.get "payload_format"))
  if format = "struct" then .ok .struct
  else if format = "raw" then .ok .raw
  else if format = "ros2" then .ok .ros2
  else .error (at_ ++ ".payload_format must be struct, raw, or ros2")

/-- `std::max(0.0, rate)`. An infinite rate is spaced by one tick of the clock, as is a rate
of one tick's frequency. -/
def rateOf : Double → ℚ
  | .finite value => max 0 value
  | .infinite negative => if negative then 0 else 1000000000
  | .nan => 0

/-! ## One entry -/

/-- What an entry takes from its surroundings: the host, the pattern of UAV hostnames and the
Mesh defaults. -/
structure TopicContext where
  regexMatch : String → String → Bool
  hostname : String
  pattern : String
  config : NodeConfig

/-- The sets that refuse repeated entries. -/
structure Seen where
  keys : List String := []
  channels : List String := []

/-- The entries are counted by their keys. -/
def Seen.position (seen : Seen) : String := "shared_topics[" ++ toString seen.keys.length ++ "]"

variable (context : TopicContext)

/-- The canonical topic of an entry, from its resolved export topic. -/
def TopicContext.canonical (exportTopic : String) : String :=
  canonicalSharedTopic context.regexMatch exportTopic context.pattern

/-- The part of the loop body that every transport shares. -/
def parseBridge (at_ : String) (raw : Node) : Except String SharedTopicConfig := do
  let transport ← parseTransport at_ raw
  let mode ← parseMode at_ raw
  let exportTopic ← resolveTopicPath (asStringOr "" (raw.get "export_topic")) context.hostname
  require (exportTopic ≠ "/") (at_ ++ " requires export_topic")
  let canonical := context.canonical exportTopic
  require (asStringOr canonical (raw.get "key") ≠ "") (at_ ++ " produced an empty bridge key")
  let path := bridgeTopicPath canonical
  let bridgeName := "bridge:/" ++ sanitizeTopicSuffix context.hostname ++ path
  let messageType := asStringOr "" (raw.get "message_type")
  require (messageType ≠ "") (at_ ++ " requires message_type")
  let format ← parsePayloadFormat at_ raw
  let (members, assignments) ← parseMembers at_ format raw
  let suffix := normalizeRosTopic (asStringOr canonical (raw.get "import_topic_suffix"))
  let name := asStringOr canonical (raw.get "name")
  return {
    name := if name = "" then canonical else name
    mode := mode
    bridgeKey := String.ofList ((uuidFromName bridgeName).toList.filter (· ≠ '-'))
    bridgeName := bridgeName
    bridgeTopicPath := path
    exportTopic := exportTopic
    importTopicSuffix := if suffix.toList.head? = some '/' then
      String.ofList suffix.toList.tail else suffix
    messageType := messageType
    rateHz := rateOf (asReadOr readDouble (.finite 0) (raw.get "rate_hz"))
    payloadFormat := format
    memberSpecs := members
    decodeAssignments := assignments
    transport := transport }

def channelKey (topic : SharedTopicConfig) : String :=
  topic.transport.name ++ ":" ++ toString topic.channelId.toNat

/-- Whether an entry competes for a channel of its transport. -/
def framed (topic : SharedTopicConfig) : Bool :=
  topic.transport != .gatt && !topic.advertisementBare

/-- The framing and the channel of an entry. -/
def parseChannel (at_ : String) (channels : List String) (raw : Node)
    (topic : SharedTopicConfig) : Except String SharedTopicConfig := do
  let framing ← str raw "framing" "channel"
  require (lowerTrimCopy framing = "channel" || lowerTrimCopy framing = "bare")
    "shared_topics.framing must be channel or bare"
  let topic := { topic with advertisementBare := lowerTrimCopy framing = "bare" }
  require (!topic.advertisementBare || topic.transport = .advertisement)
    "bare framing is supported only for advertisements"
  if framed topic then do
    require (raw.get "channel_id").isSome
      (at_ ++ ".channel_id is required for advertisement and mesh transports")
    let channelId ← parseIntegerValue (raw.get "channel_id") 65535 (at_ ++ ".channel_id")
    let topic := { topic with channelId := UInt16.ofNat channelId }
    require (topic.channelId ≠ 0) (at_ ++ ".channel_id must be in the range 1..65535")
    require (channelKey topic ∉ channels)
      (at_ ++ " duplicates channel_id for transport " ++ topic.transport.name)
    return topic
  else do
    require (!topic.advertisementBare || (raw.get "channel_id").isNone)
      "A bare advertisement bridge must not set channel_id"
    return topic

/-- The Mesh access fields of an entry. -/
def parseMeshFields (raw : Node) (topic : SharedTopicConfig) :
    Except String SharedTopicConfig :=
  if topic.transport = .mesh then do
    let config := context.config
    let destination ← parseIntegerValue (getOr raw "destination" config.meshSwarmGroupAddress.toNat)
      65535 "shared_topics.mesh.destination"
    let appKeyIndex ← parseIntegerValue (getOr raw "app_key_index" config.meshSwarmAppKeyIndex.toNat)
      0x0fff "shared_topics.mesh.app_key_index"
    let elementIndex ← parseIntegerValue (getOr raw "element_index" 0)
      255 "shared_topics.mesh.element_index"
    let vendorOpcode ← parseIntegerValue (getOr raw "vendor_opcode" 0xc1)
      255 "shared_topics.mesh.vendor_opcode"
    let companyId ← parseIntegerValue (getOr raw "company_id" config.meshCompanyId.toNat)
      65535 "shared_topics.mesh.company_id"
    require (0xc0 ≤ vendorOpcode) "shared_topics.mesh.vendor_opcode must be in 0xc0..0xff"
    return { topic with
      -- Omitted destination means reliable automatic swarm delivery.
      meshSwarmReliable := config.meshSwarmAutoProvisioning && (raw.get "destination").isNone
      meshDestination := UInt16.ofNat destination
      meshAppKeyIndex := UInt16.ofNat appKeyIndex
      meshElementIndex := UInt8.ofNat elementIndex
      meshForceSegmented := asReadOr readBool true (raw.get "force_segmented")
      meshVendorOpcode := UInt8.ofNat vendorOpcode
      meshCompanyId := UInt16.ofNat companyId }
  else .ok topic

def uniqueKey (topic : SharedTopicConfig) : String :=
  topic.transport.name ++ ":" ++ topic.bridgeKey

/-- One pass of the loop. -/
def parseTopic (seen : Seen) (raw : Node) : Except String (SharedTopicConfig × Seen) := do
  let at_ := seen.position
  require raw.isMap (at_ ++ " must be a mapping")
  let topic ← parseBridge context at_ raw
  let topic ← parseChannel at_ seen.channels raw topic
  let topic ← parseMeshFields context raw topic
  require (uniqueKey topic ∉ seen.keys)
    (at_ ++ " duplicates bridge key for " ++ context.canonical topic.exportTopic)
  return (topic,
    { keys := uniqueKey topic :: seen.keys
      channels := if framed topic then channelKey topic :: seen.channels else seen.channels })

/-- The entries of `shared_topics`; anything but a sequence is ignored. -/
def rawTopics (doc : Node) : List Node :=
  match doc.get "shared_topics" with
  | some (.sequence items) => items
  | _ => []

def parseSharedTopics (doc : Node) : Except String (List SharedTopicConfig) :=
  loop (parseTopic context) {} (rawTopics doc)

/-! ## What the checks of one entry ensure -/

section

variable {context} {at_ : String} {raw : Node} {topic topic' : SharedTopicConfig}

/-- The error text aside, the transport depends on the entry only. -/
theorem parseTransport_congr {at_' : String} {transport : Transport}
    (h : parseTransport at_ raw = .ok transport) : parseTransport at_' raw = .ok transport := by
  simp only [parseTransport] at h ⊢
  split_ifs at h ⊢ <;> exact h

theorem parseMode_congr {at_' : String} {mode : Mode} (h : parseMode at_ raw = .ok mode) :
    parseMode at_' raw = .ok mode := by
  simp only [parseMode] at h ⊢
  split_ifs at h ⊢ <;> exact h

/-- What an accepted entry has from its document, on any transport. -/
structure Bridged (context : TopicContext) (raw : Node) (topic : SharedTopicConfig) : Prop where
  transport : parseTransport "" raw = .ok topic.transport
  mode : parseMode "" raw = .ok topic.mode
  exportTopic : resolveTopicPath (asStringOr "" (raw.get "export_topic")) context.hostname =
    .ok topic.exportTopic
  path : topic.bridgeTopicPath = bridgeTopicPath (context.canonical topic.exportTopic)
  name : topic.bridgeName =
    "bridge:/" ++ sanitizeTopicSuffix context.hostname ++ topic.bridgeTopicPath
  key : topic.bridgeKey =
    String.ofList ((uuidFromName topic.bridgeName).toList.filter (· ≠ '-'))
  members : topic.payloadFormat ≠ .ros2 → topic.memberSpecs ≠ []

/-- The framing and the channel of an accepted entry. -/
structure Framed (topic : SharedTopicConfig) : Prop where
  bare : topic.advertisementBare = true → topic.transport = .advertisement
  channel : framed topic = true → topic.channelId ≠ 0
  unframed : framed topic = false → topic.channelId = 0

theorem parseMembers_spec {format : PayloadFormat} {members : List BridgeMemberSpec}
    {assignments : List BridgeAssignmentSpec}
    (h : parseMembers at_ format raw = .ok (members, assignments)) :
    format ≠ .ros2 → members ≠ [] := by
  simp only [parseMembers, bind_eq_ok, require_eq_ok, pure_eq_ok, Prod.mk.injEq] at h
  obtain ⟨_, _, _, _, _, hmembers, _, _, rfl, rfl⟩ := h
  intro hformat
  simpa [hformat] using hmembers

theorem parseBridge_spec (h : parseBridge context at_ raw = .ok topic) :
    Bridged context raw topic ∧ topic.channelId = 0 := by
  simp only [parseBridge, bind_eq_ok, require_eq_ok, pure_eq_ok, Prod.exists] at h
  obtain ⟨transport, htransport, mode, hmode, exportTopic, hexport, _, _, _, _, _, _, format, _,
    members, assignments, hmembers, rfl⟩ := h
  exact ⟨{
    transport := parseTransport_congr htransport
    mode := parseMode_congr hmode
    exportTopic := hexport
    path := by dsimp only
    name := by dsimp only
    key := by dsimp only
    members := parseMembers_spec hmembers }, rfl⟩

theorem parseChannel_spec {channels : List String} (hzero : topic.channelId = 0)
    (h : parseChannel at_ channels raw topic = .ok topic') :
    (∃ bare channelId, topic' =
        { topic with advertisementBare := bare, channelId := channelId }) ∧
      Framed topic' ∧ (framed topic' = true → channelKey topic' ∉ channels) := by
  simp only [parseChannel, bind_eq_ok, require_eq_ok] at h
  obtain ⟨framing, _, _, _, _, hbare, h⟩ := h
  generalize decide (lowerTrimCopy framing = "bare") = bare at hbare h
  have hadvertisement : bare = true → topic.transport = .advertisement := by
    rintro rfl
    simpa using hbare
  split at h
  · rename_i hframed
    simp only [bind_eq_ok, require_eq_ok, pure_eq_ok, decide_eq_true_eq] at h
    obtain ⟨_, _, channelId, _, _, hchannel, _, hfresh, rfl⟩ := h
    refine ⟨⟨bare, UInt16.ofNat channelId, rfl⟩,
      ⟨hadvertisement, fun _ => hchannel, fun hnot => ?_⟩, fun _ => hfresh⟩
    exact absurd (hnot.symm.trans hframed) Bool.false_ne_true
  · rename_i hunframed
    simp only [bind_eq_ok, require_eq_ok, pure_eq_ok] at h
    obtain ⟨_, _, rfl⟩ := h
    exact ⟨⟨bare, topic.channelId, rfl⟩,
      ⟨hadvertisement, fun hf => absurd hf hunframed, fun _ => hzero⟩,
      fun hf => absurd hf hunframed⟩

/-- The Mesh fields are all that the last stage changes. -/
theorem parseMeshFields_spec (h : parseMeshFields context raw topic = .ok topic') :
    ∃ reliable destination appKeyIndex elementIndex force opcode company, topic' =
      { topic with
        meshSwarmReliable := reliable
        meshDestination := destination
        meshAppKeyIndex := appKeyIndex
        meshElementIndex := elementIndex
        meshForceSegmented := force
        meshVendorOpcode := opcode
        meshCompanyId := company } := by
  unfold parseMeshFields at h
  split at h
  · simp only [bind_eq_ok, require_eq_ok, pure_eq_ok] at h
    obtain ⟨_, _, _, _, _, _, _, _, _, _, _, _, rfl⟩ := h
    exact ⟨_, _, _, _, _, _, _, rfl⟩
  · cases h
    exact ⟨_, _, _, _, _, _, _, rfl⟩

/-- **One pass of the loop**: the entry's checks, and the keys it is compared with. -/
theorem parseTopic_spec {seen seen' : Seen} (h : parseTopic context seen raw = .ok (topic, seen')) :
    Bridged context raw topic ∧ Framed topic ∧ uniqueKey topic ∉ seen.keys ∧
      (framed topic = true → channelKey topic ∉ seen.channels) ∧
      seen' = { keys := uniqueKey topic :: seen.keys
                channels := if framed topic then channelKey topic :: seen.channels
                  else seen.channels } := by
  simp only [parseTopic, bind_eq_ok, require_eq_ok, pure_eq_ok, Prod.mk.injEq] at h
  obtain ⟨_, _, bridge, hbridge, channelled, hchannel, meshed, hmesh, _, hkey, rfl, rfl⟩ := h
  obtain ⟨hbridged, hzero⟩ := parseBridge_spec hbridge
  obtain ⟨⟨bare, channelId, rfl⟩, hframed, hfresh⟩ := parseChannel_spec hzero hchannel
  obtain ⟨_, _, _, _, _, _, _, rfl⟩ := parseMeshFields_spec hmesh
  refine ⟨?_, ?_, by simpa using hkey, hfresh, rfl⟩
  · exact ⟨hbridged.transport, hbridged.mode, hbridged.exportTopic, hbridged.path,
      hbridged.name, hbridged.key, hbridged.members⟩
  · exact ⟨hframed.bare, hframed.channel, hframed.unframed⟩

/-! ## What the checks of the loop ensure -/

/-- The channel key of an entry that competes for a channel. -/
def framedKey (topic : SharedTopicConfig) : Option String :=
  if framed topic then some (channelKey topic) else none

/-- What the loop ensures of all entries together. -/
structure Loaded (context : TopicContext) (raws : List Node) (topics : List SharedTopicConfig) :
    Prop where
  bridged : List.Forall₂ (Bridged context) raws topics
  framed : ∀ topic ∈ topics, Framed topic
  keys : (topics.map uniqueKey).Nodup
  channels : (topics.filterMap framedKey).Nodup

/-- **The loop over the entries.** -/
theorem parseSharedTopics_spec {doc : Node} {topics : List SharedTopicConfig}
    (h : parseSharedTopics context doc = .ok topics) : Loaded context (rawTopics doc) topics := by
  unfold parseSharedTopics at h
  have hframed : List.Forall₂ (fun _ topic => Framed topic) (rawTopics doc) topics :=
    loop_forall₂ (fun seen raw topic seen' hbody => (parseTopic_spec hbody).2.1) h
  constructor
  · refine loop_forall₂ ?_ h
    intro seen raw topic seen' hbody
    exact (parseTopic_spec hbody).1
  · intro topic htopic
    obtain ⟨_, _, hf⟩ := exists_of_forall₂ hframed htopic
    exact hf
  · have hkeys := (loop_nodup (fun (seen : Seen) key => key ∈ seen.keys)
      (fun topic => some (uniqueKey topic)) ?_ h).1
    · simpa using hkeys
    · intro seen raw topic seen' hbody
      obtain ⟨_, _, hfresh, _, rfl⟩ := parseTopic_spec hbody
      simp only [Option.mem_some_iff, forall_eq', List.mem_cons]
      exact ⟨hfresh, fun k hk => hk.symm.imp_left Eq.symm⟩
  · refine (loop_nodup (fun (seen : Seen) key => key ∈ seen.channels) framedKey ?_ h).1
    intro seen raw topic seen' hbody
    obtain ⟨_, _, _, hfresh, rfl⟩ := parseTopic_spec hbody
    unfold framedKey
    split
    · rename_i hf
      simp only [Option.mem_some_iff, forall_eq', List.mem_cons]
      exact ⟨hfresh hf, fun k hk => hk.symm.imp_left Eq.symm⟩
    · simp

end

end UavBluetooth.Config
