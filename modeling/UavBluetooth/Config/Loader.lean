import UavBluetooth.Config.SharedTopics

set_option autoImplicit false

/-! # The configuration loader

`parse_node_config`: a YAML document, the hostname and the pattern of UAV hostnames give a
validated `NodeConfig` or an error. The sections below read the fields in the order of the
source, each continuing the record of the one before; inside a section the checks come before
the plain fields, so that of two errors in one section another one may be reported. The files
and their merge (`load_effective_config`) are left out.
-/

namespace UavBluetooth.Config

open Fallible Util Yaml

/-! ## Reading the fields -/

def meshOptions : List String :=
  ["mesh_agent_capabilities", "mesh_agent_numeric_oob", "mesh_agent_oob_info",
   "mesh_agent_private_key", "mesh_agent_public_key", "mesh_agent_static_oob", "mesh_agent_uri",
   "mesh_auto_attach", "mesh_auto_configure_relay", "mesh_auto_create_network", "mesh_auto_join",
   "mesh_company_id", "mesh_crpl", "mesh_default_ttl", "mesh_device_uuid", "mesh_next_unicast",
   "mesh_product_id", "mesh_provisioner", "mesh_provisioner_preference",
   "mesh_relay_retransmit_count", "mesh_relay_retransmit_interval_steps",
   "mesh_network_retransmit_count", "mesh_network_retransmit_interval_steps",
   "mesh_swarm_app_key_index", "mesh_swarm_auto_provisioning", "mesh_swarm_group_address",
   "mesh_swarm_heartbeat_period", "mesh_swarm_id", "mesh_swarm_network_index",
   "mesh_swarm_participating", "mesh_swarm_provisioner_timeout", "mesh_swarm_startup_grace",
   "mesh_swarm_state_path", "mesh_token", "mesh_token_path", "mesh_unicast_cursor_path",
   "mesh_vendor_model_id", "mesh_version_id"]

/-- Refuse unknown options of the Mesh. -/
def checkMeshOptions : List (Node × Node) → Except String Unit
  | [] => .ok ()
  | (key, _) :: rest => do
      let key ← asString (some key)
      require (!"mesh_".toList.isPrefixOf key.toList || key ∈ meshOptions)
        ("Unknown Mesh configuration option: " ++ key)
      checkMeshOptions rest

/-- Refuse empty and repeated whitelist entries. -/
def checkPeers : List String → List String → Except String Unit
  | _, [] => .ok ()
  | seen, peer :: rest => do
      require (peer ≠ "" && peer ∉ seen) "peer_whitelist must contain unique, non-empty hostnames"
      checkPeers (peer :: seen) rest

def readService (doc : Node) (hostname : String) (cfg : NodeConfig) :
    Except String NodeConfig := do
  require ((doc.get "peers_prefix").all fun node => node matches .scalar _)
    "peers_prefix must be a ROS topic path string"
  let peersPrefix ← resolveTopicPath (← str doc "peers_prefix" cfg.peersPrefix) hostname
  let serialPortChannel ← u32 doc "serial_port_channel" cfg.serialPortChannel.toUInt32
  require (serialPortChannel ≠ 0 && serialPortChannel ≤ 30)
    "serial_port_channel must be in the range 1..30"
  return { cfg with
    peersPrefix := if peersPrefix = "/" then "" else peersPrefix
    scanPublishPeriod := ← dbl doc "scan_publish_period" cfg.scanPublishPeriod
    timeUpdatePeriod := ← dbl doc "time_update_period" cfg.timeUpdatePeriod
    wifiRefreshPeriod := ← dbl doc "wifi_refresh_period" cfg.wifiRefreshPeriod
    autoConnectPeriod := ← dbl doc "auto_connect_period" cfg.autoConnectPeriod
    discoverableTimeout := ← u32 doc "discoverable_timeout" cfg.discoverableTimeout
    autoPair := ← bool doc "auto_pair" cfg.autoPair
    autoTrust := ← bool doc "auto_trust" cfg.autoTrust
    enableTimeService := ← bool doc "enable_time_service" cfg.enableTimeService
    enableWifiService := ← bool doc "enable_wifi_service" cfg.enableWifiService
    enableSerialPortProfile :=
      ← bool doc "enable_serial_port_profile" cfg.enableSerialPortProfile
    serialPortChannel := serialPortChannel.toUInt16
    serialSshdPath := ← str doc "serial_sshd_path" cfg.serialSshdPath }

def readMesh (doc : Node) (cfg : NodeConfig) : Except String NodeConfig := do
  let autoJoin ← bool doc "mesh_auto_join" cfg.meshAutoJoin
  let autoCreateNetwork ← bool doc "mesh_auto_create_network" cfg.meshAutoCreateNetwork
  require (!(autoJoin && autoCreateNetwork))
    "mesh_auto_join and mesh_auto_create_network are mutually exclusive"
  let ttl ← u8Field doc "mesh_default_ttl" cfg.meshDefaultTtl 127
  require (ttl ≠ 1) "mesh_default_ttl must be 0 or in the range 2..127"
  let peers := (strList doc "peer_whitelist").map lowerTrimCopy
  checkPeers [] peers
  return { cfg with
    enableMesh := ← bool doc "enable_mesh" cfg.enableMesh
    meshAutoAttach := ← bool doc "mesh_auto_attach" cfg.meshAutoAttach
    meshAutoJoin := autoJoin
    meshAutoCreateNetwork := autoCreateNetwork
    meshProvisioner := ← bool doc "mesh_provisioner" cfg.meshProvisioner
    meshAutoConfigureRelay := ← bool doc "mesh_auto_configure_relay" cfg.meshAutoConfigureRelay
    meshDefaultTtl := ttl
    meshRelayRetransmitCount :=
      ← u8Field doc "mesh_relay_retransmit_count" cfg.meshRelayRetransmitCount 7
    meshRelayRetransmitIntervalSteps := ← u8Field doc "mesh_relay_retransmit_interval_steps"
      cfg.meshRelayRetransmitIntervalSteps 31
    meshNetworkRetransmitCount :=
      ← u8Field doc "mesh_network_retransmit_count" cfg.meshNetworkRetransmitCount 7
    meshNetworkRetransmitIntervalSteps := ← u8Field doc "mesh_network_retransmit_interval_steps"
      cfg.meshNetworkRetransmitIntervalSteps 31
    peerWhitelist := peers }

/-- The UUID without its dashes, when one is configured. -/
def readDeviceUuid (doc : Node) (cfg : NodeConfig) : Except String String := do
  let uuid ← str doc "mesh_device_uuid" cfg.meshDeviceUuid
  let normalized := uuid.toList.filter (· ≠ '-')
  require (uuid = "" || normalized.length = 32 && normalized.all isHexDigit)
    "mesh_device_uuid must contain exactly 16 hexadecimal bytes"
  return if uuid = "" then "" else String.ofList normalized

def readSwarm (doc : Node) (hostname : String) (cfg : NodeConfig) :
    Except String NodeConfig := do
  let swarmId ← u16Field doc "mesh_swarm_id" cfg.meshSwarmId 0xffff
  require (swarmId ≠ 0) "mesh_swarm_id must be in 1..65535"
  return { cfg with
    meshSwarmAutoProvisioning :=
      ← bool doc "mesh_swarm_auto_provisioning" cfg.meshSwarmAutoProvisioning
    meshSwarmId := swarmId
    meshSwarmParticipating := ← bool doc "mesh_swarm_participating" cfg.meshSwarmParticipating
    meshSwarmStatePath :=
      expandHostname (← str doc "mesh_swarm_state_path" cfg.meshSwarmStatePath) hostname
    meshProvisionerPreference :=
      lowerTrimCopy (← str doc "mesh_provisioner_preference" cfg.meshProvisionerPreference)
    meshSwarmStartupGrace := ← dbl doc "mesh_swarm_startup_grace" cfg.meshSwarmStartupGrace
    meshSwarmHeartbeatPeriod :=
      ← dbl doc "mesh_swarm_heartbeat_period" cfg.meshSwarmHeartbeatPeriod
    meshSwarmProvisionerTimeout :=
      ← dbl doc "mesh_swarm_provisioner_timeout" cfg.meshSwarmProvisionerTimeout
    meshSwarmGroupAddress :=
      ← u16Field doc "mesh_swarm_group_address" cfg.meshSwarmGroupAddress 0xffff
    meshSwarmNetworkIndex :=
      ← u16Field doc "mesh_swarm_network_index" cfg.meshSwarmNetworkIndex 0x0fff
    meshSwarmAppKeyIndex :=
      ← u16Field doc "mesh_swarm_app_key_index" cfg.meshSwarmAppKeyIndex 0x0fff
    meshUnicastCursorPath :=
      expandHostname (← str doc "mesh_unicast_cursor_path" cfg.meshUnicastCursorPath) hostname
    meshDeviceUuid := ← readDeviceUuid doc cfg }

/-! ## Automatic provisioning -/

/-- The trailing number of a member's name, as the validation reads it. -/
def numberFor (member context : String) : Except String Nat := do
  let digits := member.toList.rtakeWhile Char.isDigit
  require (!digits.isEmpty) (context ++ " must end in a UAV number: " ++ member)
  let number ← parseIntegerValue (some (.scalar (String.ofList digits))) 0xffff
    (context ++ " UAV number")
  require (number ≠ 0) (context ++ " UAV number must be nonzero")
  return number

/-- Refuse two whitelist entries with one number. -/
def checkPeerNumbers : List Nat → List String → Except String Unit
  | _, [] => .ok ()
  | seen, peer :: rest => do
      let number ← numberFor peer "peer_whitelist entry"
      require (number ∉ seen) "peer_whitelist must contain unique UAV numbers"
      checkPeerNumbers (number :: seen) rest

def positiveFinite : Double → Bool
  | .finite value => 0 < value
  | _ => false

/-- The value of a finite double. -/
def finiteValue : Double → ℚ
  | .finite value => value
  | _ => 0

/-- What automatic provisioning demands of the members and of the timing. -/
def checkAutoProvisioning (hostname : String) (cfg : NodeConfig) : Except String Unit := do
  require cfg.enableMesh "mesh_swarm_auto_provisioning requires enable_mesh"
  require (cfg.meshDeviceUuid = "")
    ("mesh_swarm_auto_provisioning requires hostname-derived Mesh UUIDs; " ++
      "leave mesh_device_uuid empty")
  require (cfg.meshProvisionerPreference ≠ "")
    "mesh_provisioner_preference must be 'ordered' or a UAV hostname"
  checkPeerNumbers [] cfg.peerWhitelist
  let localName := lowerTrimCopy hostname
  let _ ← numberFor localName "local hostname"
  require (cfg.peerWhitelist.isEmpty || localName ∈ cfg.peerWhitelist)
    ("local hostname is missing from peer_whitelist: " ++ localName)
  if cfg.meshProvisionerPreference ≠ "ordered" then
    let _ ← numberFor cfg.meshProvisionerPreference "mesh_provisioner_preference"
    require (cfg.peerWhitelist.isEmpty || cfg.meshProvisionerPreference ∈ cfg.peerWhitelist)
      "explicit mesh_provisioner_preference must appear in peer_whitelist"
  require (positiveFinite cfg.meshSwarmStartupGrace && positiveFinite cfg.meshSwarmHeartbeatPeriod
      && positiveFinite cfg.meshSwarmProvisionerTimeout)
    "automatic Mesh provisioning periods must be finite and greater than zero"
  require (2 * finiteValue cfg.meshSwarmHeartbeatPeriod <
      finiteValue cfg.meshSwarmProvisionerTimeout)
    "mesh_swarm_provisioner_timeout must exceed two heartbeat periods"
  require (finiteValue cfg.meshSwarmProvisionerTimeout ≤ 63)
    "mesh_swarm_provisioner_timeout must not exceed 63 seconds"
  require (0xc000 ≤ cfg.meshSwarmGroupAddress && cfg.meshSwarmGroupAddress ≤ 0xfeff)
    "mesh_swarm_group_address must be a Mesh group address (0xc000..0xfeff)"

/-- Every automatic member relays, provisions newcomers and takes over. -/
def applyAutoProvisioning (hostname : String) (cfg : NodeConfig) : Except String NodeConfig :=
  if cfg.meshSwarmAutoProvisioning then do
    checkAutoProvisioning hostname cfg
    return { cfg with
      meshProvisioner := true
      meshAutoAttach := true
      meshAutoJoin := false
      meshAutoCreateNetwork := false
      meshAutoConfigureRelay := true }
  else .ok cfg

/-- The last checks of automatic provisioning: `std::stoul` reads the suffix of the hostname
itself, not of its trimmed form. -/
def checkPrivateMesh (hostname : String) (cfg : NodeConfig) : Except String Unit := do
  require (!cfg.peerWhitelist.isEmpty)
    ("Hands-free private Mesh needs an ordered peer_whitelist so " ++
      "PB-ADV can target each nearby UAV's Device UUID")
  let digits := hostname.toList.rtakeWhile Char.isDigit
  require (!digits.isEmpty && ofDigits 10 digits < 2 ^ 64) "stoul"
  require (ofDigits 10 digits ≤ 0x7fff) "Automatic Mesh UAV number must be in 1..32767"

def readIdentity (doc : Node) (hostname : String) (cfg : NodeConfig) :
    Except String NodeConfig := do
  let token ← parseIntegerValue (getOr doc "mesh_token" 0) (2 ^ 64 - 1) "mesh_token"
  let tokenPath := expandHostname (← str doc "mesh_token_path" cfg.meshTokenPath) hostname
  let crpl ← u16Field doc "mesh_crpl" cfg.meshCrpl 0xffff
  require (crpl ≠ 0) "mesh_crpl must be greater than zero"
  let nextUnicast ← u16Field doc "mesh_next_unicast" cfg.meshNextUnicast 0x7fff
  require (nextUnicast ≠ 0) "mesh_next_unicast must be in the range 0x0001..0x7fff"
  if cfg.meshSwarmAutoProvisioning then checkPrivateMesh hostname cfg
  return { cfg with
    meshToken := UInt64.ofNat token
    meshTokenPath := if cfg.meshSwarmAutoProvisioning then tokenPath ++ ".auto" else tokenPath
    meshCompanyId := ← u16Field doc "mesh_company_id" cfg.meshCompanyId 0xffff
    meshProductId := ← u16Field doc "mesh_product_id" cfg.meshProductId 0xffff
    meshVersionId := ← u16Field doc "mesh_version_id" cfg.meshVersionId 0xffff
    meshCrpl := crpl
    meshVendorModelId := ← u16Field doc "mesh_vendor_model_id" cfg.meshVendorModelId 0xffff
    meshNextUnicast := nextUnicast }

/-- A byte sequence that is empty or of one length. -/
def readKey (doc : Node) (key : String) (length : Nat) : Except String Bytes := do
  let bytes ← parseByteSequence (doc.get key) key
  require (bytes.isEmpty || bytes.length = length)
    (key ++ " must contain exactly " ++ toString length ++ " bytes")
  return bytes

def readAgent (doc : Node) (cfg : NodeConfig) : Except String NodeConfig := do
  let numericOob ← u32 doc "mesh_agent_numeric_oob" cfg.meshAgentNumericOob
  require (numericOob ≤ 99999999) "mesh_agent_numeric_oob must be at most 99999999"
  return { cfg with
    meshAgentCapabilities := strList doc "mesh_agent_capabilities"
    meshAgentOobInfo := strList doc "mesh_agent_oob_info"
    meshAgentStaticOob := ← readKey doc "mesh_agent_static_oob" 16
    meshAgentPrivateKey := ← readKey doc "mesh_agent_private_key" 32
    meshAgentPublicKey := ← readKey doc "mesh_agent_public_key" 64
    meshAgentNumericOob := numericOob
    meshAgentUri := ← str doc "mesh_agent_uri" cfg.meshAgentUri }

def checkProfiles : List String → Except String Unit
  | [] => .ok ()
  | uuid :: rest => do
      require (isUuid uuid) ("gatt_profile_uuids must contain only 128-bit UUIDs: " ++ uuid)
      checkProfiles rest

def readConnections (doc : Node) (cfg : NodeConfig) : Except String NodeConfig := do
  let profiles := (strList doc "gatt_profile_uuids").map lowerTrimCopy
  checkProfiles profiles
  return { cfg with
    gattProfileUuids := profiles
    autoConnectEnable := ← bool doc "auto_connect_enable" cfg.autoConnectEnable
    autoConnectPattern := ← str doc "auto_connect_pattern" cfg.autoConnectPattern
    peerConnectionTimeout := ← dbl doc "peer_connection_timeout" cfg.peerConnectionTimeout
    wifiNetplanConfigPath := ← str doc "wifi_netplan_config_path" cfg.wifiNetplanConfigPath
    allowedWifiNetworks := strList doc "allowed_wifi_networks"
    statusReportPeriod := ← dbl doc "status_report_period" cfg.statusReportPeriod
    logTopicEnable := ← bool doc "log_topic_enable" cfg.logTopicEnable
    expireConnectionsWithOverlay :=
      ← bool doc "expire_connections_with_overlay" cfg.expireConnectionsWithOverlay
    overlayKeepaliveTopicSuffix :=
      ← str doc "overlay_keepalive_topic_suffix" cfg.overlayKeepaliveTopicSuffix
    verboseLogFile := ← str doc "verbose_log_file" cfg.verboseLogFile }

/-! ## Advertisement -/

/-- A trimmed, lower-case option of two spellings. -/
def readChoice (doc : Node) (key fallback first second : String) : Except String String := do
  let value := lowerTrimCopy (← str doc key fallback)
  require (value = first || value = second)
    (key ++ " must be '" ++ first ++ "' or '" ++ second ++ "'")
  return value

/-- The topic of extra advertisement data; an empty one stays empty. -/
def readExtraDataTopic (doc : Node) (hostname : String) (cfg : NodeConfig) :
    Except String String := do
  let topic ← str doc "advertise_extra_data_topic" cfg.advertiseExtraDataTopic
  if topic = "" then return "" else resolveTopicPath topic hostname

def readAdvertisement (doc : Node) (hostname : String) (cfg : NodeConfig) :
    Except String NodeConfig := do
  return { cfg with
    advertiseMode := ← readChoice doc "advertise_mode" cfg.advertiseMode "peripheral" "broadcast"
    advertiseSize := ← readChoice doc "advertise_size" cfg.advertiseSize "legacy" "extended"
    advertiseUpdateStrategy := ← readChoice doc "advertise_update_strategy"
      cfg.advertiseUpdateStrategy "property" "reregister"
    advertiseLocalName :=
      expandHostname (← str doc "advertise_local_name" cfg.advertiseLocalName) hostname
    advertiseDiscoverable := ← parseOptionalBool doc "advertise_discoverable"
    advertiseIncludes := strList doc "advertise_includes"
    advertiseServiceUuids := strList doc "advertise_service_uuids"
    advertiseSolicitUuids := strList doc "advertise_solicit_uuids"
    advertiseManufacturerData := ← parseByteMap (integerKey 0xffff)
      (doc.get "advertise_manufacturer_data") "advertise_manufacturer_data"
    advertiseServiceData := ← parseByteMap (fun key _ => .ok key)
      (doc.get "advertise_service_data") "advertise_service_data"
    advertiseData := ← parseByteMap (integerKey 0xff) (doc.get "advertise_data") "advertise_data"
    advertiseScanResponseServiceUuids := strList doc "advertise_scan_response_service_uuids"
    advertiseScanResponseManufacturerData := ← parseByteMap (integerKey 0xffff)
      (doc.get "advertise_scan_response_manufacturer_data")
      "advertise_scan_response_manufacturer_data"
    advertiseScanResponseSolicitUuids := strList doc "advertise_scan_response_solicit_uuids"
    advertiseScanResponseServiceData := ← parseByteMap (fun key _ => .ok key)
      (doc.get "advertise_scan_response_service_data") "advertise_scan_response_service_data"
    advertiseScanResponseData := ← parseByteMap (integerKey 0xff)
      (doc.get "advertise_scan_response_data") "advertise_scan_response_data"
    advertiseAppearance := ← parseOptionalInteger doc "advertise_appearance" 0xffff
    advertiseDuration := ← parseOptionalInteger doc "advertise_duration" 0xffff
    advertiseTimeout := ← parseOptionalInteger doc "advertise_timeout" 0xffff
    advertiseMinInterval := ← parseOptionalInteger doc "advertise_min_interval" 0xffffffff
    advertiseMaxInterval := ← parseOptionalInteger doc "advertise_max_interval" 0xffffffff
    advertiseTxPower := ← parseOptionalSignedInteger doc "advertise_tx_power" (-0x8000) 0x7fff
    advertiseExtraDataTopic := ← readExtraDataTopic doc hostname cfg
    pairingAgent := ← str doc "pairing_agent" cfg.pairingAgent
    enableServer := ← bool doc "enable_server" cfg.enableServer
    enableScan := ← bool doc "enable_scan" cfg.enableScan
    scanMode := ← str doc "scan_mode" cfg.scanMode }

/-- The Mesh daemon owns advertising and scanning in automatic mode. -/
def exclusiveMesh (cfg : NodeConfig) : NodeConfig :=
  if cfg.meshSwarmAutoProvisioning then
    { cfg with
      enableServer := false
      enableScan := false
      enableTimeService := false
      enableWifiService := false
      enableSerialPortProfile := false
      autoConnectEnable := false
      autoPair := false
      autoTrust := false
      gattProfileUuids := [] }
  else cfg

/-! ## Checks across the configuration -/

/-- Whether any bridge uses a transport. -/
def NodeConfig.uses (cfg : NodeConfig) (transport : Transport) : Bool :=
  cfg.sharedTopics.any (·.transport = transport)

/-- One radio data plane per overlay, and a bare bridge alone on it. -/
def checkTransports (cfg : NodeConfig) : Except String Unit := do
  let transports := [Transport.gatt, .advertisement, .mesh].filter cfg.uses
  require (transports.length ≤ 1)
    ("shared_topics must use exactly one transport mode per overlay; " ++
      "gatt, advertisement, and mesh cannot be mixed")
  require (!cfg.sharedTopics.any (·.advertisementBare) ||
      cfg.sharedTopics.countP (·.transport = .advertisement) = 1)
    "Bare advertisement framing requires exactly one advertisement bridge"

/-- The options that need the ordinary LE server, scanner or connections. -/
def NodeConfig.connects (cfg : NodeConfig) : Bool :=
  cfg.autoConnectEnable || cfg.autoPair || cfg.autoTrust || cfg.enableTimeService ||
    cfg.enableWifiService || cfg.enableSerialPortProfile || !cfg.gattProfileUuids.isEmpty

/-- The switches of the controller must suit the bridges. -/
def checkController (cfg : NodeConfig) : Except String Unit := do
  require (!cfg.uses .mesh || cfg.enableMesh) "mesh shared_topics require enable_mesh: true"
  require (!((cfg.uses .gatt || cfg.uses .advertisement) && cfg.enableMesh))
    "enable_mesh cannot be combined with gatt or advertisement shared_topics"
  require (cfg.enableServer || !cfg.sharedTopics.any fun bridge =>
      bridge.transport = .advertisement && (bridge.mode = .export || bridge.mode = .both))
    "advertisement export bridges require enable_server: true"
  require (cfg.enableScan || !cfg.sharedTopics.any fun bridge =>
      bridge.transport = .advertisement && (bridge.mode = .import || bridge.mode = .both))
    "advertisement import bridges require enable_scan: true"
  require (!(cfg.advertiseMode = "broadcast" && cfg.connects))
    ("broadcast advertisement overlays must disable auto-connect, " ++
      "pairing/trust, Wi-Fi/time GATT services, SPP, and GATT profiles")
  require (!(cfg.advertiseMode = "broadcast" && cfg.uses .gatt))
    "GATT shared_topics cannot use advertise_mode: broadcast"
  require (!(cfg.enableMesh && (cfg.enableServer || cfg.enableScan || cfg.connects)))
    ("Mesh mode requires exclusive controller ownership: disable the " ++
      "ordinary LE server/scanner, pairing/trust, GATT services/profiles, " ++
      "SPP, and automatic GATT connections")
  require (!cfg.meshSwarmAutoProvisioning || !cfg.sharedTopics.any fun bridge =>
      bridge.transport = .mesh && bridge.meshCompanyId = cfg.meshCompanyId &&
        bridge.meshVendorOpcode = 0xc0)
    ("Mesh vendor opcode 0xc0 at mesh_company_id is reserved for " ++
      "automatic provisioning heartbeats")

/-- Every field but the shared topics. -/
def readNode (doc : Node) (hostname : String) : Except String NodeConfig := do
  let cfg ← readService doc hostname {}
  let cfg ← readMesh doc cfg
  let cfg ← readSwarm doc hostname cfg
  let cfg ← applyAutoProvisioning hostname cfg
  let cfg ← readIdentity doc hostname cfg
  let cfg ← readAgent doc cfg
  let cfg ← readConnections doc cfg
  let cfg ← readAdvertisement doc hostname cfg
  return exclusiveMesh cfg

/-- The surroundings of the entries: the configured pattern wins over the caller's. -/
def topicContext (regexMatch : String → String → Bool) (hostname pattern : String)
    (cfg : NodeConfig) : TopicContext :=
  { regexMatch := regexMatch
    hostname := hostname
    pattern := if cfg.autoConnectPattern = "" then pattern else cfg.autoConnectPattern
    config := cfg }

/-- Convert merged YAML into a validated configuration. -/
def parseNodeConfig (regexMatch : String → String → Bool) (doc : Node)
    (hostname pattern : String) : Except String NodeConfig := do
  require (hostname ≠ "") "hostname must be provided by the launch file"
  require doc.isMap "Node configuration must be a YAML map"
  checkMeshOptions doc.entries
  let cfg ← readNode doc hostname
  let topics ← parseSharedTopics (topicContext regexMatch hostname pattern cfg) doc
  let cfg := { cfg with sharedTopics := topics }
  checkTransports cfg
  checkController cfg
  return cfg

/-! ## What the loader ensures -/

section

variable {regexMatch : String → String → Bool} {doc : Node} {hostname pattern : String}
  {cfg cfg' : NodeConfig}

/-- The bridges of an accepted document, and the checks across them. -/
theorem parseNodeConfig_spec (h : parseNodeConfig regexMatch doc hostname pattern = .ok cfg) :
    ∃ base, readNode doc hostname = .ok base ∧
      cfg = { base with sharedTopics := cfg.sharedTopics } ∧
      Loaded (topicContext regexMatch hostname pattern base) (rawTopics doc) cfg.sharedTopics ∧
      checkTransports cfg = .ok () ∧ checkController cfg = .ok () := by
  simp only [parseNodeConfig, bind_eq_ok, require_eq_ok, pure_eq_ok] at h
  obtain ⟨_, _, _, _, _, _, base, hbase, topics, htopics, _, htransports, _, hcontroller, rfl⟩ := h
  exact ⟨base, hbase, rfl, parseSharedTopics_spec htopics, htransports, hcontroller⟩

/-- A section that leaves the pattern of UAV hostnames alone. -/
def KeepsPattern (cfg : NodeConfig) (x : Except String NodeConfig) : Prop :=
  Ensures (fun cfg' => cfg'.autoConnectPattern = cfg.autoConnectPattern) x

theorem keepsPattern_readService : KeepsPattern cfg (readService doc hostname cfg) := by
  unfold readService KeepsPattern
  repeat refine Ensures.bind fun _ => ?_
  exact Ensures.pure rfl

theorem keepsPattern_readMesh : KeepsPattern cfg (readMesh doc cfg) := by
  unfold readMesh KeepsPattern
  repeat refine Ensures.bind fun _ => ?_
  exact Ensures.pure rfl

theorem keepsPattern_readSwarm : KeepsPattern cfg (readSwarm doc hostname cfg) := by
  unfold readSwarm KeepsPattern
  repeat refine Ensures.bind fun _ => ?_
  exact Ensures.pure rfl

theorem keepsPattern_applyAutoProvisioning :
    KeepsPattern cfg (applyAutoProvisioning hostname cfg) := by
  unfold applyAutoProvisioning KeepsPattern
  split
  · refine Ensures.bind fun _ => ?_
    exact Ensures.pure rfl
  · exact Ensures.pure rfl

theorem keepsPattern_readIdentity : KeepsPattern cfg (readIdentity doc hostname cfg) := by
  unfold readIdentity KeepsPattern
  repeat refine Ensures.bind fun _ => ?_
  split
  all_goals
    repeat refine Ensures.bind fun _ => ?_
    exact Ensures.pure rfl

theorem keepsPattern_readAgent : KeepsPattern cfg (readAgent doc cfg) := by
  unfold readAgent KeepsPattern
  repeat refine Ensures.bind fun _ => ?_
  exact Ensures.pure rfl

theorem keepsPattern_readAdvertisement :
    KeepsPattern cfg (readAdvertisement doc hostname cfg) := by
  unfold readAdvertisement KeepsPattern
  repeat refine Ensures.bind fun _ => ?_
  exact Ensures.pure rfl

theorem readConnections_pattern (h : readConnections doc cfg = .ok cfg') :
    str doc "auto_connect_pattern" cfg.autoConnectPattern = .ok cfg'.autoConnectPattern := by
  simp only [readConnections, bind_eq_ok, pure_eq_ok] at h
  obtain ⟨_, _, _, _, pattern, hpattern, _, _, _, _, _, _, _, _, _, _, _, _, _, _, rfl⟩ := h
  exact hpattern

theorem exclusiveMesh_pattern : (exclusiveMesh cfg).autoConnectPattern = cfg.autoConnectPattern := by
  unfold exclusiveMesh
  split <;> rfl

/-- **The pattern of UAV hostnames comes from the document alone.** -/
theorem readNode_pattern (h : readNode doc hostname = .ok cfg) :
    str doc "auto_connect_pattern" ({} : NodeConfig).autoConnectPattern =
      .ok cfg.autoConnectPattern := by
  simp only [readNode, bind_eq_ok, pure_eq_ok] at h
  obtain ⟨service, hservice, mesh, hmesh, swarm, hswarm, auto, hauto, identity, hidentity,
    agent, hagent, connections, hconnections, advertisement, hadvertisement, rfl⟩ := h
  have hkept : agent.autoConnectPattern = ({} : NodeConfig).autoConnectPattern := by
    calc agent.autoConnectPattern = identity.autoConnectPattern :=
          keepsPattern_readAgent _ hagent
      _ = auto.autoConnectPattern := keepsPattern_readIdentity _ hidentity
      _ = swarm.autoConnectPattern := keepsPattern_applyAutoProvisioning _ hauto
      _ = mesh.autoConnectPattern := keepsPattern_readSwarm _ hswarm
      _ = service.autoConnectPattern := keepsPattern_readMesh _ hmesh
      _ = ({} : NodeConfig).autoConnectPattern := keepsPattern_readService _ hservice
  have hread := readConnections_pattern hconnections
  rw [hkept] at hread
  rw [hread, exclusiveMesh_pattern, keepsPattern_readAdvertisement _ hadvertisement]

/-- One transport at most. -/
theorem uses_one (h : checkTransports cfg = .ok ()) {t t' : Transport}
    (ht : cfg.uses t = true) (ht' : cfg.uses t' = true) : t = t' := by
  simp only [checkTransports, bind_eq_ok, require_eq_ok, decide_eq_true_eq] at h
  obtain ⟨_, hone, _⟩ := h
  by_contra hne
  cases hg : cfg.uses .gatt <;> cases ha : cfg.uses .advertisement <;>
    cases hm : cfg.uses .mesh <;> simp [hg, ha, hm] at hone <;>
    cases t <;> cases t' <;> simp_all

/-- **A bare bridge is the only bridge.** -/
theorem bare_alone (h : checkTransports cfg = .ok ())
    (hframed : ∀ topic ∈ cfg.sharedTopics, Framed topic) {topic : SharedTopicConfig}
    (htopic : topic ∈ cfg.sharedTopics) (hbare : topic.advertisementBare = true) :
    cfg.sharedTopics = [topic] := by
  have htransport : ∀ topic ∈ cfg.sharedTopics, cfg.uses topic.transport = true :=
    fun topic htopic => List.any_eq_true.mpr ⟨topic, htopic, decide_eq_true rfl⟩
  have hadvertisement : topic.transport = .advertisement := (hframed topic htopic).bare hbare
  have hall : ∀ other ∈ cfg.sharedTopics, decide (other.transport = .advertisement) = true := by
    intro other hother
    have hone := uses_one h (htransport other hother) (htransport topic htopic)
    exact decide_eq_true (hone.trans hadvertisement)
  have hcount : cfg.sharedTopics.countP (·.transport = .advertisement) = 1 := by
    simp only [checkTransports, bind_eq_ok, require_eq_ok] at h
    obtain ⟨_, _, hbares⟩ := h
    have hany : cfg.sharedTopics.any (·.advertisementBare) = true :=
      List.any_eq_true.mpr ⟨topic, htopic, hbare⟩
    simpa [hany] using hbares
  rw [List.countP_eq_length.mpr hall] at hcount
  obtain ⟨only, honly⟩ := List.length_eq_one_iff.mp hcount
  rw [honly] at htopic ⊢
  rw [List.mem_singleton.mp htopic]

end

/-- A document with some shared topics, on the default options. The byte-sized options are
written out. -/
def topicsDocument (topics : List Node) : Node :=
  .map [(.scalar "mesh_default_ttl", .scalar "127"),
    (.scalar "mesh_relay_retransmit_count", .scalar "1"),
    (.scalar "mesh_relay_retransmit_interval_steps", .scalar "2"),
    (.scalar "mesh_network_retransmit_count", .scalar "1"),
    (.scalar "mesh_network_retransmit_interval_steps", .scalar "19"),
    (.scalar "shared_topics", .sequence topics)]

end UavBluetooth.Config
