import UavBluetooth.Config.Models
import UavBluetooth.Util.Numbers

set_option autoImplicit false

/-! # The node configuration

`NodeConfig` of `config_models.hpp` with its defaults, the record that the loader fills in.
-/

namespace UavBluetooth.Config

open Util

structure NodeConfig where
  /-- Parent path of imported peer topics; the loader expands `~`. -/
  peersPrefix : String := "~/peers"
  scanPublishPeriod : Double := .finite 2
  timeUpdatePeriod : Double := .finite 1
  wifiRefreshPeriod : Double := .finite 2
  autoConnectPeriod : Double := .finite 3
  discoverableTimeout : UInt32 := 0
  autoPair : Bool := true
  autoTrust : Bool := true
  enableTimeService : Bool := true
  enableWifiService : Bool := true
  enableSerialPortProfile : Bool := true
  serialPortChannel : UInt16 := 22
  serialSshdPath : String := "/usr/sbin/sshd"
  enableMesh : Bool := false
  meshAutoAttach : Bool := true
  meshAutoJoin : Bool := false
  meshAutoCreateNetwork : Bool := false
  meshProvisioner : Bool := false
  meshAutoConfigureRelay : Bool := false
  meshDefaultTtl : UInt8 := 127
  meshRelayRetransmitCount : UInt8 := 1
  meshRelayRetransmitIntervalSteps : UInt8 := 2
  meshNetworkRetransmitCount : UInt8 := 1
  meshNetworkRetransmitIntervalSteps : UInt8 := 19
  meshSwarmAutoProvisioning : Bool := false
  /-- Logical application swarm; zero is reserved for "not participating". -/
  meshSwarmId : UInt16 := 1
  meshSwarmParticipating : Bool := true
  meshSwarmStatePath : String := "/var/lib/mrs_uav_bluetooth/swarm-{hostname}.txt"
  /-- "ordered" uses the order of `peerWhitelist`; a hostname has live priority. -/
  meshProvisionerPreference : String := "ordered"
  meshSwarmStartupGrace : Double := .finite 5
  meshSwarmHeartbeatPeriod : Double := .finite 1
  meshSwarmProvisionerTimeout : Double := .finite 20
  meshSwarmGroupAddress : UInt16 := 0xc000
  meshSwarmNetworkIndex : UInt16 := 0
  meshSwarmAppKeyIndex : UInt16 := 0
  meshUnicastCursorPath : String :=
    "/var/lib/mrs_uav_bluetooth/mesh-unicast-{hostname}.cursor"
  meshDeviceUuid : String := ""
  meshToken : UInt64 := 0
  meshTokenPath : String := "/var/lib/mrs_uav_bluetooth/mesh-{hostname}.token"
  meshCompanyId : UInt16 := 0x05f1
  meshProductId : UInt16 := 1
  meshVersionId : UInt16 := 1
  meshCrpl : UInt16 := 100
  meshVendorModelId : UInt16 := 1
  meshNextUnicast : UInt16 := 0x0100
  meshAgentCapabilities : List String := []
  meshAgentOobInfo : List String := []
  meshAgentStaticOob : Bytes := []
  meshAgentPrivateKey : Bytes := []
  meshAgentPublicKey : Bytes := []
  meshAgentNumericOob : UInt32 := 0
  meshAgentUri : String := ""
  gattProfileUuids : List String := []
  autoConnectEnable : Bool := false
  /-- Admission policy of all transports; an empty list permits every peer. -/
  peerWhitelist : List String := []
  autoConnectPattern : String := "^uav[0-9]\x7b1,5\x7d$"
  peerConnectionTimeout : Double := .finite 30
  wifiNetplanConfigPath : String := "/etc/netplan/01-netcfg.yaml"
  allowedWifiNetworks : List String := []
  statusReportPeriod : Double := .finite 1
  logTopicEnable : Bool := false
  expireConnectionsWithOverlay : Bool := true
  overlayKeepaliveTopicSuffix : String := "overlay_keepalive"
  verboseLogFile : String := ""
  advertiseMode : String := "peripheral"
  advertiseSize : String := "legacy"
  advertiseUpdateStrategy : String := "reregister"
  advertiseLocalName : String := "{hostname}"
  advertiseDiscoverable : Option Bool := none
  advertiseIncludes : List String := []
  advertiseServiceUuids : List String := []
  advertiseSolicitUuids : List String := []
  advertiseManufacturerData : Std.ExtTreeMap Nat Bytes := ∅
  advertiseServiceData : Std.ExtTreeMap String Bytes := ∅
  advertiseData : Std.ExtTreeMap Nat Bytes := ∅
  advertiseScanResponseServiceUuids : List String := []
  advertiseScanResponseManufacturerData : Std.ExtTreeMap Nat Bytes := ∅
  advertiseScanResponseSolicitUuids : List String := []
  advertiseScanResponseServiceData : Std.ExtTreeMap String Bytes := ∅
  advertiseScanResponseData : Std.ExtTreeMap Nat Bytes := ∅
  advertiseAppearance : Option Nat := none
  advertiseDuration : Option Nat := none
  advertiseTimeout : Option Nat := none
  advertiseMinInterval : Option Nat := none
  advertiseMaxInterval : Option Nat := none
  advertiseTxPower : Option Int := none
  advertiseExtraDataTopic : String := "~/le/advertisement"
  pairingAgent : String := "NoInputNoOutput"
  enableServer : Bool := true
  enableScan : Bool := true
  scanMode : String := "le"
  sharedTopics : List SharedTopicConfig := []

end UavBluetooth.Config
