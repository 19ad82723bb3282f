import Mathlib.Tactic

set_option autoImplicit false

/-! # Managed objects

What `GetManagedObjects` and the signals of BlueZ carry, and the typed records that
`ObjectManagerCache` parses from it. A property that is absent or of another type leaves its
field as it is, or at its default. Points of the steady clock are in seconds, 0 stands for unset.
-/

namespace UavBluetooth.Bluez

/-! ## Interfaces -/

def kAdapterIface : String := "org.bluez.Adapter1"

def kDeviceIface : String := "org.bluez.Device1"

def kGattServiceIface : String := "org.bluez.GattService1"

def kGattCharacteristicIface : String := "org.bluez.GattCharacteristic1"

def kGattDescriptorIface : String := "org.bluez.GattDescriptor1"

def kLeAdvManagerIface : String := "org.bluez.LEAdvertisingManager1"

/-! ## Properties -/

/-- The values of the properties that the cache reads. -/
inductive Variant where
  | string (v : String)
  | strings (v : List String)
  | boolean (v : Bool)
  | byte (v : UInt8)
  | int16 (v : Int16)
  | int32 (v : Int32)
  | uint16 (v : UInt16)
  | uint32 (v : UInt32)
  | bytes (v : List UInt8)
  | path (v : String)
  | byUInt16 (v : List (UInt16 × Variant))
  | byString (v : List (String × Variant))
  | byByte (v : List (UInt8 × Variant))

namespace Variant

def string? : Variant → Option String
  | .string v => some v
  | _ => none

def strings? : Variant → Option (List String)
  | .strings v => some v
  | _ => none

def boolean? : Variant → Option Bool
  | .boolean v => some v
  | _ => none

def byte? : Variant → Option UInt8
  | .byte v => some v
  | _ => none

def int16? : Variant → Option Int16
  | .int16 v => some v
  | _ => none

def int32? : Variant → Option Int32
  | .int32 v => some v
  | _ => none

def uint16? : Variant → Option UInt16
  | .uint16 v => some v
  | _ => none

def uint32? : Variant → Option UInt32
  | .uint32 v => some v
  | _ => none

def bytes? : Variant → Option (List UInt8)
  | .bytes v => some v
  | _ => none

def path? : Variant → Option String
  | .path v => some v
  | _ => none

def byUInt16? : Variant → Option (List (UInt16 × Variant))
  | .byUInt16 v => some v
  | _ => none

def byString? : Variant → Option (List (String × Variant))
  | .byString v => some v
  | _ => none

def byByte? : Variant → Option (List (UInt8 × Variant))
  | .byByte v => some v
  | _ => none

end Variant

abbrev Properties := Std.ExtTreeMap String Variant

abbrev InterfaceMap := Std.ExtTreeMap String Properties

abbrev ManagedObjectMap := Std.ExtTreeMap String InterfaceMap

section

variable {α : Type}

/-- `get_or` -/
def getOr (type : Variant → Option α) (m : Properties) (key : String) (fallback : α) : α :=
  (m[key]?.bind type).getD fallback

def getString (m : Properties) (key : String) : String := getOr Variant.string? m key ""

def getStringVector (m : Properties) (key : String) : List String :=
  getOr Variant.strings? m key []

/-- A text that is read whenever its property is present. -/
def updateString (m : Properties) (key old : String) : String :=
  if m.contains key then getString m key else old

def updateStringVector (m : Properties) (key : String) (old : List String) : List String :=
  if m.contains key then getStringVector m key else old

/-- The entries of a dictionary that are byte strings. -/
def bytesByKey [Ord α] [Std.TransOrd α] (type : Variant → Option (List (α × Variant)))
    (m : Properties) (key : String) (old : Std.ExtTreeMap α (List UInt8)) :
    Std.ExtTreeMap α (List UInt8) :=
  match m[key]?.bind type with
  | none => old
  | some raw =>
      raw.foldl (fun data entry =>
        match entry.2.bytes? with
        | none => data
        | some v => data.insert entry.1 v) ∅

end

/-! ## Records -/

structure AdapterInfo where
  objectPath : String
  address : String := ""
  addressType : String := ""
  name : String := ""
  «alias» : String := ""
  powered : Bool := false
  connectable : Bool := false
  discoverable : Bool := false
  discoverableTimeout : UInt32 := 0
  pairable : Bool := false
  discovering : Bool := false
  uuids : List String := []
  supportedAdvertisingSecondaryChannels : List String := []
  maxAdvertisementLength : UInt8 := 31
  maxScanResponseLength : UInt8 := 31

structure DeviceInfo where
  objectPath : String
  adapter : String := ""
  mac : String := ""
  addressType : String := ""
  name : String := ""
  «alias» : String := ""
  icon : String := ""
  appearance : Int32 := 0
  rssi : Int16 := 0
  txPower : Int16 := 0
  connected : Bool := false
  paired : Bool := false
  bonded : Bool := false
  trusted : Bool := false
  blocked : Bool := false
  servicesResolved : Bool := false
  uuids : List String := []
  manufacturerData : Std.ExtTreeMap UInt16 (List UInt8) := ∅
  serviceData : Std.ExtTreeMap String (List UInt8) := ∅
  advertisingFlags : List UInt8 := []
  advertisingData : Std.ExtTreeMap UInt8 (List UInt8) := ∅
  lastSeen : ℚ := 0
  lastAdvertisementSeen : ℚ := 0

structure GattServiceInfo where
  objectPath : String
  uuid : String := ""
  primary : Bool := true
  devicePath : String := ""
  includes : List String := []

structure GattCharacteristicInfo where
  objectPath : String
  servicePath : String := ""
  uuid : String := ""
  flags : List String := []
  notifying : Bool := false
  mtu : UInt16 := 0
  value : List UInt8 := []

structure GattDescriptorInfo where
  objectPath : String
  characteristicPath : String := ""
  uuid : String := ""
  flags : List String := []
  value : List UInt8 := []

/-! ## Parsers -/

def updateDeviceProps (dev : DeviceInfo) (props : Properties) (now : ℚ) : DeviceInfo :=
  { dev with
    mac := updateString props "Address" dev.mac
    addressType := updateString props "AddressType" dev.addressType
    name := updateString props "Name" dev.name
    «alias» := updateString props "Alias" dev.alias
    icon := updateString props "Icon" dev.icon
    appearance := getOr Variant.int32? props "Appearance" dev.appearance
    rssi := getOr Variant.int16? props "RSSI" dev.rssi
    txPower := getOr Variant.int16? props "TxPower" dev.txPower
    connected := getOr Variant.boolean? props "Connected" dev.connected
    paired := getOr Variant.boolean? props "Paired" dev.paired
    bonded := getOr Variant.boolean? props "Bonded" dev.bonded
    trusted := getOr Variant.boolean? props "Trusted" dev.trusted
    blocked := getOr Variant.boolean? props "Blocked" dev.blocked
    servicesResolved := getOr Variant.boolean? props "ServicesResolved" dev.servicesResolved
    uuids := updateStringVector props "UUIDs" dev.uuids
    manufacturerData := bytesByKey Variant.byUInt16? props "ManufacturerData" dev.manufacturerData
    serviceData := bytesByKey Variant.byString? props "ServiceData" dev.serviceData
    advertisingFlags := getOr Variant.bytes? props "AdvertisingFlags" dev.advertisingFlags
    advertisingData := bytesByKey Variant.byByte? props "AdvertisingData" dev.advertisingData
    adapter := getOr Variant.path? props "Adapter" dev.adapter
    lastSeen := now }

def parseDevice (now : ℚ) (path : String) (props : Properties) : DeviceInfo :=
  { updateDeviceProps { objectPath := path } props now with lastSeen := now }

def parseAdapter (path : String) (props : Properties) : AdapterInfo where
  objectPath := path
  address := getString props "Address"
  addressType := getString props "AddressType"
  name := getString props "Name"
  «alias» := getString props "Alias"
  powered := getOr Variant.boolean? props "Powered" false
  connectable := getOr Variant.boolean? props "Connectable" false
  discoverable := getOr Variant.boolean? props "Discoverable" false
  discoverableTimeout := getOr Variant.uint32? props "DiscoverableTimeout" 0
  pairable := getOr Variant.boolean? props "Pairable" false
  discovering := getOr Variant.boolean? props "Discovering" false
  uuids := getStringVector props "UUIDs"

/-- A length in the capabilities of the advertising manager. -/
def capability (props : Properties) (key : String) (old : UInt8) : UInt8 :=
  match props["SupportedCapabilities"]?.bind Variant.byString? with
  | none => old
  | some capabilities => ((capabilities.lookup key).bind Variant.byte?).getD old

def updateAdvertisingManagerProps (adapter : AdapterInfo) (props : Properties) : AdapterInfo :=
  { adapter with
    supportedAdvertisingSecondaryChannels := updateStringVector props "SupportedSecondaryChannels"
      adapter.supportedAdvertisingSecondaryChannels
    maxAdvertisementLength := capability props "MaxAdvLen" adapter.maxAdvertisementLength
    maxScanResponseLength := capability props "MaxScnRspLen" adapter.maxScanResponseLength }

def parseGattService (path : String) (props : Properties) : GattServiceInfo where
  objectPath := path
  uuid := getString props "UUID"
  primary := getOr Variant.boolean? props "Primary" true
  devicePath := getOr Variant.path? props "Device" ""
  includes := getStringVector props "Includes"

def parseGattCharacteristic (path : String) (props : Properties) : GattCharacteristicInfo where
  objectPath := path
  uuid := getString props "UUID"
  servicePath := getOr Variant.path? props "Service" ""
  flags := getStringVector props "Flags"
  notifying := getOr Variant.boolean? props "Notifying" false
  mtu := getOr Variant.uint16? props "MTU" 0
  value := getOr Variant.bytes? props "Value" []

def parseGattDescriptor (path : String) (props : Properties) : GattDescriptorInfo where
  objectPath := path
  uuid := getString props "UUID"
  characteristicPath := getOr Variant.path? props "Characteristic" ""
  flags := getStringVector props "Flags"
  value := getOr Variant.bytes? props "Value" []

/-! ## The changes that signals bring to a record -/

/-- What the interface of a device invalidates. -/
def invalidateDeviceProp (dev : DeviceInfo) (key : String) : DeviceInfo :=
  if key = "ManufacturerData" then { dev with manufacturerData := ∅ }
  else if key = "ServiceData" then { dev with serviceData := ∅ }
  else if key = "AdvertisingData" then { dev with advertisingData := ∅ }
  else if key = "AdvertisingFlags" then { dev with advertisingFlags := [] }
  else dev

/-- The properties that are seen in an advertisement. -/
def advertisedProps : List String :=
  ["ManufacturerData", "ServiceData", "AdvertisingFlags", "AdvertisingData"]

def changeDevice (dev : DeviceInfo) (changed : Properties) (invalidated : List String) (now : ℚ) :
    DeviceInfo :=
  let dev := updateDeviceProps dev changed now
  let dev :=
    if advertisedProps.any changed.contains then { dev with lastAdvertisementSeen := now } else dev
  invalidated.foldl invalidateDeviceProp dev

def changeAdapter (a : AdapterInfo) (changed : Properties) : AdapterInfo :=
  { a with
    powered := getOr Variant.boolean? changed "Powered" a.powered
    connectable := getOr Variant.boolean? changed "Connectable" a.connectable
    discoverable := getOr Variant.boolean? changed "Discoverable" a.discoverable
    discoverableTimeout := getOr Variant.uint32? changed "DiscoverableTimeout" a.discoverableTimeout
    pairable := getOr Variant.boolean? changed "Pairable" a.pairable
    discovering := getOr Variant.boolean? changed "Discovering" a.discovering
    «alias» := updateString changed "Alias" a.alias }

def changeGattCharacteristic (c : GattCharacteristicInfo) (changed : Properties) :
    GattCharacteristicInfo :=
  { c with
    notifying := getOr Variant.boolean? changed "Notifying" c.notifying
    mtu := getOr Variant.uint16? changed "MTU" c.mtu
    flags := updateStringVector changed "Flags" c.flags
    value := getOr Variant.bytes? changed "Value" c.value }

def changeGattDescriptor (d : GattDescriptorInfo) (changed : Properties) : GattDescriptorInfo :=
  { d with
    flags := updateStringVector changed "Flags" d.flags
    value := getOr Variant.bytes? changed "Value" d.value }

end UavBluetooth.Bluez
