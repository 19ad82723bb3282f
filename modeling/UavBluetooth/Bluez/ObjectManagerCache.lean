import UavBluetooth.Lib.ChangeLog
import UavBluetooth.Lib.Run
import UavBluetooth.Bluez.ManagedObjects

set_option autoImplicit false

/-! # The object manager cache

`ObjectManagerCache` keeps the objects of BlueZ in typed maps and tells its observers what comes
and goes. An observer that starts from the maps as they are when it is added, and follows the
notifications, should know the objects in the maps at any later time (`Agrees`).
-/

namespace UavBluetooth.Bluez

open ChangeLog

/-! ## The cache -/

inductive CacheEvent where
  | deviceAdded | deviceRemoved | devicePropertyChanged
  | gattServiceAdded | gattServiceRemoved
  | gattCharacteristicAdded | gattCharacteristicChanged | gattCharacteristicValueChanged
  | gattCharacteristicRemoved
  | gattDescriptorAdded | gattDescriptorChanged | gattDescriptorValueChanged
  | gattDescriptorRemoved
  | adapterChanged
  deriving DecidableEq, Repr

abbrev Notification := CacheEvent × String

/-- The typed maps, by object path. -/
structure Tables where
  adapters : Std.ExtTreeMap String AdapterInfo := ∅
  devices : Std.ExtTreeMap String DeviceInfo := ∅
  gattServices : Std.ExtTreeMap String GattServiceInfo := ∅
  gattCharacteristics : Std.ExtTreeMap String GattCharacteristicInfo := ∅
  gattDescriptors : Std.ExtTreeMap String GattDescriptorInfo := ∅

/-- What an observer has been given since it was added, and the maps at that time. -/
structure Observer where
  seen : Tables
  delivered : List Notification := []

structure ObjectManagerCache where
  tables : Tables := {}
  observers : Std.ExtTreeMap Nat Observer := ∅
  nextObserverToken : Nat := 1

/-- The maps while they are changed, and the notifications to be dispatched afterwards. -/
structure Update where
  tables : Tables
  notifications : List Notification := []

/-- Whether an object lies strictly below a parent. -/
def isChildPath (parentPath candidatePath : String) : Bool :=
  let parent := parentPath.toList
  let candidate := candidatePath.toList
  parent.length < candidate.length && candidate.take parent.length == parent &&
    candidate[parent.length]? == some '/'

section

variable {α : Type}

/-- The paths of a map below a parent. -/
def below (m : Std.ExtTreeMap String α) (path : String) : List String :=
  m.keys.filter (isChildPath path)

end

namespace Update

variable (u : Update)

def record (event : CacheEvent) (path : String) : Update :=
  { u with notifications := u.notifications ++ [(event, path)] }

/-- Report an object that was not there before. -/
def recordNew (known : Bool) (event : CacheEvent) (path : String) : Update :=
  if known then u else u.record event path

def putAdapter (path : String) (adapter : AdapterInfo) : Update :=
  { u with tables := { u.tables with adapters := u.tables.adapters.insert path adapter } }

def putDevice (path : String) (dev : DeviceInfo) : Update :=
  { u with tables := { u.tables with devices := u.tables.devices.insert path dev } }

def putService (path : String) (svc : GattServiceInfo) : Update :=
  { u with tables := { u.tables with gattServices := u.tables.gattServices.insert path svc } }

def putCharacteristic (path : String) (chrc : GattCharacteristicInfo) : Update :=
  { u with
    tables :=
      { u.tables with gattCharacteristics := u.tables.gattCharacteristics.insert path chrc } }

def putDescriptor (path : String) (desc : GattDescriptorInfo) : Update :=
  { u with
    tables := { u.tables with gattDescriptors := u.tables.gattDescriptors.insert path desc } }

def dropAdapter (path : String) : Update :=
  { u with tables := { u.tables with adapters := u.tables.adapters.erase path } }

def dropDevice (path : String) : Update :=
  ({ u with tables := { u.tables with devices := u.tables.devices.erase path } } : Update).record
    .deviceRemoved path

def dropService (path : String) : Update :=
  ({ u with
    tables := { u.tables with gattServices := u.tables.gattServices.erase path } } : Update).record
      .gattServiceRemoved path

def dropCharacteristic (path : String) : Update :=
  ({ u with
    tables := { u.tables with
      gattCharacteristics := u.tables.gattCharacteristics.erase path } } : Update).record
        .gattCharacteristicRemoved path

def dropDescriptor (path : String) : Update :=
  ({ u with
    tables := { u.tables with
      gattDescriptors := u.tables.gattDescriptors.erase path } } : Update).record
        .gattDescriptorRemoved path

def dropServices (paths : List String) : Update := paths.foldl dropService u

def dropCharacteristics (paths : List String) : Update := paths.foldl dropCharacteristic u

def dropDescriptors (paths : List String) : Update := paths.foldl dropDescriptor u

/-! ### `process_object` -/

def processAdapter (path : String) (ifaces : InterfaceMap) : Update :=
  match ifaces[kAdapterIface]? with
  | none => u
  | some props => (u.putAdapter path (parseAdapter path props)).record .adapterChanged path

def processAdvertisingManager (path : String) (ifaces : InterfaceMap) : Update :=
  match ifaces[kLeAdvManagerIface]? with
  | none => u
  | some props =>
      let adapter := u.tables.adapters[path]?.getD { objectPath := path }
      (u.putAdapter path (updateAdvertisingManagerProps adapter props)).record .adapterChanged path

def processDevice (path : String) (ifaces : InterfaceMap) (now : ℚ) : Update :=
  match ifaces[kDeviceIface]? with
  | none => u
  | some props =>
      (u.putDevice path (parseDevice now path props)).recordNew (u.tables.devices.contains path)
        .deviceAdded path

def processService (path : String) (ifaces : InterfaceMap) : Update :=
  match ifaces[kGattServiceIface]? with
  | none => u
  | some props =>
      (u.putService path (parseGattService path props)).recordNew
        (u.tables.gattServices.contains path) .gattServiceAdded path

def processCharacteristic (path : String) (ifaces : InterfaceMap) : Update :=
  match ifaces[kGattCharacteristicIface]? with
  | none => u
  | some props =>
      (u.putCharacteristic path (parseGattCharacteristic path props)).recordNew
        (u.tables.gattCharacteristics.contains path) .gattCharacteristicAdded path

def processDescriptor (path : String) (ifaces : InterfaceMap) : Update :=
  match ifaces[kGattDescriptorIface]? with
  | none => u
  | some props =>
      (u.putDescriptor path (parseGattDescriptor path props)).recordNew
        (u.tables.gattDescriptors.contains path) .gattDescriptorAdded path

def processObject (path : String) (ifaces : InterfaceMap) (now : ℚ) : Update :=
  (((((u.processAdapter path ifaces).processAdvertisingManager path ifaces).processDevice path
    ifaces now).processService path ifaces).processCharacteristic path ifaces).processDescriptor
      path ifaces

def processObjects (objects : List (String × InterfaceMap)) (now : ℚ) : Update :=
  objects.foldl (fun u object => u.processObject object.1 object.2 now) u

/-! ### `remove_interfaces` -/

/-- The payload capacities of an adapter without an advertising manager. -/
def clearAdvertisingManager (path : String) : Update :=
  match u.tables.adapters[path]? with
  | none => u
  | some adapter =>
      (u.putAdapter path { adapter with
        supportedAdvertisingSecondaryChannels := []
        maxAdvertisementLength := 31
        maxScanResponseLength := 31 }).record .adapterChanged path

def removeInterface (path iface : String) : Update :=
  let descriptorPaths := below u.tables.gattDescriptors path
  let characteristicPaths := below u.tables.gattCharacteristics path
  let servicePaths := below u.tables.gattServices path
  if iface = kDeviceIface then
    (((u.dropDescriptors descriptorPaths).dropCharacteristics characteristicPaths).dropServices
      servicePaths).dropDevice path
  else if iface = kGattServiceIface then
    ((u.dropDescriptors descriptorPaths).dropCharacteristics characteristicPaths).dropService path
  else if iface = kGattCharacteristicIface then
    (u.dropDescriptors descriptorPaths).dropCharacteristic path
  else if iface = kGattDescriptorIface then u.dropDescriptor path
  else if iface = kAdapterIface then u.dropAdapter path
  else if iface = kLeAdvManagerIface then u.clearAdvertisingManager path
  else u

def removeInterfaces (path : String) (ifaces : List String) : Update :=
  ifaces.foldl (fun u iface => u.removeInterface path iface) u

/-- The removals of everything in the maps. -/
def removals : List Notification :=
  u.tables.gattDescriptors.keys.map (CacheEvent.gattDescriptorRemoved, ·) ++
    u.tables.gattCharacteristics.keys.map (CacheEvent.gattCharacteristicRemoved, ·) ++
    u.tables.gattServices.keys.map (CacheEvent.gattServiceRemoved, ·) ++
    u.tables.devices.keys.map (CacheEvent.deviceRemoved, ·)

/-- Forget the objects of a daemon that is gone. -/
def invalidate : Update :=
  { tables := {}
    notifications := u.notifications ++ u.removals }

/-! ### `on_properties_changed` -/

/-- Report a change if there is one. -/
def recordIf (changed : Bool) (event : CacheEvent) (path : String) : Update :=
  if changed then u.record event path else u

def changeDevice (path : String) (changed : Properties) (invalidated : List String) (now : ℚ) :
    Update :=
  match u.tables.devices[path]? with
  | none => u
  | some dev =>
      (u.putDevice path (Bluez.changeDevice dev changed invalidated now)).recordIf
        (!changed.isEmpty || invalidated.any advertisedProps.contains) .devicePropertyChanged path

def changeAdapter (path : String) (change : AdapterInfo → AdapterInfo) : Update :=
  match u.tables.adapters[path]? with
  | none => u
  | some adapter => (u.putAdapter path (change adapter)).record .adapterChanged path

def changeCharacteristic (path : String) (changed : Properties) : Update :=
  match u.tables.gattCharacteristics[path]? with
  | none => u
  | some chrc =>
      ((u.putCharacteristic path (changeGattCharacteristic chrc changed)).recordIf
        (["Notifying", "MTU", "Flags"].any changed.contains) .gattCharacteristicChanged
          path).recordIf (changed.contains "Value") .gattCharacteristicValueChanged path

def changeDescriptor (path : String) (changed : Properties) : Update :=
  match u.tables.gattDescriptors[path]? with
  | none => u
  | some desc =>
      ((u.putDescriptor path (changeGattDescriptor desc changed)).recordIf
        (changed.contains "Flags") .gattDescriptorChanged path).recordIf (changed.contains "Value")
          .gattDescriptorValueChanged path

def propertiesChanged (path iface : String) (changed : Properties) (invalidated : List String)
    (now : ℚ) : Update :=
  if iface = kDeviceIface then u.changeDevice path changed invalidated now
  else if iface = kAdapterIface then u.changeAdapter path (Bluez.changeAdapter · changed)
  else if iface = kLeAdvManagerIface then
    u.changeAdapter path (updateAdvertisingManagerProps · changed)
  else if iface = kGattCharacteristicIface then u.changeCharacteristic path changed
  else if iface = kGattDescriptorIface then u.changeDescriptor path changed
  else u

/-! ### `on_interfaces_added` -/

/-- The live timestamp of a device that a signal has announced. -/
def stampDevice (path : String) (ifaces : InterfaceMap) (now : ℚ) : Update :=
  if ifaces.contains kDeviceIface then
    match u.tables.devices[path]? with
    | none => u
    | some dev => u.putDevice path { dev with lastAdvertisementSeen := now }
  else u

def interfacesAdded (path : String) (ifaces : InterfaceMap) (now : ℚ) : Update :=
  (u.processObject path ifaces now).stampDevice path ifaces now

/-! ### `refresh_device_subtree` -/

/-- The cached objects below the device whose paths the snapshot lacks. -/
def dropStale (devicePath : String) (snapshotPaths : List String) : Update :=
  let stale := fun path => !snapshotPaths.contains path
  ((u.dropDescriptors ((below u.tables.gattDescriptors devicePath).filter stale)).dropCharacteristics
    ((below u.tables.gattCharacteristics devicePath).filter stale)).dropServices
      ((below u.tables.gattServices devicePath).filter stale)

end Update

namespace ObjectManagerCache

variable (c : ObjectManagerCache)

/-- `notify` -/
def notify (n : Notification) : ObjectManagerCache :=
  { c with observers := c.observers.map fun _ o => { o with delivered := o.delivered ++ [n] } }

def dispatchNotifications (ns : List Notification) : ObjectManagerCache := ns.foldl notify c

/-- Begin a change of the maps. -/
def update : Update := { tables := c.tables }

/-- Take over the changed maps and dispatch the notifications. -/
def commit (u : Update) : ObjectManagerCache :=
  ({ c with tables := u.tables } : ObjectManagerCache).dispatchNotifications u.notifications

/-- The maps that `start` loads, without a notification; none if the call fails. -/
def loadInitialObjects (snapshot : Option ManagedObjectMap) (now : ℚ) : Tables :=
  match snapshot with
  | none => {}
  | some objects => (({ tables := {} } : Update).processObjects objects.toList now).tables

def reloadManagedObjects (snapshot : Option ManagedObjectMap) (now : ℚ) : ObjectManagerCache :=
  match snapshot with
  | none => c
  | some objects => c.commit (c.update.processObjects objects.toList now)

def onBluezOwnerChanged (previousOwner owner : String) (snapshot : Option ManagedObjectMap)
    (now : ℚ) : ObjectManagerCache :=
  if previousOwner = owner then c
  else
    let c := if previousOwner = "" then c else c.commit c.update.invalidate
    if owner = "" then c else c.reloadManagedObjects snapshot now

/-- Whether an object of a snapshot is the device or below it. -/
def selects (devicePath path : String) : Bool := path == devicePath || isChildPath devicePath path

/-- The objects of a snapshot that a refresh of the device reads. -/
def selected (devicePath : String) (objects : ManagedObjectMap) : List (String × InterfaceMap) :=
  objects.toList.filter fun object => selects devicePath object.1

/-- The changes of the maps that a refresh makes. -/
def refreshTables (devicePath : String) (objects : ManagedObjectMap) (now : ℚ) : Update :=
  (c.update.dropStale devicePath ((selected devicePath objects).map Prod.fst)).processObjects
    (selected devicePath objects) now

/-- Whether an object of a snapshot has a GATT interface. -/
def isGatt (ifaces : InterfaceMap) : Bool :=
  ifaces.contains kGattServiceIface || ifaces.contains kGattCharacteristicIface ||
    ifaces.contains kGattDescriptorIface

def refreshDeviceSubtree (devicePath : String) (snapshot : Option ManagedObjectMap) (now : ℚ) :
    ObjectManagerCache × Bool :=
  if devicePath = "" then (c, false)
  else
    match snapshot with
    | none => (c, false)
    | some objects =>
        let u := c.refreshTables devicePath objects now
        let objects := selected devicePath objects
        -- the maps are changed already, the notifications are lost here
        if objects.length = 0 then ({ c with tables := u.tables }, false)
        else (c.commit u, (objects.filter fun object => isGatt object.2).length ≠ 0)

def addObserver : ObjectManagerCache :=
  { c with
    observers := c.observers.insert c.nextObserverToken { seen := c.tables }
    nextObserverToken := c.nextObserverToken + 1 }

def removeObserver (token : Nat) : ObjectManagerCache :=
  { c with observers := c.observers.erase token }

inductive Action where
  | interfacesAdded (path : String) (ifaces : InterfaceMap) (now : ℚ)
  | interfacesRemoved (path : String) (ifaces : List String)
  | propertiesChanged (path iface : String) (changed : Properties) (invalidated : List String)
      (now : ℚ)
  | ownerChanged (previousOwner owner : String) (snapshot : Option ManagedObjectMap) (now : ℚ)
  | refresh (devicePath : String) (snapshot : Option ManagedObjectMap) (now : ℚ)
  | addObserver
  | removeObserver (token : Nat)

def step : Action → Option ObjectManagerCache
  | .interfacesAdded path ifaces now => some (c.commit (c.update.interfacesAdded path ifaces now))
  | .interfacesRemoved path ifaces => some (c.commit (c.update.removeInterfaces path ifaces))
  | .propertiesChanged path iface changed invalidated now =>
      some (c.commit (c.update.propertiesChanged path iface changed invalidated now))
  | .ownerChanged previousOwner owner snapshot now =>
      some (c.onBluezOwnerChanged previousOwner owner snapshot now)
  | .refresh devicePath snapshot now => some (c.refreshDeviceSubtree devicePath snapshot now).1
  | .addObserver => some c.addObserver
  | .removeObserver token => some (c.removeObserver token)

/-- The cache after `start`. -/
def Initial (c : ObjectManagerCache) : Prop :=
  (∃ snapshot now, c.tables = loadInitialObjects snapshot now) ∧ c.observers = ∅

end ObjectManagerCache

/-! ## What the observers know -/

/-- The kinds of objects that are reported when they come and go. -/
inductive Kind where
  | device | service | characteristic | descriptor
  deriving DecidableEq, Repr

/-- The objects in the maps. -/
def Tables.holds (t : Tables) : Kind → String → Bool
  | .device, path => t.devices.contains path
  | .service, path => t.gattServices.contains path
  | .characteristic, path => t.gattCharacteristics.contains path
  | .descriptor, path => t.gattDescriptors.contains path

def Tables.contents (t : Tables) : Set (Kind × String) := {object | t.holds object.1 object.2 = true}

/-- What a notification says about the objects. -/
def change : Notification → Option (Change (Kind × String))
  | (.deviceAdded, path) => some (.added (.device, path))
  | (.deviceRemoved, path) => some (.removed (.device, path))
  | (.gattServiceAdded, path) => some (.added (.service, path))
  | (.gattServiceRemoved, path) => some (.removed (.service, path))
  | (.gattCharacteristicAdded, path) => some (.added (.characteristic, path))
  | (.gattCharacteristicRemoved, path) => some (.removed (.characteristic, path))
  | (.gattDescriptorAdded, path) => some (.added (.descriptor, path))
  | (.gattDescriptorRemoved, path) => some (.removed (.descriptor, path))
  | _ => none

/-- The objects that an observer knows of. -/
def Observer.view (o : Observer) : Set (Kind × String) :=
  replay o.seen.contents (o.delivered.filterMap change)

namespace ObjectManagerCache

/-- Every observer knows the objects in the maps. -/
def Agrees (c : ObjectManagerCache) : Prop :=
  ∀ (token : Nat) (o : Observer), c.observers[token]? = some o → o.view = c.tables.contents

/-- The GATT objects below a device are those of a snapshot. -/
structure Mirrors (c : ObjectManagerCache) (devicePath : String) (objects : ManagedObjectMap) :
    Prop where
  services : ∀ path, isChildPath devicePath path = true → c.tables.gattServices[path]? =
    (objects[path]?.bind (·[kGattServiceIface]?)).map (parseGattService path)
  characteristics : ∀ path, isChildPath devicePath path = true →
    c.tables.gattCharacteristics[path]? =
      (objects[path]?.bind (·[kGattCharacteristicIface]?)).map (parseGattCharacteristic path)
  descriptors : ∀ path, isChildPath devicePath path = true → c.tables.gattDescriptors[path]? =
    (objects[path]?.bind (·[kGattDescriptorIface]?)).map (parseGattDescriptor path)

section

variable {α : Type}

/-- Each of the map's objects below the device is gone from the snapshot or has kept its
interface there. -/
def keepsKind (m : Std.ExtTreeMap String α) (iface devicePath : String)
    (objects : ManagedObjectMap) : Bool :=
  (below m devicePath).all fun path => objects[path]?.all (·.contains iface)

end

/-- A refresh finds the device or an object below it in its snapshot, unless no GATT object
below it is cached; and no object in the snapshot has lost a GATT interface. -/
def Keeps (c : ObjectManagerCache) : Action → Prop
  | .refresh devicePath (some objects) _ =>
      devicePath ≠ "" →
        (selected devicePath objects ≠ [] ∨
          (below c.tables.gattServices devicePath = [] ∧
            below c.tables.gattCharacteristics devicePath = [] ∧
            below c.tables.gattDescriptors devicePath = [])) ∧
        keepsKind c.tables.gattServices kGattServiceIface devicePath objects = true ∧
        keepsKind c.tables.gattCharacteristics kGattCharacteristicIface devicePath objects = true ∧
        keepsKind c.tables.gattDescriptors kGattDescriptorIface devicePath objects = true
  | _ => True

end ObjectManagerCache

end UavBluetooth.Bluez
