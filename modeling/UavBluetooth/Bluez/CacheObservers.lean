import UavBluetooth.Bluez.CacheUpdates

set_option autoImplicit false

/-! # The cache and its observers

An observer knows the objects in the maps at any time, if no refresh of the cache loses its
notifications or misses an object whose interface is gone (`cache_and_observers_agree`).
-/

namespace UavBluetooth.Bluez

open ChangeLog

/-! ## The cache tells its observers -/

namespace ObjectManagerCache

variable {c : ObjectManagerCache}

theorem tables_dispatchNotifications (ns : List Notification) :
    (c.dispatchNotifications ns).tables = c.tables := by
  unfold dispatchNotifications
  induction ns generalizing c with
  | nil => rfl
  | cons n ns ih =>
      rw [List.foldl_cons, ih]
      rfl

theorem observers_dispatchNotifications (ns : List Notification) (token : Nat) :
    (c.dispatchNotifications ns).observers[token]? =
      c.observers[token]?.map fun o => { o with delivered := o.delivered ++ ns } := by
  unfold dispatchNotifications
  induction ns generalizing c with
  | nil =>
      rw [List.foldl_nil]
      cases c.observers[token]? <;> simp
  | cons n ns ih =>
      rw [List.foldl_cons, ih]
      unfold notify
      rw [Std.ExtTreeMap.getElem?_map, Option.map_map]
      congr 1
      funext o
      simp

theorem tables_commit (u : Update) : (c.commit u).tables = u.tables :=
  tables_dispatchNotifications u.notifications

theorem observers_commit (u : Update) (token : Nat) :
    (c.commit u).observers[token]? =
      c.observers[token]?.map fun o => { o with delivered := o.delivered ++ u.notifications } :=
  observers_dispatchNotifications u.notifications token

theorem view_deliver {o : Observer} {t : Tables} (h : o.view = t.contents) (ns : List Notification) :
    ({ o with delivered := o.delivered ++ ns } : Observer).view =
      replay t.contents (ns.filterMap change) := by
  unfold Observer.view at h ⊢
  rw [List.filterMap_append, replay_trans h]

/-- Whatever a faithful update does, the observers get to know. -/
theorem Agrees.commit (h : c.Agrees) {u : Update} (hu : u.Faithful c.tables) :
    (c.commit u).Agrees := by
  intro token o ho
  rw [observers_commit, Option.map_eq_some_iff] at ho
  obtain ⟨o', ho', rfl⟩ := ho
  rw [view_deliver (h token o' ho'), tables_commit]
  exact hu

theorem faithful_update : c.update.Faithful c.tables := rfl

theorem Agrees.reloadManagedObjects (h : c.Agrees) (snapshot : Option ManagedObjectMap) (now : ℚ) :
    (c.reloadManagedObjects snapshot now).Agrees := by
  unfold ObjectManagerCache.reloadManagedObjects
  split
  · exact h
  · exact h.commit (faithful_update.processObjects _ now)

theorem Agrees.onBluezOwnerChanged (h : c.Agrees) (previousOwner owner : String)
    (snapshot : Option ManagedObjectMap) (now : ℚ) :
    (c.onBluezOwnerChanged previousOwner owner snapshot now).Agrees := by
  unfold ObjectManagerCache.onBluezOwnerChanged
  split
  · exact h
  · have hretired : (if previousOwner = "" then c else c.commit c.update.invalidate).Agrees := by
      split
      · exact h
      · exact h.commit faithful_update.invalidate
    dsimp only
    split
    · exact hretired
    · exact hretired.reloadManagedObjects snapshot now

theorem Agrees.refreshDeviceSubtree (h : c.Agrees) {devicePath : String}
    {snapshot : Option ManagedObjectMap} {now : ℚ}
    (hkeeps : c.Keeps (.refresh devicePath snapshot now)) :
    (c.refreshDeviceSubtree devicePath snapshot now).1.Agrees := by
  unfold ObjectManagerCache.refreshDeviceSubtree
  split
  · exact h
  · rename_i hdevice
    split
    · exact h
    · rename_i objects
      have hfaithful : (c.refreshTables devicePath objects now).Faithful c.tables :=
        (faithful_update.dropStale devicePath _).processObjects _ now
      dsimp only
      split
      · rename_i hnone
        -- nothing was found, and nothing was cached: the maps are as before
        have hempty := List.length_eq_zero_iff.mp hnone
        obtain ⟨hs, hc, hd⟩ := (hkeeps hdevice).1.resolve_left fun hsome => hsome hempty
        have hsame : (c.refreshTables devicePath objects now).tables = c.tables := by
          unfold refreshTables Update.dropStale
          have htables : c.update.tables = c.tables := rfl
          rw [hempty, htables, hs, hc, hd]
          rfl
        intro token o ho
        rw [hsame]
        exact h token o ho
      · exact h.commit hfaithful

/-! ### The maps after a refresh -/

end ObjectManagerCache

namespace Update

section

variable {u : Update} {path : String}

theorem tables_recordNew (known : Bool) (event : CacheEvent) :
    (u.recordNew known event path).tables = u.tables := by
  unfold recordNew
  split <;> rfl

variable {ifaces : InterfaceMap} {now : ℚ}

theorem tables_processAdapter :
    ∃ adapters, (u.processAdapter path ifaces).tables = { u.tables with adapters := adapters } := by
  unfold Update.processAdapter
  split
  · exact ⟨_, rfl⟩
  · exact ⟨_, rfl⟩

theorem tables_processAdvertisingManager : ∃ adapters,
    (u.processAdvertisingManager path ifaces).tables = { u.tables with adapters := adapters } := by
  unfold Update.processAdvertisingManager
  split
  · exact ⟨_, rfl⟩
  · exact ⟨_, rfl⟩

theorem tables_processDevice :
    ∃ devices, (u.processDevice path ifaces now).tables = { u.tables with devices := devices } := by
  unfold Update.processDevice
  split
  · exact ⟨_, rfl⟩
  · exact ⟨_, tables_recordNew _ _⟩

theorem tables_processService : (u.processService path ifaces).tables =
    { u.tables with
      gattServices :=
        merge kGattServiceIface parseGattService u.tables.gattServices (path, ifaces) } := by
  unfold Update.processService merge
  cases hprops : ifaces[kGattServiceIface]? with
  | none => rfl
  | some props => exact tables_recordNew _ _

theorem tables_processCharacteristic : (u.processCharacteristic path ifaces).tables =
    { u.tables with
      gattCharacteristics :=
        merge kGattCharacteristicIface parseGattCharacteristic u.tables.gattCharacteristics
          (path, ifaces) } := by
  unfold Update.processCharacteristic merge
  cases hprops : ifaces[kGattCharacteristicIface]? with
  | none => rfl
  | some props => exact tables_recordNew _ _

theorem tables_processDescriptor : (u.processDescriptor path ifaces).tables =
    { u.tables with
      gattDescriptors :=
        merge kGattDescriptorIface parseGattDescriptor u.tables.gattDescriptors (path, ifaces) } := by
  unfold Update.processDescriptor merge
  cases hprops : ifaces[kGattDescriptorIface]? with
  | none => rfl
  | some props => exact tables_recordNew _ _

/-- An object changes each of the GATT maps by its own interface. -/
theorem tables_processObject : ∃ adapters devices, (u.processObject path ifaces now).tables =
    { adapters := adapters
      devices := devices
      gattServices := merge kGattServiceIface parseGattService u.tables.gattServices (path, ifaces)
      gattCharacteristics := merge kGattCharacteristicIface parseGattCharacteristic
        u.tables.gattCharacteristics (path, ifaces)
      gattDescriptors := merge kGattDescriptorIface parseGattDescriptor u.tables.gattDescriptors
        (path, ifaces) } := by
  obtain ⟨adapters₁, h₁⟩ := @tables_processAdapter u path ifaces
  obtain ⟨adapters, h₂⟩ :=
    @tables_processAdvertisingManager (u.processAdapter path ifaces) path ifaces
  obtain ⟨devices, h₃⟩ := @tables_processDevice
    ((u.processAdapter path ifaces).processAdvertisingManager path ifaces) path ifaces now
  refine ⟨adapters, devices, ?_⟩
  unfold processObject
  rw [tables_processDescriptor, tables_processCharacteristic, tables_processService, h₃, h₂, h₁]

theorem tables_processObjects (objects : List (String × InterfaceMap)) : ∃ adapters devices,
    (u.processObjects objects now).tables =
      { adapters := adapters
        devices := devices
        gattServices := objects.foldl (merge kGattServiceIface parseGattService)
          u.tables.gattServices
        gattCharacteristics := objects.foldl
          (merge kGattCharacteristicIface parseGattCharacteristic) u.tables.gattCharacteristics
        gattDescriptors := objects.foldl (merge kGattDescriptorIface parseGattDescriptor)
          u.tables.gattDescriptors } := by
  unfold processObjects
  induction objects generalizing u with
  | nil => exact ⟨_, _, rfl⟩
  | cons object objects ih =>
      obtain ⟨adapters, devices, hrest⟩ := @ih (u.processObject object.1 object.2 now)
      obtain ⟨_, _, hobject⟩ := @tables_processObject u object.1 object.2 now
      refine ⟨adapters, devices, ?_⟩
      rw [List.foldl_cons, hrest, hobject]
      rfl

theorem tables_dropServices (paths : List String) : (u.dropServices paths).tables =
    { u.tables with gattServices := eraseAll u.tables.gattServices paths } := by
  unfold dropServices eraseAll
  induction paths generalizing u with
  | nil => rfl
  | cons path paths ih => exact @ih (u.dropService path)

theorem tables_dropCharacteristics (paths : List String) : (u.dropCharacteristics paths).tables =
    { u.tables with gattCharacteristics := eraseAll u.tables.gattCharacteristics paths } := by
  unfold dropCharacteristics eraseAll
  induction paths generalizing u with
  | nil => rfl
  | cons path paths ih => exact @ih (u.dropCharacteristic path)

theorem tables_dropDescriptors (paths : List String) : (u.dropDescriptors paths).tables =
    { u.tables with gattDescriptors := eraseAll u.tables.gattDescriptors paths } := by
  unfold dropDescriptors eraseAll
  induction paths generalizing u with
  | nil => rfl
  | cons path paths ih => exact @ih (u.dropDescriptor path)

theorem tables_dropStale (devicePath : String) (snapshotPaths : List String) :
    (u.dropStale devicePath snapshotPaths).tables =
      { u.tables with
        gattServices := eraseAll u.tables.gattServices
          ((below u.tables.gattServices devicePath).filter fun path => !snapshotPaths.contains path)
        gattCharacteristics := eraseAll u.tables.gattCharacteristics
          ((below u.tables.gattCharacteristics devicePath).filter fun path =>
            !snapshotPaths.contains path)
        gattDescriptors := eraseAll u.tables.gattDescriptors
          ((below u.tables.gattDescriptors devicePath).filter fun path =>
            !snapshotPaths.contains path) } := by
  unfold dropStale
  rw [tables_dropServices, tables_dropCharacteristics, tables_dropDescriptors]

end

end Update

namespace ObjectManagerCache

variable {c : ObjectManagerCache}

/-- After a refresh the maps are those of the snapshot, below the device. -/
theorem mirrors_refresh {devicePath : String} {objects : ManagedObjectMap} {now : ℚ}
    (hdevice : devicePath ≠ "") (hkeeps : c.Keeps (.refresh devicePath (some objects) now)) :
    (c.refreshDeviceSubtree devicePath (some objects) now).1.Mirrors devicePath objects := by
  obtain ⟨_, hservices, hcharacteristics, hdescriptors⟩ := hkeeps hdevice
  have htables : (c.refreshDeviceSubtree devicePath (some objects) now).1.tables =
      (c.refreshTables devicePath objects now).tables := by
    unfold ObjectManagerCache.refreshDeviceSubtree
    rw [if_neg hdevice]
    dsimp only
    split
    · rfl
    · exact tables_commit _
  obtain ⟨_, _, hrefresh⟩ := @Update.tables_processObjects
    (c.update.dropStale devicePath ((selected devicePath objects).map Prod.fst)) now
    (selected devicePath objects)
  rw [Update.tables_dropStale] at hrefresh
  have hall := htables.trans hrefresh
  constructor
  · intro path hchild
    rw [hall]
    exact getElem?_refresh hservices hchild
  · intro path hchild
    rw [hall]
    exact getElem?_refresh hcharacteristics hchild
  · intro path hchild
    rw [hall]
    exact getElem?_refresh hdescriptors hchild

/-! ### Runs -/

/-- The observers know the maps, and tokens are not given out twice. -/
structure Orderly (c : ObjectManagerCache) : Prop where
  agrees : c.Agrees
  tokens : ∀ (token : Nat) (o : Observer), c.observers[token]? = some o →
    token < c.nextObserverToken

/-- A step gives every observer the same notifications, and leaves the observers otherwise. -/
structure Notifies (c c' : ObjectManagerCache) (ns : List Notification) : Prop where
  token : c'.nextObserverToken = c.nextObserverToken
  observers : ∀ token : Nat, c'.observers[token]? =
    c.observers[token]?.map fun o => { o with delivered := o.delivered ++ ns }

/-- What is dropped in a step is reported in it, and a refresh makes the maps those of its
snapshot. -/
structure Reconciles (c : ObjectManagerCache) (a : Action) (c' : ObjectManagerCache) : Prop where
  dropped : ∀ (token : Nat) (o o' : Observer), c.observers[token]? = some o →
    c'.observers[token]? = some o' → ∃ ns, o'.delivered = o.delivered ++ ns ∧
      ∀ kind path, c.tables.holds kind path = true → c'.tables.holds kind path = false →
        ∃ n ∈ ns, change n = some (.removed (kind, path))
  mirrors : ∀ devicePath objects now, a = .refresh devicePath (some objects) now →
    devicePath ≠ "" → c'.Mirrors devicePath objects

theorem orderly_initial (h : c.Initial) : c.Orderly where
  agrees token o ho := by
    rw [h.2, Std.ExtTreeMap.getElem?_empty] at ho
    cases ho
  tokens token o ho := by
    rw [h.2, Std.ExtTreeMap.getElem?_empty] at ho
    cases ho

theorem notifies_nil {c' : ObjectManagerCache} (htoken : c'.nextObserverToken = c.nextObserverToken)
    (hobservers : c'.observers = c.observers) : c.Notifies c' [] where
  token := htoken
  observers token := by
    rw [hobservers]
    cases c.observers[token]? <;> simp

theorem Notifies.trans {c' c'' : ObjectManagerCache} {ns ns' : List Notification}
    (h : c.Notifies c' ns) (h' : c'.Notifies c'' ns') : c.Notifies c'' (ns ++ ns') where
  token := h'.token.trans h.token
  observers token := by
    rw [h'.observers, h.observers, Option.map_map]
    congr 1
    funext o
    exact congrArg (Observer.mk o.seen) (List.append_assoc _ _ _)

theorem nextObserverToken_dispatchNotifications (ns : List Notification) :
    (c.dispatchNotifications ns).nextObserverToken = c.nextObserverToken := by
  unfold dispatchNotifications
  induction ns generalizing c with
  | nil => rfl
  | cons n ns ih => exact @ih (c.notify n)

theorem notifies_commit (u : Update) : c.Notifies (c.commit u) u.notifications where
  token := nextObserverToken_dispatchNotifications u.notifications
  observers := observers_commit u

theorem notifies_reloadManagedObjects (snapshot : Option ManagedObjectMap) (now : ℚ) :
    ∃ ns, c.Notifies (c.reloadManagedObjects snapshot now) ns := by
  unfold reloadManagedObjects
  split
  · exact ⟨[], notifies_nil rfl rfl⟩
  · exact ⟨_, notifies_commit _⟩

theorem notifies_onBluezOwnerChanged (previousOwner owner : String)
    (snapshot : Option ManagedObjectMap) (now : ℚ) :
    ∃ ns, c.Notifies (c.onBluezOwnerChanged previousOwner owner snapshot now) ns := by
  unfold onBluezOwnerChanged
  split
  · exact ⟨[], notifies_nil rfl rfl⟩
  · have hretired : ∃ ns,
        c.Notifies (if previousOwner = "" then c else c.commit c.update.invalidate) ns := by
      split
      · exact ⟨[], notifies_nil rfl rfl⟩
      · exact ⟨_, notifies_commit _⟩
    obtain ⟨ns, hretired⟩ := hretired
    dsimp only
    split
    · exact ⟨ns, hretired⟩
    · obtain ⟨ns', hreload⟩ := notifies_reloadManagedObjects snapshot now
      exact ⟨ns ++ ns', hretired.trans hreload⟩

theorem notifies_refreshDeviceSubtree (devicePath : String) (snapshot : Option ManagedObjectMap)
    (now : ℚ) : ∃ ns, c.Notifies (c.refreshDeviceSubtree devicePath snapshot now).1 ns := by
  unfold refreshDeviceSubtree
  split
  · exact ⟨[], notifies_nil rfl rfl⟩
  · split
    · exact ⟨[], notifies_nil rfl rfl⟩
    · dsimp only
      split
      · exact ⟨[], notifies_nil rfl rfl⟩
      · exact ⟨_, notifies_commit _⟩

theorem Orderly.notified {c' : ObjectManagerCache} (h : c.Orderly) {ns : List Notification}
    (hnotifies : c.Notifies c' ns) (hagrees : c'.Agrees) : c'.Orderly where
  agrees := hagrees
  tokens token o ho := by
    rw [hnotifies.observers, Option.map_eq_some_iff] at ho
    obtain ⟨o', ho', _⟩ := ho
    rw [hnotifies.token]
    exact h.tokens token o' ho'

/-- An observer that has heard of everything has heard of what is gone. -/
theorem reported {o : Observer} {ns : List Notification} {t t' : Tables}
    (hbefore : o.view = t.contents)
    (hafter : ({ o with delivered := o.delivered ++ ns } : Observer).view = t'.contents)
    {kind : Kind} {path : String} (hheld : t.holds kind path = true)
    (hdropped : t'.holds kind path = false) :
    ∃ n ∈ ns, change n = some (.removed (kind, path)) := by
  rw [view_deliver hbefore] at hafter
  have hgone : (kind, path) ∉ replay t.contents (ns.filterMap change) := by
    rw [hafter]
    intro hmem
    have hheld' : t'.holds kind path = true := hmem
    rw [hdropped] at hheld'
    cases hheld'
  have hmem : (kind, path) ∈ t.contents := hheld
  exact List.mem_filterMap.mp (removed_mem_of_dropped hmem hgone)

theorem Orderly.dropped {c' : ObjectManagerCache} (h : c.Orderly) {ns : List Notification}
    (hnotifies : c.Notifies c' ns) (hagrees : c'.Agrees) (token : Nat) (o o' : Observer)
    (ho : c.observers[token]? = some o) (ho' : c'.observers[token]? = some o') :
    ∃ ns, o'.delivered = o.delivered ++ ns ∧
      ∀ kind path, c.tables.holds kind path = true → c'.tables.holds kind path = false →
        ∃ n ∈ ns, change n = some (.removed (kind, path)) := by
  have hafter := hagrees token o' ho'
  rw [hnotifies.observers, ho] at ho'
  cases ho'
  exact ⟨ns, rfl, fun kind path hheld hdropped =>
    reported (h.agrees token o ho) hafter hheld hdropped⟩

/-- An observer that stays and a cache that keeps its maps. -/
theorem unchanged {c' : ObjectManagerCache} {a : Action} (htables : c'.tables = c.tables)
    (hobservers : ∀ (token : Nat) (o o' : Observer), c.observers[token]? = some o →
      c'.observers[token]? = some o' → o' = o)
    (hrefresh : ∀ devicePath objects now, a ≠ .refresh devicePath (some objects) now) :
    c.Reconciles a c' where
  dropped token o o' ho ho' := by
    refine ⟨[], by rw [hobservers token o o' ho ho', List.append_nil], ?_⟩
    intro kind path hheld hdropped
    rw [htables, hheld] at hdropped
    cases hdropped
  mirrors devicePath objects now heq := absurd heq (hrefresh devicePath objects now)

theorem Orderly.addObserver (h : c.Orderly) :
    c.addObserver.Orderly ∧ c.Reconciles .addObserver c.addObserver := by
  have hobservers : ∀ token : Nat, c.addObserver.observers[token]? =
      if c.nextObserverToken = token then some { seen := c.tables } else c.observers[token]? := by
    intro token
    simp only [ObjectManagerCache.addObserver, Std.ExtTreeMap.getElem?_insert,
      Std.LawfulEqCmp.compare_eq_iff_eq]
  refine ⟨⟨?_, ?_⟩, unchanged rfl ?_ nofun⟩
  · intro token o ho
    rw [hobservers] at ho
    split at ho
    · cases ho
      rfl
    · exact h.agrees token o ho
  · intro token o ho
    rw [hobservers] at ho
    split at ho
    · rename_i htoken
      exact htoken ▸ Nat.lt_succ_self _
    · exact Nat.lt_succ_of_lt (h.tokens token o ho)
  · intro token o o' ho ho'
    rw [hobservers, if_neg (h.tokens token o ho).ne', ho] at ho'
    exact (Option.some.inj ho').symm

theorem Orderly.removeObserver (h : c.Orderly) (gone : Nat) :
    (c.removeObserver gone).Orderly ∧
      c.Reconciles (.removeObserver gone) (c.removeObserver gone) := by
  have hobservers : ∀ (token : Nat) (o : Observer),
      (c.removeObserver gone).observers[token]? = some o → c.observers[token]? = some o := by
    intro token o ho
    unfold ObjectManagerCache.removeObserver at ho
    rw [Std.ExtTreeMap.getElem?_erase] at ho
    split at ho
    · cases ho
    · exact ho
  refine ⟨⟨?_, ?_⟩, unchanged rfl ?_ nofun⟩
  · exact fun token o ho => h.agrees token o (hobservers token o ho)
  · exact fun token o ho => h.tokens token o (hobservers token o ho)
  · intro token o o' ho ho'
    rw [hobservers token o' ho'] at ho
    exact Option.some.inj ho

/-- One operation keeps the observers informed, as long as its refresh finds its objects. -/
theorem Orderly.step (h : c.Orderly) {a : Action} (hkeeps : c.Keeps a) {c' : ObjectManagerCache}
    (hstep : c.step a = some c') : c'.Orderly ∧ c.Reconciles a c' := by
  have hnotified : ∀ {ns : List Notification}, c.Notifies c' ns → c'.Agrees →
      (∀ devicePath objects now, a = .refresh devicePath (some objects) now →
        devicePath ≠ "" → c'.Mirrors devicePath objects) → c'.Orderly ∧ c.Reconciles a c' :=
    fun hnotifies hagrees hmirrors =>
      ⟨h.notified hnotifies hagrees, h.dropped hnotifies hagrees, hmirrors⟩
  unfold ObjectManagerCache.step at hstep
  cases a with
  | interfacesAdded path ifaces now =>
      obtain rfl := Option.some.inj hstep
      exact hnotified (notifies_commit _)
        (h.agrees.commit (faithful_update.interfacesAdded path ifaces now)) nofun
  | interfacesRemoved path ifaces =>
      obtain rfl := Option.some.inj hstep
      exact hnotified (notifies_commit _)
        (h.agrees.commit (faithful_update.removeInterfaces path ifaces)) nofun
  | propertiesChanged path iface changed invalidated now =>
      obtain rfl := Option.some.inj hstep
      exact hnotified (notifies_commit _) (h.agrees.commit
        (faithful_update.propertiesChanged path iface changed invalidated now)) nofun
  | ownerChanged previousOwner owner snapshot now =>
      obtain rfl := Option.some.inj hstep
      obtain ⟨ns, hnotifies⟩ := notifies_onBluezOwnerChanged previousOwner owner snapshot now
      exact hnotified hnotifies
        (h.agrees.onBluezOwnerChanged previousOwner owner snapshot now) nofun
  | refresh devicePath snapshot now =>
      obtain rfl := Option.some.inj hstep
      obtain ⟨ns, hnotifies⟩ := notifies_refreshDeviceSubtree devicePath snapshot now
      refine hnotified hnotifies (h.agrees.refreshDeviceSubtree hkeeps) ?_
      intro devicePath objects now heq hdevice
      cases heq
      exact mirrors_refresh hdevice hkeeps
  | addObserver =>
      obtain rfl := Option.some.inj hstep
      exact h.addObserver
  | removeObserver token =>
      obtain rfl := Option.some.inj hstep
      exact h.removeObserver token

open Run

/-- **The cache and its observers agree**, as long as every refresh finds its objects: an observer
that follows the notifications knows the objects in the maps, what is dropped is reported, and
after a refresh the GATT objects below the device are those of the snapshot. -/
theorem cache_and_observers_agree (h : ReachableUnder step Keeps Initial c) :
    c.Agrees ∧ ∀ a c', c.Keeps a → c.step a = some c' → c.Reconciles a c' := by
  have horderly : c.Orderly := h.invariant (fun _ => orderly_initial)
    fun c a c' hc hkeeps hstep => (hc.step hkeeps hstep).1
  exact ⟨horderly.agrees, fun a c' hkeeps hstep => (horderly.step hkeeps hstep).2⟩

instance (a : Action) : Decidable (c.Keeps a) := by
  unfold Keeps
  split
  · infer_instance
  · exact inferInstanceAs (Decidable True)

def devicePath : String := "/org/bluez/hci0/dev_1"

/-- An object with one interface. -/
def only (iface : String) : InterfaceMap := (∅ : InterfaceMap).insert iface ∅

/-- A device with a service and a characteristic. -/
def resolved : ManagedObjectMap :=
  (((∅ : ManagedObjectMap).insert devicePath (only kDeviceIface)).insert
    (devicePath ++ "/service1") (only kGattServiceIface)).insert
      (devicePath ++ "/service1/char1") (only kGattCharacteristicIface)

/-- The service is gone, and there is another one. -/
def discovered : ManagedObjectMap :=
  ((∅ : ManagedObjectMap).insert devicePath (only kDeviceIface)).insert
    (devicePath ++ "/service2") (only kGattServiceIface)

/-- The object of the characteristic has lost its interface. -/
def withdrawn : ManagedObjectMap := resolved.insert (devicePath ++ "/service1/char1") ∅

/-- The cache after `start`, with an observer. -/
def observed : ObjectManagerCache :=
  ({ tables := loadInitialObjects (some resolved) 0 } : ObjectManagerCache).addObserver

theorem reachable_observed {ok : ObjectManagerCache → Action → Prop}
    (hok : ∀ c, ok c .addObserver) : ReachableUnder step ok Initial observed :=
  .next (.start ⟨⟨some resolved, 0, rfl⟩, rfl⟩) (hok _) rfl

theorem cache_and_observers_agree_after_refresh :
    ∃ c, exec step observed [.refresh devicePath (some discovered) 1,
        .ownerChanged ":1.5" ":1.9" (some resolved) 2] = some c ∧ c.Agrees ∧
      ∀ a c', c.Keeps a → c.step a = some c' → c.Reconciles a c' := by
  have hcomputed : allowed step (fun c a => decide (c.Keeps a)) observed
      [.refresh devicePath (some discovered) 1, .ownerChanged ":1.5" ":1.9" (some resolved) 2] =
        true := by
    decide +kernel
  obtain ⟨c, hc⟩ : ∃ c, exec step observed [.refresh devicePath (some discovered) 1,
      .ownerChanged ":1.5" ":1.9" (some resolved) 2] = some c := ⟨_, rfl⟩
  exact ⟨c, hc, cache_and_observers_agree ((reachable_observed fun _ => trivial).exec
    (guarded_of_decide hcomputed) hc)⟩

/-- A refresh that does not find the device drops the cached objects without a word, and one that
finds an object without its interface keeps it. -/
theorem refresh_diverges :
    (¬∀ c, Reachable step Initial c → c.Agrees) ∧
      ¬∀ c, Reachable step Initial c → ∀ a c', c.step a = some c' → c.Reconciles a c' := by
  constructor
  · intro hclaim
    have hcomputed : (exec step observed [.refresh devicePath (some ∅) 1]).any (fun c =>
        c.observers[1]?.any (fun o => o.delivered == [] &&
          o.seen.holds .service (devicePath ++ "/service1")) &&
        !c.tables.holds .service (devicePath ++ "/service1")) = true := by
      decide +kernel
    obtain ⟨c, hc, hend⟩ := (Option.any_eq_true _ _).mp hcomputed
    rw [Bool.and_eq_true, Bool.not_eq_true'] at hend
    obtain ⟨o, ho, hseen⟩ := (Option.any_eq_true _ _).mp hend.1
    rw [Bool.and_eq_true, beq_iff_eq] at hseen
    have hview := hclaim c (Reachable.exec (reachable_observed fun _ => trivial) hc) 1 o ho
    unfold Observer.view at hview
    rw [hseen.1] at hview
    have hmem : (Kind.service, devicePath ++ "/service1") ∈ c.tables.contents :=
      hview ▸ (show _ ∈ o.seen.contents from hseen.2)
    exact absurd (hend.2.symm.trans hmem) Bool.false_ne_true
  · intro hclaim
    have hcomputed : (exec step observed [.refresh devicePath (some withdrawn) 1]).any (fun c =>
        c.tables.gattCharacteristics[devicePath ++ "/service1/char1"]?.isSome) = true := by
      decide +kernel
    obtain ⟨c, hc, hend⟩ := (Option.any_eq_true _ _).mp hcomputed
    have hstep : observed.step (.refresh devicePath (some withdrawn) 1) = some c := hc
    have hmirrors := (hclaim observed (reachable_observed fun _ => trivial) _ c hstep).mirrors
      devicePath withdrawn 1 rfl (by decide)
    have hkept := hmirrors.characteristics (devicePath ++ "/service1/char1") (by decide +kernel)
    rw [hkept] at hend
    revert hend
    decide +kernel

end ObjectManagerCache

end UavBluetooth.Bluez
