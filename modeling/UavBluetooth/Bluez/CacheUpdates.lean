import UavBluetooth.Bluez.ObjectManagerCache

set_option autoImplicit false

/-! # Changes of the maps

Every change of the maps reports what it adds and removes (`Update.Faithful`), and a refresh
leaves the objects of its snapshot (`getElem?_refresh`).
-/

namespace UavBluetooth.Bluez

open ChangeLog

/-! ## An update reports what it does -/

namespace Update

variable {before : Tables} {u u' : Update}

/-- The notifications so far lead from the maps before to the maps now. -/
def Faithful (before : Tables) (u : Update) : Prop :=
  replay before.contents (u.notifications.filterMap change) = u.tables.contents

/-- Further notifications lead on. -/
theorem Faithful.extend (h : u.Faithful before) (ns : List Notification)
    (hnotes : u'.notifications = u.notifications ++ ns)
    (hleads : replay u.tables.contents (ns.filterMap change) = u'.tables.contents) :
    u'.Faithful before := by
  unfold Faithful at h ⊢
  rw [hnotes, List.filterMap_append, replay_trans h, hleads]

/-- A notification about something else changes nothing. -/
theorem Faithful.silent (h : u.Faithful before) {event : CacheEvent} {path : String}
    (hchange : change (event, path) = none) : (u.record event path).Faithful before := by
  refine h.extend [(event, path)] rfl ?_
  rw [List.filterMap_cons, hchange]
  rfl

/-- An object that was put into the maps is reported, unless it was known. -/
theorem Faithful.put (h : u.Faithful before) {kind : Kind} {path : String} {event : CacheEvent}
    {known : Bool} (hchange : change (event, path) = some (.added (kind, path)))
    (hknown : known = u.tables.holds kind path)
    (hput : u'.tables.contents = insert (kind, path) u.tables.contents)
    (hnotes : u'.notifications = u.notifications) : (u'.recordNew known event path).Faithful before := by
  unfold recordNew
  split
  · rename_i hold
    refine h.extend [] (by rw [hnotes, List.append_nil]) ?_
    have hmem : (kind, path) ∈ u.tables.contents := hknown.symm.trans hold
    rw [hput, Set.insert_eq_of_mem hmem]
    rfl
  · refine h.extend [(event, path)] (by rw [record, hnotes]) ?_
    have hcontents : (u'.record event path).tables.contents = u'.tables.contents := rfl
    rw [hcontents, hput, List.filterMap_cons, hchange]
    exact replay_added _

/-- An object that was dropped from the maps, or was not in them, is reported. -/
theorem Faithful.drop (h : u.Faithful before) {kind : Kind} {path : String} {event : CacheEvent}
    (hchange : change (event, path) = some (.removed (kind, path)))
    (hdrop : u'.tables.contents = u.tables.contents \ {(kind, path)})
    (hnotes : u'.notifications = u.notifications) : (u'.record event path).Faithful before := by
  refine h.extend [(event, path)] (by rw [record, hnotes]) ?_
  have hcontents : (u'.record event path).tables.contents = u'.tables.contents := rfl
  rw [hcontents, hdrop, List.filterMap_cons, hchange]
  exact replay_removed _

/-! ### The parts of an update -/

theorem Faithful.putAdapter (h : u.Faithful before) (path : String) (adapter : AdapterInfo) :
    (u.putAdapter path adapter).Faithful before := h

theorem Faithful.dropAdapter (h : u.Faithful before) (path : String) :
    (u.dropAdapter path).Faithful before := h

theorem mem_contents {t : Tables} {kind : Kind} {path : String} :
    (kind, path) ∈ t.contents ↔ t.holds kind path = true := Iff.rfl

section

variable (path : String)

theorem contents_putDevice (dev : DeviceInfo) :
    (u.putDevice path dev).tables.contents = insert (.device, path) u.tables.contents := by
  ext ⟨kind, path'⟩
  rw [Set.mem_insert_iff, mem_contents, mem_contents]
  cases kind <;> simp [Tables.holds, putDevice, @eq_comm _ path' path]

theorem contents_putService (svc : GattServiceInfo) :
    (u.putService path svc).tables.contents = insert (.service, path) u.tables.contents := by
  ext ⟨kind, path'⟩
  rw [Set.mem_insert_iff, mem_contents, mem_contents]
  cases kind <;> simp [Tables.holds, putService, @eq_comm _ path' path]

theorem contents_putCharacteristic (chrc : GattCharacteristicInfo) :
    (u.putCharacteristic path chrc).tables.contents =
      insert (.characteristic, path) u.tables.contents := by
  ext ⟨kind, path'⟩
  rw [Set.mem_insert_iff, mem_contents, mem_contents]
  cases kind <;> simp [Tables.holds, putCharacteristic, @eq_comm _ path' path]

theorem contents_putDescriptor (desc : GattDescriptorInfo) :
    (u.putDescriptor path desc).tables.contents =
      insert (.descriptor, path) u.tables.contents := by
  ext ⟨kind, path'⟩
  rw [Set.mem_insert_iff, mem_contents, mem_contents]
  cases kind <;> simp [Tables.holds, putDescriptor, @eq_comm _ path' path]

theorem contents_dropDevice :
    (u.dropDevice path).tables.contents = u.tables.contents \ {(.device, path)} := by
  ext ⟨kind, path'⟩
  rw [Set.mem_sdiff, mem_contents, mem_contents]
  cases kind <;> simp [Tables.holds, dropDevice, record, @eq_comm _ path' path, and_comm]

theorem contents_dropService :
    (u.dropService path).tables.contents = u.tables.contents \ {(.service, path)} := by
  ext ⟨kind, path'⟩
  rw [Set.mem_sdiff, mem_contents, mem_contents]
  cases kind <;> simp [Tables.holds, dropService, record, @eq_comm _ path' path, and_comm]

theorem contents_dropCharacteristic :
    (u.dropCharacteristic path).tables.contents = u.tables.contents \ {(.characteristic, path)} := by
  ext ⟨kind, path'⟩
  rw [Set.mem_sdiff, mem_contents, mem_contents]
  cases kind <;> simp [Tables.holds, dropCharacteristic, record, @eq_comm _ path' path, and_comm]

theorem contents_dropDescriptor :
    (u.dropDescriptor path).tables.contents = u.tables.contents \ {(.descriptor, path)} := by
  ext ⟨kind, path'⟩
  rw [Set.mem_sdiff, mem_contents, mem_contents]
  cases kind <;> simp [Tables.holds, dropDescriptor, record, @eq_comm _ path' path, and_comm]

theorem Faithful.dropDevice (h : u.Faithful before) : (u.dropDevice path).Faithful before :=
  h.drop rfl (contents_dropDevice path) rfl

theorem Faithful.dropService (h : u.Faithful before) : (u.dropService path).Faithful before :=
  h.drop rfl (contents_dropService path) rfl

theorem Faithful.dropCharacteristic (h : u.Faithful before) : (u.dropCharacteristic path).Faithful before :=
  h.drop rfl (contents_dropCharacteristic path) rfl

theorem Faithful.dropDescriptor (h : u.Faithful before) : (u.dropDescriptor path).Faithful before :=
  h.drop rfl (contents_dropDescriptor path) rfl

end

theorem Faithful.dropServices (h : u.Faithful before) (paths : List String) :
    (u.dropServices paths).Faithful before := by
  unfold Update.dropServices
  induction paths generalizing u with
  | nil => exact h
  | cons path paths ih => exact ih (h.dropService path)

theorem Faithful.dropCharacteristics (h : u.Faithful before) (paths : List String) :
    (u.dropCharacteristics paths).Faithful before := by
  unfold Update.dropCharacteristics
  induction paths generalizing u with
  | nil => exact h
  | cons path paths ih => exact ih (h.dropCharacteristic path)

theorem Faithful.dropDescriptors (h : u.Faithful before) (paths : List String) :
    (u.dropDescriptors paths).Faithful before := by
  unfold Update.dropDescriptors
  induction paths generalizing u with
  | nil => exact h
  | cons path paths ih => exact ih (h.dropDescriptor path)

/-! ### The entry points -/

section

variable (path : String) (ifaces : InterfaceMap) (now : ℚ)

theorem Faithful.processAdapter (h : u.Faithful before) :
    (u.processAdapter path ifaces).Faithful before := by
  unfold Update.processAdapter
  split
  · exact h
  · exact (h.putAdapter path _).silent rfl

theorem Faithful.processAdvertisingManager (h : u.Faithful before) :
    (u.processAdvertisingManager path ifaces).Faithful before := by
  unfold Update.processAdvertisingManager
  split
  · exact h
  · exact (h.putAdapter path _).silent rfl

theorem Faithful.processDevice (h : u.Faithful before) :
    (u.processDevice path ifaces now).Faithful before := by
  unfold Update.processDevice
  split
  · exact h
  · exact h.put rfl rfl (contents_putDevice path _) rfl

theorem Faithful.processService (h : u.Faithful before) :
    (u.processService path ifaces).Faithful before := by
  unfold Update.processService
  split
  · exact h
  · exact h.put rfl rfl (contents_putService path _) rfl

theorem Faithful.processCharacteristic (h : u.Faithful before) :
    (u.processCharacteristic path ifaces).Faithful before := by
  unfold Update.processCharacteristic
  split
  · exact h
  · exact h.put rfl rfl (contents_putCharacteristic path _) rfl

theorem Faithful.processDescriptor (h : u.Faithful before) :
    (u.processDescriptor path ifaces).Faithful before := by
  unfold Update.processDescriptor
  split
  · exact h
  · exact h.put rfl rfl (contents_putDescriptor path _) rfl

theorem Faithful.processObject (h : u.Faithful before) :
    (u.processObject path ifaces now).Faithful before :=
  (((((h.processAdapter path ifaces).processAdvertisingManager path ifaces).processDevice path
    ifaces now).processService path ifaces).processCharacteristic path ifaces).processDescriptor
      path ifaces

end

theorem Faithful.processObjects (h : u.Faithful before) (objects : List (String × InterfaceMap))
    (now : ℚ) : (u.processObjects objects now).Faithful before := by
  unfold Update.processObjects
  induction objects generalizing u with
  | nil => exact h
  | cons object objects ih => exact ih (h.processObject object.1 object.2 now)

/-- A record that is there already may be replaced without a report. -/
theorem contents_putDevice_of_mem {path : String} {old : DeviceInfo}
    (hold : u.tables.devices[path]? = some old) (dev : DeviceInfo) :
    (u.putDevice path dev).tables.contents = u.tables.contents := by
  rw [contents_putDevice]
  refine Set.insert_eq_of_mem ?_
  exact (Std.ExtTreeMap.contains_eq_isSome_getElem?).trans (by rw [hold]; rfl)

theorem contents_putCharacteristic_of_mem {path : String} {old : GattCharacteristicInfo}
    (hold : u.tables.gattCharacteristics[path]? = some old) (chrc : GattCharacteristicInfo) :
    (u.putCharacteristic path chrc).tables.contents = u.tables.contents := by
  rw [contents_putCharacteristic]
  refine Set.insert_eq_of_mem ?_
  exact (Std.ExtTreeMap.contains_eq_isSome_getElem?).trans (by rw [hold]; rfl)

theorem contents_putDescriptor_of_mem {path : String} {old : GattDescriptorInfo}
    (hold : u.tables.gattDescriptors[path]? = some old) (desc : GattDescriptorInfo) :
    (u.putDescriptor path desc).tables.contents = u.tables.contents := by
  rw [contents_putDescriptor]
  refine Set.insert_eq_of_mem ?_
  exact (Std.ExtTreeMap.contains_eq_isSome_getElem?).trans (by rw [hold]; rfl)

/-- The maps keep their objects, and nothing is reported yet. -/
theorem Faithful.same (h : u.Faithful before) (hnotes : u'.notifications = u.notifications)
    (hcontents : u'.tables.contents = u.tables.contents) : u'.Faithful before := by
  unfold Faithful at h ⊢
  rw [hnotes, hcontents, h]

theorem Faithful.recordIf (h : u.Faithful before) {event : CacheEvent} {path : String}
    (hchange : change (event, path) = none) (changed : Bool) :
    (u.recordIf changed event path).Faithful before := by
  unfold Update.recordIf
  split
  · exact h.silent hchange
  · exact h

theorem Faithful.stampDevice (h : u.Faithful before) (path : String) (ifaces : InterfaceMap)
    (now : ℚ) : (u.stampDevice path ifaces now).Faithful before := by
  unfold Update.stampDevice
  split
  · split
    · exact h
    · rename_i dev hdev
      exact h.same rfl (contents_putDevice_of_mem hdev _)
  · exact h

theorem Faithful.interfacesAdded (h : u.Faithful before) (path : String) (ifaces : InterfaceMap)
    (now : ℚ) : (u.interfacesAdded path ifaces now).Faithful before :=
  (h.processObject path ifaces now).stampDevice path ifaces now

theorem Faithful.clearAdvertisingManager (h : u.Faithful before) (path : String) :
    (u.clearAdvertisingManager path).Faithful before := by
  unfold Update.clearAdvertisingManager
  split
  · exact h
  · exact (h.putAdapter path _).silent rfl

theorem Faithful.removeInterface (h : u.Faithful before) (path iface : String) :
    (u.removeInterface path iface).Faithful before := by
  unfold Update.removeInterface
  dsimp only
  split
  · exact (((h.dropDescriptors _).dropCharacteristics _).dropServices _).dropDevice path
  · split
    · exact ((h.dropDescriptors _).dropCharacteristics _).dropService path
    · split
      · exact (h.dropDescriptors _).dropCharacteristic path
      · split
        · exact h.dropDescriptor path
        · split
          · exact h.dropAdapter path
          · split
            · exact h.clearAdvertisingManager path
            · exact h

theorem Faithful.removeInterfaces (h : u.Faithful before) (path : String) (ifaces : List String) :
    (u.removeInterfaces path ifaces).Faithful before := by
  unfold Update.removeInterfaces
  induction ifaces generalizing u with
  | nil => exact h
  | cons iface ifaces ih => exact ih (h.removeInterface path iface)

theorem Faithful.changeAdapter (h : u.Faithful before) (path : String)
    (change : AdapterInfo → AdapterInfo) : (u.changeAdapter path change).Faithful before := by
  unfold Update.changeAdapter
  split
  · exact h
  · exact (h.putAdapter path _).silent rfl

theorem Faithful.changeDevice (h : u.Faithful before) (path : String) (changed : Properties)
    (invalidated : List String) (now : ℚ) :
    (u.changeDevice path changed invalidated now).Faithful before := by
  unfold Update.changeDevice
  split
  · exact h
  · rename_i dev hdev
    have hput : (u.putDevice path (Bluez.changeDevice dev changed invalidated now)).Faithful
        before := h.same rfl (contents_putDevice_of_mem hdev _)
    exact hput.recordIf rfl _

theorem Faithful.changeCharacteristic (h : u.Faithful before) (path : String)
    (changed : Properties) : (u.changeCharacteristic path changed).Faithful before := by
  unfold Update.changeCharacteristic
  split
  · exact h
  · rename_i chrc hchrc
    have hput : (u.putCharacteristic path (changeGattCharacteristic chrc changed)).Faithful
        before := h.same rfl (contents_putCharacteristic_of_mem hchrc _)
    exact (hput.recordIf rfl _).recordIf rfl _

theorem Faithful.changeDescriptor (h : u.Faithful before) (path : String) (changed : Properties) :
    (u.changeDescriptor path changed).Faithful before := by
  unfold Update.changeDescriptor
  split
  · exact h
  · rename_i desc hdesc
    have hput : (u.putDescriptor path (changeGattDescriptor desc changed)).Faithful
        before := h.same rfl (contents_putDescriptor_of_mem hdesc _)
    exact (hput.recordIf rfl _).recordIf rfl _

theorem Faithful.propertiesChanged (h : u.Faithful before) (path iface : String)
    (changed : Properties) (invalidated : List String) (now : ℚ) :
    (u.propertiesChanged path iface changed invalidated now).Faithful before := by
  unfold Update.propertiesChanged
  split
  · exact h.changeDevice path changed invalidated now
  · split
    · exact h.changeAdapter path _
    · split
      · exact h.changeAdapter path _
      · split
        · exact h.changeCharacteristic path changed
        · split
          · exact h.changeDescriptor path changed
          · exact h

theorem Faithful.dropStale (h : u.Faithful before) (devicePath : String)
    (snapshotPaths : List String) : (u.dropStale devicePath snapshotPaths).Faithful before :=
  ((h.dropDescriptors _).dropCharacteristics _).dropServices _

theorem filterMap_change_removed {event : CacheEvent} {kind : Kind} {paths : List String}
    (hevent : ∀ path, change (event, path) = some (.removed (kind, path))) :
    (paths.map (event, ·)).filterMap change = (paths.map (kind, ·)).map .removed := by
  induction paths with
  | nil => rfl
  | cons path paths ih =>
      rw [List.map_cons, List.filterMap_cons, hevent path, ih]
      rfl

/-- The removals name every object. -/
theorem Faithful.invalidate (h : u.Faithful before) : u.invalidate.Faithful before := by
  refine h.extend u.removals rfl ?_
  have hremovals : u.removals.filterMap change =
      (u.tables.gattDescriptors.keys.map (Kind.descriptor, ·) ++
        u.tables.gattCharacteristics.keys.map (Kind.characteristic, ·) ++
        u.tables.gattServices.keys.map (Kind.service, ·) ++
        u.tables.devices.keys.map (Kind.device, ·)).map .removed := by
    unfold removals
    rw [List.filterMap_append, List.filterMap_append, List.filterMap_append,
      filterMap_change_removed fun _ => rfl, filterMap_change_removed fun _ => rfl,
      filterMap_change_removed fun _ => rfl, filterMap_change_removed fun _ => rfl,
      List.map_append, List.map_append, List.map_append]
  rw [hremovals, replay_map_removed]
  ext ⟨kind, path⟩
  rw [Set.mem_sdiff, mem_contents, mem_contents]
  cases kind <;> simp [Tables.holds, Update.invalidate]

end Update

/-! ## What a refresh makes of one map -/

section

variable {α : Type} {m : Std.ExtTreeMap String α} {path : String}

/-- Drop the objects that a snapshot lacks. -/
def eraseAll (m : Std.ExtTreeMap String α) (paths : List String) : Std.ExtTreeMap String α :=
  paths.foldl (fun m path => m.erase path) m

/-- Take over an object of a snapshot, if it has the interface. -/
def merge (iface : String) (parse : String → Properties → α) (m : Std.ExtTreeMap String α)
    (object : String × InterfaceMap) : Std.ExtTreeMap String α :=
  match object.2[iface]? with
  | none => m
  | some props => m.insert object.1 (parse object.1 props)

theorem getElem?_eraseAll (paths : List String) :
    (eraseAll m paths)[path]? = if path ∈ paths then none else m[path]? := by
  unfold eraseAll
  induction paths generalizing m with
  | nil => rfl
  | cons path' paths ih =>
      rw [List.foldl_cons, ih, Std.ExtTreeMap.getElem?_erase]
      simp only [Std.LawfulEqCmp.compare_eq_iff_eq]
      by_cases hrest : path ∈ paths
      · rw [if_pos hrest, if_pos (List.mem_cons_of_mem _ hrest)]
      · rw [if_neg hrest]
        by_cases hpath : path' = path
        · rw [if_pos hpath, if_pos (hpath ▸ List.mem_cons_self)]
        · rw [if_neg hpath, if_neg]
          intro hmem
          rcases List.mem_cons.mp hmem with heq | hmem
          · exact hpath heq.symm
          · exact hrest hmem

variable {iface : String} {parse : String → Properties → α}

theorem getElem?_merge (object : String × InterfaceMap) :
    (merge iface parse m object)[path]? =
      if object.1 = path then (object.2[iface]?.map (parse path)).or m[path]? else m[path]? := by
  unfold merge
  split
  · rename_i hnone
    rw [hnone]
    exact (ite_self _).symm
  · rename_i props hprops
    simp only [Std.ExtTreeMap.getElem?_insert, Std.LawfulEqCmp.compare_eq_iff_eq]
    split
    · rename_i hpath
      rw [← hpath, hprops]
      rfl
    · rfl

/-- Objects at other paths change nothing. -/
theorem getElem?_foldl_merge_of_notMem {objects : List (String × InterfaceMap)}
    (hpath : path ∉ objects.map Prod.fst) :
    (objects.foldl (merge iface parse) m)[path]? = m[path]? := by
  induction objects generalizing m with
  | nil => rfl
  | cons object objects ih =>
      rw [List.map_cons, List.mem_cons, not_or] at hpath
      rw [List.foldl_cons, ih hpath.2, getElem?_merge, if_neg fun h => hpath.1 h.symm]

/-- The one object at a path decides. -/
theorem getElem?_foldl_merge {objects : List (String × InterfaceMap)} {ifaces : InterfaceMap}
    (hnodup : (objects.map Prod.fst).Nodup) (hmem : (path, ifaces) ∈ objects) :
    (objects.foldl (merge iface parse) m)[path]? =
      (ifaces[iface]?.map (parse path)).or m[path]? := by
  induction objects generalizing m with
  | nil => exact (List.not_mem_nil hmem).elim
  | cons object objects ih =>
      rw [List.map_cons, List.nodup_cons] at hnodup
      rw [List.foldl_cons]
      rcases List.mem_cons.mp hmem with rfl | hrest
      · rw [getElem?_foldl_merge_of_notMem hnodup.1, getElem?_merge, if_pos rfl]
      · have hne : object.1 ≠ path := by
          rintro rfl
          exact hnodup.1 (List.mem_map.mpr ⟨_, hrest, rfl⟩)
        rw [ih hnodup.2 hrest, getElem?_merge, if_neg hne]

theorem mem_below {devicePath : String} :
    path ∈ below m devicePath ↔ path ∈ m ∧ isChildPath devicePath path = true := by
  unfold below
  rw [List.mem_filter, Std.ExtTreeMap.mem_keys]

end

namespace ObjectManagerCache

section

variable {α : Type} {m : Std.ExtTreeMap String α} {path devicePath : String}
  {objects : ManagedObjectMap}

theorem mem_selected {ifaces : InterfaceMap} :
    (path, ifaces) ∈ selected devicePath objects ↔
      objects[path]? = some ifaces ∧ selects devicePath path = true := by
  unfold selected
  rw [List.mem_filter, Std.ExtTreeMap.mem_toList_iff_getElem?_eq_some]

theorem selects_of_isChildPath (h : isChildPath devicePath path = true) :
    selects devicePath path = true := by
  unfold selects
  rw [h, Bool.or_true]

theorem nodup_selected : ((selected devicePath objects).map Prod.fst).Nodup := by
  unfold selected
  have hdistinct := objects.distinct_keys_toList
  refine List.Nodup.sublist (List.filter_sublist.map Prod.fst) ?_
  rw [List.Nodup, List.pairwise_map]
  exact hdistinct.imp fun h heq => h (Std.LawfulEqCmp.compare_eq_iff_eq.mpr heq)

/-- What was dropped and what was taken over leave the objects of the snapshot. -/
theorem getElem?_refresh {iface : String} {parse : String → Properties → α}
    (hkeeps : keepsKind m iface devicePath objects = true)
    (hchild : isChildPath devicePath path = true) :
    ((selected devicePath objects).foldl (merge iface parse)
        (eraseAll m ((below m devicePath).filter fun path =>
          !((selected devicePath objects).map Prod.fst).contains path)))[path]? =
      (objects[path]?.bind (·[iface]?)).map (parse path) := by
  cases hobject : objects[path]? with
  | none =>
      have hout : path ∉ (selected devicePath objects).map Prod.fst := by
        intro hmem
        obtain ⟨⟨_, ifaces⟩, hselected, rfl⟩ := List.mem_map.mp hmem
        rw [(mem_selected.mp hselected).1] at hobject
        cases hobject
      rw [getElem?_foldl_merge_of_notMem hout, getElem?_eraseAll]
      split
      · rfl
      · rename_i hfresh
        rw [List.mem_filter, mem_below, not_and] at hfresh
        refine Std.ExtTreeMap.getElem?_eq_none fun hmem => ?_
        refine hfresh ⟨hmem, hchild⟩ ?_
        rw [Bool.not_eq_true', List.contains_eq_mem]
        exact decide_eq_false hout
  | some ifaces =>
      have hselected : (path, ifaces) ∈ selected devicePath objects :=
        mem_selected.mpr ⟨hobject, selects_of_isChildPath hchild⟩
      rw [getElem?_foldl_merge nodup_selected hselected, Option.bind_some]
      cases hiface : ifaces[iface]? with
      | some props => rfl
      | none =>
          -- no cached object has lost its interface
          rw [Option.map_none, Option.none_or, getElem?_eraseAll]
          split
          · rfl
          · refine Std.ExtTreeMap.getElem?_eq_none fun hmem => ?_
            have hkept := List.all_eq_true.mp hkeeps path (mem_below.mpr ⟨hmem, hchild⟩)
            rw [hobject, Option.all_some, Std.ExtTreeMap.contains_eq_isSome_getElem?, hiface] at hkept
            cases hkept

end

end ObjectManagerCache

end UavBluetooth.Bluez
