import UavBluetooth.Bridge.Configure
import UavBluetooth.Config.Loader

set_option autoImplicit false

/-! # Two validators of one bridge set

The loader and the bridge manager each check the shared topics. On every document that the
loader accepts the channels are distinct and a bare bridge is alone; what the loader does not
look at is the number of advertisement exporters. `validators_agree_iff` is exactly when the
manager configures what the loader accepted.
-/

namespace UavBluetooth.Bridge

open Config Fallible Yaml

/-- What is promised of an accepted bridge set: the manager takes it, at most one bridge
exports into the advertisement, the channels are distinct and a bare bridge is the sole
advertisement bridge. -/
structure Agreed (topics : List SharedTopicConfig) : Prop where
  configures : ∀ (peersPrefix : String) (peerWhitelist : List String) (m : Manager),
    (configure (fun _ => true) topics peersPrefix peerWhitelist m).1 = .ok ()
  exporters : topics.countP advertisementExporter ≤ 1
  channels : ((bridged topics).map fun item => (item.transport, item.channelId)).Nodup
  bare : ∀ item ∈ topics, item.advertisementBare = true →
    topics.filter (fun other => other.transport == .advertisement) = [item]

/-- An entry of the document that exports into the advertisement. -/
def exportsAdvertisement (raw : Node) : Bool :=
  (parseTransport "" raw).toOption == some .advertisement &&
    ((parseMode "" raw).toOption == some .export || (parseMode "" raw).toOption == some .both)

section

variable {context : TopicContext} {raw : Node} {raws : List Node} {topic : SharedTopicConfig}
  {topics : List SharedTopicConfig}

theorem exportsAdvertisement_eq (h : Bridged context raw topic) :
    exportsAdvertisement raw = advertisementExporter topic := by
  unfold exportsAdvertisement advertisementExporter exports
  rw [h.transport, h.mode]
  cases topic.transport <;> cases topic.mode <;> rfl

theorem exporters_eq (h : Loaded context raws topics) :
    raws.countP exportsAdvertisement = topics.countP advertisementExporter :=
  countP_of_forall₂ h.bridged fun _ _ => exportsAdvertisement_eq

/-- Without a bare bridge every bridge of the manager competes for a channel. -/
theorem framed_of_no_bare (hbare : ∀ item ∈ topics, item.advertisementBare = false) :
    topics.filterMap framedKey =
      (bridged topics).map fun item => entryKey item.transport item.channelId := by
  induction topics with
  | nil => rfl
  | cons item rest ih =>
      have hitem : framed item = (item.transport != .gatt) := by
        simp [framed, hbare item List.mem_cons_self]
      have hrest := ih fun other hother => hbare other (List.mem_cons_of_mem _ hother)
      cases hgatt : item.transport != .gatt with
      | true =>
          have hkey : framedKey item = some (entryKey item.transport item.channelId) := by
            rw [framedKey, hitem, hgatt]
            rfl
          rw [List.filterMap_cons_some hkey, hrest]
          simp [bridged, hgatt]
      | false =>
          have hkey : framedKey item = none := by
            rw [framedKey, hitem, hgatt]
            rfl
          rw [List.filterMap_cons_none hkey, hrest]
          simp [bridged, hgatt]

/-- **The channels of accepted bridges are distinct.** -/
theorem channels_nodup {cfg : NodeConfig} (h : Loaded context raws cfg.sharedTopics)
    (htransports : checkTransports cfg = .ok ()) :
    ((bridged cfg.sharedTopics).map fun item => (item.transport, item.channelId)).Nodup := by
  by_cases hbare : ∃ item ∈ cfg.sharedTopics, item.advertisementBare = true
  · obtain ⟨item, hitem, hbare⟩ := hbare
    have hadvertisement := (h.framed item hitem).bare hbare
    rw [bare_alone htransports h.framed hitem hbare]
    simp [bridged, hadvertisement]
  · have hnone : ∀ item ∈ cfg.sharedTopics, item.advertisementBare = false := by
      intro item hitem
      cases hb : item.advertisementBare with
      | true => exact absurd ⟨item, hitem, hb⟩ hbare
      | false => rfl
    have hkeys := h.channels
    rw [framed_of_no_bare hnone] at hkeys
    have hpairs : ((bridged cfg.sharedTopics).map fun item =>
        entryKey item.transport item.channelId) =
        ((bridged cfg.sharedTopics).map fun item => (item.transport, item.channelId)).map
          fun pair => entryKey pair.1 pair.2 := by
      rw [List.map_map]
      rfl
    rw [hpairs] at hkeys
    exact hkeys.of_map _

end

/-! ## Agreement -/

/-- **The loader and the manager agree** on an accepted document exactly when at most one of
its entries exports into the advertisement. -/
theorem validators_agree_iff (regexMatch : String → String → Bool) (doc : Node)
    (hostname pattern : String) (cfg : NodeConfig)
    (h : parseNodeConfig regexMatch doc hostname pattern = .ok cfg) :
    Agreed cfg.sharedTopics ↔ (rawTopics doc).countP exportsAdvertisement ≤ 1 := by
  obtain ⟨base, _, _, hloaded, htransports, _⟩ := parseNodeConfig_spec h
  rw [exporters_eq hloaded]
  constructor
  · exact fun hagreed => hagreed.exporters
  · intro hexporters
    have hchannels := channels_nodup hloaded htransports
    refine ⟨fun peersPrefix peerWhitelist m => ?_, hexporters, hchannels, ?_⟩
    · exact (configure_ok_iff _ _ peersPrefix peerWhitelist m).mpr
        ⟨hexporters, hchannels, fun _ _ => rfl⟩
    · intro item hitem hbare
      have hadvertisement := (hloaded.framed item hitem).bare hbare
      rw [bare_alone htransports hloaded.framed hitem hbare]
      simp [hadvertisement]

/-- An advertisement bridge in the ROS serialisation. -/
def advertisementEntry (topic mode channel : String) : Node :=
  .map [(.scalar "transport", .scalar "advertisement"), (.scalar "mode", .scalar mode),
    (.scalar "export_topic", .scalar topic), (.scalar "channel_id", .scalar channel),
    (.scalar "message_type", .scalar "std_msgs/msg/Empty"),
    (.scalar "payload_format", .scalar "ros2")]

/-- The outcome of loading a document on one host that recognises no other. -/
def loadOn (doc : Node) : Except String NodeConfig :=
  parseNodeConfig (fun _ _ => false) doc "uav1" ""

def exporterAndImporterDocument : Node :=
  topicsDocument [advertisementEntry "/a" "export" "1", advertisementEntry "/b" "import" "2"]

/-- One exporter and one importer: both validators accept. -/
theorem validators_agree_iff_exporter_importer :
    ∃ cfg, loadOn exporterAndImporterDocument = .ok cfg ∧ cfg.sharedTopics.length = 2 ∧
      Agreed cfg.sharedTopics := by
  have haccepted : (loadOn exporterAndImporterDocument).toOption.any
      (fun cfg => cfg.sharedTopics.length == 2) = true := by decide +kernel
  have hexporters : (rawTopics exporterAndImporterDocument).countP exportsAdvertisement ≤ 1 := by
    decide +kernel
  obtain ⟨cfg, hcfg, hlength⟩ := exists_ok_of_any haccepted
  exact ⟨cfg, hcfg, beq_iff_eq.mp hlength,
    (validators_agree_iff _ _ _ _ _ hcfg).mpr hexporters⟩

def twoExportersDocument : Node :=
  topicsDocument [advertisementEntry "/a" "both" "1", advertisementEntry "/b" "both" "2"]

/-- Two framed bridges that export on channels of their own pass the loader, and the manager
refuses them. -/
theorem validators_disagree :
    ¬ ∀ (regexMatch : String → String → Bool) (doc : Node) (hostname pattern : String)
      (cfg : NodeConfig), parseNodeConfig regexMatch doc hostname pattern = .ok cfg →
        Agreed cfg.sharedTopics := by
  intro hagreed
  have hrefused : (loadOn twoExportersDocument).toOption.any (fun cfg =>
      (configure (fun _ => true) cfg.sharedTopics "" [] {}).1.toOption.isNone) = true := by
    decide +kernel
  obtain ⟨cfg, hcfg, hnone⟩ := exists_ok_of_any hrefused
  rw [(hagreed _ _ _ _ _ hcfg).configures "" [] {}] at hnone
  cases hnone

end UavBluetooth.Bridge
