import UavBluetooth.Config.NodeConfig
import UavBluetooth.Lib.Greedy

set_option autoImplicit false

/-! # Packing service UUIDs into an advertisement

`refresh_advertisement_registration` estimates the primary packet without service UUIDs, subtracts
one header, and takes service UUIDs while their raw bytes fit. The packet groups the UUIDs by
width and has a header for every group, so a selection of several widths can exceed the limit
(`Crowded`).
-/

namespace UavBluetooth.App

open Config

/-! ## Sizes -/

def advFlagsBytes : Nat := 3

/-- Include the field header when calculating one encoded advertising structure. -/
def advertisingStructureSize (payloadBytes : Nat) : Nat :=
  if payloadBytes = 0 then 0 else 2 + payloadBytes

/-- The compressed advertising width supported for this UUID. -/
def advertisingUuidSize (uuid : String) : Nat :=
  let compact := String.ofList (uuid.toList.filter (· ≠ '-'))
  if compact.utf8ByteSize = 4 then 2
  else if compact.utf8ByteSize = 8 then 4
  else 16

/-- The raw bytes of the UUIDs of each width. -/
structure UuidBytes where
  short : Nat
  medium : Nat
  long : Nat

def addUuid (bytes : UuidBytes) (uuid : String) : UuidBytes :=
  match advertisingUuidSize uuid with
  | 2 => { bytes with short := bytes.short + 2 }
  | 4 => { bytes with medium := bytes.medium + 4 }
  | _ => { bytes with long := bytes.long + 16 }

/-- Encoded bytes for UUID groups. -/
def advertisingUuidListSize (uuids : List String) : Nat :=
  let bytes := uuids.foldl addUuid ⟨0, 0, 0⟩
  advertisingStructureSize bytes.short + advertisingStructureSize bytes.medium +
    advertisingStructureSize bytes.long

def advertisingServiceDataSize (serviceData : Std.ExtTreeMap String Bytes) : Nat :=
  serviceData.foldl (fun total uuid payload =>
    total + advertisingStructureSize (advertisingUuidSize uuid + payload.length)) 0

def advertisingManufacturerDataSize (manufacturerData : Std.ExtTreeMap Nat Bytes) : Nat :=
  manufacturerData.foldl (fun total _ payload =>
    total + advertisingStructureSize (2 + payload.length)) 0

def advertisingGenericDataSize (advertisingData : Std.ExtTreeMap Nat Bytes) : Nat :=
  advertisingData.foldl (fun total _ payload =>
    total + advertisingStructureSize payload.length) 0

/-- All encoded structures competing for primary advertisement space. -/
def estimatePrimaryAdvertisementBytes (localName : String) (cfg : NodeConfig)
    (advertisingData : Std.ExtTreeMap Nat Bytes) (nameInPrimary : Bool) : Nat :=
  let name :=
    if nameInPrimary && localName ≠ "" then advertisingStructureSize localName.utf8ByteSize else 0
  let txPower := if "tx-power" ∈ cfg.advertiseIncludes then advertisingStructureSize 1 else 0
  let appearance :=
    if cfg.advertiseAppearance.isSome || decide ("appearance" ∈ cfg.advertiseIncludes) then
      advertisingStructureSize 2
    else 0
  advFlagsBytes + name + advertisingUuidListSize cfg.advertiseSolicitUuids +
    advertisingManufacturerDataSize cfg.advertiseManufacturerData +
    advertisingServiceDataSize cfg.advertiseServiceData +
    advertisingGenericDataSize advertisingData + txPower + appearance

/-! ## The selection -/

/-- A subtraction of unsigned numbers, unless it would wrap. -/
def checkedSub (a b : Nat) : Option Nat := if b ≤ a then some (a - b) else none

/-- What the caller leaves for service UUIDs. -/
def remainingUuidPayloadBytes (estimatedPrimaryBytes maxBytes : Nat) : Option Nat :=
  if maxBytes ≤ estimatedPrimaryBytes + 2 then some 0
  else (checkedSub maxBytes estimatedPrimaryBytes).bind fun rest => checkedSub rest 2

/-- Keep the ordered service UUID prefix that fits in the primary packet. -/
def selectAdvertisedServiceUuids (serviceUuids : List String) (remaining : Nat) : List String :=
  if remaining = 0 then [] else Greedy.take advertisingUuidSize remaining 0 serviceUuids

/-! ## The size of a list -/

/-- How many of the UUIDs have this width. -/
def ofWidth (width : Nat) (uuids : List String) : Nat :=
  uuids.countP fun uuid => advertisingUuidSize uuid = width

/-- How many widths the UUIDs have, which is how many groups and headers the packet has. -/
def widthGroups (uuids : List String) : Nat :=
  ([2, 4, 16].filter fun width => uuids.any fun uuid => advertisingUuidSize uuid = width).length

/-- The raw bytes of the UUIDs. -/
def rawUuidBytes (uuids : List String) : Nat := Greedy.total advertisingUuidSize uuids

section

variable {uuid : String} {uuids : List String}

theorem advertisingUuidSize_cases (uuid : String) :
    advertisingUuidSize uuid = 2 ∨ advertisingUuidSize uuid = 4 ∨ advertisingUuidSize uuid = 16 := by
  simp only [advertisingUuidSize]
  split
  · exact Or.inl rfl
  · split
    · exact Or.inr (Or.inl rfl)
    · exact Or.inr (Or.inr rfl)

theorem foldl_addUuid (uuids : List String) : ∀ bytes : UuidBytes,
    uuids.foldl addUuid bytes =
      ⟨bytes.short + 2 * ofWidth 2 uuids, bytes.medium + 4 * ofWidth 4 uuids,
        bytes.long + 16 * ofWidth 16 uuids⟩ := by
  induction uuids with
  | nil => intro bytes; simp [ofWidth]
  | cons uuid uuids ih =>
      intro bytes
      rw [List.foldl_cons, ih]
      simp only [ofWidth, List.countP_cons, addUuid]
      rcases advertisingUuidSize_cases uuid with h | h | h <;>
        (simp only [h]; norm_num; omega)

theorem rawUuidBytes_eq (uuids : List String) :
    rawUuidBytes uuids = 2 * ofWidth 2 uuids + 4 * ofWidth 4 uuids + 16 * ofWidth 16 uuids := by
  unfold rawUuidBytes
  induction uuids with
  | nil => simp [ofWidth]
  | cons uuid uuids ih =>
      rw [Greedy.total_cons, ih]
      simp only [ofWidth, List.countP_cons]
      rcases advertisingUuidSize_cases uuid with h | h | h <;>
        (simp only [h]; norm_num; omega)

theorem any_eq_decide (width : Nat) (uuids : List String) :
    (uuids.any fun uuid => advertisingUuidSize uuid = width) = decide (0 < ofWidth width uuids) := by
  rw [Bool.eq_iff_iff, decide_eq_true_eq, ofWidth, List.countP_pos_iff, List.any_eq_true]

theorem advertisingStructureSize_mul {width count : Nat} (hwidth : 0 < width) :
    advertisingStructureSize (width * count) =
      width * count + 2 * (if 0 < count then 1 else 0) := by
  unfold advertisingStructureSize
  by_cases hcount : 0 < count
  · have hpos := Nat.mul_pos hwidth hcount
    rw [if_neg (by omega), if_pos hcount]
    omega
  · have hzero : count = 0 := by omega
    subst hzero
    simp

theorem widthGroups_eq (uuids : List String) :
    widthGroups uuids = (if 0 < ofWidth 2 uuids then 1 else 0) +
      (if 0 < ofWidth 4 uuids then 1 else 0) + (if 0 < ofWidth 16 uuids then 1 else 0) := by
  unfold widthGroups
  simp only [any_eq_decide, List.filter_cons, List.filter_nil, decide_eq_true_eq]
  split_ifs <;> rfl

theorem widthGroups_le_of_prefix {p : List String} (h : p <+: uuids) :
    widthGroups p ≤ widthGroups uuids := by
  have hwidth : ∀ width, ofWidth width p ≤ ofWidth width uuids :=
    fun width => h.sublist.countP_le
  have htwo := hwidth 2
  have hfour := hwidth 4
  have hsixteen := hwidth 16
  rw [widthGroups_eq, widthGroups_eq]
  split_ifs <;> omega

theorem two_le_rawUuidBytes (h : uuids ≠ []) : 2 ≤ rawUuidBytes uuids := by
  obtain ⟨uuid, rest, rfl⟩ := List.exists_cons_of_ne_nil h
  rw [rawUuidBytes, Greedy.total_cons]
  rcases advertisingUuidSize_cases uuid with hsize | hsize | hsize <;> omega

theorem one_le_widthGroups (h : uuids ≠ []) : 1 ≤ widthGroups uuids := by
  obtain ⟨uuid, rest, rfl⟩ := List.exists_cons_of_ne_nil h
  have hpos : 0 < ofWidth (advertisingUuidSize uuid) (uuid :: rest) := by
    rw [ofWidth, List.countP_pos_iff]
    exact ⟨uuid, List.mem_cons_self, by simp⟩
  rw [widthGroups_eq]
  rcases advertisingUuidSize_cases uuid with hsize | hsize | hsize <;>
    (rw [hsize] at hpos; simp only [hpos, if_true]; omega)

/-- **The packet has the raw bytes and one header for each width.** -/
theorem advertisingUuidListSize_eq (uuids : List String) :
    advertisingUuidListSize uuids = rawUuidBytes uuids + 2 * widthGroups uuids := by
  simp only [advertisingUuidListSize, foldl_addUuid, Nat.zero_add]
  rw [rawUuidBytes_eq, widthGroups_eq, advertisingStructureSize_mul (by decide),
    advertisingStructureSize_mul (by decide), advertisingStructureSize_mul (by decide)]
  omega

end

/-! ## The packet -/

/-- The selection is the longest prefix that fits the packet, and its budget is computed without a
subtraction that wraps. -/
def Packs (estimated maxBytes : Nat) (serviceUuids : List String) : Prop :=
  ∃ remaining, remainingUuidPayloadBytes estimated maxBytes = some remaining ∧
    (estimated ≤ maxBytes →
      let selected := selectAdvertisedServiceUuids serviceUuids remaining
      selected <+: serviceUuids ∧ estimated + advertisingUuidListSize selected ≤ maxBytes ∧
        ∀ longer, longer <+: serviceUuids → selected.length < longer.length →
          maxBytes < estimated + advertisingUuidListSize longer)

/-- Some prefix fits with one header but not with a header for each of its widths. -/
def Crowded (estimated maxBytes : Nat) (serviceUuids : List String) : Prop :=
  ∃ p, p <+: serviceUuids ∧ estimated + 2 + rawUuidBytes p ≤ maxBytes ∧
    maxBytes < estimated + rawUuidBytes p + 2 * widthGroups p

section

variable {estimated maxBytes : Nat} {serviceUuids : List String}

/-- Without room for a header and a byte there is no room for a UUID. -/
theorem packs_of_full (h : maxBytes ≤ estimated + 2) : Packs estimated maxBytes serviceUuids := by
  refine ⟨0, if_pos h, fun hle => ⟨List.nil_prefix, hle, fun longer _ hlonger => ?_⟩⟩
  have hne : longer ≠ [] := List.length_pos_iff.mp hlonger
  have hraw := two_le_rawUuidBytes hne
  have hgroups := one_le_widthGroups hne
  rw [advertisingUuidListSize_eq]
  omega

theorem not_crowded_of_full (h : maxBytes ≤ estimated + 2) :
    ¬ Crowded estimated maxBytes serviceUuids := by
  rintro ⟨p, -, hfits, hover⟩
  by_cases hnil : p = []
  · subst hnil
    have hzero : widthGroups [] = 0 := rfl
    omega
  · have hraw := two_le_rawUuidBytes hnil
    omega

theorem packs_iff_of_room (h : ¬ maxBytes ≤ estimated + 2) :
    Packs estimated maxBytes serviceUuids ↔ ¬ Crowded estimated maxBytes serviceUuids := by
  have hremaining : remainingUuidPayloadBytes estimated maxBytes =
      some (maxBytes - estimated - 2) := by
    rw [remainingUuidPayloadBytes, if_neg h, checkedSub, if_pos (by omega), Option.bind_some,
      checkedSub, if_pos (by omega)]
  have hselect : selectAdvertisedServiceUuids serviceUuids (maxBytes - estimated - 2) =
      Greedy.take advertisingUuidSize (maxBytes - estimated - 2) 0 serviceUuids :=
    if_neg (by omega)
  constructor
  · rintro ⟨remaining, hsome, hpacks⟩ ⟨p, hp, hfits, hover⟩
    cases hremaining.symm.trans hsome
    obtain ⟨-, hsize, -⟩ := hpacks (by omega)
    rw [hselect, advertisingUuidListSize_eq] at hsize
    -- The prefix is part of the selection, which then has no fewer bytes and groups.
    have hpart := (Greedy.prefix_take_iff hp (Nat.zero_le (maxBytes - estimated - 2))).mp
      (show 0 + rawUuidBytes p ≤ maxBytes - estimated - 2 by omega)
    have hraw : rawUuidBytes p ≤ rawUuidBytes _ := Greedy.total_le_of_prefix hpart
    have hgroups := widthGroups_le_of_prefix hpart
    omega
  · intro hcrowded
    refine ⟨_, hremaining, fun _ => ?_⟩
    simp only
    rw [hselect]
    have hused := Nat.zero_le (maxBytes - estimated - 2)
    refine ⟨Greedy.take_prefix, ?_, fun longer hp hlonger => ?_⟩
    · have hraw : 0 + rawUuidBytes (Greedy.take advertisingUuidSize (maxBytes - estimated - 2) 0
          serviceUuids) ≤ maxBytes - estimated - 2 := Greedy.total_take_le hused
      rw [advertisingUuidListSize_eq]
      by_contra hover
      exact hcrowded ⟨Greedy.take advertisingUuidSize (maxBytes - estimated - 2) 0 serviceUuids,
        Greedy.take_prefix, by omega, by omega⟩
    · have hraw : maxBytes - estimated - 2 < 0 + rawUuidBytes longer :=
        Greedy.lt_total_of_longer hp hused hlonger
      have hgroup : 1 ≤ widthGroups longer :=
        one_le_widthGroups (List.length_pos_iff.mp (Nat.zero_lt_of_lt hlonger))
      rw [advertisingUuidListSize_eq]
      omega

end

/-- **The packed UUIDs are the longest prefix that fits unless some prefix is crowded.** -/
theorem packs_iff (localName : String) (cfg : NodeConfig)
    (advertisingData : Std.ExtTreeMap Nat Bytes) (nameInPrimary : Bool) (maxBytes : Nat)
    (serviceUuids : List String) :
    Packs (estimatePrimaryAdvertisementBytes localName cfg advertisingData nameInPrimary) maxBytes
        serviceUuids ↔
      ¬ Crowded (estimatePrimaryAdvertisementBytes localName cfg advertisingData nameInPrimary)
        maxBytes serviceUuids := by
  by_cases hfull : maxBytes ≤
      estimatePrimaryAdvertisementBytes localName cfg advertisingData nameInPrimary + 2
  · exact iff_of_true (packs_of_full hfull) (not_crowded_of_full hfull)
  · exact packs_iff_of_room hfull

/-- Five UUIDs of 16 bits and one of 128 bits in a legacy packet: they fit with one header. -/
def mixedUuids : List String :=
  ["180a", "180d", "180f", "1819", "181a", "12345678-1234-5678-1234-56789abcdef0"]

/-- The mixed UUIDs are all selected, and the packet exceeds its 31 bytes. -/
theorem not_packs_mixed :
    ¬ Packs (estimatePrimaryAdvertisementBytes "uav1" {} ∅ false) 31 mixedUuids := by
  have hestimated : estimatePrimaryAdvertisementBytes "uav1" {} ∅ false = 3 := by decide +kernel
  rw [hestimated]
  rintro ⟨remaining, hremaining, h⟩
  have hselected : selectAdvertisedServiceUuids mixedUuids 26 = mixedUuids := by decide +kernel
  cases hremaining
  obtain ⟨-, hsize, -⟩ := h (by decide)
  simp only [hselected] at hsize
  exact absurd hsize (by decide +kernel)

end UavBluetooth.App
