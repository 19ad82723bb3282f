import UavBluetooth.Config.Models
import UavBluetooth.Lib.Fallible
import UavBluetooth.Util.Numbers
import UavBluetooth.Util.Uuid

set_option autoImplicit false

/-! # Device UUIDs of automatic members

The UUID helpers of `mesh_application.cpp`. An automatic member's device UUID begins with a
mark and its UAV number, so that a provisioner knows from an unprovisioned beacon which address
to give.
-/

namespace UavBluetooth.Mesh

open Config Fallible Util

/-- Strip the separators and check for sixteen bytes. -/
def normalizedUuidHex (value : String) : Except String (List Char) := do
  let digits := value.toList.filter (· ≠ '-')
  require (digits.all isHexDigit) "mesh UUID contains a non-hexadecimal character"
  require (digits.length = 32) "mesh UUID must contain exactly 16 bytes"
  return digits.map Char.toLower

/-- A byte for each pair of hexadecimal digits. -/
def hexBytes : List Char → Bytes
  | high :: low :: rest => UInt8.ofNat (ofDigits 16 [high, low]) :: hexBytes rest
  | _ => []

def meshUuidFromString (value : String) : Except String Bytes := do
  return hexBytes (← normalizedUuidHex value)

/-- A name-based UUID of version 3 and the RFC variant. -/
def meshUuidFromName (value : String) : Except String Bytes := do
  let result ← meshUuidFromString (uuidFromName value)
  let result := result.set 6 ((result.getD 6 0 &&& 0x0f) ||| 0x30)
  return result.set 8 ((result.getD 8 0 &&& 0x3f) ||| 0x80)

/-- `MRSB` -/
def autoUuidMark : Bytes := [0x4d, 0x52, 0x53, 0x42]

/-- The provisioning UUID of a UAV hostname, with its number in the bytes after the mark. -/
def meshAutoUuidFromName (hostname : String) : Except String Bytes := do
  let digits := hostname.toList.rtakeWhile Char.isDigit
  require (!digits.isEmpty || hostname = "") "Automatic Mesh hostname needs a UAV number"
  -- std::stoul throws for an empty text and for what does not fit an unsigned long.
  require (!digits.isEmpty && ofDigits 10 digits < 2 ^ 64) "stoul"
  let number := ofDigits 10 digits
  require (0 < number && number ≤ 0x7fff) "Automatic Mesh UAV number must be in 1..32767"
  let uuid ← meshUuidFromName ("mrs-uav-bluetooth-mesh-auto:" ++ hostname)
  return autoUuidMark ++ [UInt8.ofNat number, UInt8.ofNat (number / 256)] ++ uuid.drop 6

/-- The UAV number in an automatic UUID, or 0. -/
def meshAutoUuidNumber (uuid : Bytes) : UInt16 :=
  if uuid.length ≠ 16 ∨ uuid.take 4 ≠ autoUuidMark then 0
  else
    let number := (uuid.getD 4 0).toUInt16 ||| ((uuid.getD 5 0).toUInt16 <<< 8)
    if 0 < number ∧ number ≤ 0x7fff then number else 0

/-! ## The bytes of a name-based UUID -/

theorem length_hexBytes (digits : List Char) : (hexBytes digits).length = digits.length / 2 := by
  induction digits using hexBytes.induct with
  | case1 high low rest ih =>
      rw [hexBytes, List.length_cons, ih, List.length_cons, List.length_cons]
      omega
  | case2 digits h =>
      match digits, h with
      | [], _ => rfl
      | [_], _ => simp [hexBytes]
      | high :: low :: rest, h => exact absurd rfl (h high low rest)

/-- Every name has a UUID of sixteen bytes. -/
theorem meshUuidFromName_spec (value : String) :
    ∃ uuid, meshUuidFromName value = .ok uuid ∧ uuid.length = 16 := by
  obtain ⟨digits, hdigits⟩ : ∃ digits, normalizedUuidHex (uuidFromName value) = .ok digits := by
    simp only [normalizedUuidHex, filter_uuidFromName, length_md5Hex]
    refine ⟨_, bind_eq_ok.mpr ⟨(), ?_, rfl⟩⟩
    rw [require_eq_ok, List.all_eq_true]
    exact fun c hc => isHexDigit_of_mem_md5Hex hc
  have hlength : digits.length = 32 := by
    simp only [normalizedUuidHex, bind_eq_ok, require_eq_ok, pure_eq_ok] at hdigits
    obtain ⟨_, _, _, hlength, rfl⟩ := hdigits
    rw [List.length_map]
    exact of_decide_eq_true hlength
  have hparsed : meshUuidFromString (uuidFromName value) = .ok (hexBytes digits) := by
    simp only [meshUuidFromString, bind_eq_ok, pure_eq_ok]
    exact ⟨digits, hdigits, rfl⟩
  have hbytes : (hexBytes digits).length = 16 := by rw [length_hexBytes, hlength]
  generalize hexBytes digits = result at hparsed hbytes
  refine ⟨(result.set 6 _).set 8 _, bind_eq_ok.mpr ⟨result, hparsed, rfl⟩, ?_⟩
  rw [List.length_set, List.length_set, hbytes]

/-! ## The number in the UUID -/

/-- The UAV number in two bytes. -/
theorem number_of_bytes (number : Nat) :
    (UInt8.ofNat number).toUInt16 ||| ((UInt8.ofNat (number / 256)).toUInt16 <<< 8) =
      UInt16.ofNat number := by
  have hlow : number % 2 ^ 8 < 2 ^ 8 := Nat.mod_lt _ (by decide)
  have hhigh : (number / 256 % 2 ^ 8) <<< 8 % 2 ^ 16 = (number / 256 % 2 ^ 8) <<< 8 := by
    rw [Nat.shiftLeft_eq]
    omega
  rw [← UInt16.toNat_inj]
  simp only [UInt16.toNat_or, UInt16.toNat_shiftLeft, UInt8.toNat_toUInt16, UInt8.toNat_ofNat',
    UInt16.toNat_ofNat', UInt16.reduceToNat, Nat.reduceMod]
  rw [hhigh, Nat.or_comm, ← Nat.shiftLeft_add_eq_or_of_lt hlow, Nat.shiftLeft_eq]
  omega

/-- The number in an automatic UUID. -/
theorem meshAutoUuidNumber_mark {number : Nat} (hpos : 0 < number) (hmax : number ≤ 0x7fff)
    {rest : Bytes} (hrest : rest.length = 10) :
    meshAutoUuidNumber
      (autoUuidMark ++ [UInt8.ofNat number, UInt8.ofNat (number / 256)] ++ rest) =
        UInt16.ofNat number := by
  have hvalue : (UInt16.ofNat number).toNat = number :=
    UInt16.toNat_ofNat_of_lt' (lt_of_le_of_lt hmax (by decide))
  have hrange : (0 : UInt16) < UInt16.ofNat number ∧ UInt16.ofNat number ≤ 0x7fff := by
    rw [UInt16.lt_iff_toNat_lt, UInt16.le_iff_toNat_le, hvalue]
    exact ⟨hpos, hmax⟩
  have hshape : ¬((autoUuidMark ++ [UInt8.ofNat number, UInt8.ofNat (number / 256)] ++
      rest).length ≠ 16 ∨ (autoUuidMark ++ [UInt8.ofNat number, UInt8.ofNat (number / 256)] ++
      rest).take 4 ≠ autoUuidMark) := by
    simp [autoUuidMark, hrest]
  rw [meshAutoUuidNumber, if_neg hshape]
  change (let number' := (UInt8.ofNat number).toUInt16 |||
    ((UInt8.ofNat (number / 256)).toUInt16 <<< 8)
    if 0 < number' ∧ number' ≤ 0x7fff then number' else 0) = _
  simp only [number_of_bytes, if_pos hrange]

/-- **Which hostnames have an automatic UUID**, and the number that is read back from it. -/
theorem meshAutoUuidFromName_iff {hostname : String} {number : Nat} :
    (∃ uuid, meshAutoUuidFromName hostname = .ok uuid ∧
        (meshAutoUuidNumber uuid).toNat = number) ↔
      ofDigits 10 (hostname.toList.rtakeWhile Char.isDigit) = number ∧
        0 < number ∧ number ≤ 0x7fff := by
  obtain ⟨named, hnamed, hlength⟩ :=
    meshUuidFromName_spec ("mrs-uav-bluetooth-mesh-auto:" ++ hostname)
  have hdrop : (named.drop 6).length = 10 := by rw [List.length_drop, hlength]
  have hread : ∀ n : Nat, 0 < n → n ≤ 0x7fff → (meshAutoUuidNumber (autoUuidMark ++
      [UInt8.ofNat n, UInt8.ofNat (n / 256)] ++ named.drop 6)).toNat = n := by
    intro n hpos hmax
    rw [meshAutoUuidNumber_mark hpos hmax hdrop]
    exact UInt16.toNat_ofNat_of_lt' (lt_of_le_of_lt hmax (by decide))
  constructor
  · rintro ⟨uuid, huuid, rfl⟩
    simp only [meshAutoUuidFromName, bind_eq_ok, require_eq_ok, pure_eq_ok, hnamed,
      Bool.and_eq_true, decide_eq_true_eq] at huuid
    obtain ⟨_, _, _, _, _, ⟨hpos, hmax⟩, _, hsame, rfl⟩ := huuid
    cases hsame
    rw [hread _ hpos hmax]
    exact ⟨rfl, hpos, hmax⟩
  · rintro ⟨hnumber, hpos, hmax⟩
    have hdigits : (hostname.toList.rtakeWhile Char.isDigit).isEmpty = false := by
      rw [List.isEmpty_eq_false_iff]
      intro hnil
      rw [hnil] at hnumber
      exact absurd hnumber.symm (Nat.ne_of_gt hpos)
    refine ⟨_, ?_, hread number hpos hmax⟩
    simp only [meshAutoUuidFromName, bind_eq_ok, require_eq_ok, pure_eq_ok, hnamed, hdigits,
      hnumber, Bool.and_eq_true, decide_eq_true_eq]
    refine ⟨(), by simp, (), ⟨by simp, by omega⟩, (), ⟨hpos, hmax⟩, named, rfl, rfl⟩

end UavBluetooth.Mesh
