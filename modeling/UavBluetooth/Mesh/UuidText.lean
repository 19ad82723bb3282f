import UavBluetooth.Mesh.Enrollment
import UavBluetooth.Util.ResolveUuid

set_option autoImplicit false

/-! # Device UUIDs as text

`mesh_uuid_from_string` and `mesh_bytes_to_hex` of `mesh_application.cpp` are inverse to each
other, up to dashes and letter case (`meshUuidFromString_iff`), and the UUID of an automatic
member is a UUID of version 3 from which its number can be read (`meshUuid_roundTrip`).
-/

namespace UavBluetooth.Mesh

open Config Fallible Util

/-- The two digits of a byte. -/
def hexPair (byte : UInt8) : List Char := [hexDigit (byte >>> 4), hexDigit (byte &&& 0xf)]

theorem meshBytesToHex_eq (value : Bytes) :
    meshBytesToHex value = String.ofList (value.flatMap hexPair) := rfl

/-- The version and the variant that a name-based UUID has to show. -/
def IsNameBased (uuid : Bytes) : Prop := uuid.getD 6 0 >>> 4 = 3 ∧ uuid.getD 8 0 >>> 6 = 2

/-! ## One byte -/

/-- A hexadecimal digit has a value, and is the digit of that value up to letter case. -/
theorem digit_of_isHexDigit {c : Char} (h : isHexDigit c = true) :
    ∃ v < 16, digit? c = some v ∧ hexDigit (UInt8.ofNat v) = c.toLower := by
  have hall : ∀ n < 103, isHexDigit (Char.ofNat n) = true →
      ∃ v < 16, digit? (Char.ofNat n) = some v ∧
        hexDigit (UInt8.ofNat v) = (Char.ofNat n).toLower := by decide +kernel
  have hsmall : c.toNat < 103 := by
    have hrange := (isHexDigit_iff c).mp h
    omega
  have hc := hall c.toNat hsmall
  rw [Char.ofNat_toNat] at hc
  exact hc h

theorem digit_hexDigit {v : Nat} (h : v < 16) : digit? (hexDigit (UInt8.ofNat v)) = some v := by
  have hall : ∀ v < 16, digit? (hexDigit (UInt8.ofNat v)) = some v := by decide +kernel
  exact hall v h

theorem ofDigits_pair {high low : Char} {a b : Nat} (ha : digit? high = some a)
    (hb : digit? low = some b) : ofDigits 16 [high, low] = 16 * a + b := by
  simp [ofDigits, ha, hb]

theorem toNat_high (byte : UInt8) : (byte >>> 4).toNat = byte.toNat / 16 := by
  rw [UInt8.toNat_shiftRight]
  exact Nat.shiftRight_eq_div_pow byte.toNat 4

theorem toNat_low (byte : UInt8) : (byte &&& 0xf).toNat = byte.toNat % 16 := by
  rw [UInt8.toNat_and]
  exact Nat.and_two_pow_sub_one_eq_mod byte.toNat 4

/-- The digits of a byte give the byte. -/
theorem ofDigits_hexPair (byte : UInt8) : UInt8.ofNat (ofDigits 16 (hexPair byte)) = byte := by
  have hbyte := byte.toNat_lt
  have hhigh : digit? (hexDigit (byte >>> 4)) = some (byte.toNat / 16) := by
    have hdigit := @digit_hexDigit (byte >>> 4).toNat (by rw [toNat_high]; omega)
    rwa [UInt8.ofNat_toNat, toNat_high] at hdigit
  have hlow : digit? (hexDigit (byte &&& 0xf)) = some (byte.toNat % 16) := by
    have hdigit := @digit_hexDigit (byte &&& 0xf).toNat (by rw [toNat_low]; omega)
    rwa [UInt8.ofNat_toNat, toNat_low] at hdigit
  rw [hexPair, ofDigits_pair hhigh hlow, Nat.div_add_mod, UInt8.ofNat_toNat]

/-- The byte of two digits has these digits, in lower case. -/
theorem hexPair_ofDigits {high low : Char} (hhigh : isHexDigit high = true)
    (hlow : isHexDigit low = true) :
    hexPair (UInt8.ofNat (ofDigits 16 [high, low])) = [high.toLower, low.toLower] := by
  obtain ⟨a, ha, hdigitA, hlowerA⟩ := digit_of_isHexDigit hhigh
  obtain ⟨b, hb, hdigitB, hlowerB⟩ := digit_of_isHexDigit hlow
  have hbyte : (UInt8.ofNat (16 * a + b)).toNat = 16 * a + b :=
    UInt8.toNat_ofNat_of_lt' (by simp only [UInt8.size]; omega)
  have hshift : UInt8.ofNat (16 * a + b) >>> 4 = UInt8.ofNat a := by
    rw [← UInt8.toNat_inj, toNat_high, hbyte, UInt8.toNat_ofNat']
    omega
  have hmask : UInt8.ofNat (16 * a + b) &&& 0xf = UInt8.ofNat b := by
    rw [← UInt8.toNat_inj, toNat_low, hbyte, UInt8.toNat_ofNat']
    omega
  rw [ofDigits_pair hdigitA hdigitB, hexPair, hshift, hmask, hlowerA, hlowerB]

/-! ## All bytes -/

theorem hexBytes_hexPair (bytes : Bytes) : hexBytes (bytes.flatMap hexPair) = bytes := by
  induction bytes with
  | nil => rfl
  | cons byte bytes ih =>
      calc hexBytes ((byte :: bytes).flatMap hexPair)
          = UInt8.ofNat (ofDigits 16 (hexPair byte)) :: hexBytes (bytes.flatMap hexPair) := rfl
        _ = byte :: bytes := by rw [ofDigits_hexPair, ih]

theorem hexPair_hexBytes {digits : List Char} (hdigits : ∀ c ∈ digits, isHexDigit c = true)
    (heven : digits.length % 2 = 0) :
    (hexBytes digits).flatMap hexPair = digits.map Char.toLower := by
  induction digits using hexBytes.induct with
  | case1 high low rest ih =>
      have hrest := ih (fun c hc => hdigits c (by simp [hc])) (by
        simp only [List.length_cons] at heven
        omega)
      rw [hexBytes, List.flatMap_cons, hrest,
        hexPair_ofDigits (hdigits high (by simp)) (hdigits low (by simp))]
      rfl
  | case2 digits hshort =>
      rcases digits with _ | ⟨high, _ | ⟨low, rest⟩⟩
      · rfl
      · exact absurd heven Nat.one_ne_zero
      · exact absurd rfl (hshort high low rest)

theorem hexBytes_toLower {digits : List Char} (hdigits : ∀ c ∈ digits, isHexDigit c = true)
    (heven : digits.length % 2 = 0) :
    hexBytes (digits.map Char.toLower) = hexBytes digits := by
  rw [← hexPair_hexBytes hdigits heven, hexBytes_hexPair]

theorem length_flatMap_hexPair (bytes : Bytes) :
    (bytes.flatMap hexPair).length = 2 * bytes.length := by
  induction bytes with
  | nil => rfl
  | cons byte bytes ih =>
      rw [List.flatMap_cons, List.length_append, ih, List.length_cons]
      show 2 + 2 * bytes.length = _
      omega

theorem isHexDigit_of_mem_hexPair {bytes : Bytes} {c : Char} (h : c ∈ bytes.flatMap hexPair) :
    isHexDigit c = true := by
  obtain ⟨byte, _, hc⟩ := List.mem_flatMap.mp h
  rcases List.mem_cons.mp hc with rfl | hc
  · exact isHexDigit_hexDigit _
  · rw [List.mem_singleton.mp hc]
    exact isHexDigit_hexDigit _

/-! ## Texts -/

theorem ne_dash_of_isHexDigit {c : Char} (h : isHexDigit c = true) : c ≠ '-' := by
  rintro rfl
  exact absurd h (by decide)

/-- A text of dashes and thirty-two hexadecimal digits. -/
def IsUuidText (value : String) : Prop :=
  (∀ c ∈ value.toList, c = '-' ∨ isHexDigit c = true) ∧
    (value.toList.filter isHexDigit).length = 32

/-- The digits of a text, in lower case. -/
def lowerDigits (value : String) : List Char :=
  (value.toList.filter isHexDigit).map Char.toLower

theorem filter_ne_dash {l : List Char} (h : ∀ c ∈ l, c = '-' ∨ isHexDigit c = true) :
    l.filter (· ≠ '-') = l.filter isHexDigit := by
  refine List.filter_congr fun c hc => ?_
  rcases h c hc with rfl | hdigit
  · rfl
  · rw [hdigit]
    exact decide_eq_true (ne_dash_of_isHexDigit hdigit)

theorem normalizedUuidHex_iff {value : String} {digits : List Char} :
    normalizedUuidHex value = .ok digits ↔ IsUuidText value ∧ digits = lowerDigits value := by
  unfold IsUuidText lowerDigits
  simp only [normalizedUuidHex, bind_eq_ok, require_eq_ok, pure_eq_ok, List.all_eq_true,
    decide_eq_true_eq]
  constructor
  · rintro ⟨_, hdigits, _, hlength, rfl⟩
    have hall : ∀ c ∈ value.toList, c = '-' ∨ isHexDigit c = true := by
      intro c hc
      by_cases hdash : c = '-'
      · exact Or.inl hdash
      · exact Or.inr (hdigits c (List.mem_filter.mpr ⟨hc, decide_eq_true hdash⟩))
    rw [filter_ne_dash hall] at hlength ⊢
    exact ⟨⟨hall, hlength⟩, rfl⟩
  · rintro ⟨⟨hall, hlength⟩, rfl⟩
    rw [filter_ne_dash hall]
    exact ⟨(), fun c hc => (List.mem_filter.mp hc).2, (), hlength, rfl⟩

theorem IsUuidText.hexPair_hexBytes {value : String} (h : IsUuidText value) :
    (hexBytes (lowerDigits value)).flatMap hexPair = lowerDigits value := by
  have hdigits : ∀ c ∈ value.toList.filter isHexDigit, isHexDigit c = true :=
    fun c hc => (List.mem_filter.mp hc).2
  have heven : (value.toList.filter isHexDigit).length % 2 = 0 := by rw [h.2]
  unfold lowerDigits
  rw [hexBytes_toLower hdigits heven, UavBluetooth.Mesh.hexPair_hexBytes hdigits heven]

theorem meshBytesToHex_inj {bytes bytes' : Bytes} (h : meshBytesToHex bytes = meshBytesToHex bytes') :
    bytes = bytes' := by
  have hdigits : bytes.flatMap hexPair = bytes'.flatMap hexPair := String.ofList_injective h
  rw [← hexBytes_hexPair bytes, hdigits, hexBytes_hexPair]

/-- **Which texts are UUIDs**, and of which bytes. -/
theorem meshUuidFromString_iff {value : String} {bytes : Bytes} :
    meshUuidFromString value = .ok bytes ↔
      IsUuidText value ∧ meshBytesToHex bytes = String.ofList (lowerDigits value) := by
  simp only [meshUuidFromString, bind_eq_ok, pure_eq_ok, normalizedUuidHex_iff]
  constructor
  · rintro ⟨_, ⟨htext, rfl⟩, rfl⟩
    rw [meshBytesToHex_eq, htext.hexPair_hexBytes]
    exact ⟨htext, rfl⟩
  · rintro ⟨htext, hbytes⟩
    refine ⟨_, ⟨htext, rfl⟩, meshBytesToHex_inj ?_⟩
    rw [hbytes, meshBytesToHex_eq, htext.hexPair_hexBytes]

/-- A UUID of sixteen bytes is read back from its text. -/
theorem meshUuidFromString_meshBytesToHex {bytes : Bytes} (h : bytes.length = 16) :
    meshUuidFromString (meshBytesToHex bytes) = .ok bytes := by
  have hfilter : (bytes.flatMap hexPair).filter isHexDigit = bytes.flatMap hexPair :=
    List.filter_eq_self.mpr fun c hc => isHexDigit_of_mem_hexPair hc
  have htext : IsUuidText (meshBytesToHex bytes) := by
    unfold IsUuidText
    rw [meshBytesToHex_eq, String.toList_ofList, hfilter, length_flatMap_hexPair, h]
    exact ⟨fun c hc => Or.inr (isHexDigit_of_mem_hexPair hc), rfl⟩
  have hlower : lowerDigits (meshBytesToHex bytes) = bytes.flatMap hexPair := by
    unfold lowerDigits
    rw [meshBytesToHex_eq, String.toList_ofList, hfilter,
      ← hexPair_hexBytes (fun c hc => isHexDigit_of_mem_hexPair hc)
        (by rw [length_flatMap_hexPair]; omega), hexBytes_hexPair]
  rw [meshUuidFromString_iff, hlower]
  exact ⟨htext, rfl⟩

/-! ## UUIDs of names -/

/-- The bits that `mesh_uuid_from_name` sets. -/
theorem meshUuidFromName_isNameBased {value : String} {uuid : Bytes}
    (h : meshUuidFromName value = .ok uuid) : IsNameBased uuid := by
  obtain ⟨result, hresult, h⟩ := bind_eq_ok.mp h
  rw [pure_eq_ok] at h
  have hlength : result.length = 16 := by
    obtain ⟨htext, hhex⟩ := meshUuidFromString_iff.mp hresult
    have hdigits : result.flatMap hexPair = lowerDigits (uuidFromName value) :=
      String.ofList_injective hhex
    have hcount := length_flatMap_hexPair result
    rw [hdigits, lowerDigits, List.length_map, htext.2] at hcount
    omega
  have hversion : ∀ n < 256, ((UInt8.ofNat n &&& 0x0f) ||| 0x30) >>> 4 = 3 := by decide +kernel
  have hvariant : ∀ n < 256, ((UInt8.ofNat n &&& 0x3f) ||| 0x80) >>> 6 = 2 := by decide +kernel
  unfold IsNameBased
  rw [← h]
  constructor
  · have hbit := hversion _ (result.getD 6 0).toNat_lt
    rw [UInt8.ofNat_toNat] at hbit
    simpa [hlength] using hbit
  · have hbit := hvariant _ ((result.set 6 ((result.getD 6 0 &&& 0x0f) ||| 0x30)).getD 8 0).toNat_lt
    rw [UInt8.ofNat_toNat] at hbit
    simpa [hlength] using hbit

/-- The UUID of an automatic member. -/
theorem meshAutoUuid_spec {hostname : String} {number : Nat}
    (hnumber : ofDigits 10 (hostname.toList.rtakeWhile Char.isDigit) = number)
    (hpos : 0 < number) (hmax : number ≤ 0x7fff) :
    ∃ uuid, meshAutoUuidFromName hostname = .ok uuid ∧ uuid.length = 16 ∧ IsNameBased uuid ∧
      (meshAutoUuidNumber uuid).toNat = number := by
  obtain ⟨uuid, huuid, hread⟩ := meshAutoUuidFromName_iff.mpr ⟨hnumber, hpos, hmax⟩
  obtain ⟨named, hnamed, hlength⟩ :=
    meshUuidFromName_spec ("mrs-uav-bluetooth-mesh-auto:" ++ hostname)
  have hbytes := huuid
  simp only [meshAutoUuidFromName, bind_eq_ok, require_eq_ok, pure_eq_ok, hnamed] at hbytes
  obtain ⟨_, _, _, _, _, _, _, hsame, rfl⟩ := hbytes
  cases hsame
  have hname := meshUuidFromName_isNameBased hnamed
  refine ⟨_, huuid, ?_, ?_, hread⟩
  · simp [autoUuidMark, hlength]
  · unfold IsNameBased at hname ⊢
    simpa [autoUuidMark] using hname

/-- **The UUIDs of automatic members and the texts of UUIDs go round.** -/
theorem meshUuid_roundTrip :
    (∀ (hostname : String) (number : Nat),
      ofDigits 10 (hostname.toList.rtakeWhile Char.isDigit) = number → 0 < number →
        number ≤ 32767 → ∃ uuid, meshAutoUuidFromName hostname = .ok uuid ∧ uuid.length = 16 ∧
          IsNameBased uuid ∧ (meshAutoUuidNumber uuid).toNat = number) ∧
    (∀ bytes : Bytes, bytes.length = 16 →
      meshUuidFromString (meshBytesToHex bytes) = .ok bytes) ∧
    (∀ value : String, (∃ bytes, meshUuidFromString value = .ok bytes) ↔ IsUuidText value) ∧
    ∀ (value : String) (bytes : Bytes), meshUuidFromString value = .ok bytes →
      meshBytesToHex bytes = String.ofList (lowerDigits value) := by
  refine ⟨fun hostname number hnumber hpos hmax => meshAutoUuid_spec hnumber hpos hmax,
    fun bytes hlength => meshUuidFromString_meshBytesToHex hlength, fun value => ⟨?_, ?_⟩,
    fun value bytes hparsed => (meshUuidFromString_iff.mp hparsed).2⟩
  · rintro ⟨bytes, hparsed⟩
    exact (meshUuidFromString_iff.mp hparsed).1
  · intro htext
    refine ⟨hexBytes (lowerDigits value), meshUuidFromString_iff.mpr ⟨htext, ?_⟩⟩
    rw [meshBytesToHex_eq, htext.hexPair_hexBytes]

theorem uuid_of_uav7 : ∃ uuid, meshAutoUuidFromName "uav7" = .ok uuid ∧ uuid.length = 16 ∧
    IsNameBased uuid ∧ (meshAutoUuidNumber uuid).toNat = 7 :=
  meshUuid_roundTrip.1 "uav7" 7 (by decide) (by decide) (by decide)

end UavBluetooth.Mesh
