import UavBluetooth.Util.Numbers
import UavBluetooth.Util.Uuid

set_option autoImplicit false

/-! # Resolving UUIDs

`resolve_uuid`: a literal is lower-cased, any other name is hashed. The result is always a
literal, so resolving again changes nothing (`resolveUuid_resolveUuid`). The hash is put into the
shape of a UUID as it is: the version and the variant are whatever bits the digest has there
(`resolves_iff`).
-/

namespace UavBluetooth.Util

/-! ## Resolution -/

/-- `trim` of `uuid_utils.cpp`. -/
def trimUuid (value : String) : String := String.ofList (Strip.strip isSpace value.toList)

def resolveUuid (value : String) : String :=
  let trimmed := trimUuid value
  if isUuid trimmed then String.ofList (trimmed.toList.map Char.toLower) else uuidFromName trimmed

/-! ## The shape of a literal -/

/-- The pattern of `is_uuid`. -/
def uuidShape (l : List Char) : Bool :=
  let groups := l.splitOnP (· == '-')
  groups.map List.length == [8, 4, 4, 4, 12] && groups.all fun group => group.all isHexDigit

theorem isUuid_eq (value : String) :
    isUuid value = uuidShape (Strip.strip isSpace value.toList) := rfl

theorem splitOnP_map {α β : Type} (f : α → β) (p : β → Bool) (l : List α) :
    (l.map f).splitOnP p = (l.splitOnP (p ∘ f)).map (List.map f) := by
  induction l with
  | nil => rfl
  | cons a l ih =>
      rw [List.map_cons, List.splitOnP_cons_eq_if_modifyHead, List.splitOnP_cons_eq_if_modifyHead, ih]
      by_cases hp : p (f a) = true
      · simp [hp]
      · cases hgroups : l.splitOnP (p ∘ f) with
        | nil => exact absurd hgroups (List.splitOnP_ne_nil _ _)
        | cons group groups => simp [hp]

theorem toLower_beq_dash (c : Char) : (c.toLower == '-') = (c == '-') := by
  refine apply_toLower (p := fun c => c == '-') (fun d hd => ?_) c
  rw [beq_iff_eq.mp hd]
  decide

theorem isHexDigit_iff (c : Char) : isHexDigit c = true ↔
    (48 ≤ c.toNat ∧ c.toNat ≤ 57) ∨ (97 ≤ c.toNat ∧ c.toNat ≤ 102) ∨
      (65 ≤ c.toNat ∧ c.toNat ≤ 70) := by
  simp only [isHexDigit, Char.isDigit, Bool.or_eq_true, Bool.and_eq_true, decide_eq_true_eq,
    ge_iff_le, Char.le_def, UInt32.le_iff_toNat_le, or_assoc]
  rfl

theorem isHexDigit_toLower (c : Char) : isHexDigit c.toLower = isHexDigit c := by
  cases h : c.isUpper with
  | false => rw [toLower_of_not_isUpper h]
  | true =>
      have hrange := isUpper_iff.mp h
      have hlower := toNat_toLower_of_isUpper h
      rw [Bool.eq_iff_iff, isHexDigit_iff, isHexDigit_iff]
      omega

theorem uuidShape_map_toLower (l : List Char) : uuidShape (l.map Char.toLower) = uuidShape l := by
  have hdash : (fun c => c == '-') ∘ Char.toLower = fun c => c == '-' := funext toLower_beq_dash
  have hdigit : isHexDigit ∘ Char.toLower = isHexDigit := funext isHexDigit_toLower
  unfold uuidShape
  rw [splitOnP_map, hdash]
  simp only [List.map_map, List.all_map]
  congr 1
  · congr 2
    funext group
    simp
  · congr 1
    funext group
    simp [hdigit]

/-- A literal holds hexadecimal digits and dashes only. -/
theorem mem_uuidShape {l : List Char} (h : uuidShape l = true) {c : Char} (hc : c ∈ l) :
    isHexDigit c = true ∨ c = '-' := by
  simp only [uuidShape, Bool.and_eq_true, List.all_eq_true] at h
  have hmem : ∀ l : List Char, c ∈ l → c = '-' ∨ ∃ group ∈ l.splitOnP (· == '-'), c ∈ group := by
    intro l
    induction l with
    | nil => simp
    | cons a l ih =>
        intro hc
        rw [List.splitOnP_cons_eq_if_modifyHead]
        split
        · rename_i hdash
          rcases List.mem_cons.mp hc with rfl | hc
          · exact Or.inl (by simpa using hdash)
          · refine (ih hc).imp_right ?_
            rintro ⟨group, hgroup, hin⟩
            exact ⟨group, List.mem_cons_of_mem _ hgroup, hin⟩
        · cases hgroups : l.splitOnP (· == '-') with
          | nil => exact absurd hgroups (List.splitOnP_ne_nil _ _)
          | cons group groups =>
              rw [hgroups] at ih
              rw [List.modifyHead_cons]
              rcases List.mem_cons.mp hc with rfl | hc
              · exact Or.inr ⟨_, List.mem_cons_self, List.mem_cons_self⟩
              · refine (ih hc).imp_right ?_
                rintro ⟨group', hgroup, hin⟩
                rcases List.mem_cons.mp hgroup with rfl | hgroup
                · exact ⟨_, List.mem_cons_self, List.mem_cons_of_mem _ hin⟩
                · exact ⟨group', List.mem_cons_of_mem _ hgroup, hin⟩
  rcases hmem l hc with rfl | ⟨group, hgroup, hin⟩
  · exact Or.inr rfl
  · exact Or.inl (h.2 group hgroup c hin)

theorem not_isSpace_of_isHexDigit {c : Char} (h : isHexDigit c = true) : isSpace c = false := by
  by_contra hspace
  simp only [isSpace, Bool.not_eq_false, Bool.or_eq_true, beq_iff_eq, or_assoc] at hspace
  rcases hspace with rfl | rfl | rfl | rfl <;> exact absurd h (by decide)

theorem strip_of_uuidShape {l : List Char} (h : uuidShape l = true) :
    Strip.strip isSpace l = l := by
  have hmem : ∀ c ∈ l, isSpace c = false := by
    intro c hc
    rcases mem_uuidShape h hc with hdigit | rfl
    · exact not_isSpace_of_isHexDigit hdigit
    · rfl
  exact Strip.strip_of_tight ⟨fun c hc => hmem c (List.mem_of_mem_head? hc),
    fun c hc => hmem c (List.mem_of_mem_getLast? hc)⟩

/-- Five groups of digits between dashes have the shape of a literal. -/
theorem uuidShape_groups {a b c d e : List Char} (ha : a.length = 8) (hb : b.length = 4)
    (hc : c.length = 4) (hd : d.length = 4) (he : e.length = 12)
    (hdigits : ∀ x ∈ a ++ b ++ c ++ d ++ e, isHexDigit x = true) :
    uuidShape (a ++ '-' :: b ++ '-' :: c ++ '-' :: d ++ '-' :: e) = true := by
  have hnot : ∀ x, isHexDigit x = true → (x == '-') = false := by
    intro x hx
    rw [beq_eq_false_iff_ne]
    rintro rfl
    exact absurd hx (by decide)
  have hfirst : ∀ (g rest : List Char), (∀ x ∈ g, isHexDigit x = true) →
      (g ++ '-' :: rest).splitOnP (· == '-') = g :: rest.splitOnP (· == '-') := by
    intro g rest hg
    exact List.splitOnP_append_cons_of_forall_mem (fun x hx => hnot x (hg x hx)) '-' rfl rest
  simp only [List.mem_append, or_imp, forall_and] at hdigits
  obtain ⟨⟨⟨⟨ha', hb'⟩, hc'⟩, hd'⟩, he'⟩ := hdigits
  have hlast : e.splitOnP (· == '-') = [e] :=
    List.splitOnP_eq_singleton fun x hx => hnot x (he' x hx)
  have hgroups : (a ++ '-' :: b ++ '-' :: c ++ '-' :: d ++ '-' :: e).splitOnP (· == '-') =
      [a, b, c, d, e] := by
    simp only [List.append_assoc, List.cons_append]
    rw [hfirst a _ ha', hfirst b _ hb', hfirst c _ hc', hfirst d _ hd', hlast]
  unfold uuidShape
  rw [hgroups]
  simp [ha, hb, hc, hd, he, List.all_eq_true.mpr ha', List.all_eq_true.mpr hb',
    List.all_eq_true.mpr hc', List.all_eq_true.mpr hd', List.all_eq_true.mpr he']

/-! ## What resolution yields -/

theorem not_isUpper_hexDigit (n : UInt8) : (hexDigit n).isUpper = false := by
  have hdigit : (!(hexDigit n).isUpper) = true :=
    forall_hexDigit (p := fun c => !c.isUpper) (by decide +kernel) n
  simpa using hdigit

/-- The hash of a name is a lower-case literal. -/
theorem uuidFromName_literal (name : String) : uuidShape (uuidFromName name).toList = true ∧
    ∀ c ∈ (uuidFromName name).toList, c.isUpper = false := by
  unfold uuidFromName
  generalize hhex : md5Hex (name.toList.map fun c => UInt8.ofNat c.toNat) = hex
  have hlength : hex.length = 32 := by rw [← hhex, length_md5Hex]
  have hdigits : ∀ c ∈ hex, isHexDigit c = true := by
    intro c hc
    rw [← hhex] at hc
    exact isHexDigit_of_mem_md5Hex hc
  have hupper : ∀ c ∈ hex, c.isUpper = false := by
    intro c hc
    rw [← hhex] at hc
    obtain ⟨byte, _, hc⟩ := List.mem_flatMap.mp hc
    rcases List.mem_cons.mp hc with rfl | hc
    · exact not_isUpper_hexDigit _
    · rw [List.mem_singleton.mp hc]
      exact not_isUpper_hexDigit _
  have hpart : ∀ (i n : Nat) (c : Char), c ∈ (hex.drop i).take n → c ∈ hex :=
    fun i n c hc => List.mem_of_mem_drop (List.mem_of_mem_take hc)
  rw [String.toList_ofList]
  constructor
  · refine uuidShape_groups (by simp [hlength]) (by simp [hlength]) (by simp [hlength])
      (by simp [hlength]) (by simp [hlength]) (fun x hx => hdigits x ?_)
    simp only [List.mem_append] at hx
    rcases hx with (((hx | hx) | hx) | hx) | hx
    · exact List.mem_of_mem_take hx
    · exact hpart _ _ x hx
    · exact hpart _ _ x hx
    · exact hpart _ _ x hx
    · exact List.mem_of_mem_drop hx
  · intro c hc
    simp only [List.mem_append, List.mem_cons] at hc
    rcases hc with (((hc | rfl | hc) | rfl | hc) | rfl | hc) | rfl | hc
    · exact hupper c (List.mem_of_mem_take hc)
    · rfl
    · exact hupper c (hpart _ _ c hc)
    · rfl
    · exact hupper c (hpart _ _ c hc)
    · rfl
    · exact hupper c (hpart _ _ c hc)
    · rfl
    · exact hupper c (List.mem_of_mem_drop hc)

theorem isUuid_trimUuid (value : String) : isUuid (trimUuid value) = isUuid value := by
  rw [isUuid_eq, isUuid_eq, trimUuid, String.toList_ofList, Strip.strip_strip fun _ h => h]

/-- A literal resolves to its text in lower case. -/
theorem resolveUuid_of_literal {value : String} (h : isUuid value = true) :
    resolveUuid value =
      String.ofList ((Strip.strip isSpace value.toList).map Char.toLower) := by
  unfold resolveUuid
  simp only [isUuid_trimUuid, h, if_true]
  rw [trimUuid, String.toList_ofList]

theorem resolveUuid_of_name {value : String} (h : isUuid value = false) :
    resolveUuid value = uuidFromName (trimUuid value) := by
  unfold resolveUuid
  simp only [isUuid_trimUuid, h, Bool.false_eq_true, if_false]

/-- Whatever the text, it resolves to a literal in lower case. -/
theorem resolveUuid_literal (value : String) : uuidShape (resolveUuid value).toList = true ∧
    ∀ c ∈ (resolveUuid value).toList, c.isUpper = false := by
  cases h : isUuid value with
  | true =>
      rw [resolveUuid_of_literal h, String.toList_ofList, uuidShape_map_toLower]
      refine ⟨h, fun c hc => ?_⟩
      obtain ⟨d, _, rfl⟩ := List.mem_map.mp hc
      exact not_isUpper_toLower d
  | false =>
      rw [resolveUuid_of_name h]
      exact uuidFromName_literal _

/-- A literal in lower case resolves to itself. -/
theorem resolveUuid_of_lower {value : String} (h : uuidShape value.toList = true)
    (hlower : ∀ c ∈ value.toList, c.isUpper = false) : resolveUuid value = value := by
  have hstrip := strip_of_uuidShape h
  have hliteral : isUuid value = true := by
    rw [isUuid_eq, hstrip]
    exact h
  have hmap : value.toList.map Char.toLower = value.toList :=
    (List.map_congr_left fun c hc => toLower_of_not_isUpper (hlower c hc)).trans (List.map_id _)
  rw [resolveUuid_of_literal hliteral, hstrip, hmap, String.ofList_toList]

theorem resolveUuid_resolveUuid (value : String) :
    resolveUuid (resolveUuid value) = resolveUuid value :=
  resolveUuid_of_lower (resolveUuid_literal value).1 (resolveUuid_literal value).2

/-! ## Which UUID a literal denotes -/

/-- The hexadecimal digits of a literal. -/
def uuidDigits (value : String) : List Char :=
  (Strip.strip isSpace value.toList).filter (· ≠ '-')

/-- The number that a literal denotes. -/
def uuidNumber (value : String) : Nat := ofDigits 16 (uuidDigits value)

/-- The same text up to letter case and surrounding white space. -/
def Respelled (value value' : String) : Prop :=
  (Strip.strip isSpace value'.toList).map Char.toLower =
    (Strip.strip isSpace value.toList).map Char.toLower

theorem digit?_toLower (c : Char) : digit? c.toLower = digit? c := by
  cases h : c.isUpper with
  | false => rw [toLower_of_not_isUpper h]
  | true =>
      have hrange := isUpper_iff.mp h
      have hlower := toNat_toLower_of_isUpper h
      have hle : ∀ a b : Char, a ≤ b ↔ a.toNat ≤ b.toNat := fun a b => UInt32.le_iff_toNat_le
      have hdigit : ∀ d : Char, d.isDigit = true ↔ 48 ≤ d.toNat ∧ d.toNat ≤ 57 := by
        intro d
        simp only [Char.isDigit, Bool.and_eq_true, decide_eq_true_eq, ge_iff_le,
          UInt32.le_iff_toNat_le]
        rfl
      have ha : ('a' : Char).toNat = 97 := rfl
      have hf : ('f' : Char).toNat = 102 := rfl
      have hA : ('A' : Char).toNat = 65 := rfl
      have hF : ('F' : Char).toNat = 70 := rfl
      unfold digit?
      rw [if_neg (by rw [hdigit]; omega), if_neg (show ¬ c.isDigit = true by rw [hdigit]; omega),
        if_neg (show ¬ ('a' ≤ c ∧ c ≤ 'f') by rw [hle, hle]; omega)]
      by_cases hhex : c.toNat ≤ 70
      · rw [if_pos (by rw [hle, hle]; omega), if_pos (by rw [hle, hle]; omega)]
        congr 1
        omega
      · rw [if_neg (by rw [hle, hle]; omega), if_neg (by rw [hle, hle]; omega),
          if_neg (by rw [hle, hle]; omega)]

theorem ofDigits_map_toLower (base : Nat) (digits : List Char) :
    ofDigits base (digits.map Char.toLower) = ofDigits base digits := by
  unfold ofDigits
  rw [List.foldl_map]
  simp only [digit?_toLower]

/-- Texts that differ in letter case and surrounding white space are literals alike and resolve
alike. -/
theorem Respelled.resolve {value value' : String} (h : Respelled value value')
    (hliteral : isUuid value = true) : resolveUuid value' = resolveUuid value := by
  have hliteral' : isUuid value' = true := by
    rw [isUuid_eq, ← uuidShape_map_toLower, h, uuidShape_map_toLower, ← isUuid_eq]
    exact hliteral
  rw [resolveUuid_of_literal hliteral', resolveUuid_of_literal hliteral, h]

/-- A literal resolves to one of the same number. -/
theorem uuidNumber_resolveUuid {value : String} (h : isUuid value = true) :
    uuidNumber (resolveUuid value) = uuidNumber value := by
  have hstrip := strip_of_uuidShape (resolveUuid_literal value).1
  have hdash : (fun c : Char => decide (c ≠ '-')) ∘ Char.toLower = fun c => decide (c ≠ '-') := by
    funext c
    have hbeq := toLower_beq_dash c
    simp only [Function.comp_apply, decide_not]
    rw [show decide (c.toLower = '-') = (c.toLower == '-') from rfl, hbeq]
    rfl
  unfold uuidNumber uuidDigits
  rw [hstrip, resolveUuid_of_literal h, String.toList_ofList, List.filter_map, hdash,
    ofDigits_map_toLower]

/-! ## Version and variant -/

/-- A literal with the version and the variant of a name-based UUID. -/
structure RfcVersion3 (text : String) : Prop where
  literal : isUuid text = true
  version : (uuidDigits text)[12]? = some '3'
  variant : ∃ c ∈ ['8', '9', 'a', 'b'], (uuidDigits text)[16]? = some c

/-- The digest of the name has the version and the variant by itself. -/
def DigestMarked (name : String) : Prop :=
  let digest := md5 (name.toList.map fun c => UInt8.ofNat c.toNat)
  digest.getD 6 0 >>> 4 = 3 ∧ digest.getD 8 0 >>> 6 = 2

instance (name : String) : Decidable (DigestMarked name) :=
  inferInstanceAs (Decidable (_ ∧ _))

theorem getElem?_flatMap_pair {α β : Type} (f g : α → β) (l : List α) (i : Nat) :
    (l.flatMap fun a => [f a, g a])[2 * i]? = (l[i]?).map f := by
  induction l generalizing i with
  | nil => simp
  | cons a l ih =>
      cases i with
      | zero => rfl
      | succ i =>
          rw [List.flatMap_cons, Nat.mul_add_one, List.getElem?_append_right (by simp)]
          simpa using ih i

/-- The high half of a byte of the digest. -/
theorem md5Hex_high (data : List UInt8) {i : Nat} (hi : i < 16) :
    (md5Hex data)[2 * i]? = some (hexDigit ((md5 data).getD i 0 >>> 4)) := by
  have hlength : (md5 data).length = 16 := rfl
  have hin : i < (md5 data).length := by rw [hlength]; exact hi
  unfold md5Hex
  rw [getElem?_flatMap_pair, List.getD_eq_getElem?_getD, List.getElem?_eq_getElem hin]
  rfl

theorem hexDigit_version (b : UInt8) : hexDigit (b >>> 4) = '3' ↔ b >>> 4 = 3 := by
  have hall : ∀ k < 16, hexDigit (UInt8.ofNat k) = '3' ↔ UInt8.ofNat k = 3 := by decide +kernel
  have hlt : (b >>> 4).toNat < 16 := by
    have hb := b.toNat_lt
    rw [UInt8.toNat_shiftRight]
    show b.toNat >>> 4 < 16
    rw [Nat.shiftRight_eq_div_pow]
    omega
  have hk := hall _ hlt
  rwa [UInt8.ofNat_toNat] at hk

theorem hexDigit_variant (b : UInt8) :
    (∃ c ∈ ['8', '9', 'a', 'b'], hexDigit (b >>> 4) = c) ↔ b >>> 6 = 2 := by
  have hall : ∀ k < 16, hexDigit (UInt8.ofNat k) ∈ ['8', '9', 'a', 'b'] ↔
      UInt8.ofNat k >>> 2 = 2 := by decide +kernel
  have hlt : (b >>> 4).toNat < 16 := by
    have hb := b.toNat_lt
    rw [UInt8.toNat_shiftRight]
    show b.toNat >>> 4 < 16
    rw [Nat.shiftRight_eq_div_pow]
    omega
  have hshift : b >>> 6 = b >>> 4 >>> 2 := by
    rw [← UInt8.toNat_inj]
    simp only [UInt8.toNat_shiftRight]
    show b.toNat >>> 6 = b.toNat >>> 4 >>> 2
    rw [← Nat.shiftRight_add]
  have hmem : (∃ c ∈ ['8', '9', 'a', 'b'], hexDigit (b >>> 4) = c) ↔
      hexDigit (b >>> 4) ∈ ['8', '9', 'a', 'b'] :=
    ⟨fun ⟨_, hc, heq⟩ => heq ▸ hc, fun hc => ⟨_, hc, rfl⟩⟩
  have hk := hall _ hlt
  rw [UInt8.ofNat_toNat] at hk
  rw [hshift, hmem, hk]

/-- The hash of a name is a UUID of version 3 exactly when its digest says so. -/
theorem rfcVersion3_uuidFromName (name : String) :
    RfcVersion3 (uuidFromName name) ↔ DigestMarked name := by
  have hshape := (uuidFromName_literal name).1
  have hdigits : uuidDigits (uuidFromName name) =
      md5Hex (name.toList.map fun c => UInt8.ofNat c.toNat) := by
    rw [uuidDigits, strip_of_uuidShape hshape, filter_uuidFromName]
  have hliteral : isUuid (uuidFromName name) = true := by
    rw [isUuid_eq, strip_of_uuidShape hshape]
    exact hshape
  have hversion := md5Hex_high (name.toList.map fun c => UInt8.ofNat c.toNat)
    (show 6 < 16 by decide)
  have hvariant := md5Hex_high (name.toList.map fun c => UInt8.ofNat c.toNat)
    (show 8 < 16 by decide)
  unfold DigestMarked
  constructor
  · rintro ⟨_, h3, h8⟩
    rw [hdigits, hversion, Option.some.injEq] at h3
    rw [hdigits] at h8
    obtain ⟨c, hc, h8⟩ := h8
    rw [hvariant, Option.some.injEq] at h8
    exact ⟨(hexDigit_version _).mp h3, (hexDigit_variant _).mp ⟨c, hc, h8⟩⟩
  · rintro ⟨h3, h8⟩
    obtain ⟨c, hc, hdigit⟩ := (hexDigit_variant _).mpr h8
    refine ⟨hliteral, ?_, c, hc, ?_⟩
    · rw [hdigits, hversion, (hexDigit_version _).mpr h3]
    · rw [hdigits, hvariant, hdigit]

/-- What is hashed is the trimmed text, so its digest decides about the result. -/
theorem rfcVersion3_resolveUuid {value : String} (h : isUuid value = false) :
    RfcVersion3 (resolveUuid value) ↔ DigestMarked (trimUuid value) := by
  rw [resolveUuid_of_name h, rfcVersion3_uuidFromName]

/-! ## Resolution as a whole -/

/-- What resolving a text promises. -/
structure Resolves (value : String) : Prop where
  literal : isUuid (resolveUuid value) = true
  lower : ∀ c ∈ (resolveUuid value).toList, c.isUpper = false
  idempotent : resolveUuid (resolveUuid value) = resolveUuid value
  respelled : isUuid value = true → ∀ value', Respelled value value' →
    resolveUuid value' = resolveUuid value
  distinct : isUuid value = true → ∀ value', isUuid value' = true →
    uuidNumber value' ≠ uuidNumber value → resolveUuid value' ≠ resolveUuid value
  version : isUuid value = false → RfcVersion3 (uuidFromName value)

/-- **Resolution keeps its promises** for literals, and for the names whose digest happens to
have the bits of version 3. -/
theorem resolves_iff (value : String) :
    Resolves value ↔ (isUuid value = true ∨ DigestMarked value) := by
  constructor
  · intro h
    cases hliteral : isUuid value with
    | true => exact Or.inl rfl
    | false => exact Or.inr ((rfcVersion3_uuidFromName value).mp (h.version hliteral))
  · intro h
    obtain ⟨hshape, hlower⟩ := resolveUuid_literal value
    refine ⟨?_, hlower, resolveUuid_resolveUuid value, fun hlit value' hsame => hsame.resolve hlit,
      fun hlit value' hlit' hne heq => ?_, fun hname => ?_⟩
    · rw [isUuid_eq, strip_of_uuidShape hshape]
      exact hshape
    · rw [← uuidNumber_resolveUuid hlit, ← uuidNumber_resolveUuid hlit', heq] at hne
      exact hne rfl
    · rcases h with hlit | hmarked
      · rw [hname] at hlit
        cases hlit
      · exact (rfcVersion3_uuidFromName value).mpr hmarked

/-- A name whose digest has version 4 and no RFC variant. -/
theorem not_resolves_battery : ¬ ∀ value, Resolves value := by
  intro h
  have hname : isUuid "battery" = false := by decide +kernel
  have hnot : ¬ DigestMarked "battery" := by decide +kernel
  exact hnot ((rfcVersion3_uuidFromName "battery").mp ((h "battery").version hname))

end UavBluetooth.Util
