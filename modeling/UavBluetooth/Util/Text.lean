import UavBluetooth.Lib.Strip

set_option autoImplicit false

/-! # Text utilities

`string_utils.cpp` and the sanitising half of `topic_utils.cpp`. A `std::string` is a sequence
of bytes; the characters of a `String` stand for these bytes, and the character classes are
those of the C locale.
-/

namespace UavBluetooth.Util

/-- The whitespace that the configuration code strips: `" \t\r\n"`. -/
def isSpace (c : Char) : Bool := c == ' ' || c == '\n' || c == '\r' || c == '\t'

def trimAsciiCopy (value : String) : String := String.ofList (Strip.strip isSpace value.toList)

/-- `trim_ascii_copy` followed by ASCII lower-casing. -/
def lowerTrimCopy (value : String) : String :=
  String.ofList ((Strip.strip isSpace value.toList).map Char.toLower)

/-- The character that stands for `c` in a topic component. -/
def topicChar (c : Char) : Char := if c.isAlphanum || c == '_' then c else '_'

def sanitizeTopicSuffix (value : String) : String :=
  let trimmed := Strip.strip isSpace value.toList
  if trimmed = [] then "ble_device"
  else
    -- Replace non-alphanumeric/underscore with '_', then strip leading/trailing underscores.
    let cleaned := trimmed.map topicChar
    let result := Strip.strip (· == '_') cleaned
    if result = [] then "ble_device" else String.ofList result

/-! ## Normalised text -/

theorem isUpper_iff_val {c : Char} : c.isUpper = true ↔ c.val ≥ 'A'.val ∧ c.val ≤ 'Z'.val := by
  exact decide_eq_true_iff

theorem isLower_iff_val {c : Char} : c.isLower = true ↔ c.val ≥ 'a'.val ∧ c.val ≤ 'z'.val := by
  rw [show c.isLower = (decide (c.val ≥ 'a'.val) && decide (c.val ≤ 'z'.val)) from rfl,
    Bool.and_eq_true, decide_eq_true_iff, decide_eq_true_iff]

theorem isAlpha_eq (c : Char) : c.isAlpha = (c.isUpper || c.isLower) := rfl

theorem isUpper_iff {c : Char} : c.isUpper = true ↔ 65 ≤ c.toNat ∧ c.toNat ≤ 90 := by
  rw [isUpper_iff_val, ge_iff_le, UInt32.le_iff_toNat_le, UInt32.le_iff_toNat_le]
  rfl

theorem toLower_of_not_isUpper {c : Char} (h : c.isUpper = false) : c.toLower = c := by
  unfold Char.toLower
  rw [dif_neg]
  intro hupper
  rw [isUpper_iff_val.mpr hupper] at h
  cases h

theorem toNat_toLower_of_isUpper {c : Char} (h : c.isUpper = true) :
    c.toLower.toNat = c.toNat + 32 := by
  have hrange := isUpper_iff.mp h
  unfold Char.toLower
  rw [dif_pos (isUpper_iff_val.mp h)]
  change (c.val + 32).toNat = c.val.toNat + 32
  rw [UInt32.toNat_add]
  have hsmall : c.val.toNat ≤ 90 := hrange.2
  change (c.val.toNat + 32) % 2 ^ 32 = _
  omega

/-- A predicate that no letter meets does not depend on the case. -/
theorem apply_toLower {p : Char → Bool} (hp : ∀ c : Char, p c = true → c.toNat < 65) (c : Char) :
    p c.toLower = p c := by
  cases h : c.isUpper with
  | false => rw [toLower_of_not_isUpper h]
  | true =>
      have hrange := isUpper_iff.mp h
      have hlower := toNat_toLower_of_isUpper h
      rw [Bool.eq_iff_iff]
      constructor
      · intro hd
        have := hp c.toLower hd
        omega
      · intro hc
        have := hp c hc
        omega

theorem isSpace_toLower (c : Char) : isSpace c.toLower = isSpace c := by
  refine apply_toLower (fun d hd => ?_) c
  simp only [isSpace, Bool.or_eq_true, beq_iff_eq, or_assoc] at hd
  rcases hd with rfl | rfl | rfl | rfl <;> decide

theorem not_isUpper_toLower (c : Char) : c.toLower.isUpper = false := by
  cases h : c.isUpper with
  | false => rw [toLower_of_not_isUpper h, h]
  | true =>
      have hrange := isUpper_iff.mp h
      have hlower := toNat_toLower_of_isUpper h
      by_contra hupper
      have := isUpper_iff.mp (eq_true_of_ne_false hupper)
      omega

theorem toLower_toLower (c : Char) : c.toLower.toLower = c.toLower :=
  toLower_of_not_isUpper (not_isUpper_toLower c)

/-- **Normalising twice is normalising once.** -/
theorem lowerTrimCopy_lowerTrimCopy (value : String) :
    lowerTrimCopy (lowerTrimCopy value) = lowerTrimCopy value := by
  have hspace : isSpace ∘ Char.toLower = isSpace := funext isSpace_toLower
  have hstrip : Strip.strip isSpace (Strip.strip isSpace value.toList) =
      Strip.strip isSpace value.toList := Strip.strip_strip fun _ h => h
  unfold lowerTrimCopy
  rw [String.toList_ofList, Strip.strip_map, hspace, hstrip, List.map_map]
  congr 1
  refine List.map_congr_left fun c _ => ?_
  exact toLower_toLower c

/-! ## What a sanitised component is -/

/-- The part of a text from its first to its last letter or digit. -/
def core (value : String) : List Char := Strip.strip (fun c => !c.isAlphanum) value.toList

theorem not_isAlphanum_of_isSpace {c : Char} (h : isSpace c = true) : c.isAlphanum = false := by
  simp only [isSpace, Bool.or_eq_true, beq_iff_eq, or_assoc] at h
  rcases h with rfl | rfl | rfl | rfl <;> decide

theorem topicChar_eq_underscore {c : Char} : (topicChar c == '_') = !c.isAlphanum := by
  unfold topicChar
  cases hc : c.isAlphanum with
  | true =>
      have hne : c ≠ '_' := by
        rintro rfl
        cases hc
      simp [hne]
  | false => by_cases h : c = '_' <;> simp [h]

theorem topicChar_of_isAlphanum {c : Char} (h : c.isAlphanum = true) : topicChar c = c := by
  simp [topicChar, h]

/-- **A sanitised component** is the core of the text with an underscore for each character
that is not a letter or a digit. -/
theorem sanitizeTopicSuffix_eq (value : String) :
    sanitizeTopicSuffix value =
      if core value = [] then "ble_device" else String.ofList ((core value).map topicChar) := by
  have hspace : ∀ c : Char, isSpace c = true → (!c.isAlphanum) = true := by
    intro c hc
    rw [not_isAlphanum_of_isSpace hc]
    rfl
  have hstrip : Strip.strip (· == '_') ((Strip.strip isSpace value.toList).map topicChar) =
      (core value).map topicChar := by
    rw [Strip.strip_map]
    have hp : ((· == '_') ∘ topicChar) = fun c => !c.isAlphanum := by
      funext c
      exact topicChar_eq_underscore
    rw [hp, Strip.strip_strip hspace]
    rfl
  unfold sanitizeTopicSuffix
  simp only [hstrip, List.map_eq_nil_iff]
  split
  · rename_i hblank
    have hcore : core value = [] := by
      unfold core
      rw [← Strip.strip_strip hspace, hblank, Strip.strip_nil]
    rw [if_pos hcore]
  · rfl

/-- The core begins with a letter or a digit. -/
theorem head_core {value : String} {c : Char} {cs : List Char} (h : core value = c :: cs) :
    c.isAlphanum = true := by
  have htight : Strip.Tight (fun c => !c.isAlphanum) (core value) := Strip.tight_strip
  rw [h] at htight
  simpa using htight.head c rfl

/-- The characters of a topic component. -/
def topicSafe (c : Char) : Bool := c.isAlphanum || c == '_'

theorem topicSafe_topicChar (c : Char) : topicSafe (topicChar c) = true := by
  unfold topicChar topicSafe
  split
  · assumption
  · rfl

/-- **A sanitised component is a nonempty name of letters, digits and underscores.** -/
theorem sanitizeTopicSuffix_safe (value : String) :
    (sanitizeTopicSuffix value).toList ≠ [] ∧
      ∀ c ∈ (sanitizeTopicSuffix value).toList, topicSafe c = true := by
  rw [sanitizeTopicSuffix_eq]
  split
  · have hall : "ble_device".toList.all topicSafe = true := by decide
    exact ⟨by decide, List.all_eq_true.mp hall⟩
  · rename_i hcore
    rw [String.toList_ofList]
    refine ⟨by simpa using hcore, fun c hc => ?_⟩
    obtain ⟨c', _, rfl⟩ := List.mem_map.mp hc
    exact topicSafe_topicChar c'

theorem not_isSpace_of_topicSafe {c : Char} (h : topicSafe c = true) : isSpace c = false := by
  by_contra hspace
  have hspace' := Bool.eq_true_of_not_eq_false hspace
  simp only [isSpace, Bool.or_eq_true, beq_iff_eq, or_assoc] at hspace'
  rcases hspace' with rfl | rfl | rfl | rfl <;> exact absurd h (by decide)

theorem ne_slash_of_topicSafe {c : Char} (h : topicSafe c = true) : c ≠ '/' := by
  rintro rfl
  exact absurd h (by decide)

end UavBluetooth.Util
