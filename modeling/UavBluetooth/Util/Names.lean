import UavBluetooth.Util.Text

set_option autoImplicit false

/-! # Names and addresses of devices

`hostname_utils.cpp`, `device_utils.cpp` and the address helpers of `peer_manager.cpp`. The
regular expression engine is a parameter: `regexMatch pattern text` is whether the whole text
matches the pattern, and false where the engine throws.
-/

namespace UavBluetooth.Util

/-! ## Bluetooth addresses -/

def isHexDigit (c : Char) : Bool := c.isDigit || ('a' ≤ c && c ≤ 'f') || ('A' ≤ c && c ≤ 'F')

/-- Pairs of hexadecimal digits with colons between them. -/
def hexPairs : List Char → Bool
  | [high, low] => isHexDigit high && isHexDigit low
  | high :: low :: ':' :: rest => isHexDigit high && isHexDigit low && hexPairs rest
  | _ => false

/-- The six-octet colon-separated form. -/
def looksLikeMacAddress (value : String) : Bool := value.length = 17 && hexPairs value.toList

/-- A Bluetooth address as BlueZ writes it. -/
structure MacAddress where
  text : String
  shape : looksLikeMacAddress text = true

theorem MacAddress.hexPairs (mac : MacAddress) : Util.hexPairs mac.text.toList = true :=
  (Bool.and_eq_true_iff.mp mac.shape).2

def normalizeMac (value : String) : String :=
  String.ofList ((Strip.strip isSpace value.toList).map Char.toUpper)

theorem isAlphanum_of_isHexDigit {c : Char} (h : isHexDigit c = true) : c.isAlphanum = true := by
  simp only [isHexDigit, Bool.or_eq_true, Bool.and_eq_true, decide_eq_true_eq] at h
  simp only [Char.isAlphanum, isAlpha_eq, Bool.or_eq_true, isUpper_iff_val, isLower_iff_val]
  rcases h with (h | ⟨hlow, hhigh⟩) | ⟨hlow, hhigh⟩
  · exact Or.inr h
  · exact Or.inl (Or.inr ⟨hlow, UInt32.le_trans hhigh (by decide)⟩)
  · exact Or.inl (Or.inl ⟨hlow, UInt32.le_trans hhigh (by decide)⟩)

/-- An address begins and ends in a letter or digit, and has colons besides. -/
theorem hexPairs_spec : ∀ {l : List Char}, hexPairs l = true →
    (∀ c ∈ l, c.isAlphanum = true ∨ c = ':') ∧ (∀ c ∈ l.head?, c.isAlphanum = true) ∧
      (∀ c ∈ l.getLast?, c.isAlphanum = true) ∧ l ≠ [] := by
  intro l
  induction l using hexPairs.induct with
  | case1 high low =>
      intro h
      rw [hexPairs, Bool.and_eq_true] at h
      have hhigh := isAlphanum_of_isHexDigit h.1
      have hlow := isAlphanum_of_isHexDigit h.2
      simp [hhigh, hlow]
  | case2 high low rest ih =>
      intro h
      rw [hexPairs, Bool.and_eq_true, Bool.and_eq_true] at h
      have hhigh := isAlphanum_of_isHexDigit h.1.1
      have hlow := isAlphanum_of_isHexDigit h.1.2
      obtain ⟨hrest, _, hlast, hne⟩ := ih h.2
      refine ⟨?_, by simpa using hhigh, ?_, by simp⟩
      · intro c hc
        simp only [List.mem_cons] at hc
        rcases hc with rfl | rfl | rfl | hc
        · exact Or.inl hhigh
        · exact Or.inl hlow
        · exact Or.inr rfl
        · exact hrest c hc
      · obtain ⟨x, xs, rfl⟩ := List.exists_cons_of_ne_nil hne
        simpa [List.getLast?_cons_cons] using hlast
  | case3 l h₁ h₂ =>
      intro h
      simp [hexPairs] at h

/-! ## Hostnames -/

/-- Whether the trimmed, lower-case name matches the pattern. -/
def isUavHostname (regexMatch : String → String → Bool) (value pattern : String) : Bool :=
  let trimmed := Strip.strip isSpace value.toList
  if trimmed = [] then false else regexMatch pattern (String.ofList (trimmed.map Char.toLower))

/-- The fields of a BlueZ device record that may name it. -/
structure DeviceInfo where
  name : String := ""
  «alias» : String := ""
  deriving DecidableEq, Repr

/-- Accept only safe non-address names that match the pattern or the allow-list. -/
def nameResolves (regexMatch : String → String → Bool) (pattern : String) (knownPeers : List String)
    (candidate : String) : Bool :=
  if candidate = "" ∨ candidate.toList.contains ':' then false
  else isUavHostname regexMatch candidate pattern ||
    knownPeers.any (lowerTrimCopy · == lowerTrimCopy candidate)

/-- A validated name or alias; empty when neither is credible. -/
def deviceHostnameGuess (regexMatch : String → String → Bool) (device : DeviceInfo)
    (pattern : String) (knownPeers : List String) : String :=
  if nameResolves regexMatch pattern knownPeers device.name then device.name
  else if nameResolves regexMatch pattern knownPeers device.alias then device.alias
  else ""

theorem deviceHostnameGuess_cases (regexMatch : String → String → Bool) (device : DeviceInfo)
    (pattern : String) (knownPeers : List String) :
    deviceHostnameGuess regexMatch device pattern knownPeers ∈ [device.name, device.alias, ""] := by
  unfold deviceHostnameGuess
  split
  · exact List.mem_cons_self
  · split <;> simp

end UavBluetooth.Util
