import UavBluetooth.Bridge.PeerTopics
import UavBluetooth.Config.AutoMesh
import UavBluetooth.Mesh.AutoUuid
import UavBluetooth.Mesh.SwarmCoordinator

set_option autoImplicit false

/-! # UAV numbers

The number at the end of a member's hostname is its Mesh address. Four modules read it: the
validation of the configuration through yaml-cpp, the coordinator, the device UUID and the
bridge manager. `numbersAgree_iff` says for which whitelists they read the same.
-/

namespace UavBluetooth.Mesh

open Bridge Config Fallible Util Yaml

/-! ## Digits -/

/-- The digits at the end of a name. -/
def suffix (name : String) : List Char := name.toList.rtakeWhile Char.isDigit

theorem isDigit_of_mem_suffix {name : String} {c : Char} (h : c ∈ suffix name) :
    c.isDigit = true := List.mem_rtakeWhile_imp h

theorem digit?_of_isDigit {c : Char} (h : c.isDigit = true) :
    digit? c = some (c.toNat - '0'.toNat) := by
  rw [digit?, if_pos h]

theorem isDigitOf_ten {c : Char} (h : c.isDigit = true) : isDigitOf 10 c = true := by
  rw [isDigitOf, digit?_of_isDigit h]
  have hrange : c.toNat ≤ '9'.toNat := by
    simp only [Char.isDigit, Bool.and_eq_true, decide_eq_true_eq] at h
    exact h.2
  have hnine : '9'.toNat = 57 := rfl
  have hzero : '0'.toNat = 48 := rfl
  simp only [Option.any_some, decide_eq_true_eq]
  omega

/-- The coordinator's reading of digits is that of the standard library. -/
theorem decimalValue_eq {digits : List Char} (h : ∀ c ∈ digits, c.isDigit = true) :
    decimalValue digits = ofDigits 10 digits := by
  unfold decimalValue ofDigits
  refine List.foldl_ext _ _ _ fun n c hc => ?_
  rw [digit?_of_isDigit (h c hc)]
  rfl

theorem ofDigits_append (base : Nat) (digits : List Char) (c : Char) :
    ofDigits base (digits ++ [c]) = base * ofDigits base digits + (digit? c).getD 0 := by
  rw [ofDigits, ofDigits, List.foldl_append]
  rfl

theorem ofDigits_eight_le (digits : List Char) : ofDigits 8 digits ≤ ofDigits 10 digits := by
  induction digits using List.reverseRecOn with
  | nil => exact Nat.le_refl _
  | append_singleton digits c ih =>
      rw [ofDigits_append, ofDigits_append]
      omega

/-- Octal and decimal digits denote the same number only when it is one digit. -/
theorem ofDigits_eight_eq_iff {digits : List Char} (h : digits.all (isDigitOf 8) = true) :
    ofDigits 8 digits = ofDigits 10 digits ↔ ofDigits 10 digits < 8 := by
  induction digits using List.reverseRecOn with
  | nil => decide
  | append_singleton digits c ih =>
      rw [List.all_append, Bool.and_eq_true] at h
      have hle := ofDigits_eight_le digits
      have hdigit : (digit? c).getD 0 < 8 := by
        have hc : isDigitOf 8 c = true := by simpa using h.2
        cases hvalue : digit? c with
        | none => decide
        | some value =>
            rw [isDigitOf, hvalue] at hc
            exact of_decide_eq_true hc
      rw [ofDigits_append, ofDigits_append]
      omega

/-! ## What yaml-cpp reads -/

/-- A leading zero selects octal, unless a digit is none of its digits. -/
def detectedValue (digits : List Char) : Nat :=
  if digits.head? = some '0' ∧ digits.all (isDigitOf 8) = true then ofDigits 8 digits
  else ofDigits 10 digits

theorem detectedValue_le (digits : List Char) : detectedValue digits ≤ ofDigits 10 digits := by
  unfold detectedValue
  split
  · exact ofDigits_eight_le digits
  · exact Nat.le_refl _

theorem takeSign_of_isDigit {c : Char} {rest : List Char} (h : c.isDigit = true) :
    takeSign (c :: rest) = (false, c :: rest) := by
  unfold takeSign
  split
  · rename_i heq
    cases heq
    exact absurd h (by decide)
  · rename_i heq
    cases heq
    exact absurd h (by decide)
  · rfl

theorem isCSpace_of_isDigit {c : Char} (h : c.isDigit = true) : isCSpace c = false := by
  by_contra hspace
  simp only [Bool.not_eq_false, isCSpace, Bool.or_eq_true, beq_iff_eq, or_assoc] at hspace
  rcases hspace with rfl | rfl | rfl | rfl | rfl | rfl <;> exact absurd h (by decide)

theorem takeWhile_of_digits {digits : List Char} (h : ∀ c ∈ digits, c.isDigit = true) :
    digits.takeWhile (isDigitOf 10) = digits ∧ digits.dropWhile (isDigitOf 10) = [] :=
  ⟨List.takeWhile_eq_self_iff.mpr fun c hc => isDigitOf_ten (h c hc),
    List.dropWhile_eq_nil_iff.mpr fun c hc => isDigitOf_ten (h c hc)⟩

theorem detectBase_of_digits {c : Char} {rest : List Char}
    (h : ∀ d ∈ c :: rest, d.isDigit = true) :
    detectBase (c :: rest) = if c = '0' then (8, true, rest) else (10, false, c :: rest) := by
  unfold detectBase
  split
  · rename_i heq
    cases heq
    exact absurd (h 'x' (by simp)) (by decide)
  · rename_i heq
    cases heq
    exact absurd (h 'X' (by simp)) (by decide)
  · rename_i heq
    cases heq
    rfl
  · rename_i hnot
    have hne : c ≠ '0' := by
      rintro rfl
      exact hnot rest rfl
    rw [if_neg hne]

/-- What an `istream` makes of digits. -/
theorem readInteger_of_digits {digits : List Char} (h : ∀ c ∈ digits, c.isDigit = true)
    (hne : digits ≠ []) :
    Yaml.readInteger digits =
      if digits.head? = some '0' ∧ digits.all (isDigitOf 8) = false then none
      else some (false, detectedValue digits) := by
  obtain ⟨c, rest, rfl⟩ := List.exists_cons_of_ne_nil hne
  have hc := h c List.mem_cons_self
  simp only [Yaml.readInteger, takeSign_of_isDigit hc, detectBase_of_digits h, List.head?_cons,
    Option.some.injEq, detectedValue]
  by_cases hzero : c = '0'
  · subst hzero
    have hvalue : ofDigits 8 ('0' :: rest) = ofDigits 8 rest := rfl
    have hall : (('0' :: rest).all (isDigitOf 8)) = rest.all (isDigitOf 8) := by
      rw [List.all_cons]
      rfl
    rw [if_pos rfl]
    simp only [Bool.not_true, Bool.and_false, Bool.false_eq_true, if_false, true_and, hall, hvalue]
    cases hoctal : rest.all (isDigitOf 8) with
    | true =>
        have hdrop : rest.dropWhile (isDigitOf 8) = [] :=
          List.dropWhile_eq_nil_iff.mpr (List.all_eq_true.mp hoctal)
        have htake : rest.takeWhile (isDigitOf 8) = rest :=
          List.takeWhile_eq_self_iff.mpr (List.all_eq_true.mp hoctal)
        rw [hdrop, htake]
        rfl
    | false =>
        -- The stream stops at the first digit that is not octal.
        have hdrop : (rest.dropWhile (isDigitOf 8)).all isCSpace = false := by
          cases hrest : rest.dropWhile (isDigitOf 8) with
          | nil =>
              have hnone := List.dropWhile_eq_nil_iff.mp hrest
              rw [List.all_eq_true.mpr hnone] at hoctal
              cases hoctal
          | cons d tail =>
              have hmem : d ∈ rest := List.dropWhile_subset _ (hrest ▸ List.mem_cons_self)
              rw [List.all_cons, isCSpace_of_isDigit (h d (List.mem_cons_of_mem _ hmem))]
              rfl
        rw [if_neg (by rw [hdrop]; exact Bool.false_ne_true)]
        rfl
  · obtain ⟨htake, hdrop⟩ := takeWhile_of_digits h
    simp only [htake, hdrop, hzero, false_and, if_false]
    rfl

/-- What `std::stoull` makes of digits. -/
theorem stoull_of_digits {digits rest : List Char} {value : Nat}
    (h : ∀ c ∈ digits, c.isDigit = true)
    (hvalue : stoull (fallbackBase digits) digits = .ok (value, rest)) :
    value = ofDigits 10 digits ∧ value < 2 ^ 64 := by
  have hbase : fallbackBase digits = 10 := by
    unfold fallbackBase
    split
    · exact absurd (h 'x' (by simp)) (by decide)
    · exact absurd (h 'X' (by simp)) (by decide)
    · rfl
  rw [hbase] at hvalue
  cases digits with
  | nil => cases hvalue
  | cons c tail =>
      have hc := h c List.mem_cons_self
      obtain ⟨htake, hdrop⟩ := takeWhile_of_digits h
      have hspaces : (c :: tail).dropWhile isCSpace = c :: tail := by
        rw [List.dropWhile_cons, isCSpace_of_isDigit hc]
        rfl
      have hnumeral : takeNumeral 10 (c :: tail) = (c :: tail, []) := by
        unfold takeNumeral
        split
        · rename_i heq
          cases heq
          exact absurd (h 'x' (by simp)) (by decide)
        · rename_i heq
          cases heq
          exact absurd (h 'X' (by simp)) (by decide)
        · rename_i text _ _
          simp only [htake, hdrop]
      simp only [stoull, hspaces, takeSign_of_isDigit hc, hnumeral] at hvalue
      split at hvalue
      · cases hvalue
      · split at hvalue
        · cases hvalue
        · rename_i hsmall
          cases hvalue
          exact ⟨rfl, Nat.lt_of_not_le hsmall⟩

theorem isSpace_of_isDigit {c : Char} (h : c.isDigit = true) : isSpace c = false := by
  by_contra hspace
  simp only [Bool.not_eq_false, isSpace, Bool.or_eq_true, beq_iff_eq, or_assoc] at hspace
  rcases hspace with rfl | rfl | rfl | rfl <;> exact absurd h (by decide)

/-- **What the validation reads.** -/
theorem parseIntegerValue_of_digits {digits : List Char} {maxValue number : Nat} {context : String}
    (hdigits : ∀ c ∈ digits, c.isDigit = true) (hne : digits ≠ [])
    (h : parseIntegerValue (some (.scalar (String.ofList digits))) maxValue context = .ok number) :
    number = detectedValue digits := by
  have hread := readInteger_of_digits hdigits hne
  have hfallback : ∀ value rest, stoull (fallbackBase (Strip.strip isSpace digits))
      (Strip.strip isSpace digits) = .ok (value, rest) →
        value = ofDigits 10 digits ∧ value < 2 ^ 64 := by
    have htight : Strip.strip isSpace digits = digits := by
      refine Strip.strip_of_tight ⟨fun c hc => ?_, fun c hc => ?_⟩
      · exact isSpace_of_isDigit (hdigits c (List.mem_of_mem_head? hc))
      · exact isSpace_of_isDigit (hdigits c (List.mem_of_mem_getLast? hc))
    rw [htight]
    exact fun value rest => stoull_of_digits hdigits
  simp only [parseIntegerValue, readUnsigned, String.toList_ofList, hread] at h
  by_cases hstop : digits.head? = some '0' ∧ digits.all (isDigitOf 8) = false
  · -- Not an octal numeral after all: the fallback reads it in base ten.
    simp only [if_pos hstop, bind_eq_ok, pure_eq_ok, Prod.exists] at h
    obtain ⟨_, _, value, rest, hvalue, _, _, rfl⟩ := h
    rw [(hfallback _ _ hvalue).1, detectedValue, if_neg]
    rintro ⟨_, hall⟩
    rw [hstop.2] at hall
    cases hall
  · simp only [if_neg hstop] at h
    split at h
    · rename_i value hvalue
      split at hvalue
      · cases hvalue
        split at h
        · cases h
        · cases h
          rfl
      · cases hvalue
    · -- What is too large in octal is too large in base ten.
      rename_i hnone
      simp only [bind_eq_ok, pure_eq_ok, Prod.exists] at h
      obtain ⟨_, _, value, rest, hvalue, _, _, rfl⟩ := h
      obtain ⟨hvalue, hsmall⟩ := hfallback _ _ hvalue
      have hle := detectedValue_le digits
      rw [if_pos (show detectedValue digits ≤ 2 ^ 64 - 1 by omega)] at hnone
      cases hnone

/-! ## The four readers -/

theorem numberFor_eq_ok {peer context : String} {number : Nat}
    (h : numberFor peer context = .ok number) :
    number = detectedValue (suffix peer) ∧ suffix peer ≠ [] ∧ 0 < number := by
  simp only [numberFor, bind_eq_ok, require_eq_ok, pure_eq_ok] at h
  obtain ⟨_, hdigits, value, hvalue, _, hpos, rfl⟩ := h
  have hne : suffix peer ≠ [] := by
    intro hnil
    change (!(suffix peer).isEmpty) = true at hdigits
    rw [hnil] at hdigits
    cases hdigits
  refine ⟨parseIntegerValue_of_digits (fun c hc => isDigit_of_mem_suffix hc) hne hvalue, hne, ?_⟩
  exact Nat.pos_of_ne_zero (of_decide_eq_true hpos)

theorem uavNumber_eq_ok_iff {name : String} {number : Nat} :
    uavNumber name = .ok number ↔
      suffix name ≠ [] ∧ ofDigits 10 (suffix name) = number ∧ 0 < number ∧ number ≤ 0xffff := by
  have hvalue : decimalValue (suffix name) = ofDigits 10 (suffix name) :=
    decimalValue_eq fun c hc => isDigit_of_mem_suffix hc
  unfold uavNumber
  change (if suffix name = [] then _ else _) = _ ↔ _
  split
  · rename_i hnil
    simp [hnil]
  · rename_i hne
    simp only [show name.toList.rtakeWhile Char.isDigit = suffix name from rfl, hvalue]
    split
    · rename_i hlarge
      simp only [reduceCtorEq, false_iff]
      rintro ⟨_, rfl, _, hmax⟩
      omega
    · split
      · rename_i hrange
        simp only [reduceCtorEq, false_iff]
        rintro ⟨_, rfl, hpos, hmax⟩
        omega
      · rename_i hrange
        simp only [Except.ok.injEq]
        constructor
        · rintro rfl
          exact ⟨hne, rfl, by omega, by omega⟩
        · exact fun h => h.2.1

theorem peerNumber_eq_some_iff {name : String} {number : Nat} :
    peerNumber name = some number ↔
      suffix name ≠ [] ∧ (suffix name).length ≠ name.length ∧
        ofDigits 10 (suffix name) = number := by
  have hvalue : decimalValue (suffix name) = ofDigits 10 (suffix name) :=
    decimalValue_eq fun c hc => isDigit_of_mem_suffix hc
  unfold peerNumber
  change (if (suffix name).isEmpty || (suffix name).length == name.length then none
    else some (decimalValue (suffix name))) = some number ↔ _
  rw [hvalue]
  by_cases hempty : suffix name = []
  · simp [hempty]
  · by_cases hlength : (suffix name).length = name.length
    · simp [hempty, hlength]
    · simp [hempty, hlength]

/-! ## Agreement -/

/-- What the modules make of one entry of the whitelist. -/
structure Numbered (whitelist : List String) (peer : String) (number : Nat) : Prop where
  range : 0 < number ∧ number ≤ 0x7fff
  validated : numberFor peer "peer_whitelist entry" = .ok number
  coordinated : uavNumber (lowerTrimCopy peer) = .ok number
  provisioned : ∃ uuid, meshAutoUuidFromName peer = .ok uuid ∧
    (meshAutoUuidNumber uuid).toNat = number
  imported : (meshPeerByAddress (whitelist.map lowerTrimCopy))[UInt16.ofNat number]? = some peer
  unique : ∀ other ∈ whitelist, uavNumber (lowerTrimCopy other) = .ok number → other = peer

/-- Each entry has one number for all modules. -/
def NumbersAgree (whitelist : List String) : Prop :=
  whitelist.Nodup ∧ ∀ peer ∈ whitelist, ∃ number, Numbered whitelist peer number

/-- A name with more than digits, an address at its end, and no octal numeral there that denotes
another number. -/
structure PlainSuffix (name : String) : Prop where
  prefixed : (suffix name).length ≠ name.length
  small : ofDigits 10 (suffix name) ≤ 0x7fff
  decimal : (suffix name).head? = some '0' → (suffix name).all (isDigitOf 8) = true →
    ofDigits 10 (suffix name) < 8

theorem detectedValue_eq_iff {digits : List Char} :
    detectedValue digits = ofDigits 10 digits ↔
      (digits.head? = some '0' → digits.all (isDigitOf 8) = true → ofDigits 10 digits < 8) := by
  unfold detectedValue
  split
  · rename_i hoctal
    rw [ofDigits_eight_eq_iff hoctal.2]
    exact ⟨fun h _ _ => h, fun h => h hoctal.1 hoctal.2⟩
  · rename_i hnot
    exact ⟨fun _ hzero hall => absurd ⟨hzero, hall⟩ hnot, fun _ => rfl⟩

/-- An address book that does not have the number yet gets the only name of it. -/
theorem meshPeerByAddress_of_mem {whitelist : List String} {peer : String} {number : Nat}
    (hmem : peer ∈ whitelist) (hnumber : peerNumber peer = some number)
    (hrange : 0 < number ∧ number ≤ 0x7fff)
    (hunique : ∀ other ∈ whitelist, peerNumber other = some number → other = peer) :
    (meshPeerByAddress whitelist)[UInt16.ofNat number]? = some peer := by
  have hkey : ∀ other : Nat, other ≤ 0x7fff →
      (compare (UInt16.ofNat other) (UInt16.ofNat number) = .eq ↔ other = number) := by
    intro other hother
    rw [Std.LawfulEqCmp.compare_eq_iff_eq, ← UInt16.toNat_inj,
      UInt16.toNat_ofNat_of_lt' (lt_of_le_of_lt hother (by decide)),
      UInt16.toNat_ofNat_of_lt' (lt_of_le_of_lt hrange.2 (by decide))]
  have hfold : ∀ (peers : List String) (book : Std.ExtTreeMap UInt16 String),
      (∀ other ∈ peers, peerNumber other = some number → other = peer) →
      (book[UInt16.ofNat number]? = some peer ∨
        (book[UInt16.ofNat number]? = none ∧ peer ∈ peers)) →
      (peers.foldl enterName book)[UInt16.ofNat number]? = some peer := by
    intro peers
    induction peers with
    | nil =>
        rintro book _ (hfound | ⟨_, hin⟩)
        · exact hfound
        · cases hin
    | cons first rest ih =>
        intro book hall hbook
        rw [List.foldl_cons]
        refine ih _ (fun other hother => hall other (List.mem_cons_of_mem _ hother)) ?_
        by_cases hfirst : peerNumber first = some number
        · have hsame : first = peer := hall first List.mem_cons_self hfirst
          left
          simp only [enterName, hfirst, if_pos hrange, Std.ExtTreeMap.getElem?_insertIfNew]
          rcases hbook with hfound | ⟨hnone, _⟩
          · have hin : UInt16.ofNat number ∈ book :=
              Std.ExtTreeMap.mem_iff_isSome_getElem?.mpr (by rw [hfound]; rfl)
            rw [if_neg (fun h => h.2 hin)]
            exact hfound
          · have hout : UInt16.ofNat number ∉ book := by
              rw [Std.ExtTreeMap.mem_iff_isSome_getElem?, hnone]
              exact Bool.false_ne_true
            rw [if_pos ⟨(hkey number hrange.2).mpr rfl, hout⟩, hsame]
        · -- The entry of another number is left alone.
          have hrest : peer ∈ first :: rest → peer ∈ rest := by
            intro hin
            rcases List.mem_cons.mp hin with rfl | hin
            · exact absurd hnumber hfirst
            · exact hin
          have hkeep : (enterName book first)[UInt16.ofNat number]? =
              book[UInt16.ofNat number]? := by
            unfold enterName
            cases hother : peerNumber first with
            | none => rfl
            | some other =>
                by_cases hsmall : 0 < other ∧ other ≤ 0x7fff
                · simp only [if_pos hsmall, Std.ExtTreeMap.getElem?_insertIfNew]
                  rw [if_neg]
                  rintro ⟨hcompare, _⟩
                  rw [(hkey other hsmall.2).mp hcompare] at hother
                  exact hfirst hother
                · simp only [if_neg hsmall]
          rw [hkeep]
          exact hbook.imp_right fun h => ⟨h.1, hrest h.2⟩
  exact hfold whitelist ∅ hunique (Or.inr ⟨by simp, hmem⟩)

/-! ## Accepted whitelists -/

/-- The whitelist is normalised and has no entry twice. -/
def Normalised (peers : List String) : Prop :=
  peers.Nodup ∧ ∀ peer ∈ peers, lowerTrimCopy peer = peer

/-- The numbers of an accepted whitelist, as the validation reads them. -/
theorem checkPeerNumbers_spec {seen : List Nat} {peers : List String}
    (h : checkPeerNumbers seen peers = .ok ()) :
    (∀ peer ∈ peers, ∃ number, numberFor peer "peer_whitelist entry" = .ok number ∧
      number ∉ seen) ∧
    ∀ peer ∈ peers, ∀ other ∈ peers, ∀ number,
      numberFor peer "peer_whitelist entry" = .ok number →
      numberFor other "peer_whitelist entry" = .ok number → other = peer := by
  induction peers generalizing seen with
  | nil => exact ⟨fun peer hmem => (List.not_mem_nil hmem).elim,
      fun peer hmem => (List.not_mem_nil hmem).elim⟩
  | cons first rest ih =>
      simp only [checkPeerNumbers, bind_eq_ok, require_eq_ok, decide_eq_true_eq] at h
      obtain ⟨number, hnumber, _, hnew, h⟩ := h
      obtain ⟨hnumbers, hunique⟩ := ih h
      have hapart : ∀ other ∈ rest, ∀ n, numberFor first "peer_whitelist entry" = .ok n →
          numberFor other "peer_whitelist entry" ≠ .ok n := by
        intro other hother n hn hsame
        obtain ⟨n', hn', hfresh⟩ := hnumbers other hother
        rw [hn'] at hsame
        rw [hnumber] at hn
        cases hsame
        cases hn
        exact hfresh List.mem_cons_self
      refine ⟨?_, ?_⟩
      · intro peer hmem
        rcases List.mem_cons.mp hmem with rfl | hmem
        · exact ⟨number, hnumber, hnew⟩
        · obtain ⟨n, hn, hfresh⟩ := hnumbers peer hmem
          exact ⟨n, hn, fun hseen => hfresh (List.mem_cons_of_mem _ hseen)⟩
      · intro peer hmem other hother n hn hn'
        rcases List.mem_cons.mp hmem with hpeer | hmem
        · rcases List.mem_cons.mp hother with hfirst | hother
          · rw [hfirst, hpeer]
          · rw [hpeer] at hn
            exact absurd hn' (hapart other hother n hn)
        · rcases List.mem_cons.mp hother with hfirst | hother
          · rw [hfirst] at hn'
            exact absurd hn (hapart peer hmem n hn')
          · exact hunique peer hmem other hother n hn hn'

/-- What the loader has checked about the whitelist of an automatic Mesh. -/
theorem peers_of_parseNodeConfig {regexMatch : String → String → Bool} {doc : Yaml.Node}
    {hostname pattern : String} {cfg : NodeConfig}
    (h : parseNodeConfig regexMatch doc hostname pattern = .ok cfg)
    (hauto : cfg.meshSwarmAutoProvisioning = true) :
    Normalised cfg.peerWhitelist ∧ checkPeerNumbers [] cfg.peerWhitelist = .ok () := by
  have haccepted := autoMesh_of_parseNodeConfig h hauto
  exact ⟨⟨haccepted.nodup, haccepted.normal⟩, haccepted.numbers⟩

/-- **Who agrees on the numbers.** For every accepted configuration with automatic Mesh
provisioning. -/
theorem numbersAgree_iff (regexMatch : String → String → Bool) (doc : Yaml.Node)
    (hostname pattern : String) (cfg : NodeConfig)
    (h : parseNodeConfig regexMatch doc hostname pattern = .ok cfg)
    (hauto : cfg.meshSwarmAutoProvisioning = true) :
    NumbersAgree cfg.peerWhitelist ↔ ∀ peer ∈ cfg.peerWhitelist, PlainSuffix peer := by
  obtain ⟨⟨hnodup, hnormal⟩, hchecked⟩ := peers_of_parseNodeConfig h hauto
  obtain ⟨hnumbers, hunique⟩ := checkPeerNumbers_spec hchecked
  have hmap : cfg.peerWhitelist.map lowerTrimCopy = cfg.peerWhitelist :=
    (List.map_congr_left hnormal).trans (List.map_id _)
  constructor
  · -- Each equation that the modules satisfy rules out one kind of name.
    rintro ⟨_, hagree⟩ peer hpeer
    obtain ⟨number, hnumber⟩ := hagree peer hpeer
    obtain ⟨hvalue, _, hsmall⟩ := meshAutoUuidFromName_iff.mp hnumber.provisioned
    have hvalidated := (numberFor_eq_ok hnumber.validated).1
    have himported := hnumber.imported
    rw [hmap] at himported
    obtain ⟨_, hprefixed, _⟩ := peerNumber_eq_some_iff.mp (number_of_meshPeerByAddress himported)
    change ofDigits 10 (suffix peer) = number at hvalue
    exact {
      prefixed := hprefixed
      small := by rw [hvalue]; exact hsmall
      decimal := detectedValue_eq_iff.mp (by rw [← hvalidated, hvalue]) }
  · intro hplain
    refine ⟨hnodup, fun peer hpeer => ?_⟩
    obtain ⟨number, hvalidated, _⟩ := hnumbers peer hpeer
    obtain ⟨hdetected, hne, hpos⟩ := numberFor_eq_ok hvalidated
    have hvalue : ∀ other ∈ cfg.peerWhitelist, detectedValue (suffix other) =
        ofDigits 10 (suffix other) :=
      fun other hother => detectedValue_eq_iff.mpr (hplain other hother).decimal
    have hnumber : ofDigits 10 (suffix peer) = number := by rw [hdetected, hvalue peer hpeer]
    have hsmall : number ≤ 0x7fff := by
      rw [← hnumber]
      exact (hplain peer hpeer).small
    -- Another entry with these digits would have had the same number in the validation.
    have honly : ∀ other ∈ cfg.peerWhitelist, ofDigits 10 (suffix other) = number →
        other = peer := by
      intro other hother hsame
      obtain ⟨n, hn, _⟩ := hnumbers other hother
      have hn' : n = number := by rw [(numberFor_eq_ok hn).1, hvalue other hother, hsame]
      rw [hn'] at hn
      exact hunique peer hpeer other hother number hvalidated hn
    refine ⟨number, {
      range := ⟨hpos, hsmall⟩
      validated := hvalidated
      coordinated := ?_
      provisioned := meshAutoUuidFromName_iff.mpr ⟨hnumber, hpos, hsmall⟩
      imported := ?_
      unique := ?_ }⟩
    · rw [hnormal peer hpeer]
      exact uavNumber_eq_ok_iff.mpr ⟨hne, hnumber, hpos, by omega⟩
    · rw [hmap]
      refine meshPeerByAddress_of_mem hpeer
        (peerNumber_eq_some_iff.mpr ⟨hne, (hplain peer hpeer).prefixed, hnumber⟩)
        ⟨hpos, hsmall⟩ fun other hother hsame => ?_
      exact honly other hother (peerNumber_eq_some_iff.mp hsame).2.2
    · intro other hother hsame
      rw [hnormal other hother] at hsame
      exact honly other hother (uavNumber_eq_ok_iff.mp hsame).2.1

/-- A document of an automatic Mesh with these members. -/
def autoMeshDocument (peers : List String) : Yaml.Node :=
  .map [(.scalar "mesh_default_ttl", .scalar "127"),
    (.scalar "mesh_relay_retransmit_count", .scalar "1"),
    (.scalar "mesh_relay_retransmit_interval_steps", .scalar "2"),
    (.scalar "mesh_network_retransmit_count", .scalar "1"),
    (.scalar "mesh_network_retransmit_interval_steps", .scalar "19"),
    (.scalar "enable_mesh", .scalar "true"),
    (.scalar "mesh_swarm_auto_provisioning", .scalar "true"),
    (.scalar "peer_whitelist", .sequence (peers.map .scalar))]

/-- Leading zeros do not matter where no digit follows that octal could read. -/
theorem numbersAgree_iff_plain :
    ∃ cfg, parseNodeConfig (fun _ _ => false) (autoMeshDocument ["uav7", "uav08"]) "uav7" "" =
      .ok cfg ∧ cfg.peerWhitelist = ["uav7", "uav08"] ∧ NumbersAgree cfg.peerWhitelist := by
  have hrun : (parseNodeConfig (fun _ _ => false) (autoMeshDocument ["uav7", "uav08"]) "uav7"
      "").toOption.any (fun cfg => cfg.meshSwarmAutoProvisioning &&
        cfg.peerWhitelist == ["uav7", "uav08"]) = true := by decide +kernel
  obtain ⟨cfg, hcfg, hfields⟩ := exists_ok_of_any hrun
  rw [Bool.and_eq_true, beq_iff_eq] at hfields
  refine ⟨cfg, hcfg, hfields.2, (numbersAgree_iff _ _ _ _ cfg hcfg hfields.1).mpr ?_⟩
  rw [hfields.2]
  intro peer hpeer
  rcases List.mem_cons.mp hpeer with rfl | hpeer
  · exact ⟨by decide, by decide, by decide⟩
  · rw [List.mem_singleton.mp hpeer]
    exact ⟨by decide, by decide, by decide⟩

/-- The validation takes `uav010` for member 8, the other modules for member 10. -/
theorem numbers_disagree :
    ¬ ∀ (regexMatch : String → String → Bool) (doc : Yaml.Node) (hostname pattern : String)
      (cfg : NodeConfig), parseNodeConfig regexMatch doc hostname pattern = .ok cfg →
        cfg.meshSwarmAutoProvisioning = true → NumbersAgree cfg.peerWhitelist := by
  intro hclaim
  have hrun : (parseNodeConfig (fun _ _ => false) (autoMeshDocument ["uav7", "uav010"]) "uav7"
      "").toOption.any (fun cfg => cfg.meshSwarmAutoProvisioning &&
        cfg.peerWhitelist == ["uav7", "uav010"]) = true := by decide +kernel
  obtain ⟨cfg, hcfg, hfields⟩ := exists_ok_of_any hrun
  rw [Bool.and_eq_true, beq_iff_eq] at hfields
  obtain ⟨_, hagree⟩ := hclaim _ _ _ _ cfg hcfg hfields.1
  rw [hfields.2] at hagree
  obtain ⟨number, hnumber⟩ := hagree "uav010" (by decide)
  have hdetected := (numberFor_eq_ok hnumber.validated).1
  have hvalue := (meshAutoUuidFromName_iff.mp hnumber.provisioned).1
  rw [hdetected] at hvalue
  exact absurd hvalue (by decide)

end UavBluetooth.Mesh
