import UavBluetooth.Config.IntegerText

set_option autoImplicit false

/-! # Bounded integers

`parse_integer_value` and `parse_signed_integer_value` are one function of what the two
conversions of the type make of a numeral (`Target`). It returns the number that the trimmed text
denotes, except for the texts of `Misread`.
-/

namespace UavBluetooth.Config

open Fallible Util Yaml

/-! ## Targets -/

/-- A bounded integer type: what its two conversions make of a sign and a magnitude, and the
bounds. -/
structure Target where
  stream : Bool → Nat → Option Int
  fallback : Bool → Nat → Option Int
  within : Int → Prop
  /-- Without a minus sign the conversions agree. -/
  fallback_plus : ∀ n, fallback false n = stream false n
  fallback_stream : ∀ negative n v, stream negative n = some v → fallback negative n = some v
  /-- What overflows goes on overflowing. -/
  overflow : ∀ negative n m, n ≤ m → stream negative n = none → stream negative m = none
  /-- Where the fallback does more than the stream, the stream reads nothing of that sign. -/
  refused : ∀ negative n v, fallback negative n = some v → stream negative n = none →
    ∀ m, stream negative m = none

/-- The magnitude that `strtoull` makes of a numeral. -/
def wrapped (negative : Bool) (n : Nat) : Int :=
  if negative then ((2 ^ 64 - n) % 2 ^ 64 : Nat) else n

def signed (negative : Bool) (n : Nat) : Int := if negative then -n else n

def unsignedTarget (maxValue : UInt64) : Target where
  stream negative n := if negative = false ∧ n < 2 ^ 64 then some n else none
  fallback negative n := if n < 2 ^ 64 then some (wrapped negative n) else none
  within v := v ≤ maxValue.toNat
  fallback_plus n := by simp [wrapped]
  fallback_stream negative n v h := by
    split at h
    · rename_i hn
      rw [if_pos hn.2, ← h, wrapped, hn.1]
      rfl
    · cases h
  overflow negative n m hle h := by
    rw [if_neg]
    rintro ⟨hneg, hm⟩
    rw [if_pos ⟨hneg, lt_of_le_of_lt hle hm⟩] at h
    cases h
  refused negative n v h hnone m := by
    rw [if_neg]
    rintro ⟨hneg, _⟩
    split at h
    · rename_i hn
      rw [if_pos ⟨hneg, hn⟩] at hnone
      cases hnone
    · cases h

def signedTarget (minValue maxValue : Int64) : Target where
  stream negative n :=
    if -2 ^ 63 ≤ signed negative n ∧ signed negative n < 2 ^ 63 then some (signed negative n)
    else none
  fallback negative n :=
    if -2 ^ 63 ≤ signed negative n ∧ signed negative n < 2 ^ 63 then some (signed negative n)
    else none
  within v := minValue.toInt ≤ v ∧ v ≤ maxValue.toInt
  fallback_plus _ := rfl
  fallback_stream _ _ _ h := h
  overflow negative n m hle h := by
    rw [if_neg]
    rintro ⟨hlow, hhigh⟩
    have hn : -2 ^ 63 ≤ signed negative n ∧ signed negative n < 2 ^ 63 := by
      cases negative <;> simp only [signed, Bool.false_eq_true, if_true, if_false] at hlow hhigh ⊢ <;>
        omega
    rw [if_pos hn] at h
    cases h
  refused negative n v h hnone m := by
    rw [hnone] at h
    cases h

/-- What both functions return: what the stream reads within the bounds, or, where the stream
reads nothing, what the fallback makes of the trimmed text within the bounds. -/
def Target.Accepts (t : Target) (text : String) (v : Int) : Prop :=
  t.within v ∧
    ((∃ negative n, readInteger text.toList = some (negative, n) ∧ t.stream negative n = some v) ∨
      ((∀ negative n, readInteger text.toList = some (negative, n) → t.stream negative n = none) ∧
        ∃ negative n, FallbackReads (trimmed text) negative n ∧ t.fallback negative n = some v))

/-- The trimmed text is a decimal or hexadecimal numeral with a sign, of a value of the type
within the bounds. -/
def Target.Lawful (t : Target) (text : String) (v : Int) : Prop :=
  ∃ negative unsigned n, takeSign (trimmed text) = (negative, unsigned) ∧ Denotes unsigned n ∧
    t.stream negative n = some v ∧ t.within v

/-- **The texts that are taken for something else.** -/
inductive Misread (t : Target) (text : String) : Prop where
  /-- A leading zero makes a decimal numeral octal, and the values differ. -/
  | octal {negative : Bool} {digits : List Char} {v : Int} (hblank : ¬ BeginsBlank text)
      (hsign : takeSign (trimmed text) = (negative, '0' :: digits))
      (hdigits : ∀ c ∈ digits, isDigitOf 8 c = true)
      (hread : t.stream negative (ofDigits 8 digits) = some v)
      (hdiffer : t.stream negative (ofDigits 10 digits) ≠ some v)
      (hwithin : t.within v ∨ ∃ w, t.stream negative (ofDigits 10 digits) = some w ∧ t.within w)
  /-- A minus sign that the stream refuses wraps in the fallback. -/
  | wrapped {negative : Bool} {digits : List Char} {v : Int}
      (hsign : takeSign (trimmed text) = (negative, digits)) (hdigits : DigitRun 10 digits)
      (hrefused : t.stream negative (ofDigits 10 digits) = none)
      (hvalue : t.fallback negative (ofDigits 10 digits) = some v) (hwithin : t.within v)
  /-- Behind a blank the stream fails, and the fallback takes no prefix behind a sign. -/
  | signedHex {negative : Bool} {x : Char} {digits : List Char} {v : Int}
      (hblank : BeginsBlank text) (hsign : takeSign (trimmed text) = (negative, '0' :: x :: digits))
      (hsigned : trimmed text ≠ '0' :: x :: digits) (hx : x = 'x' ∨ x = 'X')
      (hdigits : DigitRun 16 digits) (hvalue : t.stream negative (ofDigits 16 digits) = some v)
      (hwithin : t.within v)
  /-- The fallback skips white space that `trim_copy` leaves in front. -/
  | leadingSpace {c : Char} {negative : Bool} {digits : List Char} {v : Int}
      (hc : c ∈ (trimmed text).head?) (hspace : isCSpace c = true)
      (hsign : takeSign ((trimmed text).dropWhile isCSpace) = (negative, digits))
      (hdigits : DigitRun 10 digits) (hvalue : t.fallback negative (ofDigits 10 digits) = some v)
      (hwithin : t.within v)
  /-- The stream skips white space that `trim_copy` leaves behind. -/
  | trailingSpace {negative : Bool} {core trail : List Char} {n : Nat} {v : Int}
      (hblank : ¬ BeginsBlank text) (hsign : takeSign (trimmed text) = (negative, core ++ trail))
      (hcore : Streamed core n) (hne : trail ≠ []) (htrail : ∀ c ∈ trail, isCSpace c = true)
      (hvalue : t.stream negative n = some v) (hwithin : t.within v)

/-! ## The law -/

theorem Denotes.not_isCSpace {unsigned : List Char} {n : Nat} (h : Denotes unsigned n) :
    ∀ c ∈ unsigned, isCSpace c = false := by
  cases h with
  | hexadecimal hx h => exact (Streamed.hexadecimal hx h).not_isCSpace
  | decimal h =>
      intro c hc
      by_contra hspace
      have hdigit := h.digit c hc
      rw [not_isDigitOf_of_isCSpace (by simpa using hspace)] at hdigit
      cases hdigit

theorem not_decimal_of_x {x : Char} (hx : x = 'x' ∨ x = 'X') {digits : List Char} :
    ¬ DigitRun 10 ('0' :: x :: digits) := by
  intro h
  have hdigit := h.digit x (by simp)
  rw [not_isDigitOf_x hx] at hdigit
  cases hdigit

/-- A numeral denotes one number. -/
theorem Denotes.unique {unsigned : List Char} {n m : Nat} (hn : Denotes unsigned n)
    (hm : Denotes unsigned m) : n = m := by
  cases hn with
  | decimal h =>
      cases hm with
      | decimal _ => rfl
      | hexadecimal hx _ => exact absurd h (not_decimal_of_x hx)
  | hexadecimal hx _ =>
      cases hm with
      | decimal h => exact absurd h (not_decimal_of_x hx)
      | hexadecimal _ _ => rfl

theorem ofDigits_zero (base : Nat) (digits : List Char) :
    ofDigits base ('0' :: digits) = ofDigits base digits := rfl

theorem ofDigits_mono {base base' : Nat} (hle : base ≤ base') (digits : List Char) :
    ofDigits base digits ≤ ofDigits base' digits := by
  have hfold : ∀ a b : Nat, a ≤ b →
      digits.foldl (fun n c => base * n + (digit? c).getD 0) a ≤
        digits.foldl (fun n c => base' * n + (digit? c).getD 0) b := by
    induction digits with
    | nil => exact fun a b hab => hab
    | cons c digits ih =>
        intro a b hab
        exact ih _ _ (Nat.add_le_add_right (Nat.mul_le_mul hle hab) _)
  exact hfold 0 0 le_rfl

/-- A run of octal digits behind a zero is a decimal numeral too. -/
theorem denotes_of_octal {digits : List Char} (h : ∀ c ∈ digits, isDigitOf 8 c = true) :
    Denotes ('0' :: digits) (ofDigits 10 digits) := by
  have hrun : DigitRun 10 ('0' :: digits) := by
    refine ⟨List.cons_ne_nil _ _, fun c hc => ?_⟩
    rcases List.mem_cons.mp hc with rfl | hc
    · decide
    · exact isDigitOf_mono (by decide) (h c hc)
  exact .decimal hrun

/-- What the stream reads of a text, by its trimmed text. -/
theorem reads_iff {text : String} {negative : Bool} {n : Nat} :
    readInteger text.toList = some (negative, n) ↔ ¬ BeginsBlank text ∧
      ∃ core trail, takeSign (trimmed text) = (negative, core ++ trail) ∧
        (∀ c ∈ trail, isCSpace c = true) ∧ Streamed core n := by
  constructor
  · intro h
    have hblank : ¬ BeginsBlank text := by
      intro hblank
      rw [not_streamed_of_beginsBlank hblank] at h
      cases h
    rw [readInteger_trimmed hblank] at h
    exact ⟨hblank, readInteger_iff.mp h⟩
  · rintro ⟨hblank, h⟩
    rw [readInteger_trimmed hblank]
    exact readInteger_iff.mpr h

theorem reads_of_streamed {text : String} {negative : Bool} {core : List Char} {n : Nat}
    (hblank : ¬ BeginsBlank text) (hsign : takeSign (trimmed text) = (negative, core))
    (hcore : Streamed core n) : readInteger text.toList = some (negative, n) :=
  reads_iff.mpr ⟨hblank, core, [], by rw [hsign, List.append_nil], by simp, hcore⟩

/-- A numeral is not preceded by white space. -/
theorem dropWhile_isCSpace {text unsigned : List Char} {negative : Bool}
    (hsign : takeSign text = (negative, unsigned)) (h : ∀ c ∈ unsigned, isCSpace c = false) :
    text.dropWhile isCSpace = text := by
  cases text with
  | nil => rfl
  | cons c text =>
      by_cases hc : isCSpace c = true
      · rw [takeSign_of_isCSpace hc] at hsign
        cases hsign
        have hspace := h c List.mem_cons_self
        rw [hc] at hspace
        cases hspace
      · rw [List.dropWhile_cons_of_neg hc]

/-- The digits behind a zero are octal where the stream reads the numeral. -/
theorem octal_of_reads {text : String} {rest : List Char} {negative negative' : Bool} {n : Nat}
    (hsign : takeSign (trimmed text) = (negative, '0' :: rest)) (hrun : DigitRun 10 ('0' :: rest))
    (hread : readInteger text.toList = some (negative', n)) :
    ∀ c ∈ rest, isDigitOf 8 c = true := by
  obtain ⟨_, core, trail, hsign', htrail, hcore⟩ := reads_iff.mp hread
  rw [hsign, Prod.mk.injEq] at hsign'
  have hnil : trail = [] := by
    by_contra hne
    obtain ⟨c, more, rfl⟩ := List.exists_cons_of_ne_nil hne
    have hspace := htrail c List.mem_cons_self
    have hdigit := hrun.digit c (by rw [hsign'.2]; simp)
    rw [not_isDigitOf_of_isCSpace hspace] at hdigit
    cases hdigit
  rw [hnil, List.append_nil] at hsign'
  obtain ⟨-, rfl⟩ := hsign'
  cases hcore with
  | hexadecimal hx _ => exact absurd hrun (not_decimal_of_x hx)
  | octal h => exact h
  | decimal _ hzero => exact absurd rfl hzero

section

variable {t : Target} {text : String}

theorem Target.lawful_of_accepts (h : ¬ Misread t text) {v : Int} (hv : t.Accepts text v) :
    t.Lawful text v := by
  obtain ⟨hwithin, ⟨negative, n, hread, hvalue⟩ | ⟨hnone, negative, n, hread, hvalue⟩⟩ := hv
  · obtain ⟨hblank, core, trail, hsign, htrail, hcore⟩ := reads_iff.mp hread
    have hnil : trail = [] := by
      by_contra hne
      exact h (.trailingSpace hblank hsign hcore hne htrail hvalue hwithin)
    rw [hnil, List.append_nil] at hsign
    cases hcore with
    | hexadecimal hx hrun => exact ⟨_, _, _, hsign, .hexadecimal hx hrun, hvalue, hwithin⟩
    | decimal hrun _ => exact ⟨_, _, _, hsign, .decimal hrun, hvalue, hwithin⟩
    | @octal digits hdigits =>
        by_cases hsame : t.stream negative (ofDigits 10 digits) = some v
        · exact ⟨_, _, _, hsign, denotes_of_octal hdigits, hsame, hwithin⟩
        · exact absurd (.octal hblank hsign hdigits hvalue hsame (Or.inl hwithin)) h
  · generalize htrimmed : trimmed text = token at hread
    cases hread with
    | hexadecimal hx hrun =>
        rw [t.fallback_plus] at hvalue
        refine ⟨_, _, _, ?_, .hexadecimal hx hrun, hvalue, hwithin⟩
        rw [htrimmed]
        rfl
    | @decimal _ digits _ hsign hrun =>
        rw [← htrimmed] at hsign
        by_cases hspace : ∃ c ∈ (trimmed text).head?, isCSpace c = true
        · obtain ⟨c, hc, hspace⟩ := hspace
          exact absurd (.leadingSpace hc hspace hsign hrun hvalue hwithin) h
        · have hdrop : (trimmed text).dropWhile isCSpace = trimmed text := by
            cases hlist : trimmed text with
            | nil => rfl
            | cons c rest =>
                refine List.dropWhile_cons_of_neg fun hc => hspace ⟨c, ?_, hc⟩
                rw [hlist]
                rfl
          rw [hdrop] at hsign
          cases hstream : t.stream negative (ofDigits 10 digits) with
          | none => exact absurd (.wrapped hsign hrun hstream hvalue hwithin) h
          | some w =>
              have hw := t.fallback_stream _ _ _ hstream
              rw [hvalue] at hw
              cases hw
              exact ⟨_, _, _, hsign, .decimal hrun, hstream, hwithin⟩

theorem Target.accepts_of_lawful (h : ¬ Misread t text) {v : Int} (hv : t.Lawful text v) :
    t.Accepts text v := by
  obtain ⟨negative, unsigned, n, hsign, hdenotes, hvalue, hwithin⟩ := hv
  refine ⟨hwithin, ?_⟩
  have hdrop := dropWhile_isCSpace hsign hdenotes.not_isCSpace
  -- The fallback reads every decimal numeral.
  have hdecimal : ∀ {digits : List Char}, takeSign (trimmed text) = (negative, digits) →
      DigitRun 10 digits → FallbackReads (trimmed text) negative (ofDigits 10 digits) :=
    fun hsign hrun => .decimal (by rw [hdrop, hsign]) hrun
  by_cases hblank : BeginsBlank text
  · have hnone := not_streamed_of_beginsBlank hblank
    refine Or.inr ⟨fun negative n hread => ?_, ?_⟩
    · rw [hnone] at hread
      cases hread
    · cases hdenotes with
      | decimal hrun => exact ⟨_, _, hdecimal hsign hrun, t.fallback_stream _ _ _ hvalue⟩
      | @hexadecimal x digits hx hrun =>
          by_cases hsigned : trimmed text = '0' :: x :: digits
          · have hsame := hsign
            rw [hsigned] at hsame ⊢
            cases hsame
            exact ⟨_, _, .hexadecimal hx hrun, t.fallback_stream _ _ _ hvalue⟩
          · exact absurd (.signedHex hblank hsign hsigned hx hrun hvalue hwithin) h
  · cases hdenotes with
    | hexadecimal hx hrun =>
        exact Or.inl ⟨_, _, reads_of_streamed hblank hsign (.hexadecimal hx hrun), hvalue⟩
    | decimal hrun =>
        by_cases hzero : '0' ∈ unsigned.head?
        · obtain ⟨rest, rfl⟩ := List.head?_eq_some_iff.mp hzero
          by_cases hoctal : ∀ c ∈ rest, isDigitOf 8 c = true
          · -- The stream reads the numeral in base eight.
            rw [ofDigits_zero] at hvalue
            cases hstream : t.stream negative (ofDigits 8 rest) with
            | none =>
                rw [t.overflow _ _ _ (ofDigits_mono (show 8 ≤ 10 by decide) rest) hstream] at hvalue
                cases hvalue
            | some w =>
                by_cases hsame : w = v
                · subst hsame
                  exact Or.inl ⟨_, _, reads_of_streamed hblank hsign (.octal hoctal), hstream⟩
                · refine absurd (.octal hblank hsign hoctal hstream ?_
                    (Or.inr ⟨v, hvalue, hwithin⟩)) h
                  exact fun heq => hsame (Option.some.inj (heq.symm.trans hvalue))
          · refine Or.inr ⟨fun negative' n' hread => ?_, _, _, hdecimal hsign hrun,
              t.fallback_stream _ _ _ hvalue⟩
            exact absurd (octal_of_reads hsign hrun hread) hoctal
        · exact Or.inl ⟨_, _, reads_of_streamed hblank hsign (.decimal hrun hzero), hvalue⟩

/-- What is misread is accepted and not lawful, or the other way round. -/
theorem Misread.differs (h : Misread t text) : ∃ v, ¬ (t.Accepts text v ↔ t.Lawful text v) := by
  cases h with
  | @octal negative digits v hblank hsign hdigits hread hdiffer hwithin =>
      have hreads := reads_of_streamed hblank hsign (.octal hdigits)
      rcases hwithin with hwithin | ⟨w, hw, hwithin⟩
      · refine ⟨v, fun hiff => ?_⟩
        obtain ⟨_, _, _, hsign', hdenotes, hvalue, _⟩ :=
          hiff.mp ⟨hwithin, Or.inl ⟨_, _, hreads, hread⟩⟩
        cases hsign.symm.trans hsign'
        rw [hdenotes.unique (denotes_of_octal hdigits)] at hvalue
        exact hdiffer hvalue
      · refine ⟨w, fun hiff => ?_⟩
        obtain ⟨_, ⟨_, _, hreads', hvalue⟩ | ⟨hnone, _⟩⟩ :=
          hiff.mpr ⟨_, _, _, hsign, denotes_of_octal hdigits, hw, hwithin⟩
        · cases hreads.symm.trans hreads'
          cases hread.symm.trans hvalue
          exact hdiffer hw
        · rw [hnone _ _ hreads] at hread
          cases hread
  | @wrapped negative digits v hsign hdigits hrefused hvalue hwithin =>
      have hspace := (Denotes.decimal hdigits).not_isCSpace
      refine ⟨v, fun hiff => ?_⟩
      have hnone : ∀ negative' n, readInteger text.toList = some (negative', n) →
          t.stream negative' n = none := by
        intro negative' n hreads
        obtain ⟨_, _, _, hsign', _⟩ := reads_iff.mp hreads
        rw [hsign, Prod.mk.injEq] at hsign'
        rw [← hsign'.1]
        exact t.refused _ _ _ hvalue hrefused n
      obtain ⟨_, _, _, hsign', hdenotes, hvalue', _⟩ := hiff.mp ⟨hwithin, Or.inr ⟨hnone, _, _,
        .decimal (by rw [dropWhile_isCSpace hsign hspace, hsign]) hdigits, hvalue⟩⟩
      cases hsign.symm.trans hsign'
      rw [hdenotes.unique (.decimal hdigits), hrefused] at hvalue'
      cases hvalue'
  | @signedHex negative x digits v hblank hsign hsigned hx hdigits hvalue hwithin =>
      refine ⟨v, fun hiff => ?_⟩
      have hspace := (Denotes.hexadecimal hx hdigits).not_isCSpace
      obtain ⟨_, ⟨_, _, hreads, _⟩ | ⟨_, _, _, hreads, _⟩⟩ :=
        hiff.mpr ⟨_, _, _, hsign, .hexadecimal hx hdigits, hvalue, hwithin⟩
      · exact (reads_iff.mp hreads).1 hblank
      · generalize htrimmed : trimmed text = token at hreads
        cases hreads with
        | hexadecimal _ _ =>
            rw [htrimmed] at hsign hsigned
            cases hsign
            exact hsigned rfl
        | decimal hsign' hrun =>
            rw [← htrimmed, dropWhile_isCSpace hsign hspace, hsign] at hsign'
            cases hsign'
            exact not_decimal_of_x hx hrun
  | @leadingSpace c negative digits v hc hspace hsign hdigits hvalue hwithin =>
      obtain ⟨rest, hrest⟩ := List.head?_eq_some_iff.mp hc
      have hwhole : takeSign (trimmed text) = (false, c :: rest) := by
        rw [hrest, takeSign_of_isCSpace hspace]
      refine ⟨v, fun hiff => ?_⟩
      have hnone : ∀ negative' n, readInteger text.toList = some (negative', n) →
          t.stream negative' n = none := by
        intro negative' n hreads
        obtain ⟨_, core, trail, hsign', _, hcore⟩ := reads_iff.mp hreads
        obtain ⟨d, core, rfl⟩ := List.exists_cons_of_ne_nil hcore.ne_nil
        cases hwhole.symm.trans hsign'
        have hd := hcore.not_isCSpace c List.mem_cons_self
        rw [hspace] at hd
        cases hd
      obtain ⟨_, _, _, hsign', hdenotes, _⟩ := hiff.mp ⟨hwithin, Or.inr ⟨hnone, _, _,
        .decimal hsign hdigits, hvalue⟩⟩
      cases hwhole.symm.trans hsign'
      have hd := hdenotes.not_isCSpace c List.mem_cons_self
      rw [hspace] at hd
      cases hd
  | @trailingSpace negative core trail n v hblank hsign hcore hne htrail hvalue hwithin =>
      refine ⟨v, fun hiff => ?_⟩
      have hreads := reads_iff.mpr ⟨hblank, core, trail, hsign, htrail, hcore⟩
      obtain ⟨_, _, _, hsign', hdenotes, _⟩ := hiff.mp ⟨hwithin, Or.inl ⟨_, _, hreads, hvalue⟩⟩
      cases hsign.symm.trans hsign'
      obtain ⟨c, more, rfl⟩ := List.exists_cons_of_ne_nil hne
      have hc := hdenotes.not_isCSpace c (by simp)
      rw [htrail c List.mem_cons_self] at hc
      cases hc

theorem Target.accepts_of_read {negative : Bool} {n : Nat} {v w : Int}
    (hread : readInteger text.toList = some (negative, n)) (hstream : t.stream negative n = some w) :
    t.Accepts text v ↔ t.within v ∧ w = v := by
  constructor
  · rintro ⟨hwithin, ⟨_, _, hread', hvalue⟩ | ⟨hnone, _⟩⟩
    · cases hread.symm.trans hread'
      exact ⟨hwithin, Option.some.inj (hstream.symm.trans hvalue)⟩
    · rw [hnone _ _ hread] at hstream
      cases hstream
  · rintro ⟨hwithin, rfl⟩
    exact ⟨hwithin, Or.inl ⟨_, _, hread, hstream⟩⟩

theorem Target.accepts_of_not_read {v : Int}
    (hnone : ∀ negative n, readInteger text.toList = some (negative, n) →
      t.stream negative n = none) :
    t.Accepts text v ↔ t.within v ∧
      ∃ negative n, FallbackReads (trimmed text) negative n ∧ t.fallback negative n = some v := by
  constructor
  · rintro ⟨hwithin, ⟨_, _, hread, hvalue⟩ | ⟨_, hfallback⟩⟩
    · rw [hnone _ _ hread] at hvalue
      cases hvalue
    · exact ⟨hwithin, hfallback⟩
  · exact fun h => ⟨h.1, Or.inr ⟨hnone, h.2⟩⟩

theorem Target.law_iff :
    (∀ v, t.Accepts text v ↔ t.Lawful text v) ↔ ¬ Misread t text := by
  constructor
  · intro h hmisread
    obtain ⟨v, hv⟩ := hmisread.differs
    exact hv (h v)
  · exact fun h v => ⟨Target.lawful_of_accepts h, Target.accepts_of_lawful h⟩

end

/-! ## The two functions -/

theorem FallbackReads.ne_nil {text : List Char} {negative : Bool} {n : Nat}
    (h : FallbackReads text negative n) : text ≠ [] := by
  rintro rfl
  cases h with
  | decimal hsign hrun =>
      cases hsign
      exact hrun.nonempty rfl

/-- The sign of a text is one. -/
theorem FallbackReads.sign {text unsigned : List Char} {negative negative' : Bool} {n : Nat}
    (h : FallbackReads text negative' n)
    (hsign : takeSign (text.dropWhile isCSpace) = (negative, unsigned)) : negative' = negative := by
  cases h with
  | hexadecimal _ _ => exact congrArg Prod.fst hsign
  | decimal hsign' _ => exact congrArg Prod.fst (hsign'.symm.trans hsign)

theorem stoull_eq_ok {text : List Char} {value : Nat} :
    stoull (fallbackBase text) text = .ok (value, []) ↔
      ∃ negative n, FallbackReads text negative n ∧ n < 2 ^ 64 ∧ wrapped negative n = value := by
  rcases hsign : takeSign (text.dropWhile isCSpace) with ⟨negative, unsigned⟩
  simp only [stoull, hsign]
  constructor
  · intro h
    split at h
    · cases h
    · rename_i hne
      rw [List.isEmpty_iff] at hne
      split at h
      · cases h
      · rename_i hfits
        refine ⟨negative, _, (fallbackReads_iff hsign).mpr ⟨hne, ?_, rfl⟩, by omega, ?_⟩
        · split at h <;> (simp only [Except.ok.injEq, Prod.mk.injEq] at h; exact h.2)
        · split at h
          · rename_i hneg
            simp only [Except.ok.injEq, Prod.mk.injEq] at h
            rw [wrapped, if_pos hneg, h.1]
          · rename_i hneg
            simp only [Except.ok.injEq, Prod.mk.injEq] at h
            rw [wrapped, if_neg hneg, h.1]
  · rintro ⟨negative', n, hreads, hn, hvalue⟩
    have hneg := hreads.sign hsign
    subst hneg
    obtain ⟨hne, hrest, rfl⟩ := (fallbackReads_iff hsign).mp hreads
    rw [if_neg (by rwa [List.isEmpty_iff]), if_neg (by omega), hrest]
    cases negative' with
    | false =>
        simp only [wrapped, Bool.false_eq_true, if_false] at hvalue ⊢
        rw [Nat.cast_injective hvalue]
    | true =>
        simp only [wrapped, if_true] at hvalue ⊢
        rw [Nat.cast_injective hvalue]

theorem stoll_eq {base : Nat} {text unsigned : List Char} {negative : Bool}
    (hsign : takeSign (text.dropWhile isCSpace) = (negative, unsigned)) :
    stoll base text =
      let value := signed negative (ofDigits base (takeNumeral base unsigned).1)
      if (takeNumeral base unsigned).1.isEmpty then .error "stoll"
      else if -2 ^ 63 ≤ value ∧ value < 2 ^ 63 then .ok (value, (takeNumeral base unsigned).2)
      else .error "stoll" := by
  unfold stoll
  rw [hsign]
  rfl

theorem stoll_eq_ok {text : List Char} {value : Int} :
    stoll (fallbackBase text) text = .ok (value, []) ↔
      ∃ negative n, FallbackReads text negative n ∧ signed negative n = value ∧
        -2 ^ 63 ≤ value ∧ value < 2 ^ 63 := by
  rcases hsign : takeSign (text.dropWhile isCSpace) with ⟨negative, unsigned⟩
  simp only [stoll_eq hsign]
  constructor
  · intro h
    split at h
    · cases h
    · rename_i hne
      rw [List.isEmpty_iff] at hne
      split at h
      · rename_i hfits
        simp only [Except.ok.injEq, Prod.mk.injEq] at h
        obtain ⟨rfl, hrest⟩ := h
        exact ⟨negative, _, (fallbackReads_iff hsign).mpr ⟨hne, hrest, rfl⟩, rfl, hfits⟩
      · cases h
  · rintro ⟨negative', n, hreads, rfl, hfits⟩
    have hneg := hreads.sign hsign
    subst hneg
    obtain ⟨hne, hrest, rfl⟩ := (fallbackReads_iff hsign).mp hreads
    rw [if_neg (by rwa [List.isEmpty_iff]), if_pos hfits, hrest]

theorem unsigned_stream_eq_some {maxValue : UInt64} {negative : Bool} {n : Nat} {v : Int} :
    (unsignedTarget maxValue).stream negative n = some v ↔
      negative = false ∧ n < 2 ^ 64 ∧ (n : Int) = v := by
  simp only [unsignedTarget]
  split
  · rename_i h
    simp only [Option.some.injEq, h.1, h.2, true_and]
  · rename_i h
    simp only [reduceCtorEq, false_iff]
    exact fun hv => h ⟨hv.1, hv.2.1⟩

theorem readUnsigned_eq_some {maxValue : UInt64} {text : String} {v : Nat} :
    readUnsigned (2 ^ 64 - 1) text = some v ↔ ∃ negative n,
      readInteger text.toList = some (negative, n) ∧
        (unsignedTarget maxValue).stream negative n = some (v : Int) := by
  simp only [unsigned_stream_eq_some, readUnsigned]
  constructor
  · intro h
    split at h
    · rename_i n hread
      split at h
      · rename_i hfits
        cases h
        exact ⟨false, v, hread, rfl, by omega, rfl⟩
      · cases h
    · cases h
  · rintro ⟨negative, n, hread, rfl, hfits, hv⟩
    rw [hread]
    have hnv : n = v := by exact_mod_cast hv
    simp only [hnv]
    rw [if_pos (by omega)]

theorem parseIntegerValue_read {text context : String} {maxValue w v : Nat}
    (h : readUnsigned (2 ^ 64 - 1) text = some w) :
    parseIntegerValue (some (.scalar text)) maxValue context = .ok v ↔ v ≤ maxValue ∧ w = v := by
  simp only [parseIntegerValue, h]
  split
  · simp only [reduceCtorEq, false_iff]
    rintro ⟨hle, rfl⟩
    omega
  · simp only [Except.ok.injEq]
    exact ⟨fun h => ⟨by omega, h⟩, fun h => h.2⟩

theorem parseIntegerValue_fallback {text context : String} {maxValue v : Nat}
    (h : readUnsigned (2 ^ 64 - 1) text = none) :
    parseIntegerValue (some (.scalar text)) maxValue context = .ok v ↔ v ≤ maxValue ∧
      ∃ negative n, FallbackReads (trimmed text) negative n ∧ n < 2 ^ 64 ∧
        wrapped negative n = v := by
  simp only [parseIntegerValue, h, bind_eq_ok, require_eq_ok, pure_eq_ok]
  rw [← trimmed]
  constructor
  · rintro ⟨_, -, ⟨value, rest⟩, hstoull, _, hbound, rfl⟩
    simp only [Bool.and_eq_true, decide_eq_true_eq, List.isEmpty_iff] at hbound
    obtain ⟨rfl, hle⟩ := hbound
    exact ⟨hle, stoull_eq_ok.mp hstoull⟩
  · rintro ⟨hle, negative, n, hreads, hvalue⟩
    refine ⟨(), by simp [hreads.ne_nil], (v, []), stoull_eq_ok.mpr ⟨negative, n, hreads, hvalue⟩,
      (), ?_, rfl⟩
    simp [hle]

/-- **`parse_integer_value` is the target of `uint64_t`.** -/
theorem parseIntegerValue_eq_ok {text context : String} {maxValue : UInt64} {v : Nat} :
    parseIntegerValue (some (.scalar text)) maxValue.toNat context = .ok v ↔
      (unsignedTarget maxValue).Accepts text v := by
  have hwithin : (unsignedTarget maxValue).within v ↔ v ≤ maxValue.toNat := by
    simp [unsignedTarget]
  cases hread : readUnsigned (2 ^ 64 - 1) text with
  | some w =>
      obtain ⟨negative, n, hreads, hstream⟩ :=
        (@readUnsigned_eq_some maxValue _ _).mp hread
      rw [parseIntegerValue_read hread, Target.accepts_of_read hreads hstream, hwithin, Nat.cast_inj]
  | none =>
      have hnone : ∀ negative n, readInteger text.toList = some (negative, n) →
          (unsignedTarget maxValue).stream negative n = none := by
        intro negative n hreads
        rw [Option.eq_none_iff_forall_ne_some]
        intro w hw
        obtain ⟨rfl, hn, rfl⟩ := unsigned_stream_eq_some.mp hw
        rw [readUnsigned_eq_some.mpr ⟨_, _, hreads, hw⟩] at hread
        cases hread
      rw [parseIntegerValue_fallback hread, Target.accepts_of_not_read hnone, hwithin]
      have hfallback : ∀ negative n, (unsignedTarget maxValue).fallback negative n = some (v : Int) ↔
          n < 2 ^ 64 ∧ wrapped negative n = v := by
        intro negative n
        simp only [unsignedTarget]
        split
        · rename_i hn
          simp only [Option.some.injEq, hn, true_and]
        · rename_i hn
          simp only [reduceCtorEq, hn, false_and]
      simp only [hfallback]

theorem readSigned_eq {text : String} {low high : Int64} :
    readSigned (-2 ^ 63) (2 ^ 63 - 1) text = (readInteger text.toList).bind
      fun read => (signedTarget low high).stream read.1 read.2 := by
  unfold readSigned
  cases readInteger text.toList with
  | none => rfl
  | some read =>
      simp only [signedTarget, signed, Option.bind_some]
      refine if_congr ?_ rfl rfl
      constructor <;> (intro h; omega)

theorem parseSignedIntegerValue_read {text context : String} {low high w v : Int}
    (h : readSigned (-2 ^ 63) (2 ^ 63 - 1) text = some w) :
    parseSignedIntegerValue (some (.scalar text)) low high context = .ok v ↔
      (low ≤ v ∧ v ≤ high) ∧ w = v := by
  simp only [parseSignedIntegerValue, h]
  split
  · simp only [reduceCtorEq, false_iff]
    rintro ⟨hle, rfl⟩
    omega
  · simp only [Except.ok.injEq]
    exact ⟨fun h => ⟨by omega, h⟩, fun h => h.2⟩

theorem parseSignedIntegerValue_fallback {text context : String} {low high v : Int}
    (h : readSigned (-2 ^ 63) (2 ^ 63 - 1) text = none) :
    parseSignedIntegerValue (some (.scalar text)) low high context = .ok v ↔
      (low ≤ v ∧ v ≤ high) ∧ ∃ negative n, FallbackReads (trimmed text) negative n ∧
        signed negative n = v ∧ -2 ^ 63 ≤ v ∧ v < 2 ^ 63 := by
  simp only [parseSignedIntegerValue, h, bind_eq_ok, require_eq_ok, pure_eq_ok]
  rw [← trimmed]
  constructor
  · rintro ⟨_, -, ⟨value, rest⟩, hstoll, _, hbound, rfl⟩
    simp only [Bool.and_eq_true, decide_eq_true_eq, List.isEmpty_iff] at hbound
    obtain ⟨⟨rfl, hlow⟩, hhigh⟩ := hbound
    exact ⟨⟨hlow, hhigh⟩, stoll_eq_ok.mp hstoll⟩
  · rintro ⟨⟨hlow, hhigh⟩, negative, n, hreads, hvalue⟩
    refine ⟨(), by simp [hreads.ne_nil], (v, []), stoll_eq_ok.mpr ⟨negative, n, hreads, hvalue⟩,
      (), ?_, rfl⟩
    simp [hlow, hhigh]

/-- **`parse_signed_integer_value` is the target of `int64_t`.** -/
theorem parseSignedIntegerValue_eq_ok {text context : String} {low high : Int64} {v : Int} :
    parseSignedIntegerValue (some (.scalar text)) low.toInt high.toInt context = .ok v ↔
      (signedTarget low high).Accepts text v := by
  have hwithin : (signedTarget low high).within v ↔ low.toInt ≤ v ∧ v ≤ high.toInt := Iff.rfl
  have hread := @readSigned_eq text low high
  cases hvalue : readSigned (-2 ^ 63) (2 ^ 63 - 1) text with
  | some w =>
      rw [hvalue] at hread
      obtain ⟨⟨negative, n⟩, hreads, hstream⟩ := Option.bind_eq_some_iff.mp hread.symm
      rw [parseSignedIntegerValue_read hvalue, Target.accepts_of_read hreads hstream, hwithin]
  | none =>
      rw [hvalue] at hread
      have hnone : ∀ negative n, readInteger text.toList = some (negative, n) →
          (signedTarget low high).stream negative n = none := by
        intro negative n hreads
        rw [hreads] at hread
        exact hread.symm
      rw [parseSignedIntegerValue_fallback hvalue, Target.accepts_of_not_read hnone, hwithin]
      have hfallback : ∀ negative n, (signedTarget low high).fallback negative n = some v ↔
          signed negative n = v ∧ -2 ^ 63 ≤ v ∧ v < 2 ^ 63 := by
        intro negative n
        simp only [signedTarget]
        split
        · rename_i hn
          simp only [Option.some.injEq]
          exact ⟨fun h => ⟨h, h ▸ hn⟩, fun h => h.1⟩
        · rename_i hn
          simp only [reduceCtorEq, false_iff]
          rintro ⟨rfl, h⟩
          exact hn h
      simp only [hfallback]

/-! ## What the texts denote -/

/-- The trimmed text is a numeral without a minus sign that denotes the value. -/
def DenotesUnsigned (text : String) (v : Nat) : Prop :=
  ∃ unsigned, takeSign (trimmed text) = (false, unsigned) ∧ Denotes unsigned v

/-- The trimmed text is a numeral with an optional sign that denotes the value. -/
def DenotesSigned (text : String) (v : Int) : Prop :=
  ∃ negative unsigned n, takeSign (trimmed text) = (negative, unsigned) ∧ Denotes unsigned n ∧
    signed negative n = v

theorem unsigned_lawful {text : String} {maxValue : UInt64} {v : Int} :
    (unsignedTarget maxValue).Lawful text v ↔
      ∃ n : Nat, n = v ∧ DenotesUnsigned text n ∧ n ≤ maxValue.toNat := by
  unfold Target.Lawful DenotesUnsigned
  simp only [unsigned_stream_eq_some]
  constructor
  · rintro ⟨negative, unsigned, n, hsign, hdenotes, ⟨rfl, _, rfl⟩, hwithin⟩
    refine ⟨n, rfl, ⟨unsigned, hsign, hdenotes⟩, ?_⟩
    simpa [unsignedTarget] using hwithin
  · rintro ⟨n, rfl, ⟨unsigned, hsign, hdenotes⟩, hle⟩
    have hmax : maxValue.toNat < 2 ^ 64 := maxValue.toNat_lt
    refine ⟨false, unsigned, n, hsign, hdenotes, ⟨rfl, by omega, rfl⟩, ?_⟩
    simpa [unsignedTarget] using hle

theorem unsigned_accepts_nat {text : String} {maxValue : UInt64} {v : Int}
    (h : (unsignedTarget maxValue).Accepts text v) : ∃ n : Nat, n = v := by
  obtain ⟨_, ⟨_, n, _, hvalue⟩ | ⟨_, negative, n, _, hvalue⟩⟩ := h
  · exact ⟨n, (unsigned_stream_eq_some.mp hvalue).2.2⟩
  · simp only [unsignedTarget] at hvalue
    split at hvalue
    · rw [← Option.some.inj hvalue, wrapped]
      split
      · exact ⟨_, rfl⟩
      · exact ⟨n, rfl⟩
    · cases hvalue

theorem signed_lawful {text : String} {low high : Int64} {v : Int} :
    (signedTarget low high).Lawful text v ↔
      DenotesSigned text v ∧ low.toInt ≤ v ∧ v ≤ high.toInt := by
  unfold Target.Lawful DenotesSigned
  constructor
  · rintro ⟨negative, unsigned, n, hsign, hdenotes, hvalue, hwithin⟩
    simp only [signedTarget] at hvalue
    split at hvalue
    · exact ⟨⟨_, _, _, hsign, hdenotes, Option.some.inj hvalue⟩, hwithin⟩
    · cases hvalue
  · rintro ⟨⟨negative, unsigned, n, hsign, hdenotes, rfl⟩, hwithin⟩
    have hlow := low.le_toInt
    have hhigh := high.toInt_lt
    refine ⟨negative, unsigned, n, hsign, hdenotes, if_pos ⟨?_, ?_⟩, hwithin⟩ <;> omega

/-- **The two functions return the number that the trimmed text denotes unless the text is
misread.** -/
theorem bounded_integers_law (text context : String) (maxValue : UInt64) (low high : Int64) :
    ((∀ v : Nat, parseIntegerValue (some (.scalar text)) maxValue.toNat context = .ok v ↔
        DenotesUnsigned text v ∧ v ≤ maxValue.toNat) ↔
      ¬ Misread (unsignedTarget maxValue) text) ∧
    ((∀ v : Int, parseSignedIntegerValue (some (.scalar text)) low.toInt high.toInt context = .ok v ↔
        DenotesSigned text v ∧ low.toInt ≤ v ∧ v ≤ high.toInt) ↔
      ¬ Misread (signedTarget low high) text) := by
  constructor
  · rw [← Target.law_iff]
    simp only [parseIntegerValue_eq_ok, unsigned_lawful]
    constructor
    · intro h v
      constructor
      · intro hv
        obtain ⟨n, rfl⟩ := unsigned_accepts_nat hv
        exact ⟨n, rfl, (h n).mp hv⟩
      · rintro ⟨n, rfl, hlaw⟩
        exact (h n).mpr hlaw
    · intro h v
      rw [h v]
      constructor
      · rintro ⟨n, hn, hlaw⟩
        rwa [← Nat.cast_injective hn]
      · exact fun hlaw => ⟨v, rfl, hlaw⟩
  · rw [← Target.law_iff]
    simp only [parseSignedIntegerValue_eq_ok, signed_lawful]

/-- The laws fail at the text of a leading zero: a byte of `010` is eight. -/
theorem bounded_integers_octal :
    ¬ ((∀ v : Nat, parseIntegerValue (some (.scalar "010")) (255 : UInt64).toNat "at" = .ok v ↔
        DenotesUnsigned "010" v ∧ v ≤ (255 : UInt64).toNat) ∧
      ∀ v : Int, parseSignedIntegerValue (some (.scalar "010")) (-128 : Int64).toInt
        (127 : Int64).toInt "at" = .ok v ↔
          DenotesSigned "010" v ∧ (-128 : Int64).toInt ≤ v ∧ v ≤ (127 : Int64).toInt) := by
  rintro ⟨h, -⟩
  have hdecimal : Denotes ['0', '1', '0'] (ofDigits 10 ['0', '1', '0']) := by
    refine @denotes_of_octal ['1', '0'] fun c hc => ?_
    simp only [List.mem_cons, List.not_mem_nil, or_false] at hc
    rcases hc with rfl | rfl <;> decide
  have hten := (h 10).mpr ⟨⟨['0', '1', '0'], by decide +kernel, hdecimal⟩, by decide⟩
  have height : parseIntegerValue (some (.scalar "010")) (255 : UInt64).toNat "at" = .ok 8 := by
    decide +kernel
  rw [height] at hten
  cases hten

end UavBluetooth.Config
