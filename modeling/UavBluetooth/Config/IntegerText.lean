import UavBluetooth.Config.Scalars

set_option autoImplicit false

/-! # Texts of integers

`parse_integer_value` and `parse_signed_integer_value` try two conversions: yaml-cpp's stream,
which detects the base, and `strtoull` or `strtoll` on the trimmed text. This module says which
texts each conversion reads, and as what, beside the decimal or hexadecimal numeral a text is.
-/

namespace UavBluetooth.Config

open Fallible Util Yaml

/-! ## Numerals -/

/-- One or more digits of a base. -/
structure DigitRun (base : Nat) (digits : List Char) : Prop where
  nonempty : digits ≠ []
  digit : ∀ c ∈ digits, isDigitOf base c = true

/-- A decimal or hexadecimal numeral without its sign. -/
inductive Denotes : List Char → Nat → Prop where
  | decimal {digits : List Char} (h : DigitRun 10 digits) : Denotes digits (ofDigits 10 digits)
  | hexadecimal {x : Char} {digits : List Char} (hx : x = 'x' ∨ x = 'X') (h : DigitRun 16 digits) :
      Denotes ('0' :: x :: digits) (ofDigits 16 digits)

/-- What a stream that detects the base reads. -/
inductive Streamed : List Char → Nat → Prop where
  | hexadecimal {x : Char} {digits : List Char} (hx : x = 'x' ∨ x = 'X') (h : DigitRun 16 digits) :
      Streamed ('0' :: x :: digits) (ofDigits 16 digits)
  | octal {digits : List Char} (h : ∀ c ∈ digits, isDigitOf 8 c = true) :
      Streamed ('0' :: digits) (ofDigits 8 digits)
  | decimal {digits : List Char} (h : DigitRun 10 digits) (hzero : '0' ∉ digits.head?) :
      Streamed digits (ofDigits 10 digits)

theorem digit?_lt {base : Nat} {c : Char} (h : isDigitOf base c = true) :
    ∃ d, digit? c = some d ∧ d < base := by
  unfold isDigitOf at h
  cases hd : digit? c with
  | none => rw [hd] at h; cases h
  | some d =>
      rw [hd] at h
      exact ⟨d, rfl, by simpa using h⟩

theorem isDigitOf_mono {base base' : Nat} (hle : base ≤ base') {c : Char}
    (h : isDigitOf base c = true) : isDigitOf base' c = true := by
  obtain ⟨d, hd, hlt⟩ := digit?_lt h
  unfold isDigitOf
  rw [hd]
  simpa using lt_of_lt_of_le hlt hle

theorem not_isDigitOf {c : Char} (h : digit? c = none) (base : Nat) : isDigitOf base c = false := by
  unfold isDigitOf
  rw [h]
  rfl

theorem not_isDigitOf_of_isCSpace {c : Char} (h : isCSpace c = true) (base : Nat) :
    isDigitOf base c = false := by
  refine not_isDigitOf ?_ base
  simp only [isCSpace, Bool.or_eq_true, beq_iff_eq, or_assoc] at h
  rcases h with rfl | rfl | rfl | rfl | rfl | rfl <;> decide

theorem not_isDigitOf_x {x : Char} (hx : x = 'x' ∨ x = 'X') (base : Nat) :
    isDigitOf base x = false := by
  refine not_isDigitOf ?_ base
  rcases hx with rfl | rfl <;> decide

theorem isCSpace_of_isSpace {c : Char} (h : isSpace c = true) : isCSpace c = true := by
  simp only [isSpace, Bool.or_eq_true, beq_iff_eq, or_assoc] at h
  rcases h with rfl | rfl | rfl | rfl <;> decide

/-- The digits in front of a text that goes on with something else. -/
theorem span_digits {p : Char → Bool} {digits rest : List Char} (hdigits : ∀ c ∈ digits, p c = true)
    (hrest : ∀ c ∈ rest.head?, p c = false) :
    (digits ++ rest).takeWhile p = digits ∧ (digits ++ rest).dropWhile p = rest := by
  rw [List.takeWhile_append_of_pos hdigits, List.dropWhile_append_of_pos hdigits]
  cases rest with
  | nil => simp
  | cons c rest =>
      have hc := hrest c rfl
      simp [hc]

theorem head_of_isCSpace {rest : List Char} (h : ∀ c ∈ rest, isCSpace c = true) (base : Nat) :
    ∀ c ∈ rest.head?, isDigitOf base c = false :=
  fun c hc => not_isDigitOf_of_isCSpace (h c (List.mem_of_mem_head? hc)) base

/-- A numeral holds no white space. -/
theorem Streamed.not_isCSpace {core : List Char} {n : Nat} (h : Streamed core n) :
    ∀ c ∈ core, isCSpace c = false := by
  have hdigit : ∀ {base : Nat} {c : Char}, isDigitOf base c = true → isCSpace c = false := by
    intro base c hc
    by_contra hspace
    rw [not_isDigitOf_of_isCSpace (by simpa using hspace)] at hc
    cases hc
  intro c hc
  cases h with
  | hexadecimal hx h =>
      rcases List.mem_cons.mp hc with rfl | hc
      · rfl
      · rcases List.mem_cons.mp hc with rfl | hc
        · rcases hx with rfl | rfl <;> rfl
        · exact hdigit (h.digit c hc)
  | octal h =>
      rcases List.mem_cons.mp hc with rfl | hc
      · rfl
      · exact hdigit (h c hc)
  | decimal h _ => exact hdigit (h.digit c hc)

/-! ## The stream -/

theorem detectBase_x {x : Char} (hx : x = 'x' ∨ x = 'X') (rest : List Char) :
    detectBase ('0' :: x :: rest) = (16, false, rest) := by
  rcases hx with rfl | rfl <;> rfl

theorem detectBase_zero {rest : List Char} (h : ∀ c ∈ rest.head?, c ≠ 'x' ∧ c ≠ 'X') :
    detectBase ('0' :: rest) = (8, true, rest) := by
  cases rest with
  | nil => rfl
  | cons c rest =>
      obtain ⟨hx, hX⟩ := h c rfl
      simp [detectBase, hx, hX]

theorem detectBase_other {text : List Char} (h : '0' ∉ text.head?) :
    detectBase text = (10, false, text) := by
  cases text with
  | nil => rfl
  | cons c rest =>
      have hc : c ≠ '0' := fun heq => h (by simp [heq])
      simp [detectBase, hc]

/-- What `readInteger` makes of a text after its sign and base are known. -/
theorem readInteger_eq {text unsigned rest : List Char} {negative seen : Bool} {base : Nat}
    (hsign : takeSign text = (negative, unsigned)) (hbase : detectBase unsigned = (base, seen, rest)) :
    readInteger text =
      if (rest.takeWhile (isDigitOf base)).isEmpty && !seen then none
      else if (rest.dropWhile (isDigitOf base)).all isCSpace then
        some (negative, ofDigits base (rest.takeWhile (isDigitOf base)))
      else none := by
  unfold readInteger
  simp only [hsign, hbase]

theorem readInteger_digits {text unsigned digits trail : List Char} {negative seen : Bool}
    {base : Nat} (hsign : takeSign text = (negative, unsigned))
    (hbase : detectBase unsigned = (base, seen, digits ++ trail))
    (hdigits : ∀ c ∈ digits, isDigitOf base c = true) (hsome : digits ≠ [] ∨ seen = true)
    (htrail : ∀ c ∈ trail, isCSpace c = true) :
    readInteger text = some (negative, ofDigits base digits) := by
  obtain ⟨htake, hdrop⟩ := span_digits hdigits (head_of_isCSpace htrail base)
  rw [readInteger_eq hsign hbase, htake, hdrop, if_neg, if_pos (List.all_eq_true.mpr htrail)]
  rcases hsome with hne | hseen
  · simp [hne]
  · simp [hseen]

/-- The stream reads a numeral and the white space behind it. -/
theorem readInteger_iff {text : List Char} {negative : Bool} {n : Nat} :
    readInteger text = some (negative, n) ↔ ∃ core trail, takeSign text = (negative, core ++ trail) ∧
      (∀ c ∈ trail, isCSpace c = true) ∧ Streamed core n := by
  constructor
  · intro h
    rcases hsign : takeSign text with ⟨sign, unsigned⟩
    rcases hbase : detectBase unsigned with ⟨base, seen, rest⟩
    rw [readInteger_eq hsign hbase] at h
    split at h
    · cases h
    · rename_i hsome
      split at h
      · rename_i htrail
        cases h
        have hspace : ∀ c ∈ rest.dropWhile (isDigitOf base), isCSpace c = true :=
          List.all_eq_true.mp htrail
        have hdigit : ∀ c ∈ rest.takeWhile (isDigitOf base), isDigitOf base c = true :=
          fun c hc => List.mem_takeWhile_imp hc
        have hsplit : rest.takeWhile (isDigitOf base) ++ rest.dropWhile (isDigitOf base) = rest :=
          List.takeWhile_append_dropWhile
        have hrun : seen = false → DigitRun base (rest.takeWhile (isDigitOf base)) := by
          intro hseen
          refine ⟨fun hnil => ?_, hdigit⟩
          simp [hnil, hseen] at hsome
        -- The base that was detected says how the text begins.
        by_cases hx : ∃ x rest', unsigned = '0' :: x :: rest' ∧ (x = 'x' ∨ x = 'X')
        · obtain ⟨x, rest', rfl, hx⟩ := hx
          rw [detectBase_x hx] at hbase
          cases hbase
          refine ⟨'0' :: x :: rest.takeWhile (isDigitOf 16), rest.dropWhile (isDigitOf 16), ?_,
            hspace, .hexadecimal hx (hrun rfl)⟩
          rw [List.cons_append, List.cons_append, hsplit]
        · by_cases hzero : '0' ∈ unsigned.head?
          · obtain ⟨rest', rfl⟩ := List.head?_eq_some_iff.mp hzero
            have hnot : ∀ c ∈ rest'.head?, c ≠ 'x' ∧ c ≠ 'X' := by
              intro c hc
              obtain ⟨rest'', rfl⟩ := List.head?_eq_some_iff.mp hc
              exact ⟨fun heq => hx ⟨c, rest'', rfl, Or.inl heq⟩,
                fun heq => hx ⟨c, rest'', rfl, Or.inr heq⟩⟩
            rw [detectBase_zero hnot] at hbase
            cases hbase
            refine ⟨'0' :: rest.takeWhile (isDigitOf 8), rest.dropWhile (isDigitOf 8), ?_, hspace,
              .octal hdigit⟩
            rw [List.cons_append, hsplit]
          · rw [detectBase_other hzero] at hbase
            cases hbase
            refine ⟨unsigned.takeWhile (isDigitOf 10), unsigned.dropWhile (isDigitOf 10), ?_, hspace,
              .decimal (hrun rfl) (fun hhead => hzero ?_)⟩
            · rw [hsplit]
            · rw [← hsplit, List.head?_append, Option.mem_def.mp hhead]
              rfl
      · cases h
  · rintro ⟨core, trail, hsign, htrail, hcore⟩
    cases hcore with
    | hexadecimal hx h =>
        exact readInteger_digits hsign (detectBase_x hx _) h.digit (Or.inl h.nonempty) htrail
    | @octal digits h =>
        refine readInteger_digits hsign (detectBase_zero fun c hc => ?_) h (Or.inr rfl) htrail
        cases digits with
        | nil =>
            have hspace := htrail c (List.mem_of_mem_head? hc)
            constructor <;> (rintro rfl; cases hspace)
        | cons d digits =>
            have hdigit := h d List.mem_cons_self
            have hcd : d = c := by simpa using hc
            subst hcd
            constructor <;> (rintro rfl; cases hdigit)
    | decimal h hzero =>
        refine readInteger_digits hsign (detectBase_other fun hhead => hzero ?_) h.digit
          (Or.inl h.nonempty) htrail
        rw [List.head?_append_of_ne_nil _ h.nonempty] at hhead
        exact hhead

/-! ## The trimmed text -/

/-- The text `trim_copy` leaves. -/
def trimmed (text : String) : List Char := Strip.strip isSpace text.toList

/-- The text begins with a blank, so the stream fails at once. -/
def BeginsBlank (text : String) : Prop := ∃ c ∈ text.toList.head?, isSpace c = true

theorem takeSign_other {c : Char} {text : List Char} (hminus : c ≠ '-') (hplus : c ≠ '+') :
    takeSign (c :: text) = (false, c :: text) := by
  simp [takeSign, hminus, hplus]

theorem takeSign_append {text unsigned rest : List Char} {negative : Bool} (hne : text ≠ [])
    (h : takeSign text = (negative, unsigned)) :
    takeSign (text ++ rest) = (negative, unsigned ++ rest) := by
  obtain ⟨c, text, rfl⟩ := List.exists_cons_of_ne_nil hne
  by_cases hminus : c = '-'
  · subst hminus
    cases h
    rfl
  · by_cases hplus : c = '+'
    · subst hplus
      cases h
      rfl
    · rw [takeSign_other hminus hplus] at h
      cases h
      rw [List.cons_append, takeSign_other hminus hplus]

theorem takeSign_of_isCSpace {c : Char} {text : List Char} (h : isCSpace c = true) :
    takeSign (c :: text) = (false, c :: text) := by
  refine takeSign_other ?_ ?_ <;> (rintro rfl; cases h)

/-- A numeral is not empty. -/
theorem Streamed.ne_nil {core : List Char} {n : Nat} (h : Streamed core n) : core ≠ [] := by
  cases h with
  | hexadecimal _ _ => exact List.cons_ne_nil _ _
  | octal _ => exact List.cons_ne_nil _ _
  | decimal h _ => exact h.nonempty

theorem not_streamed_of_beginsBlank {text : String} (h : BeginsBlank text) :
    readInteger text.toList = none := by
  obtain ⟨c, hc, hspace⟩ := h
  obtain ⟨rest, hrest⟩ := List.head?_eq_some_iff.mp hc
  have hcspace := isCSpace_of_isSpace hspace
  rw [Option.eq_none_iff_forall_not_mem]
  rintro ⟨negative, n⟩ hread
  obtain ⟨core, trail, hsign, _, hcore⟩ := readInteger_iff.mp hread
  rw [hrest, takeSign_of_isCSpace hcspace] at hsign
  obtain ⟨d, core, rfl⟩ := List.exists_cons_of_ne_nil hcore.ne_nil
  simp only [Prod.mk.injEq, List.cons_append, List.cons.injEq] at hsign
  have hd := hcore.not_isCSpace d List.mem_cons_self
  rw [← hsign.2.1, hcspace] at hd
  cases hd

theorem exists_trail {text : String} (h : ¬ BeginsBlank text) :
    ∃ trail, text.toList = trimmed text ++ trail ∧ ∀ c ∈ trail, isSpace c = true := by
  obtain ⟨a, b, htext, ha, hb⟩ := Strip.exists_split isSpace text.toList
  refine ⟨b, ?_, hb⟩
  cases a with
  | nil => exact htext
  | cons c a => exact absurd ⟨c, by rw [htext]; rfl, ha c List.mem_cons_self⟩ h

/-- **The blanks behind a numeral do not matter to the stream.** -/
theorem readInteger_trimmed {text : String} (h : ¬ BeginsBlank text) :
    readInteger text.toList = readInteger (trimmed text) := by
  obtain ⟨trail, htext, htrail⟩ := exists_trail h
  by_cases hnil : trimmed text = []
  · have hall := Strip.strip_eq_nil_iff.mp hnil
    cases hlist : text.toList with
    | nil => rw [hnil]
    | cons c rest =>
        rw [hlist] at hall
        exact absurd ⟨c, by rw [hlist]; rfl, hall c List.mem_cons_self⟩ h
  · refine Option.ext fun ⟨negative, n⟩ => ?_
    rw [readInteger_iff, readInteger_iff, htext]
    rcases hsign : takeSign (trimmed text) with ⟨sign, unsigned⟩
    rw [takeSign_append hnil hsign]
    constructor
    · rintro ⟨core, ws, heq, hws, hcore⟩
      simp only [Prod.mk.injEq] at heq
      -- A blank cannot stand in the numeral, so what was read ends before the trail.
      rcases List.append_eq_append_iff.mp heq.2 with ⟨more, hmore, hrest⟩ | ⟨more, hmore, hrest⟩
      · refine ⟨core, [], ?_, by simp, hcore⟩
        cases more with
        | nil => simp [heq.1, hmore]
        | cons c more =>
            have hspace := isCSpace_of_isSpace (htrail c (by simp [hrest]))
            have hcoreSpace := hcore.not_isCSpace c (by simp [hmore])
            rw [hspace] at hcoreSpace
            cases hcoreSpace
      · exact ⟨core, more, by rw [heq.1, hmore], fun c hc => hws c (by simp [hrest, hc]), hcore⟩
    · rintro ⟨core, ws, heq, hws, hcore⟩
      cases heq
      refine ⟨core, ws ++ trail, by rw [List.append_assoc], fun c hc => ?_, hcore⟩
      rcases List.mem_append.mp hc with hc | hc
      · exact hws c hc
      · exact isCSpace_of_isSpace (htrail c hc)

/-! ## The fallback -/

/-- What `strtoull` and `strtoll` read of a text that they consume whole. -/
inductive FallbackReads : List Char → Bool → Nat → Prop where
  | hexadecimal {x : Char} {digits : List Char} (hx : x = 'x' ∨ x = 'X') (h : DigitRun 16 digits) :
      FallbackReads ('0' :: x :: digits) false (ofDigits 16 digits)
  | decimal {text digits : List Char} {negative : Bool}
      (hsign : takeSign (text.dropWhile isCSpace) = (negative, digits)) (h : DigitRun 10 digits) :
      FallbackReads text negative (ofDigits 10 digits)

theorem fallbackBase_x {x : Char} (hx : x = 'x' ∨ x = 'X') {c : Char} {rest : List Char} :
    fallbackBase ('0' :: x :: c :: rest) = 16 := by
  rcases hx with rfl | rfl <;> rfl

theorem fallbackBase_other {text : List Char}
    (h : ¬ ∃ x c rest, text = '0' :: x :: c :: rest ∧ (x = 'x' ∨ x = 'X')) :
    fallbackBase text = 10 := by
  unfold fallbackBase
  split
  · exact absurd ⟨_, _, _, rfl, Or.inl rfl⟩ h
  · exact absurd ⟨_, _, _, rfl, Or.inr rfl⟩ h
  · rfl

theorem takeNumeral_x {x c : Char} (hx : x = 'x' ∨ x = 'X') (rest : List Char) :
    takeNumeral 16 ('0' :: x :: c :: rest) =
      if isDigitOf 16 c = true then
        ((c :: rest).takeWhile (isDigitOf 16), (c :: rest).dropWhile (isDigitOf 16))
      else (['0'], x :: c :: rest) := by
  have hzero : isDigitOf 16 '0' = true := by decide
  have hnot := not_isDigitOf_x hx 16
  by_cases hc : isDigitOf 16 c = true
  · rcases hx with rfl | rfl <;> simp [takeNumeral, hc]
  · rcases hx with rfl | rfl <;> simp [takeNumeral, hc, hzero, hnot]

theorem takeNumeral_ten (text : List Char) :
    takeNumeral 10 text = (text.takeWhile (isDigitOf 10), text.dropWhile (isDigitOf 10)) := by
  unfold takeNumeral
  split <;> simp

theorem digitRun_iff {base : Nat} {text : List Char} :
    DigitRun base text ↔
      text.takeWhile (isDigitOf base) ≠ [] ∧ text.dropWhile (isDigitOf base) = [] := by
  rw [List.dropWhile_eq_nil_iff]
  constructor
  · rintro ⟨hne, h⟩
    exact ⟨by rwa [List.takeWhile_eq_self_iff.mpr h], h⟩
  · rintro ⟨hne, h⟩
    exact ⟨by rwa [List.takeWhile_eq_self_iff.mpr h] at hne, h⟩

/-- The digits of the fallback, when they are all there is. -/
theorem fallbackReads_iff {text unsigned : List Char} {negative : Bool} {n : Nat}
    (hsign : takeSign (text.dropWhile isCSpace) = (negative, unsigned)) :
    FallbackReads text negative n ↔
      (takeNumeral (fallbackBase text) unsigned).1 ≠ [] ∧
      (takeNumeral (fallbackBase text) unsigned).2 = [] ∧
      ofDigits (fallbackBase text) (takeNumeral (fallbackBase text) unsigned).1 = n := by
  by_cases hx : ∃ x c rest, text = '0' :: x :: c :: rest ∧ (x = 'x' ∨ x = 'X')
  · obtain ⟨x, c, rest, rfl, hx⟩ := hx
    have hunsigned : (false, '0' :: x :: c :: rest) = (negative, unsigned) := hsign
    cases hunsigned
    rw [fallbackBase_x hx, takeNumeral_x hx]
    constructor
    · intro h
      cases h with
      | hexadecimal _ h =>
          have hall := h.digit
          rw [if_pos (hall c List.mem_cons_self), List.takeWhile_eq_self_iff.mpr hall,
            List.dropWhile_eq_nil_iff.mpr hall]
          exact ⟨List.cons_ne_nil _ _, rfl, rfl⟩
      | decimal hsign' h =>
          cases hsign.symm.trans hsign'
          have hdigit := h.digit x (by simp)
          rw [not_isDigitOf_x hx] at hdigit
          cases hdigit
    · split
      · rintro ⟨hne, hrest, rfl⟩
        have hrun := digitRun_iff.mpr ⟨hne, hrest⟩
        rw [List.takeWhile_eq_self_iff.mpr hrun.digit]
        exact .hexadecimal hx hrun
      · rintro ⟨_, hrest, _⟩
        cases hrest
  · rw [fallbackBase_other hx, takeNumeral_ten]
    constructor
    · intro h
      cases h with
      | hexadecimal hx' h =>
          obtain ⟨c, rest, rfl⟩ := List.exists_cons_of_ne_nil h.nonempty
          exact absurd ⟨_, c, rest, rfl, hx'⟩ hx
      | decimal hsign' h =>
          cases hsign.symm.trans hsign'
          rw [List.takeWhile_eq_self_iff.mpr h.digit, List.dropWhile_eq_nil_iff.mpr h.digit]
          exact ⟨h.nonempty, rfl, rfl⟩
    · rintro ⟨hne, hrest, rfl⟩
      have hrun := digitRun_iff.mpr ⟨hne, hrest⟩
      rw [List.takeWhile_eq_self_iff.mpr hrun.digit]
      exact .decimal hsign hrun

end UavBluetooth.Config
