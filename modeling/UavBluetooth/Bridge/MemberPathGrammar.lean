import UavBluetooth.Bridge.MemberPath
import UavBluetooth.Lib.Pieces

set_option autoImplicit false

/-! # The grammar of member paths

The documented notation of member paths next to what `parse_member_path` reads. The parser takes
some liberties: a dot at the end, a closing bracket in a name, and whatever `std::stoi` skips in
front of the digits. An `int` that is too small for the digits is an error of another kind.
-/

namespace UavBluetooth.Bridge

open Fallible Util

/-! ## Notations -/

/-- The characters of names and the numerals of a notation. -/
structure Spelling where
  nameChar : Char → Prop
  numeral : List Char → Nat → Prop

namespace Spelling

variable (s : Spelling)

/-- A part of a slice, which may be blank. -/
inductive Bound : List Char → Option Nat → Prop
  | blank {text : List Char} (h : ∀ c ∈ text, isSpace c = true) : Bound text none
  | number {text : List Char} {n : Nat} (h : s.numeral text n) : Bound text (some n)

/-- The parts of a selector between its colons. -/
inductive Parts : List (List Char) → Selector → Prop
  | index {text : List Char} {n : Nat} (h : s.numeral text n) : Parts [text] (.index n)
  | slice {a b : List Char} {start stop : Option Nat} (ha : s.Bound a start)
      (hb : s.Bound b stop) : Parts [a, b] (.slice start stop 1)
  | stepped {a b c : List Char} {start stop step : Option Nat} {k : ℕ+} (ha : s.Bound a start)
      (hb : s.Bound b stop) (hc : s.Bound c step) (hk : step.getD 1 = k) :
      Parts [a, b, c] (.slice start stop k)

/-- A name with an optional selector. -/
inductive Segment : List Char → PathSegment → Prop
  | plain {name : List Char} (hne : name ≠ []) (hname : ∀ c ∈ name, s.nameChar c) :
      Segment name ⟨String.ofList name, .absent⟩
  | selected {name : List Char} {parts : List (List Char)} {selector : Selector}
      (hne : name ≠ []) (hname : ∀ c ∈ name, s.nameChar c) (hparts : s.Parts parts selector) :
      Segment (name ++ '[' :: ([':'].intercalate parts ++ [']']))
        ⟨String.ofList name, selector⟩

/-- One or more segments with dots in between. -/
def Path (path : String) (segments : List PathSegment) : Prop :=
  ∃ raws, raws ≠ [] ∧ path.toList = ['.'].intercalate raws ∧ List.Forall₂ s.Segment raws segments

end Spelling

/-- Digits that fit an `int`, with blanks around them. -/
def Numeral (text : List Char) (n : Nat) : Prop :=
  ∃ before digits after, text = before ++ (digits ++ after) ∧
    (∀ c ∈ before, isSpace c = true) ∧ (∀ c ∈ after, isSpace c = true) ∧
    digits ≠ [] ∧ (∀ c ∈ digits, c.isDigit = true) ∧ ofDigits 10 digits = n ∧ n < 2 ^ 31

/-- The documented notation. -/
def documented : Spelling where
  nameChar := fun c => c ≠ '.' ∧ c ≠ '[' ∧ c ≠ ']'
  numeral := Numeral

/-! ## What the parser reads -/

/-- Where `std::stoi` looks for digits, and whether there is a minus before them. -/
def signedDigits (text : List Char) : Bool × List Char :=
  takeSign ((Strip.strip isSpace text).dropWhile isCSpace)

/-- A numeral for the parser: a sign is good, and a negative zero as well. -/
def LiberalNumeral (text : List Char) (n : Nat) : Prop :=
  (signedDigits text).2 ≠ [] ∧ (∀ c ∈ (signedDigits text).2, c.isDigit = true) ∧
    ofDigits 10 (signedDigits text).2 = n ∧ n < 2 ^ 31 ∧ ((signedDigits text).1 = true → n = 0)

/-- The notation of the parser, but for a dot at the end. -/
def liberal : Spelling where
  nameChar := fun c => c ≠ '.' ∧ c ≠ '['
  numeral := LiberalNumeral

/-- The text begins with a number that no `int` has. -/
def Oversized (text : List Char) : Prop :=
  let n := ofDigits 10 ((signedDigits text).2.takeWhile Char.isDigit)
  if (signedDigits text).1 then 2 ^ 31 < n else 2 ^ 31 ≤ n

/-! ## Numbers -/

section

variable {raw context : List Char}

/-- The value of the digits that `std::stoi` reads. -/
def stoiValue (text : List Char) : Int :=
  let n : Int := ofDigits 10 ((signedDigits text).2.takeWhile Char.isDigit)
  if (signedDigits text).1 then -n else n

theorem oversized_iff : Oversized raw ↔ ¬(-2 ^ 31 ≤ stoiValue raw ∧ stoiValue raw < 2 ^ 31) := by
  unfold Oversized stoiValue
  cases (signedDigits raw).1 with
  | true =>
      simp only [if_true]
      omega
  | false =>
      simp only [Bool.false_eq_true, if_false]
      omega

theorem stoi_strip (raw : List Char) :
    stoi (Strip.strip isSpace raw) =
      if (signedDigits raw).2.takeWhile Char.isDigit = [] then .error (.invalidArgument "stoi")
      else if -2 ^ 31 ≤ stoiValue raw ∧ stoiValue raw < 2 ^ 31 then
        .ok (stoiValue raw, (signedDigits raw).2.dropWhile Char.isDigit)
      else .error (.outOfRange "stoi") := rfl

theorem stoi_eq_ok {value : Int} {rest : List Char} :
    stoi (Strip.strip isSpace raw) = .ok (value, rest) ↔
      (signedDigits raw).2.takeWhile Char.isDigit ≠ [] ∧ ¬Oversized raw ∧
        stoiValue raw = value ∧ (signedDigits raw).2.dropWhile Char.isDigit = rest := by
  rw [stoi_strip, oversized_iff]
  by_cases hdigits : (signedDigits raw).2.takeWhile Char.isDigit = []
  · simp [hdigits]
  · by_cases hrange : -2 ^ 31 ≤ stoiValue raw ∧ stoiValue raw < 2 ^ 31
    · rw [if_neg hdigits, if_pos hrange, Except.ok.injEq, Prod.mk.injEq]
      tauto
    · rw [if_neg hdigits, if_neg hrange]
      simp only [reduceCtorEq, false_iff]
      tauto

theorem stoi_eq_error {e : StdException} (h : stoi (Strip.strip isSpace raw) = .error e) :
    (e = .invalidArgument "stoi" ∧ ¬Oversized raw) ∨ (e = .outOfRange "stoi" ∧ Oversized raw) := by
  rw [stoi_strip] at h
  rw [oversized_iff]
  split at h
  · rename_i hdigits
    cases h
    refine Or.inl ⟨rfl, not_not_intro ?_⟩
    have hzero : stoiValue raw = 0 := by
      rw [stoiValue, hdigits]
      exact ite_self 0
    omega
  · split at h
    · cases h
    · rename_i hrange
      cases h
      exact Or.inr ⟨rfl, hrange⟩

theorem strip_ne_nil_of_digits (h : (signedDigits raw).2 ≠ []) : Strip.strip isSpace raw ≠ [] := by
  intro hnil
  rw [signedDigits, hnil] at h
  exact h rfl

theorem parseNonNegativeInt_eq_ok {n : Nat} :
    parseNonNegativeInt raw context = .ok n ↔ LiberalNumeral raw n := by
  simp only [parseNonNegativeInt, bind_eq_ok, require_eq_ok, decide_eq_true_eq, pure_eq_ok,
    Bool.and_eq_true, Prod.exists, stoi_eq_ok]
  constructor
  · rintro ⟨_, _, _, _, ⟨hdigits, hsmall, rfl, rfl⟩, _, ⟨hrest, hvalue⟩, rfl⟩
    -- `std::stoi` stops where the digits end, and here that is the end of the text.
    have hall := List.dropWhile_eq_nil_iff.mp hrest
    have htake := List.takeWhile_eq_self_iff.mpr hall
    rw [oversized_iff] at hsmall
    rw [htake] at hdigits
    unfold stoiValue at hsmall hvalue ⊢
    rw [htake] at hsmall hvalue ⊢
    refine ⟨hdigits, hall, ?_⟩
    cases hnegative : (signedDigits raw).1 with
    | true =>
        simp only [hnegative, if_true] at hsmall hvalue ⊢
        omega
    | false =>
        simp only [hnegative, Bool.false_eq_true, if_false, false_implies, and_true] at hsmall hvalue ⊢
        omega
  · rintro ⟨hdigits, hall, rfl, hn, hnegative⟩
    have htake := List.takeWhile_eq_self_iff.mpr hall
    have hrest := List.dropWhile_eq_nil_iff.mpr hall
    have hvalue : stoiValue raw = ofDigits 10 (signedDigits raw).2 := by
      unfold stoiValue
      rw [htake]
      split
      · rename_i hminus
        rw [hnegative hminus]
        rfl
      · rfl
    have hsmall : ¬Oversized raw := by
      rw [oversized_iff, hvalue]
      omega
    refine ⟨(), strip_ne_nil_of_digits hdigits, _, _, ⟨htake.symm ▸ hdigits, hsmall, hvalue, hrest⟩,
      (), ⟨rfl, Int.natCast_nonneg _⟩, Int.toNat_natCast _⟩

/-- The computation throws `std::out_of_range` when there is a number to blame, and otherwise only
`std::invalid_argument`. -/
def Blames {α : Type} (x : Except StdException α) (big : Prop) : Prop :=
  ∀ e, x = .error e →
    ((∃ what, e = .invalidArgument what) ∧ ¬big) ∨ (e = .outOfRange "stoi" ∧ big)

theorem parseNonNegativeInt_blames : Blames (parseNonNegativeInt raw context) (Oversized raw) := by
  intro e h
  have hblank : Strip.strip isSpace raw = [] → ¬Oversized raw := by
    intro hnil
    rw [Oversized, signedDigits, hnil]
    decide
  simp only [parseNonNegativeInt, bind_eq_error, require_eq_ok, decide_eq_true_eq,
    Prod.exists] at h
  rcases h with h | ⟨_, _, h | ⟨value, rest, hstoi, h | ⟨_, _, h⟩⟩⟩
  · unfold require at h
    split at h
    · cases h
    · rename_i hnil
      cases h
      exact Or.inl ⟨⟨_, rfl⟩, hblank (by simpa using hnil)⟩
  · rcases stoi_eq_error h with ⟨rfl, hsmall⟩ | hbig
    · exact Or.inl ⟨⟨_, rfl⟩, hsmall⟩
    · exact Or.inr hbig
  · unfold require at h
    split at h
    · cases h
    · cases h
      exact Or.inl ⟨⟨_, rfl⟩, (stoi_eq_ok.mp hstoi).2.1⟩
  · cases h

theorem parseBound_eq_ok {o : Option Nat} :
    parseBound raw context = .ok o ↔ liberal.Bound raw o := by
  unfold parseBound
  constructor
  · intro h
    split at h
    · rename_i hblank
      cases h
      exact .blank (Strip.strip_eq_nil_iff.mp hblank)
    · cases hn : parseNonNegativeInt raw context with
      | error e =>
          rw [hn] at h
          cases h
      | ok n =>
          rw [hn] at h
          cases h
          exact .number (parseNonNegativeInt_eq_ok.mp hn)
  · intro h
    cases h with
    | blank hblank => rw [if_pos (Strip.strip_eq_nil_iff.mpr hblank)]
    | number hn =>
        rw [if_neg (strip_ne_nil_of_digits hn.1), parseNonNegativeInt_eq_ok.mpr hn]
        rfl

theorem parseBound_blames : Blames (parseBound raw context) (Oversized raw) := by
  intro e h
  unfold parseBound at h
  split at h
  · cases h
  · cases hn : parseNonNegativeInt raw context with
    | error e' =>
        rw [hn] at h
        cases h
        exact parseNonNegativeInt_blames _ hn
    | ok n =>
        rw [hn] at h
        cases h

theorem not_oversized_of_bound {o : Option Nat} (h : liberal.Bound raw o) : ¬Oversized raw := by
  cases h with
  | blank hblank =>
      rw [Oversized, signedDigits, Strip.strip_eq_nil_iff.mpr hblank]
      decide
  | number hn =>
      obtain ⟨_, hall, rfl, hsmall, _⟩ := hn
      unfold Oversized
      rw [List.takeWhile_eq_self_iff.mpr hall]
      split <;> omega

theorem parseStep_eq_ok {k : ℕ+} :
    parseStep raw context = .ok k ↔ ∃ step, liberal.Bound raw step ∧ step.getD 1 = k := by
  simp only [parseStep, bind_eq_ok, parseBound_eq_ok]
  constructor
  · rintro ⟨step, hstep, h⟩
    cases step with
    | none =>
        cases h
        exact ⟨none, hstep, rfl⟩
    | some n =>
        dsimp only at h
        split at h
        · cases h
          exact ⟨some n, hstep, rfl⟩
        · cases h
  · rintro ⟨step, hstep, hk⟩
    refine ⟨step, hstep, ?_⟩
    cases step with
    | none =>
        rw [show k = 1 from PNat.coe_injective hk.symm]
    | some n =>
        have hn : n = k := hk
        have hpos : 0 < n := by
          rw [hn]
          exact k.pos
        dsimp only
        rw [dif_pos hpos]
        exact congrArg Except.ok (PNat.coe_injective hk)

theorem parseStep_blames : Blames (parseStep raw context) (Oversized raw) := by
  intro e h
  simp only [parseStep, bind_eq_error] at h
  rcases h with h | ⟨step, hstep, h⟩
  · exact parseBound_blames _ h
  · have hsmall := not_oversized_of_bound (parseBound_eq_ok.mp hstep)
    split at h
    · cases h
    · split at h
      · cases h
      · cases h
        exact Or.inl ⟨⟨_, rfl⟩, hsmall⟩

end

/-! ## Selectors -/

/-- The first part that is not a bound is a number that no `int` has. -/
def FirstOversized : List (List Char) → Prop
  | [] => False
  | part :: rest => Oversized part ∨ (∃ o, liberal.Bound part o) ∧ FirstOversized rest

section

variable {context : List Char}

theorem Blames.bind {α β : Type} {x : Except StdException α} {f : α → Except StdException β}
    {first rest good : Prop} (hx : Blames x first) (hgood : good ↔ ∃ a, x = .ok a)
    (hf : ∀ a, x = .ok a → ¬first ∧ Blames (f a) rest) :
    Blames (x >>= f) (first ∨ good ∧ rest) := by
  intro e h
  rcases bind_eq_error.mp h with h | ⟨a, ha, h⟩
  · have hbad : ¬good := by
      intro hg
      obtain ⟨a, ha⟩ := hgood.mp hg
      rw [ha] at h
      cases h
    rcases hx e h with ⟨hinvalid, hsmall⟩ | ⟨hrange, hbig⟩
    · exact Or.inl ⟨hinvalid, not_or.mpr ⟨hsmall, fun h => hbad h.1⟩⟩
    · exact Or.inr ⟨hrange, Or.inl hbig⟩
  · obtain ⟨hsmall, hrest⟩ := hf a ha
    rcases hrest e h with ⟨hinvalid, hnone⟩ | ⟨hrange, hbig⟩
    · exact Or.inl ⟨hinvalid, not_or.mpr ⟨hsmall, fun h => hnone h.2⟩⟩
    · exact Or.inr ⟨hrange, Or.inr ⟨hgood.mpr ⟨a, ha⟩, hbig⟩⟩

theorem Blames.last {α β : Type} {x : Except StdException α} {f : α → β} {big good : Prop}
    (hx : Blames x big) : Blames (x >>= fun a => pure (f a)) (big ∨ good ∧ False) := by
  intro e h
  rcases bind_eq_error.mp h with h | ⟨a, _, h⟩
  · rw [and_false, or_false]
    exact hx e h
  · cases h

/-- A bound is followed by the rest of the selector. -/
theorem parseBound_bind_blames {β : Type} {part : List Char} {rest : List (List Char)}
    {f : Option Nat → Except StdException β} (hf : ∀ o, Blames (f o) (FirstOversized rest)) :
    Blames (parseBound part context >>= f) (FirstOversized (part :: rest)) := by
  refine parseBound_blames.bind ?_ ?_
  · simp only [parseBound_eq_ok]
  · intro o ho
    exact ⟨not_oversized_of_bound (parseBound_eq_ok.mp ho), hf o⟩

theorem parseSelector_eq_ok {selector : List Char} {result : Selector} :
    parseSelector selector context = .ok result ↔
      liberal.Parts (selector.splitOn ':') result := by
  unfold parseSelector
  split
  · rename_i text hparts
    rw [hparts]
    constructor
    · intro h
      cases hn : parseNonNegativeInt text context with
      | error e =>
          rw [hn] at h
          cases h
      | ok n =>
          rw [hn] at h
          cases h
          exact .index (parseNonNegativeInt_eq_ok.mp hn)
    · intro h
      cases h with
      | index hn =>
          rw [parseNonNegativeInt_eq_ok.mpr hn]
          rfl
  · rename_i a b hparts
    rw [hparts]
    simp only [bind_eq_ok, pure_eq_ok, parseBound_eq_ok]
    constructor
    · rintro ⟨start, ha, stop, hb, rfl⟩
      exact .slice ha hb
    · intro h
      cases h with
      | slice ha hb => exact ⟨_, ha, _, hb, rfl⟩
  · rename_i a b c hparts
    rw [hparts]
    simp only [bind_eq_ok, pure_eq_ok, parseBound_eq_ok, parseStep_eq_ok]
    constructor
    · rintro ⟨start, ha, stop, hb, k, ⟨step, hc, hk⟩, rfl⟩
      exact .stepped ha hb hc hk
    · intro h
      cases h with
      | stepped ha hb hc hk => exact ⟨_, ha, _, hb, _, ⟨_, hc, hk⟩, rfl⟩
  -- With more than two colons neither side has a selector.
  · rename_i hone htwo hthree
    constructor
    · intro h
      cases h
    · intro h
      cases hcase : selector.splitOn ':' with
      | nil =>
          rw [hcase] at h
          cases h
      | cons a rest =>
          rw [hcase] at h
          cases h with
          | index _ => exact absurd hcase (hone _)
          | slice _ _ => exact absurd hcase (htwo _ _)
          | stepped _ _ _ _ => exact absurd hcase (hthree _ _ _)

theorem parseSelector_blames {selector : List Char} :
    Blames (parseSelector selector context)
      ((selector.splitOn ':').length ≤ 3 ∧ FirstOversized (selector.splitOn ':')) := by
  unfold parseSelector
  split
  · rename_i text hparts
    rw [hparts]
    simp only [List.length_singleton, Nat.one_le_ofNat, true_and]
    exact Blames.last parseNonNegativeInt_blames
  · rename_i a b hparts
    rw [hparts]
    simp only [List.length_cons, List.length_nil, Nat.reduceAdd, Nat.reduceLeDiff, true_and]
    exact parseBound_bind_blames fun start => Blames.last parseBound_blames
  · rename_i a b c hparts
    rw [hparts]
    simp only [List.length_cons, List.length_nil, Nat.reduceAdd, Nat.le_refl, true_and]
    exact parseBound_bind_blames fun start => parseBound_bind_blames fun stop =>
      Blames.last parseStep_blames
  · rename_i hone htwo hthree
    intro e h
    cases h
    refine Or.inl ⟨⟨_, rfl⟩, ?_⟩
    rintro ⟨hlength, hbig⟩
    match hcase : selector.splitOn ':' with
    | [] => exact absurd hcase (List.splitOn_ne_nil _ _)
    | [a] => exact absurd hcase (hone a)
    | [a, b] => exact absurd hcase (htwo a b)
    | [a, b, c] => exact absurd hcase (hthree a b c)
    | a :: b :: c :: d :: rest =>
        rw [hcase] at hlength
        simp only [List.length_cons] at hlength
        omega

end

/-! ## Segments -/

/-- The characters that a numeral may have. -/
def numeralChar (c : Char) : Bool := isCSpace c || c.isDigit || c == '+' || c == '-'

theorem isCSpace_of_isSpace {c : Char} (h : isSpace c = true) : isCSpace c = true := by
  simp only [isSpace, Bool.or_eq_true, beq_iff_eq] at h
  rcases h with ((rfl | rfl) | rfl) | rfl <;> rfl

theorem numeralChar_of_isSpace {c : Char} (h : isSpace c = true) : numeralChar c = true := by
  rw [numeralChar, isCSpace_of_isSpace h]
  rfl

theorem LiberalNumeral.numeralChar {text : List Char} {n : Nat} (h : LiberalNumeral text n) {c : Char}
    (hc : c ∈ text) : numeralChar c = true := by
  obtain ⟨_, hall, _⟩ := h
  obtain ⟨before, after, hsplit, hbefore, hafter⟩ := Strip.exists_split isSpace text
  rw [hsplit, List.mem_append, List.mem_append] at hc
  rcases hc with hc | hc | hc
  · exact numeralChar_of_isSpace (hbefore c hc)
  · rw [← List.takeWhile_append_dropWhile (p := isCSpace) (l := Strip.strip isSpace text),
      List.mem_append] at hc
    rcases hc with hc | hc
    · rw [Bridge.numeralChar, List.mem_takeWhile_imp hc]
      rfl
    · have hdigit : c ∈ (signedDigits text).2 → Bridge.numeralChar c = true := by
        intro hmem
        simp [Bridge.numeralChar, hall c hmem]
      unfold signedDigits takeSign at hdigit
      split at hdigit
      · rename_i rest hbody
        rw [hbody] at hc
        rcases List.mem_cons.mp hc with rfl | hc
        · rfl
        · exact hdigit hc
      · rename_i rest hbody
        rw [hbody] at hc
        rcases List.mem_cons.mp hc with rfl | hc
        · rfl
        · exact hdigit hc
      · exact hdigit hc
  · exact numeralChar_of_isSpace (hafter c hc)

theorem liberal_bound_numeralChar {text : List Char} {o : Option Nat} (h : liberal.Bound text o)
    {c : Char} (hc : c ∈ text) : numeralChar c = true := by
  cases h with
  | blank hblank => exact numeralChar_of_isSpace (hblank c hc)
  | number hn => exact hn.numeralChar hc

theorem liberal_parts_numeralChar {parts : List (List Char)} {selector : Selector}
    (h : liberal.Parts parts selector) :
    parts ≠ [] ∧ ∀ part ∈ parts, ∀ c ∈ part, numeralChar c = true := by
  cases h with
  | index hn =>
      refine ⟨List.cons_ne_nil _ _, ?_⟩
      intro part hpart c hc
      rw [List.mem_singleton.mp hpart] at hc
      exact LiberalNumeral.numeralChar hn hc
  | slice ha hb =>
      refine ⟨List.cons_ne_nil _ _, ?_⟩
      simp only [List.forall_mem_cons, List.not_mem_nil, false_implies, implies_true, and_true]
      exact ⟨fun c => liberal_bound_numeralChar ha, fun c => liberal_bound_numeralChar hb⟩
  | stepped ha hb hc _ =>
      refine ⟨List.cons_ne_nil _ _, ?_⟩
      simp only [List.forall_mem_cons, List.not_mem_nil, false_implies, implies_true, and_true]
      exact ⟨fun c => liberal_bound_numeralChar ha, fun c => liberal_bound_numeralChar hb,
        fun c => liberal_bound_numeralChar hc⟩

theorem first_not_oversized {parts : List (List Char)} {selector : Selector}
    (h : liberal.Parts parts selector) : ¬FirstOversized parts := by
  cases h with
  | index hn =>
      rintro (hbig | ⟨_, h⟩)
      · exact not_oversized_of_bound (.number hn) hbig
      · exact h
  | slice ha hb =>
      rintro (hbig | ⟨_, hbig | ⟨_, h⟩⟩)
      · exact not_oversized_of_bound ha hbig
      · exact not_oversized_of_bound hb hbig
      · exact h
  | stepped ha hb hc _ =>
      rintro (hbig | ⟨_, hbig | ⟨_, hbig | ⟨_, h⟩⟩⟩)
      · exact not_oversized_of_bound ha hbig
      · exact not_oversized_of_bound hb hbig
      · exact not_oversized_of_bound hc hbig
      · exact h

/-- The parts of a selector, when its closing bracket ends the segment. -/
def selectorParts (raw : List Char) : Option (List (List Char)) :=
  match raw.dropWhile (· ≠ '[') with
  | [] => none
  | _ :: bracketed =>
      if bracketed.dropWhile (· ≠ ']') = [']'] then
        some ((bracketed.takeWhile (· ≠ ']')).splitOn ':')
      else none

/-- The first faulty part of the selector is a number that no `int` has. -/
def OversizedSegment (raw : List Char) : Prop :=
  ∃ parts ∈ selectorParts raw, parts.length ≤ 3 ∧ FirstOversized parts

section

variable {raw : List Char}

/-- A segment with a selector, taken apart. -/
theorem selectorParts_append {name : List Char} {parts : List (List Char)} (hne : parts ≠ [])
    (hname : ∀ c ∈ name, c ≠ '[') (hparts : ∀ part ∈ parts, ∀ c ∈ part, c ≠ ':' ∧ c ≠ ']') :
    (name ++ '[' :: ([':'].intercalate parts ++ [']'])).takeWhile (· ≠ '[') = name ∧
      selectorParts (name ++ '[' :: ([':'].intercalate parts ++ [']'])) = some parts := by
  have hopen : ∀ c ∈ name, decide (c ≠ '[') = true := fun c hc => decide_eq_true (hname c hc)
  have hclose : ∀ c ∈ [':'].intercalate parts, decide (c ≠ ']') = true := by
    intro c hc
    rcases Pieces.mem_of_mem_intercalate hc with rfl | ⟨part, hpart, hc⟩
    · rfl
    · exact decide_eq_true (hparts part hpart c hc).2
  constructor
  · rw [List.takeWhile_append_of_pos hopen]
    simp
  · unfold selectorParts
    rw [List.dropWhile_append_of_pos hopen]
    simp only [List.dropWhile_cons, decide_not, decide_true, Bool.not_true, Bool.false_eq_true,
      if_false]
    have hclose' : ∀ c ∈ [':'].intercalate parts, (!decide (c = ']')) = true := by
      simpa using hclose
    rw [List.dropWhile_append_of_pos hclose', List.takeWhile_append_of_pos hclose']
    have hsplit : ([':'].intercalate parts).splitOn ':' = parts :=
      List.splitOn_intercalate ':' (fun part hpart hmem => (hparts part hpart _ hmem).1 rfl) hne
    simp [hsplit]

theorem head_dropWhile_open {c : Char} {bracketed : List Char}
    (h : raw.dropWhile (· ≠ '[') = c :: bracketed) : c = '[' := by
  have hne : raw.dropWhile (· ≠ '[') ≠ [] := by
    rw [h]
    exact List.cons_ne_nil c bracketed
  have hc : (raw.dropWhile (· ≠ '[')).head hne = c := by simp only [h, List.head_cons]
  have hhead := List.head_dropWhile_not (fun c : Char => decide (c ≠ '[')) hne
  rw [hc] at hhead
  simpa using hhead

theorem selectorParts_eq_some {parts : List (List Char)} :
    selectorParts raw = some parts ↔ ∃ bracketed, raw.dropWhile (· ≠ '[') = '[' :: bracketed ∧
      bracketed.dropWhile (· ≠ ']') = [']'] ∧
        (bracketed.takeWhile (· ≠ ']')).splitOn ':' = parts := by
  unfold selectorParts
  constructor
  · intro h
    split at h
    · cases h
    · rename_i c bracketed hdrop
      obtain rfl := head_dropWhile_open hdrop
      split at h
      · rename_i hclose
        exact ⟨bracketed, hdrop, hclose, Option.some.inj h⟩
      · cases h
  · rintro ⟨bracketed, hdrop, hclose, rfl⟩
    rw [hdrop]
    simp only [hclose, if_true]

/-- A segment without a selector. -/
theorem parseSegment_plain (h : raw.dropWhile (· ≠ '[') = []) :
    parseSegment raw = do
      require (raw.takeWhile (· ≠ '[') ≠ [])
        (.invalidArgument ("Invalid member path segment: " ++ String.ofList raw))
      return ⟨String.ofList (raw.takeWhile (· ≠ '[')), .absent⟩ := by
  simp only [parseSegment, h]
  rfl

/-- A segment with a bracket. -/
theorem parseSegment_bracketed {bracketed : List Char}
    (h : raw.dropWhile (· ≠ '[') = '[' :: bracketed) :
    parseSegment raw = do
      require (bracketed.dropWhile (· ≠ ']') = [']'])
        (.invalidArgument ("Invalid member path segment: " ++ String.ofList raw))
      let selector ← parseSelector (bracketed.takeWhile (· ≠ ']')) raw
      require (raw.takeWhile (· ≠ '[') ≠ [])
        (.invalidArgument ("Invalid member path segment: " ++ String.ofList raw))
      return ⟨String.ofList (raw.takeWhile (· ≠ '[')), selector⟩ := by
  simp only [parseSegment, h, pure_bind]

theorem parseSegment_eq_ok (hdot : '.' ∉ raw) {segment : PathSegment} :
    parseSegment raw = .ok segment ↔ liberal.Segment raw segment := by
  have hjoin : raw.takeWhile (· ≠ '[') ++ raw.dropWhile (· ≠ '[') = raw :=
    List.takeWhile_append_dropWhile
  -- The name ends at the first bracket, and the dots are gone already.
  have hname : ∀ c ∈ raw.takeWhile (· ≠ '['), liberal.nameChar c := by
    intro c hc
    refine ⟨?_, by simpa using List.mem_takeWhile_imp hc⟩
    rintro rfl
    exact hdot ((List.takeWhile_sublist _).subset hc)
  constructor
  · intro h
    cases hdrop : raw.dropWhile (· ≠ '[') with
    | nil =>
        rw [parseSegment_plain hdrop] at h
        simp only [bind_eq_ok, require_eq_ok, decide_eq_true_eq, pure_eq_ok] at h
        obtain ⟨_, hne, rfl⟩ := h
        have hplain := @Spelling.Segment.plain liberal _ hne hname
        rw [hdrop, List.append_nil] at hjoin
        rwa [hjoin] at hplain ⊢
    | cons c bracketed =>
        obtain rfl := head_dropWhile_open hdrop
        rw [parseSegment_bracketed hdrop] at h
        simp only [bind_eq_ok, require_eq_ok, decide_eq_true_eq, pure_eq_ok] at h
        obtain ⟨_, hclose, selector, hselector, _, hne, rfl⟩ := h
        have hparts := parseSelector_eq_ok.mp hselector
        have hselected := @Spelling.Segment.selected liberal _ _ _ hne hname hparts
        have hbracketed : bracketed.takeWhile (· ≠ ']') ++ [']'] = bracketed := by
          rw [← hclose]
          exact List.takeWhile_append_dropWhile
        rw [List.intercalate_splitOn, hbracketed, ← hdrop, hjoin] at hselected
        exact hselected
  · intro h
    cases h with
    | plain hne hchars =>
        have hall : ∀ c ∈ raw, decide (c ≠ '[') = true := fun c hc => decide_eq_true (hchars c hc).2
        have htake := List.takeWhile_eq_self_iff.mpr hall
        rw [parseSegment_plain (List.dropWhile_eq_nil_iff.mpr hall), htake]
        simp only [bind_eq_ok, require_eq_ok, decide_eq_true_eq, pure_eq_ok]
        exact ⟨(), hne, trivial⟩
    | @selected name parts selector hne hchars hparts =>
        obtain ⟨hpartsne, hnumeral⟩ := liberal_parts_numeralChar hparts
        obtain ⟨htake, hselector⟩ := selectorParts_append hpartsne (fun c hc => (hchars c hc).2) (by
          intro part hpart c hc
          have hc := hnumeral part hpart c hc
          constructor <;> (rintro rfl; exact absurd hc (by decide)))
        obtain ⟨bracketed, hdrop, hclose, hsplit⟩ := selectorParts_eq_some.mp hselector
        rw [parseSegment_bracketed hdrop, htake]
        simp only [bind_eq_ok, require_eq_ok, decide_eq_true_eq, pure_eq_ok]
        exact ⟨(), hclose, selector, parseSelector_eq_ok.mpr (hsplit ▸ hparts), (), hne, rfl⟩

theorem parseSegment_blames : Blames (parseSegment raw) (OversizedSegment raw) := by
  intro e h
  have hinvalid : ∀ (condition : Bool) (what : String),
      require condition (.invalidArgument what) = (.error e : Except StdException Unit) →
      e = .invalidArgument what := by
    intro condition what hrequire
    unfold require at hrequire
    split at hrequire
    · cases hrequire
    · cases hrequire
      rfl
  cases hdrop : raw.dropWhile (· ≠ '[') with
  | nil =>
      have hnone : selectorParts raw = none := by
        rw [selectorParts, hdrop]
      rw [parseSegment_plain hdrop] at h
      rcases bind_eq_error.mp h with h | ⟨_, _, h⟩
      · refine Or.inl ⟨⟨_, hinvalid _ _ h⟩, ?_⟩
        rintro ⟨parts, hparts, _⟩
        rw [hnone] at hparts
        cases hparts
      · cases h
  | cons c bracketed =>
      obtain rfl := head_dropWhile_open hdrop
      rw [parseSegment_bracketed hdrop] at h
      -- A selector that is not closed is refused before a number is read.
      by_cases hclose : bracketed.dropWhile (· ≠ ']') = [']']
      · have hselector := selectorParts_eq_some.mpr ⟨bracketed, hdrop, hclose, rfl⟩
        have hbig : OversizedSegment raw ↔ ((bracketed.takeWhile (· ≠ ']')).splitOn ':').length ≤ 3 ∧
            FirstOversized ((bracketed.takeWhile (· ≠ ']')).splitOn ':') := by
          unfold OversizedSegment
          rw [hselector]
          simp only [Option.mem_some_iff, exists_eq_left']
        rw [hbig]
        rcases bind_eq_error.mp h with h | ⟨_, _, h⟩
        · rw [require, if_pos (decide_eq_true hclose)] at h
          cases h
        · rcases bind_eq_error.mp h with h | ⟨selector, hok, h⟩
          · exact parseSelector_blames e h
          · have hsmall := first_not_oversized (parseSelector_eq_ok.mp hok)
            rcases bind_eq_error.mp h with h | ⟨_, _, h⟩
            · exact Or.inl ⟨⟨_, hinvalid _ _ h⟩, fun hb => hsmall hb.2⟩
            · cases h
      · have hnone : selectorParts raw = none := by
          rw [selectorParts, hdrop]
          simp only [if_neg hclose]
        rcases bind_eq_error.mp h with h | ⟨_, hok, _⟩
        · refine Or.inl ⟨⟨_, hinvalid _ _ h⟩, ?_⟩
          rintro ⟨parts, hparts, _⟩
          rw [hnone] at hparts
          cases hparts
        · rw [require_eq_ok] at hok
          exact absurd (of_decide_eq_true hok) hclose

end

/-! ## The documented notation -/

theorem not_isSpace_of_isDigit {c : Char} (h : c.isDigit = true) : isSpace c = false := by
  by_contra hs
  simp only [Bool.not_eq_false, isSpace, Bool.or_eq_true, beq_iff_eq] at hs
  rcases hs with ((rfl | rfl) | rfl) | rfl <;> cases h

theorem not_isCSpace_of_isDigit {c : Char} (h : c.isDigit = true) : isCSpace c = false := by
  by_contra hs
  simp only [Bool.not_eq_false, isCSpace, Bool.or_eq_true, beq_iff_eq] at hs
  rcases hs with ((((rfl | rfl) | rfl) | rfl) | rfl) | rfl <;> cases h

/-- Nothing is skipped in front of a digit. -/
theorem signedDigits_of_isDigit {text : List Char}
    (h : ∀ c ∈ (Strip.strip isSpace text).head?, c.isDigit = true) :
    signedDigits text = (false, Strip.strip isSpace text) := by
  unfold signedDigits
  cases hstrip : Strip.strip isSpace text with
  | nil => rfl
  | cons c rest =>
      have hc : c.isDigit = true := h c (by rw [hstrip]; rfl)
      rw [List.dropWhile_cons_of_neg (by simp [not_isCSpace_of_isDigit hc])]
      unfold takeSign
      split
      · rename_i heq
        obtain ⟨rfl, _⟩ := List.cons.inj heq
        cases hc
      · rename_i heq
        obtain ⟨rfl, _⟩ := List.cons.inj heq
        cases hc
      · rfl

theorem strip_of_digits {before digits after : List Char}
    (hbefore : ∀ c ∈ before, isSpace c = true) (hafter : ∀ c ∈ after, isSpace c = true)
    (hall : ∀ c ∈ digits, c.isDigit = true) :
    Strip.strip isSpace (before ++ (digits ++ after)) = digits := by
  refine Strip.strip_eq hbefore ⟨?_, ?_⟩ hafter
  · exact fun c hc => not_isSpace_of_isDigit (hall c (List.mem_of_head? hc))
  · exact fun c hc => not_isSpace_of_isDigit (hall c (List.mem_of_getLast? hc))

theorem Numeral.head_isDigit {text : List Char} {n : Nat} (h : Numeral text n) :
    ∀ c ∈ (Strip.strip isSpace text).head?, c.isDigit = true := by
  obtain ⟨before, digits, after, rfl, hbefore, hafter, _, hall, _⟩ := h
  rw [strip_of_digits hbefore hafter hall]
  exact fun c hc => hall c (List.mem_of_head? hc)

/-- A documented numeral is one that the parser reads and that begins with a digit. -/
theorem numeral_iff {text : List Char} {n : Nat} :
    Numeral text n ↔ LiberalNumeral text n ∧
      ∀ c ∈ (Strip.strip isSpace text).head?, c.isDigit = true := by
  constructor
  · intro h
    have hhead := h.head_isDigit
    obtain ⟨before, digits, after, rfl, hbefore, hafter, hne, hall, hvalue, hsmall⟩ := h
    refine ⟨?_, hhead⟩
    rw [LiberalNumeral, signedDigits_of_isDigit hhead, strip_of_digits hbefore hafter hall]
    exact ⟨hne, hall, hvalue, hsmall, fun hminus => Bool.noConfusion hminus⟩
  · rintro ⟨h, hhead⟩
    rw [LiberalNumeral, signedDigits_of_isDigit hhead] at h
    obtain ⟨hne, hall, hvalue, hsmall, _⟩ := h
    obtain ⟨before, after, hsplit, hbefore, hafter⟩ := Strip.exists_split isSpace text
    exact ⟨before, _, after, hsplit, hbefore, hafter, hne, hall, hvalue, hsmall⟩

section

variable {s t : Spelling}

theorem Spelling.Bound.mono {text : List Char} {o : Option Nat} (h : s.Bound text o)
    (hnumeral : ∀ n, s.numeral text n → t.numeral text n) : t.Bound text o := by
  cases h with
  | blank hblank => exact .blank hblank
  | number hn => exact .number (hnumeral _ hn)

theorem Spelling.Parts.mono {parts : List (List Char)} {selector : Selector}
    (h : s.Parts parts selector)
    (hnumeral : ∀ part ∈ parts, ∀ n, s.numeral part n → t.numeral part n) :
    t.Parts parts selector := by
  cases h with
  | index hn => exact .index (hnumeral _ (by simp) _ hn)
  | slice ha hb => exact .slice (ha.mono (hnumeral _ (by simp))) (hb.mono (hnumeral _ (by simp)))
  | stepped ha hb hc hk =>
      exact .stepped (ha.mono (hnumeral _ (by simp))) (hb.mono (hnumeral _ (by simp)))
        (hc.mono (hnumeral _ (by simp))) hk

end

/-- The segment takes none of the liberties: its name has no closing bracket, and each part of its
selector begins with a digit behind the blanks. -/
def Orderly (raw : List Char) : Prop :=
  ']' ∉ raw.takeWhile (· ≠ '[') ∧ ∀ parts ∈ selectorParts raw, ∀ part ∈ parts,
    ∀ c ∈ (Strip.strip isSpace part).head?, c.isDigit = true

/-- Taking a segment that the parser reads apart again. -/
theorem liberal_parts_split {name : List Char} {parts : List (List Char)} {selector : Selector}
    (hname : ∀ c ∈ name, liberal.nameChar c) (hparts : liberal.Parts parts selector) :
    (name ++ '[' :: ([':'].intercalate parts ++ [']'])).takeWhile (· ≠ '[') = name ∧
      selectorParts (name ++ '[' :: ([':'].intercalate parts ++ [']'])) = some parts := by
  obtain ⟨hne, hnumeral⟩ := liberal_parts_numeralChar hparts
  refine selectorParts_append hne (fun c hc => (hname c hc).2) ?_
  intro part hpart c hc
  have hc := hnumeral part hpart c hc
  constructor <;> (rintro rfl; exact absurd hc (by decide))

theorem plain_split {name : List Char} (hname : ∀ c ∈ name, liberal.nameChar c) :
    name.takeWhile (· ≠ '[') = name ∧ selectorParts name = none := by
  have hall : ∀ c ∈ name, decide (c ≠ '[') = true := fun c hc => decide_eq_true (hname c hc).2
  refine ⟨List.takeWhile_eq_self_iff.mpr hall, ?_⟩
  rw [selectorParts, List.dropWhile_eq_nil_iff.mpr hall]

theorem documented_bound_head {text : List Char} {o : Option Nat} (h : documented.Bound text o) :
    ∀ c ∈ (Strip.strip isSpace text).head?, c.isDigit = true := by
  cases h with
  | blank hblank =>
      rw [Strip.strip_eq_nil_iff.mpr hblank]
      intro c hc
      cases hc
  | number hn => exact Numeral.head_isDigit hn

theorem documented_parts_head {parts : List (List Char)} {selector : Selector}
    (h : documented.Parts parts selector) : ∀ part ∈ parts,
      ∀ c ∈ (Strip.strip isSpace part).head?, c.isDigit = true := by
  cases h with
  | index hn =>
      simp only [List.forall_mem_cons, List.not_mem_nil, false_implies, implies_true, and_true]
      exact Numeral.head_isDigit hn
  | slice ha hb =>
      simp only [List.forall_mem_cons, List.not_mem_nil, false_implies, implies_true, and_true]
      exact ⟨documented_bound_head ha, documented_bound_head hb⟩
  | stepped ha hb hc _ =>
      simp only [List.forall_mem_cons, List.not_mem_nil, false_implies, implies_true, and_true]
      exact ⟨documented_bound_head ha, documented_bound_head hb, documented_bound_head hc⟩

/-- **A documented segment is an orderly one that the parser reads.** -/
theorem documented_segment_iff {raw : List Char} {segment : PathSegment} :
    documented.Segment raw segment ↔ liberal.Segment raw segment ∧ Orderly raw := by
  constructor
  · intro h
    cases h with
    | plain hne hname =>
        have hliberal : ∀ c ∈ raw, liberal.nameChar c := fun c hc =>
          ⟨(hname c hc).1, (hname c hc).2.1⟩
        obtain ⟨htake, hnone⟩ := plain_split hliberal
        refine ⟨.plain hne hliberal, ?_, ?_⟩
        · rw [htake]
          exact fun hmem => (hname _ hmem).2.2 rfl
        · rw [hnone]
          intro parts hparts
          cases hparts
    | @selected name parts selector hne hname hparts =>
        have hliberal : ∀ c ∈ name, liberal.nameChar c := fun c hc =>
          ⟨(hname c hc).1, (hname c hc).2.1⟩
        have hread : liberal.Parts parts selector := hparts.mono fun part _ n hn =>
          (numeral_iff.mp hn).1
        obtain ⟨htake, hsome⟩ := liberal_parts_split hliberal hread
        refine ⟨.selected hne hliberal hread, ?_, ?_⟩
        · rw [htake]
          exact fun hmem => (hname _ hmem).2.2 rfl
        · rw [hsome]
          rintro _ ⟨⟩
          exact documented_parts_head hparts
  · rintro ⟨h, hname', hhead⟩
    cases h with
    | plain hne hname =>
        rw [(plain_split hname).1] at hname'
        refine .plain hne fun c hc => ⟨(hname c hc).1, (hname c hc).2, ?_⟩
        rintro rfl
        exact hname' hc
    | selected hne hname hparts =>
        obtain ⟨htake, hsome⟩ := liberal_parts_split hname hparts
        rw [htake] at hname'
        refine .selected hne (fun c hc => ⟨(hname c hc).1, (hname c hc).2, ?_⟩) ?_
        · rintro rfl
          exact hname' hc
        · exact hparts.mono fun part hpart n hn =>
            numeral_iff.mpr ⟨hn, hhead _ hsome part hpart⟩

/-! ## Paths -/

theorem liberal_segment_chars {raw : List Char} {segment : PathSegment}
    (h : liberal.Segment raw segment) : raw ≠ [] ∧ '.' ∉ raw := by
  cases h with
  | plain hne hname => exact ⟨hne, fun hmem => (hname _ hmem).1 rfl⟩
  | @selected name parts selector hne hname hparts =>
      refine ⟨by simp, ?_⟩
      intro hmem
      simp only [List.mem_append, List.mem_cons, List.not_mem_nil, or_false] at hmem
      rcases hmem with hmem | hmem | hmem | hmem
      · exact (hname _ hmem).1 rfl
      · exact absurd hmem (by decide)
      · rcases Pieces.mem_of_mem_intercalate hmem with hcolon | ⟨part, hpart, hc⟩
        · exact absurd hcolon (by decide)
        · have hc := (liberal_parts_numeralChar hparts).2 part hpart _ hc
          exact absurd hc (by decide)
      · exact absurd hmem (by decide)

theorem liberal_segment_not_oversized {raw : List Char} {segment : PathSegment}
    (h : liberal.Segment raw segment) : ¬OversizedSegment raw := by
  rintro ⟨parts, hparts, _, hbig⟩
  cases h with
  | plain hne hname =>
      rw [(plain_split hname).2] at hparts
      cases hparts
  | selected hne hname hread =>
      rw [(liberal_parts_split hname hread).2] at hparts
      cases hparts
      exact first_not_oversized hread hbig

section

variable {path : String} {raws : List (List Char)} {segments : List PathSegment}

theorem not_mem_rawSegments {path raw : List Char} (h : raw ∈ rawSegments path) : '.' ∉ raw := by
  simp only [rawSegments] at h
  split at h
  · exact Pieces.not_mem_piece (List.mem_of_mem_dropLast h)
  · exact Pieces.not_mem_piece h

theorem parseMemberPath_eq_ok : parseMemberPath path = .ok segments ↔
    path ≠ "" ∧ List.Forall₂ liberal.Segment (rawSegments path.toList) segments := by
  have hparse : List.Forall₂ (fun raw segment => parseSegment raw = .ok segment)
      (rawSegments path.toList) segments ↔
        List.Forall₂ liberal.Segment (rawSegments path.toList) segments := by
    rw [List.forall₂_iff_zip, List.forall₂_iff_zip]
    refine and_congr_right fun _ => ?_
    constructor
    · intro h raw segment hmem
      exact (parseSegment_eq_ok (not_mem_rawSegments (List.of_mem_zip hmem).1)).mp (h hmem)
    · intro h raw segment hmem
      exact (parseSegment_eq_ok (not_mem_rawSegments (List.of_mem_zip hmem).1)).mpr (h hmem)
  simp only [parseMemberPath, bind_eq_ok, require_eq_ok, decide_eq_true_eq, mapM_eq_ok, hparse,
    exists_const]

/-- The segments of a path that is put together from segments. -/
theorem rawSegments_intercalate (hne : raws ≠ []) (h : List.Forall₂ liberal.Segment raws segments) :
    (['.'].intercalate raws).splitOn '.' = raws ∧
      rawSegments (['.'].intercalate raws) = raws ∧ ['.'].intercalate raws ≠ [] := by
  have hchars : ∀ raw ∈ raws, raw ≠ [] ∧ '.' ∉ raw := by
    intro raw hraw
    obtain ⟨segment, _, hsegment⟩ := exists_of_forall₂ h.flip hraw
    exact liberal_segment_chars hsegment
  have hsplit : (['.'].intercalate raws).splitOn '.' = raws :=
    List.splitOn_intercalate '.' (fun raw hraw => (hchars raw hraw).2) hne
  have hlast : raws.getLast? ≠ some [] := fun hnil =>
    (hchars [] (List.mem_of_getLast? hnil)).1 rfl
  refine ⟨hsplit, ?_, ?_⟩
  · simp only [rawSegments, hsplit, if_neg hlast]
  · intro hnil
    rw [hnil, List.splitOn_nil] at hsplit
    rw [← hsplit] at hlast
    exact hlast rfl

theorem forall₂_documented (h : List.Forall₂ documented.Segment raws segments) :
    List.Forall₂ liberal.Segment raws segments :=
  h.imp fun _ _ hsegment => (documented_segment_iff.mp hsegment).1

end

/-! ## Printing -/

def printBound : Option Nat → List Char
  | none => []
  | some n => Nat.toDigits 10 n

def Selector.print : Selector → List Char
  | .absent => []
  | .index n => '[' :: (Nat.toDigits 10 n ++ [']'])
  | .slice start stop step =>
      '[' :: ([':'].intercalate [printBound start, printBound stop, Nat.toDigits 10 step] ++ [']'])

/-- Segments in the documented notation. -/
def printPath (segments : List PathSegment) : String :=
  String.ofList (['.'].intercalate
    (segments.map fun segment => segment.name.toList ++ segment.selector.print))

theorem ofDigits_ten {digits : List Char} (h : ∀ c ∈ digits, c.isDigit = true) :
    ofDigits 10 digits = Nat.ofDigitChars 10 digits 0 := by
  rw [ofDigits, Nat.ofDigitChars_eq_foldl]
  refine List.foldl_ext _ _ 0 fun n c hc => ?_
  rw [digit?, if_pos (h c hc), Option.getD_some]

theorem liberalNumeral_toDigits {n : Nat} (hn : n < 2 ^ 31) :
    LiberalNumeral (Nat.toDigits 10 n) n := by
  have hall : ∀ c ∈ Nat.toDigits 10 n, c.isDigit = true := fun c hc =>
    Nat.isDigit_of_mem_toDigits (by decide) (by decide) hc
  refine (numeral_iff.mp ⟨[], Nat.toDigits 10 n, [], by simp, by simp, by simp,
    Nat.toDigits_ne_nil, hall, ?_, hn⟩).1
  rw [ofDigits_ten hall, Nat.ofDigitChars_ten_toDigits]

theorem liberal_bound_print {text : List Char} {o : Option Nat} (h : liberal.Bound text o) :
    liberal.Bound (printBound o) o := by
  cases h with
  | blank _ => exact .blank (by simp [printBound])
  | number hn => exact .number (liberalNumeral_toDigits hn.2.2.2.1)

theorem liberal_bound_step {text : List Char} {step : Option Nat} (h : liberal.Bound text step) :
    liberal.Bound (Nat.toDigits 10 (step.getD 1)) (some (step.getD 1)) := by
  cases h with
  | blank _ => exact .number (liberalNumeral_toDigits (by decide))
  | number hn => exact .number (liberalNumeral_toDigits hn.2.2.2.1)

theorem liberal_segment_print {raw : List Char} {segment : PathSegment}
    (h : liberal.Segment raw segment) :
    liberal.Segment (segment.name.toList ++ segment.selector.print) segment := by
  cases h with
  | plain hne hname =>
      rw [String.toList_ofList, Selector.print, List.append_nil]
      exact .plain hne hname
  | selected hne hname hparts =>
      rw [String.toList_ofList]
      cases hparts with
      | index hn =>
          have hindex := @Spelling.Segment.selected liberal _ _ _ hne hname
            (.index (liberalNumeral_toDigits hn.2.2.2.1))
          rwa [List.intercalate_singleton] at hindex
      | slice ha hb =>
          exact .selected hne hname (.stepped (liberal_bound_print ha) (liberal_bound_print hb)
            (.number (liberalNumeral_toDigits (by decide))) rfl)
      | stepped ha hb hc hk =>
          rw [Selector.print, ← hk]
          exact .selected hne hname (.stepped (liberal_bound_print ha) (liberal_bound_print hb)
            (liberal_bound_step hc) hk)

/-- **A printed path is read back.** -/
theorem parseMemberPath_printPath {path : String} {segments : List PathSegment}
    (h : parseMemberPath path = .ok segments) :
    parseMemberPath (printPath segments) = .ok segments := by
  have hne := parseMemberPath_ne_nil h
  have hprinted : List.Forall₂ liberal.Segment
      (segments.map fun segment => segment.name.toList ++ segment.selector.print) segments := by
    rw [List.forall₂_map_left_iff, List.forall₂_same]
    intro segment hsegment
    obtain ⟨raw, _, hraw⟩ := exists_of_forall₂ (parseMemberPath_eq_ok.mp h).2 hsegment
    exact liberal_segment_print hraw
  obtain ⟨_, hraws, hchars⟩ := rawSegments_intercalate (by simpa using hne) hprinted
  rw [parseMemberPath_eq_ok, printPath, String.toList_ofList, hraws]
  refine ⟨?_, hprinted⟩
  intro hempty
  exact hchars (by rw [← String.toList_ofList (l := ['.'].intercalate _), hempty]; rfl)

/-! ## Where the parser keeps to the notation -/

/-- The parser accepts what the notation allows, with the segments that are meant, rejects
everything else as an invalid argument, and reads a printed path back. -/
def FollowsNotation (path : String) : Prop :=
  (∀ segments, parseMemberPath path = .ok segments ↔ documented.Path path segments) ∧
  (∀ e, parseMemberPath path = .error e → ∃ what, e = .invalidArgument what) ∧
  ∀ segments, parseMemberPath path = .ok segments →
    parseMemberPath (printPath segments) = .ok segments

/-- No segment behind good ones is faulty for an oversized number first, and a path of good
segments takes none of the liberties. -/
structure Regular (path : String) : Prop where
  small : ∀ before raw after, rawSegments path.toList = before ++ raw :: after →
    (∀ other ∈ before, ∃ segment, liberal.Segment other segment) → ¬OversizedSegment raw
  orderly : (∀ raw ∈ rawSegments path.toList, ∃ segment, liberal.Segment raw segment) →
    path.toList.getLast? ≠ some '.' ∧ ∀ raw ∈ rawSegments path.toList, Orderly raw

section

variable {path : String} {segments : List PathSegment}

theorem Regular.parse_iff (h : Regular path) :
    parseMemberPath path = .ok segments ↔ documented.Path path segments := by
  rw [parseMemberPath_eq_ok]
  constructor
  · rintro ⟨hne, hsegments⟩
    obtain ⟨hlast, horderly⟩ := h.orderly fun raw hraw => by
      obtain ⟨segment, _, hsegment⟩ := exists_of_forall₂ hsegments.flip hraw
      exact ⟨segment, hsegment⟩
    have hchars : path.toList ≠ [] := fun hnil => hne (String.toList_eq_nil_iff.mp hnil)
    -- A path that does not end in a dot loses no segment.
    have hraws : rawSegments path.toList = path.toList.splitOn '.' := by
      have hopen : (path.toList.splitOn '.').getLast? ≠ some [] := by
        rw [ne_eq, Pieces.getLast?_splitOn_eq_nil_iff]
        exact not_or.mpr ⟨hchars, hlast⟩
      simp only [rawSegments, if_neg hopen]
    refine ⟨path.toList.splitOn '.', List.splitOn_ne_nil _ _, (List.intercalate_splitOn '.').symm,
      ?_⟩
    rw [← hraws]
    rw [List.forall₂_iff_zip] at hsegments ⊢
    exact ⟨hsegments.1, fun hmem => documented_segment_iff.mpr
      ⟨hsegments.2 hmem, horderly _ (List.of_mem_zip hmem).1⟩⟩
  · rintro ⟨raws, hraws, hpath, hsegments⟩
    have hliberal := forall₂_documented hsegments
    obtain ⟨_, hrawSegments, hchars⟩ := rawSegments_intercalate hraws hliberal
    rw [hpath, hrawSegments]
    refine ⟨?_, hliberal⟩
    rintro rfl
    exact hchars hpath.symm

theorem Regular.invalidArgument (h : Regular path) {e : StdException}
    (he : parseMemberPath path = .error e) : ∃ what, e = .invalidArgument what := by
  simp only [parseMemberPath, bind_eq_error] at he
  rcases he with he | ⟨_, _, he⟩
  · unfold require at he
    split at he
    · cases he
    · cases he
      exact ⟨_, rfl⟩
  · obtain ⟨before, raw, after, hraws, hbefore, hraw⟩ := mapM_eq_error.mp he
    rcases parseSegment_blames e hraw with ⟨hinvalid, _⟩ | ⟨_, hbig⟩
    · exact hinvalid
    · refine absurd hbig (h.small before raw after hraws fun other hother => ?_)
      obtain ⟨segment, hsegment⟩ := hbefore other hother
      have hmem : other ∈ rawSegments path.toList := by
        rw [hraws]
        exact List.mem_append_left _ hother
      exact ⟨segment, (parseSegment_eq_ok (not_mem_rawSegments hmem)).mp hsegment⟩

theorem FollowsNotation.not_oversized (h : FollowsNotation path) {before after : List (List Char)}
    {raw : List Char} (hraws : rawSegments path.toList = before ++ raw :: after)
    (hbefore : ∀ other ∈ before, ∃ segment, liberal.Segment other segment) :
    ¬OversizedSegment raw := by
  intro hbig
  have hdot : ∀ other ∈ before ++ raw :: after, '.' ∉ other := fun other hother =>
    not_mem_rawSegments (hraws ▸ hother)
  have hpath : path ≠ "" := by
    rintro rfl
    have hlength := congrArg List.length hraws
    simp [rawSegments] at hlength
  -- The parser gets to the segment and cannot read it.
  obtain ⟨e, he⟩ : ∃ e, parseSegment raw = .error e := by
    cases hok : parseSegment raw with
    | error e => exact ⟨e, rfl⟩
    | ok segment =>
        have hsegment := (parseSegment_eq_ok (hdot raw (by simp))).mp hok
        exact absurd hbig (liberal_segment_not_oversized hsegment)
  have hparse : parseMemberPath path = .error e := by
    rw [parseMemberPath, require, if_pos (decide_eq_true hpath)]
    refine mapM_eq_error.mpr ⟨before, raw, after, hraws, fun other hother => ?_, he⟩
    obtain ⟨segment, hsegment⟩ := hbefore other hother
    exact ⟨segment, (parseSegment_eq_ok (hdot other (List.mem_append_left _ hother))).mpr hsegment⟩
  obtain ⟨what, rfl⟩ := h.2.1 e hparse
  rcases parseSegment_blames _ he with ⟨_, hsmall⟩ | ⟨hrange, _⟩
  · exact hsmall hbig
  · cases hrange

theorem FollowsNotation.orderly (h : FollowsNotation path)
    (hgood : ∀ raw ∈ rawSegments path.toList, ∃ segment, liberal.Segment raw segment) :
    path.toList.getLast? ≠ some '.' ∧ ∀ raw ∈ rawSegments path.toList, Orderly raw := by
  by_cases hpath : path = ""
  · subst hpath
    refine ⟨by simp, ?_⟩
    intro raw hraw
    simp [rawSegments] at hraw
  · obtain ⟨segments, hsegments⟩ := exists_forall₂ hgood
    obtain ⟨raws, hraws, hlist, hdocumented⟩ :=
      (h.1 segments).mp (parseMemberPath_eq_ok.mpr ⟨hpath, hsegments⟩)
    have hliberal := forall₂_documented hdocumented
    obtain ⟨hsplit, hrawSegments, hchars⟩ := rawSegments_intercalate hraws hliberal
    rw [hlist, hrawSegments]
    constructor
    · intro hdot
      have hlast := Pieces.getLast?_splitOn_eq_nil_iff.mpr (Or.inr hdot)
      rw [hsplit] at hlast
      obtain ⟨segment, _, hsegment⟩ := exists_of_forall₂ hliberal.flip (List.mem_of_getLast? hlast)
      exact (liberal_segment_chars hsegment).1 rfl
    · intro raw hraw
      obtain ⟨segment, _, hsegment⟩ := exists_of_forall₂ hdocumented.flip hraw
      exact (documented_segment_iff.mp hsegment).2

end

/-- **The parser keeps to the notation exactly on the regular paths.** -/
theorem parseMemberPath_follows_iff (path : String) : FollowsNotation path ↔ Regular path := by
  constructor
  · intro h
    exact ⟨fun before raw after hraws hbefore => h.not_oversized hraws hbefore, h.orderly⟩
  · intro h
    exact ⟨fun segments => h.parse_iff, fun e he => h.invalidArgument he,
      fun segments hok => parseMemberPath_printPath hok⟩

/-- A number that no `int` has is not an invalid argument. -/
theorem parseMemberPath_oversized :
    parseMemberPath "a[99999999999]" = .error (.outOfRange "stoi") ∧
      ¬∀ path, FollowsNotation path := by
  have hparse : parseMemberPath "a[99999999999]" = .error (.outOfRange "stoi") := by decide +kernel
  refine ⟨hparse, fun hall => ?_⟩
  obtain ⟨what, hwhat⟩ := (hall "a[99999999999]").2.1 _ hparse
  cases hwhat

/-- A dot at the end, a bracket in a name and a sign are read. -/
example : (parseMemberPath "a.").toOption = some [⟨"a", .absent⟩] ∧
    (parseMemberPath "a]b").toOption = some [⟨"a]b", .absent⟩] ∧
    (parseMemberPath "a[+3]").toOption = some [⟨"a", .index 3⟩] := by decide +kernel

end UavBluetooth.Bridge
