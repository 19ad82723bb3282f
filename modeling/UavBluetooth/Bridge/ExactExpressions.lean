import UavBluetooth.Bridge.ExpressionGrammar

set_option autoImplicit false

/-! # The integer parser evaluates trees

Whatever tree a text spells, the parser makes of the text what eager evaluation makes of the tree,
and it makes a value of no other text.
-/

namespace UavBluetooth.Bridge

open Util Fallible IntegerParser

variable {resolver : String → Except StdException (Option ExactInteger)}

/-! ## Reading a result

Blanks behind a value do not matter, nor does the position of a failure. -/

def reading : Parsed → Except Denial (ExactInteger × List Char)
  | .ok (v, text) => .ok (v, whitespace text)
  | .error stop => .error stop.denial

/-- What goes on after a value, whatever blanks the value was read with. -/
theorem reading_bind {p : Parsed} {x : Except Denial ExactInteger} {rest : List Char}
    (hp : reading p = x.map (·, whitespace rest)) {f : ExactInteger × List Char → Parsed}
    (hf : ∀ v text, reading (f (v, text)) = reading (f (v, whitespace text))) :
    reading (p >>= f) = x >>= fun v => reading (f (v, rest)) := by
  cases p with
  | error stop =>
      cases x with
      | error denial => exact congrArg _ (Except.error.inj hp)
      | ok v => cases hp
  | ok result =>
      obtain ⟨v, text⟩ := result
      cases x with
      | error denial => cases hp
      | ok v' =>
          obtain ⟨rfl, htext⟩ := Prod.mk.inj (Except.ok.inj hp)
          calc reading (f (v, text)) = reading (f (v, whitespace rest)) := by rw [hf, htext]
            _ = reading (f (v, rest)) := (hf v rest).symm

theorem reading_failAt {x : Except String ExactInteger} {text : List Char}
    {f : ExactInteger → Parsed} :
    reading (failAt text x >>= f) = denied x >>= fun v => reading (f v) := by
  cases x <;> rfl

/-! ## What may follow -/

/-- A text that begins with a token which can follow an operand, if with any. -/
def Follows (rest : List Char) : Prop :=
  ∀ c ∈ (whitespace rest).head?, c ∈ ['+', '-', '*', '/', '%', ')', ',']

theorem follows_of_whitespace {rest tail : List Char} {c : Char}
    (h : whitespace rest = c :: tail) (hc : c ∈ ['+', '-', '*', '/', '%', ')', ',']) :
    Follows rest := by
  intro d hd
  rw [h] at hd
  rwa [← Option.some.inj hd]

/-- A name and a literal end where such a text begins. -/
theorem Follows.not_isNameChar {rest : List Char} (h : Follows rest) :
    ∀ c ∈ rest.head?, isNameChar c = false := by
  intro c hc
  obtain ⟨tail, rfl⟩ := List.head?_eq_some_iff.mp hc
  by_cases hblank : isCSpace c = true
  · simp only [isCSpace, Bool.or_eq_true, beq_iff_eq, or_assoc] at hblank
    rcases hblank with rfl | rfl | rfl | rfl | rfl | rfl <;> decide
  · have hmem := h c (by rw [whitespace_cons (by simpa using hblank)]; rfl)
    simp only [List.mem_cons, List.not_mem_nil, or_false] at hmem
    rcases hmem with rfl | rfl | rfl | rfl | rfl | rfl | rfl <;> decide

theorem takeWhile_append_eq {p : Char → Bool} {l rest : List Char} (hl : ∀ c ∈ l, p c = true)
    (hrest : ∀ c ∈ rest.head?, p c = false) :
    (l ++ rest).takeWhile p = l ∧ (l ++ rest).dropWhile p = rest := by
  rw [List.takeWhile_append_of_pos hl, List.dropWhile_append_of_pos hl]
  cases rest with
  | nil => simp
  | cons c rest => simp [hrest c rfl]

theorem isNameChar_of_isDigit {c : Char} (h : c.isDigit = true) : isNameChar c = true := by
  simp [isNameChar, Char.isAlphanum, h]

theorem not_isCSpace_of_isNameChar {c : Char} (h : isNameChar c = true) : isCSpace c = false := by
  rw [← Bool.not_eq_true]
  intro hspace
  simp only [isCSpace, Bool.or_eq_true, beq_iff_eq, or_assoc] at hspace
  rcases hspace with rfl | rfl | rfl | rfl | rfl | rfl <;> exact absurd h (by decide)

theorem isNameChar_of_isNameStart {c : Char} (h : isNameStart c = true) : isNameChar c = true := by
  simp only [isNameStart, isNameChar, Char.isAlphanum, Bool.or_eq_true] at *
  tauto

theorem not_isDigit_of_isNameStart {c : Char} (h : isNameStart c = true) : ¬c.isDigit = true := by
  intro hdigit
  simp only [isNameStart, isAlpha_eq, isUpper_iff_val, isLower_iff_val, Char.isDigit,
    Bool.or_eq_true, Bool.and_eq_true, decide_eq_true_eq, beq_iff_eq, UInt32.le_iff_toNat_le] at h hdigit
  have hnine : '9'.val.toNat = 57 := rfl
  have hupper : 'A'.val.toNat = 65 := rfl
  have hlower : 'a'.val.toNat = 97 := rfl
  rcases h with (h | h) | rfl
  · omega
  · omega
  · exact absurd hdigit.2 (by decide)

/-! ## Operands -/

theorem parse_operand {text after : List Char} {c : Char} (h : whitespace text = c :: after)
    (hc : c ≠ '(') : parse resolver (.primary, text) = operand resolver c after := by
  have hmiss : consume '(' (whitespace text) = (false, c :: after) := by
    rw [consume_whitespace, consume_eq_false, h]
    exact ⟨fun heq => hc (Option.some.inj heq), rfl⟩
  rw [parse_primary, primary, hmiss]

/-- Digits are a literal, unless what ends them makes them a decimal one. -/
theorem operand_digits {c : Char} {digits tail : List Char} (hc : c.isDigit = true)
    (hdigits : ∀ d ∈ digits, d.isDigit = true) (htail : ∀ d ∈ tail.head?, d.isDigit = false) :
    ∃ left, operand resolver c (digits ++ tail) =
      failAt left (checked "Integer literal overflow" (ofDigits 10 (c :: digits) : Nat)) >>=
        fun v => if tail.head? = some '.' ∨ tail.head? = some 'e' ∨ tail.head? = some 'E'
          then .error .floating else .ok (v, tail) := by
  obtain ⟨htake, hdrop⟩ := takeWhile_append_eq (p := Char.isDigit) (l := c :: digits)
    (by simpa [hc] using hdigits) htail
  have hzero : (0 : ExactInteger).toInt = (0 : Nat) := rfl
  obtain ⟨left, hliteral⟩ := readLiteral_eq hzero (c :: digits ++ tail)
  rw [htake, hdrop] at hliteral
  refine ⟨left, ?_⟩
  have hpoint : c ≠ '.' := by
    rintro rfl
    exact absurd hc (by decide)
  unfold operand
  rw [if_neg hpoint, if_pos hc]
  change (readLiteral 0 (c :: digits ++ tail) >>= _) = _
  rw [hliteral]
  change _ = failAt left (checked _ (digitsAfter 0 (c :: digits))) >>= _
  cases checked "Integer literal overflow" (digitsAfter 0 (c :: digits)) <;> rfl

theorem not_isDigit_of_not_isNameChar {rest : List Char}
    (h : ∀ c ∈ rest.head?, isNameChar c = false) : ∀ c ∈ rest.head?, c.isDigit = false := by
  intro c hc
  rw [← Bool.not_eq_true]
  exact fun hdigit => absurd (isNameChar_of_isDigit hdigit) (by rw [h c hc]; decide)

/-- What the text of an operand is read as, up to the text that is left. -/
def Reading (resolver : String → Except StdException (Option ExactInteger)) (text : List Char)
    (e : Expr) (rest : List Char) : Prop :=
  reading (parse resolver (.primary, text)) =
    e.evaluate resolver >>= fun v => reading (.ok (v, rest))

theorem reading_literal {w rest : List Char} (hw : Blank w) (digits : Digits)
    (hrest : Follows rest) :
    Reading resolver (w ++ digits.text ++ rest) (.literal digits) rest := by
  obtain ⟨c, others, htext⟩ := List.exists_cons_of_ne_nil digits.nonempty
  have hdigits := digits.isDigit
  rw [htext, List.forall_mem_cons] at hdigits
  obtain ⟨hc, hothers⟩ := hdigits
  have hspace := not_isCSpace_of_isNameChar (isNameChar_of_isDigit hc)
  have hwhitespace : whitespace (w ++ digits.text ++ rest) = c :: (others ++ rest) := by
    rw [List.append_assoc, whitespace_blank_append hw, htext, List.cons_append,
      whitespace_cons hspace]
  have hopen : c ≠ '(' := by
    rintro rfl
    exact absurd hc (by decide)
  have hend := hrest.not_isNameChar
  obtain ⟨left, hoperand⟩ := @operand_digits resolver _ _ _ hc hothers
    (not_isDigit_of_not_isNameChar hend)
  have hno : ∀ d, isNameChar d = true → rest.head? ≠ some d := by
    intro d hd hhead
    exact absurd hd (by rw [hend d hhead]; decide)
  have hplain : ¬(rest.head? = some '.' ∨ rest.head? = some 'e' ∨ rest.head? = some 'E') := by
    rintro (h | h | h) <;> exact hno _ (by decide) h
  simp only [if_neg hplain] at hoperand
  unfold Reading
  rw [parse_operand hwhitespace hopen, hoperand, reading_failAt, ← htext]
  rfl

/-- The part of a decimal literal behind its digits shows that it is one. -/
theorem Decimal.tail_head (d : Decimal) (rest : List Char) :
    ∃ c after, d.tail ++ rest = c :: after ∧ (c = '.' ∨ c = 'e' ∨ c = 'E') ∧
      (d.whole = [] → c = '.') := by
  unfold tail
  cases hfraction : d.fraction with
  | some digits => exact ⟨'.', _, rfl, Or.inl rfl, fun _ => rfl⟩
  | none =>
      cases hexponent : d.exponent with
      | some exponent =>
          refine ⟨exponent.marker, _, rfl, Or.inr exponent.isMarker, fun hwhole => ?_⟩
          rcases d.hasDigits with h | ⟨digits, hdigits, _⟩
          · exact absurd hwhole h
          · rw [hfraction] at hdigits
            cases hdigits
      | none =>
          have h := d.isFloating
          rw [hfraction, hexponent] at h
          exact absurd h (by decide)

theorem reading_decimal {w : List Char} (rest : List Char) (hw : Blank w) (d : Decimal) :
    Reading resolver (w ++ d.text ++ rest) (.decimal d) rest := by
  obtain ⟨m, after, htail, hm, hpoint⟩ := d.tail_head rest
  have htext : w ++ d.text ++ rest = w ++ (d.whole ++ m :: after) := by
    rw [Decimal.text, List.append_assoc, List.append_assoc, htail]
  unfold Reading
  cases hwhole : d.whole with
  | nil =>
      obtain rfl := hpoint hwhole
      have hwhitespace : whitespace (w ++ d.text ++ rest) = '.' :: after := by
        rw [htext, hwhole, whitespace_blank_append hw]
        exact whitespace_cons (by decide) after
      rw [parse_operand hwhitespace (by decide), Expr.evaluate, hwhole]
      rfl
  | cons c others =>
      have hdigits := d.isDigit
      rw [hwhole, List.forall_mem_cons] at hdigits
      obtain ⟨hc, hothers⟩ := hdigits
      have hspace := not_isCSpace_of_isNameChar (isNameChar_of_isDigit hc)
      have hwhitespace : whitespace (w ++ d.text ++ rest) = c :: (others ++ m :: after) := by
        rw [htext, hwhole, whitespace_blank_append hw, List.cons_append, whitespace_cons hspace]
      have hopen : c ≠ '(' := by
        rintro rfl
        exact absurd hc (by decide)
      have hend : ∀ x ∈ (m :: after).head?, x.isDigit = false := by
        intro x hx
        obtain rfl : m = x := Option.some.inj hx
        rcases hm with rfl | rfl | rfl <;> decide
      obtain ⟨left, hoperand⟩ := @operand_digits resolver _ _ _ hc hothers hend
      have hfloating : (m :: after).head? = some '.' ∨ (m :: after).head? = some 'e' ∨
          (m :: after).head? = some 'E' := by
        rcases hm with rfl | rfl | rfl <;> simp
      simp only [if_pos hfloating] at hoperand
      rw [parse_operand hwhitespace hopen, hoperand, reading_failAt, Expr.evaluate, hwhole]
      cases checked "Integer literal overflow" (ofDigits 10 (c :: others) : Nat) <;> rfl

/-- A name is read to its end, and then looked at. -/
theorem parse_name {w rest : List Char} (hw : Blank w) (name : Identifier)
    (hend : ∀ c ∈ rest.head?, isNameChar c = false) :
    parse resolver (.primary, w ++ (name.text ++ rest)) =
      identifier resolver name.text rest := by
  have hstart := name.isStart
  have hspace := not_isCSpace_of_isNameChar (isNameChar_of_isNameStart hstart)
  have hwhitespace : whitespace (w ++ (name.text ++ rest)) = name.start :: (name.rest ++ rest) := by
    rw [whitespace_blank_append hw, Identifier.text, List.cons_append, whitespace_cons hspace]
  have hno : ∀ c, isNameStart c = false → name.start ≠ c := by
    rintro c hc rfl
    exact absurd hstart (by rw [hc]; decide)
  have hdigit := not_isDigit_of_isNameStart hstart
  obtain ⟨htake, hdrop⟩ := takeWhile_append_eq name.isName hend
  rw [parse_operand hwhitespace (hno '(' (by decide))]
  unfold operand
  rw [if_neg (hno '.' (by decide)), if_neg hdigit, if_neg (by rw [hstart]; decide), htake, hdrop]
  rfl

theorem reading_identifier {w rest : List Char} (hw : Blank w) (name : Identifier)
    (hrest : Follows rest) :
    Reading resolver (w ++ name.text ++ rest) (.identifier name) rest := by
  have hcall : (whitespace rest).head? ≠ some '(' := by
    intro h
    exact absurd (hrest _ h) (by decide)
  unfold Reading
  rw [List.append_assoc, parse_name hw name hrest.not_isNameChar, Expr.evaluate, lookUp,
    Identifier.name]
  unfold identifier
  simp only [if_neg hcall]
  split
  · rfl
  · cases resolver (String.ofList name.text) with
    | error exception => rfl
    | ok value =>
        cases value with
        | none => rfl
        | some value =>
            change Except.ok (value, whitespace (whitespace rest)) = _
            rw [whitespace_whitespace]
            rfl

theorem parse_call {w v after : List Char} (hw : Blank w) (name : Identifier) (hv : Blank v) :
    parse resolver (.primary, w ++ (name.text ++ (v ++ '(' :: after))) = .error .floating := by
  have hend : ∀ c ∈ (v ++ '(' :: after).head?, isNameChar c = false := by
    intro c hc
    cases v with
    | nil =>
        obtain rfl : '(' = c := Option.some.inj hc
        decide
    | cons first others =>
        obtain rfl : first = c := Option.some.inj hc
        rw [← Bool.not_eq_true]
        intro hname
        exact absurd (hv first List.mem_cons_self)
          (by rw [not_isCSpace_of_isNameChar hname]; decide)
  have hopen : (whitespace (v ++ '(' :: after)).head? = some '(' := by
    rw [whitespace_blank_append hv, whitespace_cons (by decide)]
    rfl
  rw [parse_name hw name hend]
  unfold identifier
  simp only [if_pos hopen]

/-! ## Levels -/

/-- The function of the parser that reads a level. -/
def Level.function : Level → Call
  | .expression => .expression
  | .product => .product
  | .unary => .unary
  | .primary => .primary

/-- How the parser goes on at a level when it has a value there. -/
def Level.after (resolver : String → Except StdException (Option ExactInteger)) (v : ExactInteger)
    (rest : List Char) : Level → Parsed
  | .expression => parse resolver (.expressionLoop v, rest)
  | .product => parse resolver (.productLoop v, rest)
  | _ => .ok (v, rest)

/-- A text that can follow a text of a level; an operator that its operands chain does not. -/
structure Ends (level : Level) (rest : List Char) : Prop where
  follows : Follows rest
  noOperator : ∀ op ∈ level.operand.operators, (whitespace rest).head? ≠ some op.symbol

section

variable {level : Level} {rest : List Char} {v : ExactInteger}

theorem Ends.operand (h : Ends level rest) : Ends level.operand rest where
  follows := h.follows
  noOperator := by
    cases level <;> exact fun op hop => absurd hop List.not_mem_nil

theorem Level.after_whitespace (level : Level) (v : ExactInteger) (text : List Char) :
    reading (level.after resolver v text) =
      reading (level.after resolver v (whitespace text)) := by
  cases level with
  | expression =>
      rw [after, after, parse_expressionLoop v text, parse_expressionLoop v (whitespace text),
        operatorLoop_whitespace]
  | product =>
      rw [after, after, parse_productLoop v text, parse_productLoop v (whitespace text),
        operatorLoop_whitespace]
  | unary => simp only [after, reading, whitespace_whitespace]
  | primary => simp only [after, reading, whitespace_whitespace]

/-- Behind the last operand of a chain there is nothing left to do for the operand. -/
theorem Level.after_operand (h : Ends level rest) :
    reading (level.operand.after resolver v rest) = .ok (v, whitespace rest) := by
  cases level with
  | expression =>
      have hnone := consumeOperator_eq_none.mpr ⟨rfl, h.noOperator⟩
      simp only [operand, operators] at hnone
      simp only [operand, after, parse_productLoop, operatorLoop, hnone, reading,
        whitespace_whitespace]
  | product => rfl
  | unary => rfl
  | primary => rfl

/-- Behind an operator the operand is read, and the operation done. -/
theorem Level.after_operator {op : Operator} {a : ExactInteger} {text next : List Char}
    (hop : op ∈ level.operators) (h : whitespace text = op.symbol :: next) :
    level.after resolver a text = parse resolver (level.operand.function, next) >>= fun b =>
      failAt b.2 (op.apply a b.1) >>= fun c => level.after resolver c b.2 := by
  have hsome := consumeOperator_of_mem hop h
  cases level with
  | expression =>
      simp only [operators] at hsome
      rw [after, parse_expressionLoop, operatorLoop, hsome]
      rfl
  | product =>
      simp only [operators] at hsome
      rw [after, parse_productLoop, operatorLoop, hsome]
      rfl
  | unary => cases hop
  | primary => cases hop

end

/-- A primary does not begin with a sign. -/
theorem Derives.head_primary {t : List Char} {e : Expr} (h : Derives .primary t e)
    (rest : List Char) :
    (whitespace (t ++ rest)).head? ≠ some '+' ∧ (whitespace (t ++ rest)).head? ≠ some '-' := by
  -- behind blanks, a primary begins with a character of a name or literal, or with a parenthesis
  have hhead : ∀ {w : List Char} {c : Char} {tail : List Char}, Blank w →
      isNameChar c = true ∨ c = '(' →
      (whitespace (w ++ (c :: tail) ++ rest)).head? ≠ some '+' ∧
        (whitespace (w ++ (c :: tail) ++ rest)).head? ≠ some '-' := by
    intro w c tail hw hc
    have hspace : isCSpace c = false := by
      rcases hc with hc | rfl
      · exact not_isCSpace_of_isNameChar hc
      · decide
    rw [List.append_assoc, whitespace_blank_append hw, List.cons_append, whitespace_cons hspace]
    constructor <;> intro heq <;> obtain rfl := Option.some.inj heq <;>
      exact absurd hc (by decide)
  generalize hlevel : Level.primary = level at h
  induction h with
  | literal hw digits =>
      obtain ⟨c, others, htext⟩ := List.exists_cons_of_ne_nil digits.nonempty
      have hc := digits.isDigit c (by simp [htext])
      rw [htext]
      exact hhead hw (Or.inl (isNameChar_of_isDigit hc))
  | decimal hw d =>
      cases hwhole : d.whole with
      | nil =>
          obtain ⟨m, after, htail, _, hpoint⟩ := d.tail_head []
          rw [List.append_nil] at htail
          obtain rfl := hpoint hwhole
          rw [Decimal.text, hwhole, htail]
          exact hhead hw (Or.inl (by decide))
      | cons c others =>
          have hc := d.isDigit c (by simp [hwhole])
          rw [Decimal.text, hwhole]
          exact hhead hw (Or.inl (isNameChar_of_isDigit hc))
  | identifier hw name =>
      exact hhead hw (Or.inl (isNameChar_of_isNameStart name.isStart))
  | call hw name _ _ _ _ _ =>
      exact hhead hw (Or.inl (isNameChar_of_isNameStart name.isStart))
  | parentheses hw _ _ _ => exact hhead hw (Or.inr rfl)
  | positive => cases hlevel
  | negative => cases hlevel
  | operand _ ih =>
      obtain rfl := hlevel
      exact ih rfl
  | binary hop =>
      obtain rfl := hlevel
      cases hop

/-! ## Trees are evaluated -/

/-- At a level, the text of a tree is read as the tree is evaluated, and the parser goes on. -/
def Adequate (resolver : String → Except StdException (Option ExactInteger)) (level : Level)
    (t : List Char) (e : Expr) : Prop :=
  ∀ rest, Ends level rest → reading (parse resolver (level.function, t ++ rest)) =
    e.evaluate resolver >>= fun v => reading (level.after resolver v rest)

section

variable {level : Level} {t : List Char} {e : Expr}

/-- The operand of a level is read to its end. -/
theorem Adequate.read (h : Adequate resolver level.operand t e) {rest : List Char}
    (hrest : Ends level rest) :
    reading (parse resolver (level.operand.function, t ++ rest)) =
      (e.evaluate resolver).map (·, whitespace rest) := by
  rw [h rest hrest.operand]
  cases e.evaluate resolver with
  | error denial => rfl
  | ok v => exact Level.after_operand hrest

/-- A level reads an operand first, and goes on. -/
theorem Adequate.chain (h : Adequate resolver level.operand t e)
    (hlevel : ∀ text, parse resolver (level.function, text) =
      parse resolver (level.operand.function, text) >>= fun a =>
        level.after resolver a.1 a.2) : Adequate resolver level t e := by
  intro rest hrest
  rw [hlevel]
  exact reading_bind (h.read hrest) fun v text => level.after_whitespace v text

theorem parse_primary_whitespace (text : List Char) :
    parse resolver (.primary, whitespace text) = parse resolver (.primary, text) := by
  rw [parse_primary (whitespace text), parse_primary text, primary, primary, whitespace_whitespace]

/-- Where no sign comes first, a unary is a primary. -/
theorem parse_unary_primary {text : List Char} (hplus : (whitespace text).head? ≠ some '+')
    (hminus : (whitespace text).head? ≠ some '-') :
    parse resolver (.unary, text) = parse resolver (.primary, text) := by
  rw [parse_unary, unary, consume_eq_false.mpr ⟨hplus, rfl⟩]
  simp only [consume_whitespace]
  rw [consume_eq_false.mpr ⟨hminus, rfl⟩]
  exact parse_primary_whitespace text

theorem parse_positive {w : List Char} (hw : Blank w) (text : List Char) :
    parse resolver (.unary, w ++ '+' :: text) = parse resolver (.unary, text) := by
  have hplus : whitespace (w ++ '+' :: text) = '+' :: text := by
    rw [whitespace_blank_append hw, whitespace_cons (by decide)]
  rw [parse_unary (w ++ '+' :: text), unary, consume_eq_true.mpr hplus]

theorem parse_negative {w : List Char} (hw : Blank w) (text : List Char) :
    parse resolver (.unary, w ++ '-' :: text) =
      parse resolver (.unary, text) >>= fun a =>
        failAt a.2 (negate a.1) >>= fun v => .ok (v, a.2) := by
  have hminus : whitespace (w ++ '-' :: text) = '-' :: text := by
    rw [whitespace_blank_append hw, whitespace_cons (by decide)]
  have hplus : consume '+' (w ++ '-' :: text) = (false, '-' :: text) := by
    rw [consume_eq_false, hminus, List.head?_cons]
    exact ⟨by decide, rfl⟩
  rw [parse_unary (w ++ '-' :: text), unary, hplus]
  simp only
  rw [consume_eq_true.mpr (whitespace_cons (by decide) text)]
  rfl

/-- Between parentheses an expression is read. -/
theorem parse_parentheses {w : List Char} (hw : Blank w) (text : List Char) :
    parse resolver (.primary, w ++ '(' :: text) =
      parse resolver (.expression, text) >>= fun a =>
        match consume ')' a.2 with
        | (true, text) => .ok (a.1, text)
        | (false, text) => fail "Missing closing parenthesis" text := by
  have hopen : whitespace (w ++ '(' :: text) = '(' :: text := by
    rw [whitespace_blank_append hw, whitespace_cons (by decide)]
  rw [parse_primary, primary, consume_whitespace, consume_eq_true.mpr hopen]
  rfl

/-- **Adequacy.** By induction on the derivation of the text. -/
theorem Derives.adequate (h : Derives level t e) : Adequate resolver level t e := by
  induction h with
  | literal hw digits => exact fun rest hrest => reading_literal hw digits hrest.follows
  | decimal hw d => exact fun rest _ => reading_decimal rest hw d
  | identifier hw name => exact fun rest hrest => reading_identifier hw name hrest.follows
  | call hw name hv _ _ _ _ =>
      intro rest _
      simp only [List.append_assoc, List.cons_append]
      rw [Level.function, parse_call hw name hv]
      rfl
  | @parentheses w t v e hw he hv ih =>
      intro rest hrest
      have hclose : whitespace (v ++ ')' :: rest) = ')' :: rest := by
        rw [whitespace_blank_append hv, whitespace_cons (by decide)]
      have hends : Ends .expression (v ++ ')' :: rest) := by
        refine ⟨follows_of_whitespace hclose (by decide), ?_⟩
        rw [hclose, List.head?_cons]
        decide
      have htext : w ++ '(' :: (t ++ (v ++ [')'])) ++ rest =
          w ++ '(' :: (t ++ (v ++ ')' :: rest)) := by simp
      -- the chain in the parentheses ends at the closing one
      have hchain : ∀ a, reading (Level.expression.after resolver a (v ++ ')' :: rest)) =
          .ok (a, ')' :: rest) := by
        intro a
        have hnone : consumeOperator [.add, .subtract] (v ++ ')' :: rest) =
            (none, ')' :: rest) := by
          rw [consumeOperator_eq_none, hclose, List.head?_cons]
          exact ⟨rfl, by decide⟩
        rw [Level.after, parse_expressionLoop, operatorLoop, hnone, reading,
          whitespace_cons (by decide)]
      have hread : reading (parse resolver (.expression, t ++ (v ++ ')' :: rest))) =
          (e.evaluate resolver).map (·, whitespace (v ++ ')' :: rest)) := by
        have hih := ih _ hends
        rw [Level.function] at hih
        rw [hih, hclose]
        cases e.evaluate resolver with
        | error denial => rfl
        | ok a => exact hchain a
      rw [htext, Level.function, parse_parentheses hw,
        reading_bind hread fun a text => by rw [consume_whitespace]]
      simp only [consume_eq_true.mpr hclose]
      rfl
  | @positive w t e hw _ ih =>
      intro rest hrest
      have hread := ih rest hrest
      rw [List.append_assoc, List.cons_append, Level.function, parse_positive hw]
      exact hread
  | @negative w t e hw _ ih =>
      intro rest hrest
      have hread : reading (parse resolver (.unary, t ++ rest)) =
          (e.evaluate resolver).map (·, whitespace rest) := by
        have hih := ih rest hrest
        rw [Level.function] at hih
        rw [hih]
        cases e.evaluate resolver <;> rfl
      rw [List.append_assoc, List.cons_append, Level.function, parse_negative hw,
        reading_bind hread fun a text => ?_]
      · rw [Expr.evaluate, bind_assoc]
        refine bind_congr fun a => ?_
        exact reading_failAt
      · rw [reading_failAt, reading_failAt]
        simp only [reading, whitespace_whitespace]
  | @operand level t e he ih =>
      cases level with
      | expression => exact ih.chain parse_expression
      | product => exact ih.chain parse_product
      | unary =>
          intro rest hrest
          obtain ⟨hplus, hminus⟩ := he.head_primary rest
          rw [Level.function, parse_unary_primary hplus hminus]
          exact ih rest hrest.operand
      | primary => exact ih
  | @binary level op l w r left right hop _ hw _ ihleft ihright =>
      intro rest hrest
      have hnext : whitespace (w ++ op.symbol :: (r ++ rest)) = op.symbol :: (r ++ rest) := by
        rw [whitespace_blank_append hw]
        exact whitespace_cons (by cases op <;> decide) _
      have hends : Ends level (w ++ op.symbol :: (r ++ rest)) := by
        refine ⟨follows_of_whitespace hnext (by cases op <;> decide), fun op' hop' heq => ?_⟩
        rw [hnext] at heq
        obtain rfl := symbol_injective (Option.some.inj heq)
        cases level <;> cases op <;> revert hop hop' <;> decide
      have htext : l ++ (w ++ op.symbol :: r) ++ rest = l ++ (w ++ op.symbol :: (r ++ rest)) := by
        simp
      rw [htext, ihleft _ hends, Expr.evaluate, bind_assoc]
      refine bind_congr fun a => ?_
      rw [Level.after_operator hop hnext,
        reading_bind (ihright.read hrest) fun b text => ?_, bind_assoc]
      · refine bind_congr fun b => ?_
        exact reading_failAt
      · simp only [reading_failAt]
        exact bind_congr fun c => level.after_whitespace c text

end

end UavBluetooth.Bridge
