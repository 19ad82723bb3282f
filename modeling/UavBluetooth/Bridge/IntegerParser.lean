import UavBluetooth.Bridge.MathExpression

set_option autoImplicit false

/-! # How the integer parser moves

What each function of the parser does to the text, and with it the equations of the functions:
they only ever call one another further on in the text, or further down at one position.
-/

namespace UavBluetooth.Bridge.IntegerParser

open Util Fallible

/-! ## Tokens -/

/-- Text that is whitespace only. -/
def Blank (text : List Char) : Prop := ∀ c ∈ text, isCSpace c = true

theorem blank_nil : Blank [] := fun _ h => absurd h List.not_mem_nil

theorem Blank.append {v w : List Char} (hv : Blank v) (hw : Blank w) : Blank (v ++ w) :=
  fun c hc => (List.mem_append.mp hc).elim (hv c) (hw c)

@[simp] theorem whitespace_nil : whitespace [] = [] := rfl

/-- Whitespace is the blank part that a text begins with. -/
theorem exists_blank_append (text : List Char) : ∃ w, Blank w ∧ text = w ++ whitespace text :=
  ⟨text.takeWhile isCSpace, fun _ hc => List.mem_takeWhile_imp hc,
    (List.takeWhile_append_dropWhile).symm⟩

@[simp] theorem whitespace_blank_append {w : List Char} (hw : Blank w) (text : List Char) :
    whitespace (w ++ text) = whitespace text :=
  List.dropWhile_append_of_pos hw

theorem whitespace_cons {c : Char} (hc : isCSpace c = false) (text : List Char) :
    whitespace (c :: text) = c :: text := by
  unfold whitespace
  rw [List.dropWhile_cons_of_neg (by rw [hc]; decide)]

@[simp] theorem whitespace_whitespace (text : List Char) :
    whitespace (whitespace text) = whitespace text := by
  obtain ⟨w, hw, htext⟩ := exists_blank_append text
  cases hrest : whitespace text with
  | nil => rfl
  | cons c rest =>
      refine whitespace_cons ?_ rest
      have hhead := List.head?_dropWhile_not isCSpace text
      rw [show text.dropWhile isCSpace = c :: rest from hrest] at hhead
      simpa using hhead

theorem whitespace_length_le (text : List Char) : (whitespace text).length ≤ text.length :=
  (List.dropWhile_suffix isCSpace).length_le

theorem consume_eq_true {token : Char} {text rest : List Char} :
    consume token text = (true, rest) ↔ whitespace text = token :: rest := by
  unfold consume
  cases whitespace text with
  | nil => simp
  | cons c cs =>
      by_cases hc : c = token <;> simp [hc]

theorem consume_eq_false {token : Char} {text rest : List Char} :
    consume token text = (false, rest) ↔
      (whitespace text).head? ≠ some token ∧ rest = whitespace text := by
  unfold consume
  by_cases hc : (whitespace text).head? = some token
  · simp [hc]
  · simp [hc, eq_comm]

/-- Whitespace in front makes no difference to a token. -/
theorem consume_whitespace (token : Char) (text : List Char) :
    consume token (whitespace text) = consume token text := by
  unfold consume
  rw [whitespace_whitespace]

theorem consumeOperator_eq_some {operators : List Operator} {text rest : List Char}
    {op : Operator} (h : consumeOperator operators text = (some op, rest)) :
    op ∈ operators ∧ whitespace text = op.symbol :: rest := by
  induction operators generalizing text with
  | nil => cases h
  | cons first others ih =>
      unfold consumeOperator at h
      split at h
      · rename_i hconsume
        cases h
        exact ⟨List.mem_cons_self, consume_eq_true.mp hconsume⟩
      · rename_i left hconsume
        obtain ⟨hmem, hrest⟩ := ih h
        rw [(consume_eq_false.mp hconsume).2, whitespace_whitespace] at hrest
        exact ⟨List.mem_cons_of_mem _ hmem, hrest⟩

theorem consumeOperator_whitespace (operators : List Operator) (text : List Char) :
    consumeOperator operators (whitespace text) = consumeOperator operators text := by
  cases operators with
  | nil => simp only [consumeOperator, whitespace_whitespace]
  | cons first others => simp only [consumeOperator, consume_whitespace]

theorem symbol_injective {a b : Operator} (h : a.symbol = b.symbol) : a = b := by
  cases a <;> cases b <;> first | rfl | exact absurd h (by decide)

/-- An operator that comes next is consumed. -/
theorem consumeOperator_of_mem {operators : List Operator} {op : Operator} (hop : op ∈ operators)
    {text rest : List Char} (h : whitespace text = op.symbol :: rest) :
    consumeOperator operators text = (some op, rest) := by
  induction operators generalizing text with
  | nil => cases hop
  | cons first others ih =>
      unfold consumeOperator
      by_cases heq : first = op
      · rw [heq, consume_eq_true.mpr h]
      · have hmiss : consume first.symbol text = (false, whitespace text) := by
          refine consume_eq_false.mpr ⟨?_, rfl⟩
          rw [h]
          exact fun hsame => heq (symbol_injective (Option.some.inj hsame).symm)
        rw [hmiss]
        exact ih (List.mem_of_ne_of_mem (fun hsame => heq hsame.symm) hop)
          (by rw [whitespace_whitespace, h])

/-- Where none of the operators comes next, only whitespace is consumed. -/
theorem consumeOperator_eq_none {operators : List Operator} {text rest : List Char} :
    consumeOperator operators text = (none, rest) ↔
      rest = whitespace text ∧ ∀ op ∈ operators, (whitespace text).head? ≠ some op.symbol := by
  induction operators generalizing text with
  | nil => simp [consumeOperator, eq_comm]
  | cons first others ih =>
      unfold consumeOperator
      by_cases hfirst : (whitespace text).head? = some first.symbol
      · obtain ⟨left, hleft⟩ := List.head?_eq_some_iff.mp hfirst
        rw [consume_eq_true.mpr hleft]
        simp [hfirst]
      · rw [consume_eq_false.mpr ⟨hfirst, rfl⟩]
        simp only [ih, whitespace_whitespace, List.forall_mem_cons, ne_eq, hfirst,
          not_false_eq_true, true_and]

/-! ## Literals -/

/-- The number that more digits make of a number. -/
def digitsAfter (n : Nat) (digits : List Char) : Nat :=
  digits.foldl (fun n c => 10 * n + (digit? c).getD 0) n

theorem le_digitsAfter (n : Nat) (digits : List Char) : n ≤ digitsAfter n digits := by
  induction digits generalizing n with
  | nil => exact le_rfl
  | cons c digits ih =>
      calc n ≤ 10 * n + (digit? c).getD 0 := by omega
        _ ≤ digitsAfter n (c :: digits) := ih _

theorem checked_of_fits {reason : String} {n : Int} (h : Fits n) :
    checked reason n = .ok ⟨n, h⟩ := dif_pos h

theorem checked_of_not_fits {reason : String} {n : Int} (h : ¬Fits n) :
    checked reason n = .error reason := dif_neg h

theorem checked_eq_ok {reason : String} {n : Int} {v : ExactInteger} :
    checked reason n = .ok v ↔ v.toInt = n := by
  constructor
  · intro h
    unfold checked at h
    split at h
    · cases h
      rfl
    · cases h
  · rintro rfl
    exact checked_of_fits v.fits

theorem pushDigit_eq {value : ExactInteger} {n : Nat} (hvalue : value.toInt = n) {c : Char}
    (hc : c.isDigit = true) :
    pushDigit value c = checked "Integer literal overflow" (10 * n + (digit? c).getD 0 : Nat) := by
  have hdigit : (digit? c).getD 0 = c.toNat - '0'.toNat := by
    rw [digit?, if_pos hc, Option.getD_some]
  unfold pushDigit
  rw [hvalue, hdigit]
  by_cases hten : Fits (n * 10 : Int)
  · have hsum : ((10 * n + (c.toNat - '0'.toNat) : Nat) : Int) =
        n * 10 + (c.toNat - '0'.toNat : Nat) := by
      push_cast
      ring
    rw [checked_of_fits hten, hsum]
    rfl
  · have hmore : ¬Fits (10 * n + (c.toNat - '0'.toNat) : Nat) := by
      unfold Fits kMinimum kMaximum at *
      omega
    rw [checked_of_not_fits hten, checked_of_not_fits hmore]
    rfl

/-- A literal is read as far as its digits go, and refused when its value does not fit. -/
theorem readLiteral_eq {value : ExactInteger} {n : Nat} (hvalue : value.toInt = n)
    (text : List Char) :
    ∃ left, readLiteral value text = (failAt left (checked "Integer literal overflow"
      (digitsAfter n (text.takeWhile Char.isDigit)))).map (·, text.dropWhile Char.isDigit) := by
  induction text generalizing value n with
  | nil =>
      refine ⟨[], ?_⟩
      rw [show digitsAfter n ([].takeWhile Char.isDigit) = n from rfl, checked_eq_ok.mpr hvalue]
      rfl
  | cons c text ih =>
      unfold readLiteral
      by_cases hc : c.isDigit = true
      · rw [if_pos hc, pushDigit_eq hvalue hc, List.takeWhile_cons_of_pos hc,
          List.dropWhile_cons_of_pos hc]
        by_cases hfits : Fits (10 * n + (digit? c).getD 0 : Nat)
        · rw [checked_of_fits hfits]
          exact ih rfl
        · -- the value only grows with the digits that are not read any more
          have hgrows := le_digitsAfter (10 * n + (digit? c).getD 0) (text.takeWhile Char.isDigit)
          have hlarge : ¬Fits (digitsAfter n (c :: text.takeWhile Char.isDigit)) := by
            change ¬Fits (digitsAfter (10 * n + (digit? c).getD 0) (text.takeWhile Char.isDigit))
            unfold Fits kMinimum kMaximum at *
            omega
          refine ⟨c :: text, ?_⟩
          rw [checked_of_not_fits hfits, checked_of_not_fits hlarge]
          rfl
      · refine ⟨c :: text, ?_⟩
        rw [if_neg hc, List.takeWhile_cons_of_neg hc, List.dropWhile_cons_of_neg hc]
        rw [show digitsAfter n [] = n from rfl, checked_eq_ok.mpr hvalue]
        rfl

/-! ## Operands -/

section

variable {resolver : String → Except StdException (Option ExactInteger)}

/-- What an operand with a value was: a literal, or the name of an exact integer. -/
theorem operand_eq_ok {c : Char} {text rest : List Char} {v : ExactInteger}
    (h : operand resolver c text = .ok (v, rest)) :
    (c.isDigit = true ∧ rest = text.dropWhile Char.isDigit ∧
      v.toInt = (ofDigits 10 (c :: text.takeWhile Char.isDigit) : Nat)) ∨
    (isNameStart c = true ∧ rest = whitespace (text.dropWhile isNameChar) ∧
      String.ofList (c :: text.takeWhile isNameChar) ≠ "pi" ∧
      resolver (String.ofList (c :: text.takeWhile isNameChar)) = .ok (some v)) := by
  unfold operand at h
  split at h
  · cases h
  split at h
  · rename_i hc
    have hzero : (0 : ExactInteger).toInt = (0 : Nat) := rfl
    obtain ⟨left, hliteral⟩ := readLiteral_eq hzero (c :: text)
    rw [hliteral, List.takeWhile_cons_of_pos hc, List.dropWhile_cons_of_pos hc] at h
    cases hchecked : checked "Integer literal overflow"
        (digitsAfter 0 (c :: text.takeWhile Char.isDigit)) with
    | error reason =>
        rw [hchecked] at h
        cases h
    | ok value =>
        rw [hchecked] at h
        change (if _ then Except.error Stop.floating else pure (value, _)) = _ at h
        split at h
        · cases h
        · cases h
          exact Or.inl ⟨hc, rfl, checked_eq_ok.mp hchecked⟩
  split at h
  · cases h
  · rename_i hstart
    unfold identifier at h
    simp only at h
    split at h
    · cases h
    split at h
    · cases h
    rename_i hpi
    split at h
    · cases h
    · cases h
    · rename_i hresolver
      cases h
      exact Or.inr ⟨by simpa using hstart, rfl, hpi, hresolver⟩

theorem operand_length_le {c : Char} {text rest : List Char} {v : ExactInteger}
    (h : operand resolver c text = .ok (v, rest)) : rest.length ≤ text.length := by
  rcases operand_eq_ok h with ⟨_, rfl, _⟩ | ⟨_, rfl, _⟩
  · exact (List.dropWhile_suffix _).length_le
  · exact (whitespace_length_le _).trans (List.dropWhile_suffix _).length_le

end

/-! ## What each function does -/

@[simp] theorem failAt_eq_ok {α : Type} {text : List Char} {x : Except String α} {a : α} :
    failAt text x = .ok a ↔ x = .ok a := by
  cases x <;> simp [failAt, fail]

section

variable {resolver : String → Except StdException (Option ExactInteger)}
variable {call call' : Call × List Char → Parsed} {text rest : List Char} {v : ExactInteger}

/-- The loop ends, or it goes round once more with the result of an operation. -/
theorem operatorLoop_eq_ok {operators : List Operator} {operand : Call}
    {again : ExactInteger → Call} {a : ExactInteger}
    (h : operatorLoop call operators operand again a text = .ok (v, rest)) :
    (v = a ∧ rest = whitespace text) ∨
    ∃ op ∈ operators, ∃ after, whitespace text = op.symbol :: after ∧
      ∃ b left, call (operand, after) = .ok (b, left) ∧
        ∃ c, op.apply a b = .ok c ∧ call (again c, left) = .ok (v, rest) := by
  unfold operatorLoop at h
  split at h
  · rename_i hnone
    cases h
    exact Or.inl ⟨rfl, (consumeOperator_eq_none.mp hnone).1⟩
  · rename_i op after hsome
    obtain ⟨hop, hafter⟩ := consumeOperator_eq_some hsome
    obtain ⟨⟨b, left⟩, hoperand, h⟩ := bind_eq_ok.mp h
    obtain ⟨c, hc, hagain⟩ := bind_eq_ok.mp h
    exact Or.inr ⟨op, hop, after, hafter, b, left, hoperand, c, failAt_eq_ok.mp hc, hagain⟩

theorem operatorLoop_whitespace (operators : List Operator) (operand : Call)
    (again : ExactInteger → Call) (a : ExactInteger) (text : List Char) :
    operatorLoop call operators operand again a (whitespace text) =
      operatorLoop call operators operand again a text := by
  unfold operatorLoop
  rw [consumeOperator_whitespace]

theorem unary_eq_ok (h : unary call text = .ok (v, rest)) :
    (∃ after, whitespace text = '+' :: after ∧ call (.unary, after) = .ok (v, rest)) ∨
    (∃ after b, whitespace text = '-' :: after ∧ call (.unary, after) = .ok (b, rest) ∧
      negate b = .ok v) ∨
    call (.primary, whitespace text) = .ok (v, rest) := by
  unfold unary at h
  split at h
  · rename_i after hplus
    exact Or.inl ⟨after, consume_eq_true.mp hplus, h⟩
  · rename_i left hplus
    rw [(consume_eq_false.mp hplus).2, consume_whitespace] at h
    split at h
    · rename_i after hminus
      obtain ⟨⟨b, left⟩, hb, h⟩ := bind_eq_ok.mp h
      obtain ⟨c, hc, h⟩ := bind_eq_ok.mp h
      cases h
      exact Or.inr (Or.inl ⟨after, b, consume_eq_true.mp hminus, hb, failAt_eq_ok.mp hc⟩)
    · rename_i after hminus
      rw [(consume_eq_false.mp hminus).2] at h
      exact Or.inr (Or.inr h)

theorem primary_eq_ok (h : primary resolver call text = .ok (v, rest)) :
    (∃ after left, whitespace text = '(' :: after ∧ call (.expression, after) = .ok (v, left) ∧
      whitespace left = ')' :: rest) ∨
    ∃ c after, whitespace text = c :: after ∧ operand resolver c after = .ok (v, rest) := by
  unfold primary at h
  rw [consume_whitespace] at h
  split at h
  · rename_i after hopen
    obtain ⟨⟨b, left⟩, hb, h⟩ := bind_eq_ok.mp h
    simp only at h
    split at h
    · rename_i hclose
      cases h
      exact Or.inl ⟨after, left, consume_eq_true.mp hopen, hb, consume_eq_true.mp hclose⟩
    · cases h
  · cases h
  · rename_i c after hnone
    exact Or.inr ⟨c, after, (consume_eq_false.mp hnone).2.symm, h⟩

/-! ## Progress -/

/-- How much text a function has consumed, at the least, when it returns. -/
def Call.consumes : Call → Nat
  | .expressionLoop _ => 0
  | .productLoop _ => 0
  | _ => 1

/-- What returns has moved on. -/
def Progress (x : Call × List Char) (r : Parsed) : Prop :=
  ∀ v rest, r = .ok (v, rest) → rest.length + x.1.consumes ≤ x.2.length

theorem after_length_lt {c : Char} {after : List Char} (h : whitespace text = c :: after) :
    after.length < text.length := by
  have hle := whitespace_length_le text
  rw [h, List.length_cons] at hle
  omega

theorem operatorLoop_progress (hcall : ∀ x, Progress x (call x)) {operators : List Operator}
    {operand : Call} {again : ExactInteger → Call} {a : ExactInteger}
    (h : operatorLoop call operators operand again a text = .ok (v, rest)) :
    rest.length ≤ text.length := by
  rcases operatorLoop_eq_ok h with ⟨_, rfl⟩ | ⟨op, _, after, hafter, b, left, hb, c, _, hagain⟩
  · exact whitespace_length_le text
  · have hoperand : left.length + operand.consumes ≤ after.length := hcall _ b left hb
    have hloop : rest.length + (again c).consumes ≤ left.length := hcall _ v rest hagain
    have := after_length_lt hafter
    omega

theorem unary_progress (hcall : ∀ x, Progress x (call x))
    (h : unary call text = .ok (v, rest)) : rest.length < text.length := by
  rcases unary_eq_ok h with ⟨after, hafter, hv⟩ | ⟨after, b, hafter, hb, _⟩ | hv
  · have hunary : rest.length + 1 ≤ after.length := hcall _ v rest hv
    have := after_length_lt hafter
    omega
  · have hunary : rest.length + 1 ≤ after.length := hcall _ b rest hb
    have := after_length_lt hafter
    omega
  · have hprimary : rest.length + 1 ≤ (whitespace text).length := hcall _ v rest hv
    have := whitespace_length_le text
    omega

theorem primary_progress (hcall : ∀ x, Progress x (call x))
    (h : primary resolver call text = .ok (v, rest)) : rest.length < text.length := by
  rcases primary_eq_ok h with ⟨after, left, hafter, hv, hleft⟩ | ⟨c, after, hafter, hoperand⟩
  · have hexpression : left.length + 1 ≤ after.length := hcall _ v left hv
    have := after_length_lt hafter
    have := after_length_lt hleft
    omega
  · have := operand_length_le hoperand
    have := after_length_lt hafter
    omega

/-- A function whose calls return further on does so too. -/
theorem parserBody_progress (hcall : ∀ x, Progress x (call x)) (x : Call × List Char) :
    Progress x (parserBody resolver call x) := by
  obtain ⟨function, text⟩ := x
  intro v rest h
  cases function with
  | expression =>
      obtain ⟨⟨a, left⟩, ha, h⟩ := bind_eq_ok.mp h
      have hproduct : left.length + 1 ≤ text.length := hcall _ a left ha
      have hloop : rest.length + 0 ≤ left.length := hcall _ v rest h
      change rest.length + 1 ≤ text.length
      omega
  | expressionLoop a => exact operatorLoop_progress hcall h
  | product =>
      obtain ⟨⟨a, left⟩, ha, h⟩ := bind_eq_ok.mp h
      have hunary : left.length + 1 ≤ text.length := hcall _ a left ha
      have hloop : rest.length + 0 ≤ left.length := hcall _ v rest h
      change rest.length + 1 ≤ text.length
      omega
  | productLoop a => exact operatorLoop_progress hcall h
  | unary => exact unary_progress hcall h
  | primary => exact primary_progress hcall h

/-! ## The equations of the parser -/

theorem operatorLoop_congr {operators : List Operator} {operand : Call}
    {again : ExactInteger → Call} {a : ExactInteger} (hcall : ∀ x, Progress x (call' x))
    (hoperand : ∀ after : List Char, after.length < text.length →
      call (operand, after) = call' (operand, after))
    (hagain : ∀ c left, left.length < text.length → call (again c, left) = call' (again c, left)) :
    operatorLoop call operators operand again a text =
      operatorLoop call' operators operand again a text := by
  unfold operatorLoop
  split
  · rfl
  · rename_i op after hsome
    have hafter := after_length_lt (consumeOperator_eq_some hsome).2
    refine bind_congr_ok (hoperand after hafter) ?_
    rintro ⟨b, left⟩ hb
    refine bind_congr_ok rfl fun c _ => hagain c left ?_
    have hleft : left.length + operand.consumes ≤ after.length := hcall _ b left hb
    omega

theorem unary_congr
    (hunary : ∀ after : List Char, after.length < text.length →
      call (.unary, after) = call' (.unary, after))
    (hprimary : call (.primary, whitespace text) = call' (.primary, whitespace text)) :
    unary call text = unary call' text := by
  unfold unary
  split
  · rename_i after hplus
    exact hunary after (after_length_lt (consume_eq_true.mp hplus))
  · rename_i left hplus
    obtain rfl := (consume_eq_false.mp hplus).2
    rw [consume_whitespace]
    split
    · rename_i after hminus
      exact bind_congr_ok (hunary after (after_length_lt (consume_eq_true.mp hminus)))
        fun _ _ => rfl
    · rename_i hminus
      rw [(consume_eq_false.mp hminus).2]
      exact hprimary

theorem primary_congr
    (hexpression : ∀ after : List Char, after.length < text.length →
      call (.expression, after) = call' (.expression, after)) :
    primary resolver call text = primary resolver call' text := by
  unfold primary
  rw [consume_whitespace]
  split
  · rename_i after hopen
    exact bind_congr_ok (hexpression after (after_length_lt (consume_eq_true.mp hopen)))
      fun _ _ => rfl
  · rfl
  · rfl

/-- Each call is made further on, or further down at its position. -/
theorem parserBody_descends : OpenRecursion.Descends (parserBody resolver) size Progress where
  good _ hcall := parserBody_progress hcall
  smaller call call' _ hcall' := by
    rintro ⟨function, text⟩ hsame
    -- by what `size` gives to the function and to its calls
    have hfurther : ∀ function' (left : List Char), left.length < text.length →
        call (function', left) = call' (function', left) := by
      intro function' left hleft
      refine hsame _ ?_
      cases function' <;> cases function <;> simp only [size] <;> omega
    cases function with
    | expression =>
        refine bind_congr_ok (hsame (.product, text) (by simp only [size]; omega)) ?_
        rintro ⟨a, left⟩ ha
        have hleft : left.length + 1 ≤ text.length := hcall' _ a left ha
        exact hfurther _ left (by omega)
    | expressionLoop a =>
        exact operatorLoop_congr hcall' (hfurther _) fun c left => hfurther _ left
    | product =>
        refine bind_congr_ok (hsame (.unary, text) (by simp only [size]; omega)) ?_
        rintro ⟨a, left⟩ ha
        have hleft : left.length + 1 ≤ text.length := hcall' _ a left ha
        exact hfurther _ left (by omega)
    | productLoop a =>
        exact operatorLoop_congr hcall' (hfurther _) fun c left => hfurther _ left
    | unary =>
        refine unary_congr (hfurther _) (hsame _ ?_)
        have := whitespace_length_le text
        simp only [size]
        omega
    | primary => exact primary_congr (hfurther _)

/-- **The parser's functions are as they are written.** -/
theorem parse_eq (x : Call × List Char) :
    parse resolver x = parserBody resolver (parse resolver) x :=
  parserBody_descends.solution_eq (fun _ _ _ h => by cases h) x

theorem parse_expression (text : List Char) : parse resolver (.expression, text) =
    parse resolver (.product, text) >>= fun a => parse resolver (.expressionLoop a.1, a.2) :=
  parse_eq _

theorem parse_expressionLoop (a : ExactInteger) (text : List Char) :
    parse resolver (.expressionLoop a, text) =
      operatorLoop (parse resolver) [.add, .subtract] .product .expressionLoop a text := parse_eq _

theorem parse_product (text : List Char) : parse resolver (.product, text) =
    parse resolver (.unary, text) >>= fun a => parse resolver (.productLoop a.1, a.2) :=
  parse_eq _

theorem parse_productLoop (a : ExactInteger) (text : List Char) :
    parse resolver (.productLoop a, text) = operatorLoop (parse resolver)
      [.multiply, .divide, .remainder] .unary .productLoop a text := parse_eq _

theorem parse_unary (text : List Char) :
    parse resolver (.unary, text) = unary (parse resolver) text := parse_eq _

theorem parse_primary (text : List Char) :
    parse resolver (.primary, text) = primary resolver (parse resolver) text := parse_eq _

/-- What every function keeps, given that its calls do, is so of the parser. -/
theorem parse_good {Good : Call × List Char → Parsed → Prop}
    (hfloating : ∀ x, Good x (.error .floating))
    (hbody : ∀ call, (∀ x, Good x (call x)) → ∀ x, Good x (parserBody resolver call x))
    (x : Call × List Char) : Good x (parse resolver x) :=
  OpenRecursion.solution_good hfloating hbody x

end

end UavBluetooth.Bridge.IntegerParser
