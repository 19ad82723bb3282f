import UavBluetooth.Bridge.ExactExpressions

set_option autoImplicit false

/-! # What the integer evaluator decides

The texts that the integer evaluator gives a value for, those that it leaves to the floating-point
evaluator, and those that it throws at although the floating-point evaluator is responsible for
them.
-/

namespace UavBluetooth.Bridge

open Util Fallible IntegerParser

variable {resolver : String → Except StdException (Option ExactInteger)}

/-! ## Values come from trees -/

/-- A text begins with a tree of a level that has a value. Blanks behind it may have been read
too. -/
def Reads (resolver : String → Except StdException (Option ExactInteger)) (level : Level)
    (text : List Char) (v : ExactInteger) (rest : List Char) : Prop :=
  ∃ t w e, Derives level t e ∧ Blank w ∧ text = t ++ (w ++ rest) ∧ e.evaluate resolver = .ok v

section

variable {level : Level} {full text rest next : List Char} {a b v : ExactInteger}

theorem Reads.operand (h : Reads resolver level.operand text v rest) :
    Reads resolver level text v rest := by
  obtain ⟨t, w, e, he, hw, htext, hv⟩ := h
  exact ⟨t, w, e, .operand he, hw, htext, hv⟩

theorem Reads.whitespace (h : Reads resolver level text v rest) :
    Reads resolver level text v (whitespace rest) := by
  obtain ⟨t, w, e, he, hw, rfl, hv⟩ := h
  obtain ⟨w', hw', hrest⟩ := exists_blank_append rest
  refine ⟨t, w ++ w', e, he, hw.append hw', ?_, hv⟩
  rw [List.append_assoc, ← hrest]

/-- Blanks in front are part of a text. -/
theorem Reads.of_whitespace (h : Reads resolver level (IntegerParser.whitespace text) v rest) :
    Reads resolver level text v rest := by
  obtain ⟨t, w, e, he, hw, htext, hv⟩ := h
  obtain ⟨w', hw', hfull⟩ := exists_blank_append text
  refine ⟨w' ++ t, w, e, he.blanks hw', hw, ?_, hv⟩
  rw [hfull, htext, List.append_assoc]

theorem Reads.binary {op : Operator} (hop : op ∈ level.operators)
    (hleft : Reads resolver level full a text)
    (htext : IntegerParser.whitespace text = op.symbol :: next)
    (hright : Reads resolver level.operand next b rest) (hv : op.apply a b = .ok v) :
    Reads resolver level full v rest := by
  obtain ⟨l, _, left, hl, hw, hfull, ha⟩ := hleft.whitespace
  obtain ⟨r, w', right, hr, hw', hnext, hb⟩ := hright
  refine ⟨_, w', _, .binary hop hl hw hr, hw', ?_, ?_⟩
  · rw [hfull, htext, hnext]
    simp
  · rw [Expr.evaluate, ha, hb]
    exact denied_eq_ok.mpr hv

theorem Reads.sign {sign : Char} {signed : Expr → Expr}
    (hsigned : ∀ {w t : List Char} {e : Expr}, Blank w → Derives .unary t e →
      Derives .unary (w ++ sign :: t) (signed e))
    (htext : IntegerParser.whitespace text = sign :: next)
    (h : Reads resolver .unary next a rest)
    (hv : ∀ e : Expr, e.evaluate resolver = .ok a → (signed e).evaluate resolver = .ok v) :
    Reads resolver .unary text v rest := by
  obtain ⟨t, w, e, he, hw, hnext, ha⟩ := h
  obtain ⟨w', hw', hfull⟩ := exists_blank_append text
  refine ⟨_, w, signed e, hsigned hw' he, hw, ?_, hv e ha⟩
  rw [hfull, htext, hnext]
  simp

theorem Reads.parentheses (hopen : IntegerParser.whitespace text = '(' :: next)
    (h : Reads resolver .expression next v full)
    (hclose : IntegerParser.whitespace full = ')' :: rest) :
    Reads resolver .primary text v rest := by
  obtain ⟨t, w, e, he, hw, hnext, hv⟩ := h.whitespace
  obtain ⟨w', hw', hfull⟩ := exists_blank_append text
  refine ⟨_, [], e, .parentheses hw' he hw, blank_nil, ?_, hv⟩
  rw [hfull, hopen, hnext, hclose]
  simp

/-- An operand with a value is a literal or a name. -/
theorem Reads.of_operand {c : Char} (htext : IntegerParser.whitespace text = c :: next)
    (h : IntegerParser.operand resolver c next = .ok (v, rest)) :
    Reads resolver .primary text v rest := by
  obtain ⟨w, hw, hfull⟩ := exists_blank_append text
  rw [htext] at hfull
  rcases operand_eq_ok h with ⟨hc, rfl, hv⟩ | ⟨hc, rfl, hpi, hv⟩
  · let digits : Digits :=
      { text := c :: next.takeWhile Char.isDigit
        nonempty := List.cons_ne_nil _ _
        isDigit := List.forall_mem_cons.mpr ⟨hc, fun _ hd => List.mem_takeWhile_imp hd⟩ }
    refine ⟨w ++ digits.text, [], .literal digits, .literal hw digits, blank_nil, ?_, ?_⟩
    · rw [hfull]
      simp [digits]
    · rw [Expr.evaluate, denied_eq_ok, checked_eq_ok]
      exact hv
  · let name : Identifier :=
      { start := c
        rest := next.takeWhile isNameChar
        isStart := hc
        isName := fun _ hd => List.mem_takeWhile_imp hd }
    have hname : Reads resolver .primary text v (next.dropWhile isNameChar) := by
      refine ⟨w ++ name.text, [], .identifier name, .identifier hw name, blank_nil, ?_, ?_⟩
      · rw [hfull]
        simp [name, Identifier.text]
      · rw [Expr.evaluate, lookUp]
        simp only [Identifier.name, Identifier.text, name, if_neg hpi, hv]
    exact hname.whitespace

end

/-- What a function of the parser has read when it returns; a loop goes on with what was read
before it. -/
def Sound (resolver : String → Except StdException (Option ExactInteger)) :
    Call × List Char → Parsed → Prop
  | (.expression, text), r => ∀ v rest, r = .ok (v, rest) →
      Reads resolver .expression text v rest
  | (.expressionLoop a, text), r => ∀ v rest, r = .ok (v, rest) →
      ∀ full, Reads resolver .expression full a text → Reads resolver .expression full v rest
  | (.product, text), r => ∀ v rest, r = .ok (v, rest) → Reads resolver .product text v rest
  | (.productLoop a, text), r => ∀ v rest, r = .ok (v, rest) →
      ∀ full, Reads resolver .product full a text → Reads resolver .product full v rest
  | (.unary, text), r => ∀ v rest, r = .ok (v, rest) → Reads resolver .unary text v rest
  | (.primary, text), r => ∀ v rest, r = .ok (v, rest) → Reads resolver .primary text v rest

section

variable {call : Call × List Char → Parsed} {text : List Char}

/-- Once round a loop: one more operation on what was read. -/
theorem operatorLoop_sound (level : Level) {operand : Call} {again : ExactInteger → Call}
    (hoperand : ∀ text v rest, call (operand, text) = .ok (v, rest) →
      Reads resolver level.operand text v rest)
    (hagain : ∀ a text v rest, call (again a, text) = .ok (v, rest) →
      ∀ full, Reads resolver level full a text → Reads resolver level full v rest)
    {a v : ExactInteger} {rest full : List Char}
    (h : operatorLoop call level.operators operand again a text = .ok (v, rest))
    (hread : Reads resolver level full a text) : Reads resolver level full v rest := by
  rcases operatorLoop_eq_ok h with ⟨rfl, rfl⟩ | ⟨op, hop, next, hnext, b, left, hb, c, hc, hv⟩
  · exact hread.whitespace
  · exact hagain c left v rest hv full (.binary hop hread hnext (hoperand next b left hb) hc)

/-- Each function reads what it is named after, given that its calls do. -/
theorem parserBody_sound (hcall : ∀ x, Sound resolver x (call x)) (x : Call × List Char) :
    Sound resolver x (parserBody resolver call x) := by
  obtain ⟨function, text⟩ := x
  cases function with
  | expression =>
      intro v rest h
      obtain ⟨⟨a, left⟩, ha, h⟩ := bind_eq_ok.mp h
      exact hcall (.expressionLoop a, left) v rest h text
        (.operand (hcall (.product, text) a left ha))
  | expressionLoop a =>
      intro v rest h full hfull
      exact operatorLoop_sound .expression (fun text => hcall (.product, text))
        (fun a text => hcall (.expressionLoop a, text)) h hfull
  | product =>
      intro v rest h
      obtain ⟨⟨a, left⟩, ha, h⟩ := bind_eq_ok.mp h
      exact hcall (.productLoop a, left) v rest h text
        (.operand (hcall (.unary, text) a left ha))
  | productLoop a =>
      intro v rest h full hfull
      exact operatorLoop_sound .product (fun text => hcall (.unary, text))
        (fun a text => hcall (.productLoop a, text)) h hfull
  | unary =>
      intro v rest h
      rcases unary_eq_ok h with ⟨next, hnext, hv⟩ | ⟨next, b, hnext, hb, hv⟩ | hv
      · exact .sign .positive hnext (hcall (.unary, next) v rest hv) fun e he => he
      · refine .sign .negative hnext (hcall (.unary, next) b rest hb) fun e he => ?_
        rw [Expr.evaluate, he]
        exact denied_eq_ok.mpr hv
      · have hprimary := hcall (.primary, whitespace text) v rest hv
        exact .operand hprimary.of_whitespace
  | primary =>
      intro v rest h
      rcases primary_eq_ok h with ⟨next, left, hnext, hv, hleft⟩ | ⟨c, next, hnext, hv⟩
      · exact .parentheses hnext (hcall (.expression, next) v left hv) hleft
      · exact .of_operand hnext hv

end

/-- **Soundness.** What the parser has read, a tree of the same value spells. -/
theorem parse_sound (x : Call × List Char) : Sound resolver x (parse resolver x) := by
  refine parse_good (fun x => ?_) (fun _ => parserBody_sound) x
  obtain ⟨function, text⟩ := x
  cases function <;> exact fun _ _ h => by cases h

/-! ## The evaluator -/

/-- What the evaluator makes of a text that spells a tree is what becomes of the tree. -/
theorem evaluate_of_spells {text : List Char} {e : Expr} (h : Spells text e) :
    (IntegerParser.evaluate resolver text).mapError Stop.denial = e.evaluate resolver := by
  obtain ⟨t, w, rfl, hw, he⟩ := h
  have hblank : whitespace w = [] := by
    have := whitespace_blank_append hw []
    rwa [List.append_nil] at this
  have hends : Ends .expression w := by
    refine ⟨fun c hc => ?_, fun op _ => ?_⟩ <;> rw [hblank] at *
    · cases hc
    · exact fun h => by cases h
  -- behind the expression there are blanks only
  have hchain : ∀ v, reading (Level.expression.after resolver v w) = .ok (v, []) := by
    intro v
    have hnone : consumeOperator [.add, .subtract] w = (none, []) := by
      rw [consumeOperator_eq_none, hblank]
      exact ⟨rfl, fun op _ h => by cases h⟩
    rw [Level.after, parse_expressionLoop, operatorLoop, hnone, reading, whitespace_nil]
  have hread := @Derives.adequate resolver _ _ _ he w hends
  simp only [hchain, Level.function] at hread
  unfold IntegerParser.evaluate
  cases hparse : parse resolver (.expression, t ++ w) with
  | error stop =>
      rw [hparse] at hread
      cases hvalue : e.evaluate resolver with
      | error denial =>
          rw [hvalue] at hread
          exact congrArg _ (Except.error.inj hread)
      | ok v =>
          rw [hvalue] at hread
          cases hread
  | ok result =>
      obtain ⟨v, left⟩ := result
      rw [hparse] at hread
      cases hvalue : e.evaluate resolver with
      | error denial =>
          rw [hvalue] at hread
          cases hread
      | ok v' =>
          rw [hvalue] at hread
          obtain ⟨rfl, hleft⟩ := Prod.mk.inj (Except.ok.inj hread)
          change (if whitespace left ≠ [] then _ else _ : Except Stop ExactInteger).mapError _ = _
          rw [if_neg (by rw [hleft]; decide)]
          rfl

theorem tryEvaluate_eq_some {expression : String} {v : ExactInteger} :
    tryEvaluateIntegerExpression expression resolver = .ok (some v) ↔
      IntegerParser.evaluate resolver expression.toList = .ok v := by
  unfold tryEvaluateIntegerExpression
  cases IntegerParser.evaluate resolver expression.toList with
  | ok value => simp
  | error stop => cases stop <;> simp

theorem tryEvaluate_eq_none {expression : String} :
    tryEvaluateIntegerExpression expression resolver = .ok none ↔
      IntegerParser.evaluate resolver expression.toList = .error .floating := by
  unfold tryEvaluateIntegerExpression
  cases IntegerParser.evaluate resolver expression.toList with
  | ok value => simp
  | error stop => cases stop <;> simp

/-- A value comes of a text that spells a tree of that value, and of no other text. -/
theorem evaluate_eq_ok {text : List Char} {v : ExactInteger} :
    IntegerParser.evaluate resolver text = .ok v ↔
      ∃ e, Spells text e ∧ e.evaluate resolver = .ok v := by
  constructor
  · intro h
    obtain ⟨⟨a, left⟩, ha, hend⟩ := bind_eq_ok.mp h
    obtain ⟨t, w, e, he, hw, rfl, hv⟩ := parse_sound (.expression, text) a left ha
    change (if whitespace left ≠ [] then _ else _ : Except Stop ExactInteger) = _ at hend
    split at hend
    · cases hend
    · rename_i hleft
      cases hend
      obtain ⟨w', hw', hrest⟩ := exists_blank_append left
      rw [not_not.mp hleft, List.append_nil] at hrest
      exact ⟨e, ⟨t, w ++ left, rfl, hw.append (hrest ▸ hw'), he⟩, hv⟩
  · rintro ⟨e, hspells, hv⟩
    have h := @evaluate_of_spells resolver _ _ hspells
    rw [hv] at h
    cases hresult : IntegerParser.evaluate resolver text with
    | error stop =>
        rw [hresult] at h
        cases h
    | ok v' =>
        rw [hresult] at h
        exact congrArg _ (Except.ok.inj h)

/-- **Exact integer expressions.** The evaluator gives a value just where the text spells a tree
of exact integers with that value, in which no remainder of the least value by minus one is taken;
in particular where it is the printed tree. -/
theorem tryEvaluate_exact (resolver : String → Except StdException (Option ExactInteger)) :
    (∀ expression v, tryEvaluateIntegerExpression expression resolver = .ok (some v) ↔
      ∃ e, Spells expression.toList e ∧ e.exact (integerFields resolver) = some v.toInt ∧
        e.SparesLeast (integerFields resolver)) ∧
    ∀ (e : Expr) v,
      tryEvaluateIntegerExpression (String.ofList e.print) resolver = .ok (some v) ↔
        e.exact (integerFields resolver) = some v.toInt ∧
          e.SparesLeast (integerFields resolver) := by
  constructor
  · intro expression v
    rw [tryEvaluate_eq_some, evaluate_eq_ok]
    simp only [Expr.evaluate_eq_ok_iff]
  · intro e v
    have h := @evaluate_of_spells resolver _ _ e.spells_print
    rw [tryEvaluate_eq_some, String.toList_ofList, ← Expr.evaluate_eq_ok_iff, ← h]
    cases IntegerParser.evaluate resolver e.print <;> simp [Except.mapError]

def one : Digits := ⟨['1'], by simp, by simp⟩

/-- The digits of the largest value. -/
def largest : Digits := ⟨"170141183460469231731687303715884105727".toList, by simp, by simp⟩

/-- The least value, modulo minus one. -/
def leastRemainder : Expr :=
  .binary .remainder (.binary .subtract (.negative (.literal largest)) (.literal one))
    (.negative (.literal one))

theorem leastRemainder_print : String.ofList leastRemainder.print =
    "(((-170141183460469231731687303715884105727)-1)%(-1))" := by decide +kernel

/-- The least value leaves the remainder zero, but the evaluator reports an overflow. -/
theorem leastRemainder_refused :
    Spells "(((-170141183460469231731687303715884105727)-1)%(-1))".toList leastRemainder ∧
    leastRemainder.exact (integerFields fun _ => .ok none) = some 0 ∧
    tryEvaluateIntegerExpression "(((-170141183460469231731687303715884105727)-1)%(-1))"
        (fun _ => .ok none) =
      .error (.runtimeError ("Integer overflow at column 53 in expression: " ++
        "(((-170141183460469231731687303715884105727)-1)%(-1))")) := by
  have htext : "(((-170141183460469231731687303715884105727)-1)%(-1))".toList =
      leastRemainder.print := by
    rw [← leastRemainder_print, String.toList_ofList]
  refine ⟨htext ▸ leastRemainder.spells_print, by decide +kernel, ?_⟩
  have hevaluate : IntegerParser.evaluate (fun _ => .ok none) leastRemainder.print =
      .error (.failed "Integer overflow" [')']) := by decide +kernel
  unfold tryEvaluateIntegerExpression
  rw [htext, hevaluate]
  rfl

/-! ## Floating expressions -/

/-- What the fields are: exact integers, or something else. -/
def assigned (fields : String → Option ExactInteger) (name : String) :
    Except StdException (Option ExactInteger) := .ok (fields name)

section

variable (fields : String → Option ExactInteger)

/-- Some operand is floating: a decimal literal, a call, `pi`, or a field that is not an exact
integer. -/
def Expr.HasFloating : Expr → Prop
  | .literal _ => False
  | .decimal _ => True
  | .identifier name => name.name = "pi" ∨ fields name.name = none
  | .call _ _ => True
  | .positive e => e.HasFloating
  | .negative e => e.HasFloating
  | .binary _ left right => left.HasFloating ∨ right.HasFloating

/-- The tree has an exact value, with no remainder of the least value by minus one. -/
def Expr.Evaluates (e : Expr) : Prop :=
  (e.exact (integerFields (assigned fields))).isSome = true ∧
    e.SparesLeast (integerFields (assigned fields))

/-- Reading from the left, nothing fails before the first floating operand: whatever stands
complete to the left of it has an exact value, and if it is a decimal literal, the digits in front
of its point or exponent fit the accumulator. -/
def Expr.Reached : Expr → Prop
  | .decimal d => Fits (ofDigits 10 d.whole : Nat)
  | .positive e => e.Reached
  | .negative e => e.Reached
  | .binary _ left right => (left.HasFloating fields → left.Reached) ∧
      (¬left.HasFloating fields → left.Evaluates fields ∧ right.Reached)
  | _ => True

end

section

variable {fields : String → Option ExactInteger} {e x y : Expr}

theorem Expr.evaluates_iff :
    e.Evaluates fields ↔ ∃ v, e.evaluate (assigned fields) = .ok v := by
  unfold Evaluates
  simp only [evaluate_eq_ok_iff, Option.isSome_iff_exists]
  constructor
  · rintro ⟨⟨n, hn⟩, hspares⟩
    exact ⟨⟨n, fits_of_exact fits_of_integerFields hn⟩, hn, hspares⟩
  · rintro ⟨v, hv, hspares⟩
    exact ⟨⟨v.toInt, hv⟩, hspares⟩

/-- Without floating operands there is nothing to decline for. -/
theorem Expr.evaluate_ne_floating (h : ¬e.HasFloating fields) :
    e.evaluate (assigned fields) ≠ .error .floating := by
  have hdenied : ∀ {x : Except String ExactInteger},
      denied x ≠ (.error .floating : Except Denial ExactInteger) := by
    intro x
    cases x <;> exact fun h => by cases h
  induction e with
  | literal digits => exact hdenied
  | decimal d => exact absurd trivial h
  | identifier name =>
      obtain ⟨hpi, hfield⟩ := not_or.mp h
      obtain ⟨v, hv⟩ := Option.ne_none_iff_exists'.mp hfield
      simp [evaluate, lookUp, assigned, hpi, hv]
  | call name arguments _ => exact absurd trivial h
  | positive e ih => exact ih h
  | negative e ih =>
      unfold evaluate
      cases hvalue : e.evaluate (assigned fields) with
      | error denial =>
          rintro hfloating
          exact ih h (hvalue.trans hfloating)
      | ok v => exact hdenied
  | binary op left right ihleft ihright =>
      obtain ⟨hleft, hright⟩ := not_or.mp h
      unfold evaluate
      cases hl : left.evaluate (assigned fields) with
      | error denial =>
          rintro hfloating
          exact ihleft hleft (hl.trans hfloating)
      | ok a =>
          cases hr : right.evaluate (assigned fields) with
          | error denial =>
              rintro hfloating
              exact ihright hright (hr.trans hfloating)
          | ok b => exact hdenied

/-- A tree with a floating operand has no exact value. -/
theorem Expr.not_evaluates (h : e.HasFloating fields) : ¬e.Evaluates fields := by
  have hnone : e.exact (integerFields (assigned fields)) = none := by
    induction e with
    | literal digits => exact absurd h id
    | decimal d => rfl
    | identifier name =>
        rcases h with h | h <;> simp [exact, integerFields, assigned, h]
    | call name arguments _ => rfl
    | positive e ih => exact ih h
    | negative e ih => simp [exact, ih h]
    | binary op left right ihleft ihright =>
        rcases h with h | h
        · simp [exact, ihleft h]
        · simp [exact, ihright h]
  rintro ⟨hsome, _⟩
  rw [hnone] at hsome
  cases hsome

/-- **The first floating operand.** It is what evaluation ends at just where it is reached. -/
theorem Expr.evaluate_eq_floating (h : e.HasFloating fields) :
    e.evaluate (assigned fields) = .error .floating ↔ e.Reached fields := by
  induction e with
  | literal digits => exact absurd h id
  | decimal d =>
      unfold evaluate Reached
      by_cases hfits : Fits (ofDigits 10 d.whole : Nat)
      · rw [checked_of_fits hfits]
        exact iff_of_true rfl hfits
      · rw [checked_of_not_fits hfits]
        exact iff_of_false (fun h => by cases h) hfits
  | identifier name =>
      refine iff_of_true ?_ trivial
      rcases h with h | h <;> simp [evaluate, lookUp, assigned, h]
  | call name arguments _ => exact iff_of_true rfl trivial
  | positive e ih => exact ih h
  | negative e ih =>
      have hno : ∀ v, e.evaluate (assigned fields) ≠ .ok v := fun v hv =>
        not_evaluates (e := e) h (evaluates_iff.mpr ⟨v, hv⟩)
      rw [Reached, ← ih h, evaluate]
      cases hvalue : e.evaluate (assigned fields) with
      | error denial => exact Iff.rfl
      | ok v => exact absurd hvalue (hno v)
  | binary op left right ihleft ihright =>
      rw [Reached, evaluate]
      by_cases hleft : left.HasFloating fields
      · have hno : ∀ v, left.evaluate (assigned fields) ≠ .ok v := fun v hv =>
          not_evaluates hleft (evaluates_iff.mpr ⟨v, hv⟩)
        simp only [hleft, true_implies, not_true, false_implies, and_true, ← ihleft hleft]
        cases hl : left.evaluate (assigned fields) with
        | error denial => exact Iff.rfl
        | ok v => exact absurd hl (hno v)
      · have hright : right.HasFloating fields := h.resolve_left hleft
        simp only [hleft, false_implies, not_false_eq_true, true_implies, true_and, evaluates_iff,
          ← ihright hright]
        cases hl : left.evaluate (assigned fields) with
        | error denial =>
            refine iff_of_false (fun hfloating => ?_) (by simp)
            exact evaluate_ne_floating hleft (hl.trans hfloating)
        | ok a =>
            cases hr : right.evaluate (assigned fields) with
            | error denial => simp [bind, Except.bind]
            | ok b => exact absurd (evaluates_iff.mpr ⟨b, hr⟩) (not_evaluates hright)

end

/-! ### Swapped operands -/

/-- The evaluator throws at a text. -/
def Rejected (fields : String → Option ExactInteger) (expression : String) : Prop :=
  ∃ exception, tryEvaluateIntegerExpression expression (assigned fields) = .error exception

/-- Reading from the left ends at a floating operand. -/
def Expr.Declined (fields : String → Option ExactInteger) (e : Expr) : Prop :=
  e.HasFloating fields ∧ e.Reached fields

section

variable {fields : String → Option ExactInteger} {e x y : Expr}

theorem Expr.declined_iff :
    e.Declined fields ↔ e.evaluate (assigned fields) = .error .floating := by
  constructor
  · exact fun h => (evaluate_eq_floating h.1).mpr h.2
  · intro h
    have hfloating : e.HasFloating fields := by
      by_contra hno
      exact evaluate_ne_floating hno h
    exact ⟨hfloating, (evaluate_eq_floating hfloating).mp h⟩

theorem declines_iff {expression : String} (h : Spells expression.toList e) :
    tryEvaluateIntegerExpression expression (assigned fields) = .ok none ↔
      e.Declined fields := by
  rw [tryEvaluate_eq_none, Expr.declined_iff, ← evaluate_of_spells h]
  cases IntegerParser.evaluate (assigned fields) expression.toList with
  | ok v => simp [Except.mapError]
  | error stop => cases stop <;> simp [Except.mapError, Stop.denial]

/-- A tree is rejected when it has no value and is not declined either. -/
theorem rejected_iff {expression : String} (h : Spells expression.toList e) :
    Rejected fields expression ↔ ¬e.Evaluates fields ∧ ¬e.Declined fields := by
  rw [← declines_iff h, Expr.evaluates_iff]
  have hvalue : ∀ v, e.evaluate (assigned fields) = .ok v ↔
      tryEvaluateIntegerExpression expression (assigned fields) = .ok (some v) := by
    intro v
    rw [tryEvaluate_eq_some, ← evaluate_of_spells h]
    cases IntegerParser.evaluate (assigned fields) expression.toList <;> simp [Except.mapError]
  simp only [hvalue, Rejected]
  cases tryEvaluateIntegerExpression expression (assigned fields) with
  | error exception => simp
  | ok value => cases value <;> simp

/-- An operation ends at a floating operand on its left, or on its right behind a value. -/
theorem Expr.declined_binary {op : Operator} :
    (Expr.binary op x y).Declined fields ↔
      x.Declined fields ∨ x.Evaluates fields ∧ y.Declined fields := by
  simp only [declined_iff, evaluates_iff, evaluate]
  cases hx : x.evaluate (assigned fields) with
  | error denial => simp [bind, Except.bind]
  | ok a =>
      cases hy : y.evaluate (assigned fields) with
      | error denial => simp [bind, Except.bind]
      | ok b => cases hop : op.apply a b <;> simp [bind, Except.bind, denied, Except.mapError, hop]

theorem Expr.evaluates_binary {op : Operator} :
    (Expr.binary op x y).Evaluates fields ↔ ∃ a b, x.evaluate (assigned fields) = .ok a ∧
      y.evaluate (assigned fields) = .ok b ∧ ∃ c, op.apply a b = .ok c := by
  simp only [evaluates_iff, evaluate, bind_eq_ok, denied_eq_ok]
  constructor
  · rintro ⟨c, a, ha, b, hb, hc⟩
    exact ⟨a, b, ha, hb, c, hc⟩
  · rintro ⟨a, b, ha, hb, c, hc⟩
    exact ⟨c, a, ha, b, hb, hc⟩

theorem apply_comm {op : Operator} (hop : op = .add ∨ op = .multiply) (a b : ExactInteger) :
    op.apply a b = op.apply b a := by
  rcases hop with rfl | rfl
  · exact congrArg (checked "Integer overflow") (Int.add_comm a.toInt b.toInt)
  · exact congrArg (checked "Integer overflow") (Int.mul_comm a.toInt b.toInt)

/-- The values of an operation that commutes do not depend on the order. -/
theorem Expr.evaluates_swap {op : Operator} (hop : op = .add ∨ op = .multiply) :
    (Expr.binary op x y).Evaluates fields ↔ (Expr.binary op y x).Evaluates fields := by
  rw [evaluates_binary, evaluates_binary]
  constructor
  · rintro ⟨a, b, ha, hb, c, hc⟩
    exact ⟨b, a, hb, ha, c, apply_comm hop a b ▸ hc⟩
  · rintro ⟨b, a, hb, ha, c, hc⟩
    exact ⟨a, b, ha, hb, c, apply_comm hop b a ▸ hc⟩

theorem Expr.not_declined_of_evaluates (h : e.Evaluates fields) : ¬e.Declined fields :=
  fun hdeclined => not_evaluates hdeclined.1 h

end

/-- **Floating operands.** An expression with floating operands is declined just when the first of
them is reached, and swapping the operands of `+` or `*` makes no difference to a rejection just
when no operand is declined next to one that is rejected. -/
theorem tryEvaluate_floating (fields : String → Option ExactInteger) :
    (∀ expression e, Spells expression.toList e →
      ((e.HasFloating fields →
          tryEvaluateIntegerExpression expression (assigned fields) = .ok none) ↔
        (e.HasFloating fields → e.Reached fields))) ∧
    ∀ op, op = .add ∨ op = .multiply → ∀ x y there back,
      Spells there.toList (.binary op x y) → Spells back.toList (.binary op y x) →
      ((Rejected fields there ↔ Rejected fields back) ↔
        (x.Declined fields → y.Evaluates fields ∨ y.Declined fields) ∧
        (y.Declined fields → x.Evaluates fields ∨ x.Declined fields)) := by
  constructor
  · intro expression e hspells
    refine forall_congr' fun hfloating => ?_
    rw [declines_iff hspells]
    exact and_iff_right hfloating
  · intro op hop x y there back hthere hback
    rw [rejected_iff hthere, rejected_iff hback, Expr.evaluates_swap hop, Expr.declined_binary,
      Expr.declined_binary]
    have hx : x.Evaluates fields → ¬x.Declined fields := Expr.not_declined_of_evaluates
    have hy : y.Evaluates fields → ¬y.Declined fields := Expr.not_declined_of_evaluates
    have hboth : (Expr.binary op y x).Evaluates fields → x.Evaluates fields ∧ y.Evaluates fields := by
      intro h
      obtain ⟨b, a, hb, ha, _⟩ := Expr.evaluates_binary.mp h
      exact ⟨Expr.evaluates_iff.mpr ⟨a, ha⟩, Expr.evaluates_iff.mpr ⟨b, hb⟩⟩
    grind

def oneHalf : Decimal where
  whole := ['0']
  fraction := some ['5']
  exponent := none
  isDigit := by simp
  fraction_isDigit := by simp
  hasDigits := Or.inl (by simp)
  isFloating := Or.inl rfl

def two : Digits := ⟨['2'], by simp, by simp⟩

/-- `1/(1/2)`, which is two for the floating-point evaluator. -/
def reciprocal : Expr :=
  .binary .divide (.literal one) (.binary .divide (.literal one) (.literal two))

theorem derives_reciprocal : Derives .product ['1', '/', '(', '1', '/', '2', ')'] reciprocal := by
  have hone : Derives .primary ['1'] (.literal one) := .literal blank_nil one
  have htwo : Derives .primary ['2'] (.literal two) := .literal blank_nil two
  have hhalf : Derives .primary ['(', '1', '/', '2', ')']
      (.binary .divide (.literal one) (.literal two)) :=
    .parentheses blank_nil (.operation .divide hone htwo) blank_nil
  have hquotient : Derives .product
      (['1'] ++ ([] ++ Operator.divide.symbol :: ['(', '1', '/', '2', ')'])) reciprocal :=
    .binary (by decide) hone.of_primary blank_nil hhalf.of_primary
  exact hquotient

/-- With `0.5` on its right the evaluator throws, with `0.5` on its left it declines. -/
theorem reciprocal_order :
    Spells "1/(1/2)+0.5".toList (.binary .add reciprocal (.decimal oneHalf)) ∧
    (Expr.binary .add reciprocal (.decimal oneHalf)).HasFloating (fun _ => none) ∧
    tryEvaluateIntegerExpression "1/(1/2)+0.5" (assigned fun _ => none) =
      .error (.runtimeError "Division by zero at column 8 in expression: 1/(1/2)+0.5") ∧
    Spells "0.5+1/(1/2)".toList (.binary .add (.decimal oneHalf) reciprocal) ∧
    tryEvaluateIntegerExpression "0.5+1/(1/2)" (assigned fun _ => none) = .ok none := by
  have hpoint : Derives .primary ['0', '.', '5'] (.decimal oneHalf) := .decimal blank_nil oneHalf
  have hthere : "1/(1/2)+0.5".toList =
      ['1', '/', '(', '1', '/', '2', ')', '+', '0', '.', '5'] := by simp
  have hback : "0.5+1/(1/2)".toList =
      ['0', '.', '5', '+', '1', '/', '(', '1', '/', '2', ')'] := by simp
  have hquotient := derives_reciprocal
  have hsum : Derives .expression (['1', '/', '(', '1', '/', '2', ')'] ++
      ([] ++ Operator.add.symbol :: ['0', '.', '5'])) (.binary .add reciprocal (.decimal oneHalf)) :=
    .binary (by decide) (.operand hquotient) blank_nil hpoint.of_primary
  have hswapped : Derives .expression (['0', '.', '5'] ++
      ([] ++ Operator.add.symbol :: ['1', '/', '(', '1', '/', '2', ')']))
      (.binary .add (.decimal oneHalf) reciprocal) :=
    .binary (by decide) hpoint.of_primary blank_nil hquotient
  refine ⟨⟨_, [], (hthere.trans (List.append_nil _).symm), blank_nil, hsum⟩, Or.inr trivial, ?_,
    ⟨_, [], (hback.trans (List.append_nil _).symm), blank_nil, hswapped⟩, ?_⟩
  · have hevaluate : IntegerParser.evaluate (assigned fun _ => none)
        ['1', '/', '(', '1', '/', '2', ')', '+', '0', '.', '5'] =
          .error (.failed "Division by zero" ['+', '0', '.', '5']) := by decide +kernel
    unfold tryEvaluateIntegerExpression
    rw [hthere, hevaluate]
    rfl
  · rw [tryEvaluate_eq_none, hback]
    decide +kernel

end UavBluetooth.Bridge
