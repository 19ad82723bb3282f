import UavBluetooth.Bridge.IntegerParser

set_option autoImplicit false

/-! # The grammar of expressions

The trees of math expressions with the texts that spell them, and what a tree is worth: on the one
hand evaluated eagerly from left to right, on the other hand in plain integer arithmetic.
-/

namespace UavBluetooth.Bridge

open Util

/-! ## Operands -/

/-- The digits of an integer literal. -/
structure Digits where
  text : List Char
  nonempty : text ≠ []
  isDigit : ∀ c ∈ text, c.isDigit = true

def Digits.value (digits : Digits) : Nat := ofDigits 10 digits.text

/-- The name of a field or of a function. -/
structure Identifier where
  start : Char
  rest : List Char
  isStart : IntegerParser.isNameStart start = true
  isName : ∀ c ∈ rest, IntegerParser.isNameChar c = true

def Identifier.text (name : Identifier) : List Char := name.start :: name.rest

def Identifier.name (name : Identifier) : String := String.ofList name.text

/-- The exponent of a decimal literal. -/
structure Exponent where
  marker : Char
  sign : List Char
  digits : Digits
  isMarker : marker = 'e' ∨ marker = 'E'
  isSign : sign = [] ∨ sign = ['+'] ∨ sign = ['-']

/-- A decimal literal: digits with a point, an exponent, or both. -/
structure Decimal where
  whole : List Char
  fraction : Option (List Char)
  exponent : Option Exponent
  isDigit : ∀ c ∈ whole, c.isDigit = true
  fraction_isDigit : ∀ digits ∈ fraction, ∀ c ∈ digits, c.isDigit = true
  hasDigits : whole ≠ [] ∨ ∃ digits ∈ fraction, digits ≠ []
  isFloating : fraction.isSome = true ∨ exponent.isSome = true

/-- A decimal literal from its point or exponent on. -/
def Decimal.tail (d : Decimal) : List Char :=
  (match d.fraction with
    | some digits => '.' :: digits
    | none => []) ++
  match d.exponent with
  | some exponent => exponent.marker :: (exponent.sign ++ exponent.digits.text)
  | none => []

def Decimal.text (d : Decimal) : List Char := d.whole ++ d.tail

/-! ## Trees and their texts -/

/-- A math expression. -/
inductive Expr where
  | literal (digits : Digits)
  | decimal (d : Decimal)
  | identifier (name : Identifier)
  | call (name : Identifier) (arguments : List Expr)
  | positive (e : Expr)
  | negative (e : Expr)
  | binary (op : Operator) (left right : Expr)

/-- Induction over a tree, with the arguments of its calls. -/
@[elab_as_elim, induction_eliminator]
theorem Expr.induct {motive : Expr → Prop} (literal : ∀ digits, motive (.literal digits))
    (decimal : ∀ d, motive (.decimal d)) (identifier : ∀ name, motive (.identifier name))
    (call : ∀ name arguments, (∀ a ∈ arguments, motive a) → motive (.call name arguments))
    (positive : ∀ e, motive e → motive (.positive e))
    (negative : ∀ e, motive e → motive (.negative e))
    (binary : ∀ op left right, motive left → motive right → motive (.binary op left right))
    (e : Expr) : motive e :=
  @Expr.rec motive (fun arguments => ∀ a ∈ arguments, motive a) literal decimal identifier call
    positive negative binary (fun _ h => absurd h List.not_mem_nil)
    (fun _ _ hfirst hothers a ha => by
      rcases List.mem_cons.mp ha with rfl | ha
      · exact hfirst
      · exact hothers a ha)
    e

/-- The nonterminals, which the functions of the parser are named after. -/
inductive Level where
  | expression
  | product
  | unary
  | primary

/-- The operators that a level chains, from left to right. -/
def Level.operators : Level → List Operator
  | .expression => [.add, .subtract]
  | .product => [.multiply, .divide, .remainder]
  | _ => []

/-- The level of the operands in a chain. -/
def Level.operand : Level → Level
  | .expression => .product
  | .product => .unary
  | _ => .primary

/-- An argument of a call, with the blanks between its text and the comma or parenthesis. -/
structure Argument where
  tree : Expr
  text : List Char
  blanks : List Char

def commaSeparated : List (List Char) → List Char
  | [] => []
  | [text] => text
  | text :: texts => text ++ ',' :: commaSeparated texts

open IntegerParser (Blank) in
/-- The texts of a level, with the trees that they spell. There may be blanks in front of every
token. -/
inductive Derives : Level → List Char → Expr → Prop
  | literal {w : List Char} (hw : Blank w) (digits : Digits) :
      Derives .primary (w ++ digits.text) (.literal digits)
  | decimal {w : List Char} (hw : Blank w) (d : Decimal) :
      Derives .primary (w ++ d.text) (.decimal d)
  | identifier {w : List Char} (hw : Blank w) (name : Identifier) :
      Derives .primary (w ++ name.text) (.identifier name)
  | call {w v : List Char} (hw : Blank w) (name : Identifier) (hv : Blank v)
      {arguments : List Argument}
      (harguments : ∀ a ∈ arguments, Derives .expression a.text a.tree)
      (hblanks : ∀ a ∈ arguments, Blank a.blanks) {b : List Char} (hb : Blank b) :
      Derives .primary (w ++ (name.text ++ (v ++ '(' ::
          (commaSeparated (arguments.map fun a => a.text ++ a.blanks) ++ (b ++ [')'])))))
        (.call name (arguments.map (·.tree)))
  | parentheses {w t v : List Char} {e : Expr} (hw : Blank w) (he : Derives .expression t e)
      (hv : Blank v) : Derives .primary (w ++ '(' :: (t ++ (v ++ [')']))) e
  | positive {w t : List Char} {e : Expr} (hw : Blank w) (he : Derives .unary t e) :
      Derives .unary (w ++ '+' :: t) (.positive e)
  | negative {w t : List Char} {e : Expr} (hw : Blank w) (he : Derives .unary t e) :
      Derives .unary (w ++ '-' :: t) (.negative e)
  | operand {level : Level} {t : List Char} {e : Expr} (he : Derives level.operand t e) :
      Derives level t e
  | binary {level : Level} {op : Operator} {l w r : List Char} {left right : Expr}
      (hop : op ∈ level.operators) (hleft : Derives level l left) (hw : Blank w)
      (hright : Derives level.operand r right) :
      Derives level (l ++ (w ++ op.symbol :: r)) (.binary op left right)

/-- The whole texts that spell a tree. -/
def Spells (text : List Char) (e : Expr) : Prop :=
  ∃ t w, text = t ++ w ∧ IntegerParser.Blank w ∧ Derives .expression t e

/-! ## Derived texts -/

section

variable {level : Level} {t : List Char} {e : Expr}

/-- More blanks may stand in front. -/
theorem Derives.blanks (h : Derives level t e) {w : List Char}
    (hw : IntegerParser.Blank w) : Derives level (w ++ t) e := by
  induction h with
  | literal hw' digits =>
      rw [← List.append_assoc]
      exact .literal (hw.append hw') digits
  | decimal hw' d =>
      rw [← List.append_assoc]
      exact .decimal (hw.append hw') d
  | identifier hw' name =>
      rw [← List.append_assoc]
      exact .identifier (hw.append hw') name
  | call hw' name hv harguments hblanks hb _ =>
      rw [← List.append_assoc]
      exact .call (hw.append hw') name hv harguments hblanks hb
  | parentheses hw' he hv _ =>
      rw [← List.append_assoc]
      exact .parentheses (hw.append hw') he hv
  | positive hw' he _ =>
      rw [← List.append_assoc]
      exact .positive (hw.append hw') he
  | negative hw' he _ =>
      rw [← List.append_assoc]
      exact .negative (hw.append hw') he
  | operand _ ih => exact .operand ih
  | binary hop _ hw' hright ih _ =>
      rw [← List.append_assoc]
      exact .binary hop ih hw' hright

theorem Derives.of_primary (h : Derives .primary t e) : Derives level t e := by
  cases level with
  | expression => exact .operand (.operand (.operand h))
  | product => exact .operand (.operand h)
  | unary => exact .operand h
  | primary => exact h

/-- An operation with operands that need no parentheses. -/
theorem Derives.operation {l r : List Char} {left right : Expr} (op : Operator)
    (hleft : Derives .primary l left) (hright : Derives .primary r right) :
    Derives .expression (l ++ op.symbol :: r) (.binary op left right) := by
  have hproduct : op ∈ Level.product.operators → Derives .expression (l ++ op.symbol :: r)
      (.binary op left right) := fun hop =>
    .operand (.binary hop hleft.of_primary IntegerParser.blank_nil hright.of_primary)
  have hsum : op ∈ Level.expression.operators → Derives .expression (l ++ op.symbol :: r)
      (.binary op left right) := fun hop =>
    .binary hop hleft.of_primary IntegerParser.blank_nil hright.of_primary
  cases op with
  | add => exact hsum (by simp [Level.operators])
  | subtract => exact hsum (by simp [Level.operators])
  | multiply => exact hproduct (by simp [Level.operators])
  | divide => exact hproduct (by simp [Level.operators])
  | remainder => exact hproduct (by simp [Level.operators])

end

/-! ## Printing -/

mutual

/-- A tree in explicit parentheses. -/
def Expr.print : Expr → List Char
  | .literal digits => digits.text
  | .decimal d => d.text
  | .identifier name => name.text
  | .call name arguments => name.text ++ '(' :: (commaSeparated (printAll arguments) ++ [')'])
  | .positive e => '(' :: '+' :: (e.print ++ [')'])
  | .negative e => '(' :: '-' :: (e.print ++ [')'])
  | .binary op left right => '(' :: (left.print ++ op.symbol :: right.print ++ [')'])

def Expr.printAll : List Expr → List (List Char)
  | [] => []
  | e :: others => e.print :: printAll others

end

theorem Expr.printAll_eq (arguments : List Expr) : printAll arguments = arguments.map print := by
  induction arguments with
  | nil => rfl
  | cons e others ih => rw [printAll, ih, List.map_cons]

/-- What is printed spells the tree, and an operand at that. -/
theorem Expr.derives_print (e : Expr) : Derives .primary e.print e := by
  have hblank := IntegerParser.blank_nil
  -- a text with parentheses around it
  have hparentheses : ∀ {t : List Char} {e : Expr}, Derives .expression t e →
      Derives .primary ('(' :: (t ++ [')'])) e := fun h => .parentheses hblank h hblank
  induction e with
  | literal digits => exact .literal hblank digits
  | decimal d => exact .decimal hblank d
  | identifier name => exact .identifier hblank name
  | call name arguments ih =>
      let written : List Argument := arguments.map fun a => ⟨a, a.print, []⟩
      have htrees : written.map (·.tree) = arguments := by
        simp [written, Function.comp_def]
      have htexts : written.map (fun a => a.text ++ a.blanks) = printAll arguments := by
        simp [written, printAll_eq]
      have hwritten : ∀ a ∈ written, Derives .expression a.text a.tree := by
        intro a ha
        obtain ⟨e, he, rfl⟩ := List.mem_map.mp ha
        exact (ih e he).of_primary
      have hblanks : ∀ a ∈ written, IntegerParser.Blank a.blanks := by
        intro a ha
        obtain ⟨e, _, rfl⟩ := List.mem_map.mp ha
        exact hblank
      have hcall := Derives.call hblank name hblank hwritten hblanks hblank
      rw [htrees, htexts] at hcall
      exact hcall
  | positive e ih => exact hparentheses (.operand (.operand (.positive hblank ih.of_primary)))
  | negative e ih => exact hparentheses (.operand (.operand (.negative hblank ih.of_primary)))
  | binary op left right ihleft ihright => exact hparentheses (.operation op ihleft ihright)

/-- **Printing spells the tree.** -/
theorem Expr.spells_print (e : Expr) : Spells e.print e :=
  ⟨e.print, [], (List.append_nil _).symm, IntegerParser.blank_nil, e.derives_print.of_primary⟩

/-! ## Eager evaluation -/

/-- Why a tree has no exact value. -/
inductive Denial where
  | floating
  | failed (reason : String)
  | thrown (exception : StdException)

/-- A stop, wherever it happened. -/
def Stop.denial : Stop → Denial
  | .floating => .floating
  | .failed reason _ => .failed reason
  | .thrown exception => .thrown exception

def denied {α : Type} (x : Except String α) : Except Denial α := x.mapError Denial.failed

section

variable (resolver : String → Except StdException (Option ExactInteger))

/-- The value of a name. -/
def lookUp (name : Identifier) : Except Denial ExactInteger :=
  if name.name = "pi" then .error .floating
  else
    match resolver name.name with
    | .error exception => .error (.thrown exception)
    | .ok none => .error .floating
    | .ok (some value) => .ok value

/-- The evaluation of a tree from left to right, up to its first floating operand. -/
def Expr.evaluate : Expr → Except Denial ExactInteger
  | .literal digits => denied (checked "Integer literal overflow" digits.value)
  | .decimal d => do
      let _ ← denied (checked "Integer literal overflow" (ofDigits 10 d.whole : Nat))
      .error .floating
  | .identifier name => lookUp resolver name
  | .call _ _ => .error .floating
  | .positive e => e.evaluate
  | .negative e => do denied (negate (← e.evaluate))
  | .binary op left right => do
      let a ← left.evaluate
      let b ← right.evaluate
      denied (op.apply a b)

end

/-! ## Integer arithmetic -/

/-- The value of an operation on integers. Division truncates toward zero, and the remainder is
the matching one. -/
def Operator.exact (a b : Int) : Operator → Option Int
  | .add => some (a + b)
  | .subtract => some (a - b)
  | .multiply => some (a * b)
  | .divide => if b = 0 then none else some (a.tdiv b)
  | .remainder => if b = 0 then none else some (a.tmod b)

/-- A value that the accumulator can hold. -/
def inRange (n : Int) : Option Int := if Fits n then some n else none

section

variable (fields : String → Option Int)

/-- The exact value of a tree of integer operands all of whose literals and intermediate results
fit, and none of whose divisors is zero. -/
def Expr.exact : Expr → Option Int
  | .literal digits => inRange digits.value
  | .decimal _ => none
  | .identifier name => if name.name = "pi" then none else fields name.name
  | .call _ _ => none
  | .positive e => e.exact
  | .negative e => do inRange (-(← e.exact))
  | .binary op left right => do
      let a ← left.exact
      let b ← right.exact
      inRange (← op.exact a b)

/-- No remainder of the least value by minus one is taken anywhere in the tree. -/
def Expr.SparesLeast : Expr → Prop
  | .positive e => e.SparesLeast
  | .negative e => e.SparesLeast
  | .binary op left right => left.SparesLeast ∧ right.SparesLeast ∧
      ¬(op = .remainder ∧ left.exact fields = some kMinimum ∧ right.exact fields = some (-1))
  | _ => True

end

/-- The exact integers among the fields. -/
def integerFields (resolver : String → Except StdException (Option ExactInteger))
    (name : String) : Option Int :=
  match resolver name with
  | .ok (some value) => some value.toInt
  | _ => none

/-! ## The two agree -/

theorem denied_eq_ok {α : Type} {x : Except String α} {a : α} :
    denied x = .ok a ↔ x = .ok a := by
  cases x <;> simp [denied, Except.mapError]

theorem inRange_eq_some {n m : Int} : inRange n = some m ↔ n = m ∧ Fits n := by
  unfold inRange
  split
  · rename_i h
    rw [Option.some.injEq]
    exact ⟨fun heq => ⟨heq, h⟩, And.left⟩
  · rename_i h
    exact ⟨fun heq => absurd heq (by simp), fun heq => absurd heq.2 h⟩

theorem checked_eq_ok_iff {reason : String} {n : Int} {v : ExactInteger} :
    checked reason n = .ok v ↔ inRange n = some v.toInt := by
  rw [IntegerParser.checked_eq_ok, inRange_eq_some]
  constructor
  · exact fun h => ⟨h.symm, h ▸ v.fits⟩
  · exact fun h => h.1.symm

theorem negate_eq_ok_iff {a v : ExactInteger} :
    negate a = .ok v ↔ inRange (-a.toInt) = some v.toInt := by
  unfold negate
  split
  · rename_i hleast
    rw [inRange_eq_some, hleast]
    constructor
    · intro h
      cases h
    · rintro ⟨_, hfits⟩
      exact absurd hfits (by decide)
  · rename_i hleast
    rw [inRange_eq_some, Except.ok.injEq]
    constructor
    · rintro rfl
      exact ⟨rfl, fits_neg a.fits hleast⟩
    · exact fun h => ExactInteger.eq_of_toInt_eq h.1

/-- Where a quotient does not fit it overflows; where only the quotient does not, the remainder is
refused all the same. -/
theorem apply_eq_ok_iff {op : Operator} {a b v : ExactInteger} :
    op.apply a b = .ok v ↔ (op.exact a.toInt b.toInt).bind inRange = some v.toInt ∧
      ¬(op = .remainder ∧ a.toInt = kMinimum ∧ b.toInt = -1) := by
  cases op with
  | add => simp [Operator.apply, Operator.exact, checked_eq_ok_iff]
  | subtract => simp [Operator.apply, Operator.exact, checked_eq_ok_iff]
  | multiply => simp [Operator.apply, Operator.exact, checked_eq_ok_iff]
  | divide =>
      simp only [Operator.apply, Operator.exact]
      split
      · simp
      split
      · rename_i hleast
        rw [hleast.1, hleast.2]
        simp only [Option.bind_some, reduceCtorEq, false_iff, not_and]
        exact fun h => absurd (inRange_eq_some.mp h).2 (by decide)
      · rename_i hleast
        rw [Option.bind_some, inRange_eq_some, Except.ok.injEq]
        constructor
        · rintro rfl
          exact ⟨⟨rfl, fits_tdiv a.fits hleast⟩, by simp⟩
        · exact fun h => ExactInteger.eq_of_toInt_eq h.1.1
  | remainder =>
      simp only [Operator.apply, Operator.exact]
      split
      · simp
      split
      · rename_i hleast
        simp [hleast]
      · rename_i hleast
        rw [Option.bind_some, inRange_eq_some, Except.ok.injEq]
        constructor
        · rintro rfl
          exact ⟨⟨rfl, fits_tmod a.fits⟩, fun h => hleast h.2⟩
        · exact fun h => ExactInteger.eq_of_toInt_eq h.1.1

theorem Expr.fits_of_exact {fields : String → Option Int}
    (hfields : ∀ name, ∀ n ∈ fields name, Fits n) {e : Expr} {n : Int}
    (h : e.exact fields = some n) : Fits n := by
  induction e generalizing n with
  | literal digits => exact (inRange_eq_some.mp h).1 ▸ (inRange_eq_some.mp h).2
  | decimal d => cases h
  | identifier name =>
      unfold exact at h
      split at h
      · cases h
      · exact hfields _ n h
  | call name arguments _ => cases h
  | positive e ih => exact ih h
  | negative e ih =>
      obtain ⟨a, _, ha⟩ := Option.bind_eq_some_iff.mp h
      exact (inRange_eq_some.mp ha).1 ▸ (inRange_eq_some.mp ha).2
  | binary op left right _ _ =>
      obtain ⟨a, _, h⟩ := Option.bind_eq_some_iff.mp h
      obtain ⟨b, _, h⟩ := Option.bind_eq_some_iff.mp h
      obtain ⟨c, _, hc⟩ := Option.bind_eq_some_iff.mp h
      exact (inRange_eq_some.mp hc).1 ▸ (inRange_eq_some.mp hc).2

theorem fits_of_integerFields {resolver : String → Except StdException (Option ExactInteger)}
    (name : String) : ∀ n ∈ integerFields resolver name, Fits n := by
  intro n hn
  unfold integerFields at hn
  split at hn
  · rename_i value _
    rw [← Option.some.inj hn]
    exact value.fits
  · cases hn

/-- **Eager evaluation is exact.** It gives a value where the tree has one and no remainder of the
least value by minus one is taken. -/
theorem Expr.evaluate_eq_ok_iff {resolver : String → Except StdException (Option ExactInteger)}
    {e : Expr} {v : ExactInteger} :
    e.evaluate resolver = .ok v ↔
      e.exact (integerFields resolver) = some v.toInt ∧
        e.SparesLeast (integerFields resolver) := by
  have hvalue : ∀ {e : Expr} {n : Int}, e.exact (integerFields resolver) = some n →
      ∃ v : ExactInteger, v.toInt = n := fun h => ⟨⟨_, fits_of_exact fits_of_integerFields h⟩, rfl⟩
  induction e generalizing v with
  | literal digits =>
      unfold evaluate exact
      rw [denied_eq_ok, checked_eq_ok_iff]
      exact (and_iff_left trivial).symm
  | decimal d =>
      unfold evaluate exact
      constructor
      · intro h
        obtain ⟨_, _, h⟩ := Fallible.bind_eq_ok.mp h
        cases h
      · exact fun h => absurd h.1 (by simp)
  | identifier name =>
      unfold evaluate exact lookUp integerFields
      refine Iff.trans ?_ (and_iff_left trivial).symm
      split
      · simp
      · cases hname : resolver name.name with
        | error exception => simp
        | ok value =>
            cases value with
            | none => simp
            | some value =>
                simp only [Except.ok.injEq, Option.some.injEq]
                exact ⟨congrArg _, ExactInteger.eq_of_toInt_eq⟩
  | call name arguments _ => simp [evaluate, exact]
  | positive e ih => exact ih
  | negative e ih =>
      unfold evaluate exact SparesLeast
      simp only [Fallible.bind_eq_ok, denied_eq_ok, negate_eq_ok_iff, ih, Option.bind_eq_bind,
        Option.bind_eq_some_iff]
      constructor
      · rintro ⟨a, ⟨ha, hspares⟩, hneg⟩
        exact ⟨⟨a.toInt, ha, hneg⟩, hspares⟩
      · rintro ⟨⟨n, hn, hneg⟩, hspares⟩
        obtain ⟨a, rfl⟩ := hvalue hn
        exact ⟨a, ⟨hn, hspares⟩, hneg⟩
  | binary op left right ihleft ihright =>
      unfold evaluate exact SparesLeast
      simp only [Fallible.bind_eq_ok, denied_eq_ok, apply_eq_ok_iff, ihleft, ihright,
        Option.bind_eq_bind, Option.bind_eq_some_iff]
      constructor
      · rintro ⟨a, ⟨ha, hleft⟩, b, ⟨hb, hright⟩, ⟨c, hc, hrange⟩, hspares⟩
        refine ⟨⟨a.toInt, ha, b.toInt, hb, c, hc, hrange⟩, hleft, hright, ?_⟩
        rintro ⟨hop, hleast, hminus⟩
        refine hspares ⟨hop, ?_, ?_⟩
        · exact Option.some.inj (ha.symm.trans hleast)
        · exact Option.some.inj (hb.symm.trans hminus)
      · rintro ⟨⟨n, hn, m, hm, c, hc, hrange⟩, hleft, hright, hspares⟩
        obtain ⟨a, rfl⟩ := hvalue hn
        obtain ⟨b, rfl⟩ := hvalue hm
        refine ⟨a, ⟨hn, hleft⟩, b, ⟨hm, hright⟩, ⟨c, hc, hrange⟩, ?_⟩
        rintro ⟨hop, hleast, hminus⟩
        exact hspares ⟨hop, by rw [hn, hleast], by rw [hm, hminus]⟩

end UavBluetooth.Bridge
