import UavBluetooth.Bridge.MemberPath
import UavBluetooth.Lib.OpenRecursion

set_option autoImplicit false

/-! # Exact integer expressions

`IntegerParser` of `math_expression.cpp`: it evaluates an expression while it reads it, in checked
128-bit arithmetic, and gives up at the first operand that is not an exact integer.
-/

namespace UavBluetooth.Bridge

open Util

/-! ## The accumulator -/

/-- Largest magnitude representable by the signed exact-integer accumulator. -/
def kMaximum : Int := 2 ^ 127 - 1

def kMinimum : Int := -kMaximum - 1

/-- Whether an integer is one of the accumulator's. -/
def Fits (n : Int) : Prop := kMinimum ≤ n ∧ n ≤ kMaximum

instance (n : Int) : Decidable (Fits n) := inferInstanceAs (Decidable (_ ∧ _))

/-- A value of the accumulator. -/
structure ExactInteger where
  toInt : Int
  fits : Fits toInt
  deriving DecidableEq

theorem ExactInteger.eq_of_toInt_eq {a b : ExactInteger} (h : a.toInt = b.toInt) : a = b := by
  cases a
  cases b
  cases h
  rfl

instance : Zero ExactInteger := ⟨⟨0, by decide⟩⟩

/-- A result that fits, or the reason to fail. -/
def checked (reason : String) (n : Int) : Except String ExactInteger :=
  if h : Fits n then .ok ⟨n, h⟩ else .error reason

theorem fits_neg {n : Int} (h : Fits n) (hleast : n ≠ kMinimum) : Fits (-n) := by
  unfold Fits kMinimum kMaximum at *
  omega

/-- A quotient fits, but for that of the least value by minus one. -/
theorem fits_tdiv {a b : Int} (h : Fits a) (hleast : ¬(a = kMinimum ∧ b = -1)) :
    Fits (a.tdiv b) := by
  by_cases hsmall : b.natAbs ≤ 1
  · obtain hb | hb | hb : b = -1 ∨ b = 0 ∨ b = 1 := by omega
    · rw [hb, Int.tdiv_neg, Int.tdiv_one]
      exact fits_neg h fun ha => hleast ⟨ha, hb⟩
    · rw [hb, Int.tdiv_zero]
      decide
    · rwa [hb, Int.tdiv_one]
  · have hhalf : (a.tdiv b).natAbs ≤ a.natAbs / 2 := by
      rw [Int.natAbs_tdiv]
      exact Nat.div_le_div_left (by omega) (by omega)
    unfold Fits kMinimum kMaximum at *
    omega

/-- A remainder lies between its dividend and zero. -/
theorem fits_tmod {a b : Int} (h : Fits a) : Fits (a.tmod b) := by
  have hle : (a.tmod b).natAbs ≤ a.natAbs := by
    rw [Int.natAbs_tmod]
    exact Nat.mod_le _ _
  rcases le_total 0 a with ha | ha
  · have := Int.tmod_nonneg b ha
    unfold Fits kMinimum kMaximum at *
    omega
  · have hneg := Int.tmod_nonneg b (neg_nonneg.mpr ha)
    rw [Int.neg_tmod] at hneg
    unfold Fits kMinimum kMaximum at *
    omega

/-- The operators between two operands. -/
inductive Operator where
  | add
  | subtract
  | multiply
  | divide
  | remainder
  deriving DecidableEq, Repr

def Operator.symbol : Operator → Char
  | .add => '+'
  | .subtract => '-'
  | .multiply => '*'
  | .divide => '/'
  | .remainder => '%'

/-- The value of an operation, or the reason to fail. -/
def Operator.apply (a b : ExactInteger) : Operator → Except String ExactInteger
  | .add => checked "Integer overflow" (a.toInt + b.toInt)
  | .subtract => checked "Integer overflow" (a.toInt - b.toInt)
  | .multiply => checked "Integer overflow" (a.toInt * b.toInt)
  | .divide =>
      if b.toInt = 0 then .error "Division by zero"
      else if h : a.toInt = kMinimum ∧ b.toInt = -1 then .error "Integer overflow"
      else .ok ⟨a.toInt.tdiv b.toInt, fits_tdiv a.fits h⟩
  | .remainder =>
      if b.toInt = 0 then .error "Division by zero"
      else if a.toInt = kMinimum ∧ b.toInt = -1 then .error "Integer overflow"
      else .ok ⟨a.toInt.tmod b.toInt, fits_tmod a.fits⟩

/-- The value behind a minus sign. -/
def negate (a : ExactInteger) : Except String ExactInteger :=
  if h : a.toInt = kMinimum then .error "Integer overflow" else .ok ⟨-a.toInt, fits_neg a.fits h⟩

/-! ## The parser

The text that is left stands for the parser's position. -/

/-- Why the parser stops without a value: it met a floating operand, it failed with the text at
its position left, or the resolver threw. -/
inductive Stop where
  | floating
  | failed (reason : String) (text : List Char)
  | thrown (exception : StdException)
  deriving DecidableEq

namespace IntegerParser

/-- A value, and the text left behind it. -/
abbrev Parsed := Except Stop (ExactInteger × List Char)

def fail {α : Type} (reason : String) (text : List Char) : Except Stop α :=
  .error (.failed reason text)

/-- Fail at a position where there is a reason to. -/
def failAt {α : Type} (text : List Char) : Except String α → Except Stop α
  | .ok a => .ok a
  | .error reason => fail reason text

/-- Advance past whitespace. -/
def whitespace (text : List Char) : List Char := text.dropWhile isCSpace

/-- Consume a token when it comes next. The whitespace before it is consumed anyway. -/
def consume (token : Char) (text : List Char) : Bool × List Char :=
  let text := whitespace text
  if text.head? = some token then (true, text.tail) else (false, text)

/-- Consume that one of several operators which comes next. Trying them has consumed the
whitespace. -/
def consumeOperator : List Operator → List Char → Option Operator × List Char
  | [], text => (none, whitespace text)
  | op :: others, text =>
      match consume op.symbol text with
      | (true, text) => (some op, text)
      | (false, text) => consumeOperator others text

/-- The value of a literal with one more digit. -/
def pushDigit (value : ExactInteger) (c : Char) : Except String ExactInteger := do
  let tenfold ← checked "Integer literal overflow" (value.toInt * 10)
  checked "Integer literal overflow" (tenfold.toInt + (c.toNat - '0'.toNat : Nat))

/-- The digits of a literal behind a value. -/
def readLiteral (value : ExactInteger) : List Char → Parsed
  | [] => .ok (value, [])
  | c :: text =>
      if c.isDigit then do
        let value ← failAt (c :: text) (pushDigit value c)
        readLiteral value text
      else .ok (value, c :: text)

def isNameStart (c : Char) : Bool := c.isAlpha || c == '_'

def isNameChar (c : Char) : Bool :=
  c.isAlphanum || c == '_' || c == '.' || c == '[' || c == ']'

/-- The parser's functions, with the value so far for those that loop. -/
inductive Call where
  | expression
  | expressionLoop (result : ExactInteger)
  | product
  | productLoop (result : ExactInteger)
  | unary
  | primary

section

variable (resolver : String → Except StdException (Option ExactInteger))
variable (call : Call × List Char → Parsed)

/-- The loop of `expression` and `product`: an operator and its right operand, then the loop
again with the result. -/
def operatorLoop (operators : List Operator) (operand : Call) (again : ExactInteger → Call)
    (result : ExactInteger) (text : List Char) : Parsed :=
  match consumeOperator operators text with
  | (none, text) => .ok (result, text)
  | (some op, text) => do
      let (rhs, text) ← call (operand, text)
      let result ← failAt text (op.apply result rhs)
      call (again result, text)

/-- `+` is tried first, and `-` is minus only where no operand stands before it. -/
def unary (text : List Char) : Parsed :=
  match consume '+' text with
  | (true, text) => call (.unary, text)
  | (false, text) =>
      match consume '-' text with
      | (true, text) => do
          let (value, text) ← call (.unary, text)
          let value ← failAt text (negate value)
          return (value, text)
      | (false, text) => call (.primary, text)

/-- A name that was read, with the text behind it. -/
def identifier (name : List Char) (text : List Char) : Parsed :=
  let text := whitespace text
  if text.head? = some '(' then .error .floating
  else if String.ofList name = "pi" then .error .floating
  else
    match resolver (String.ofList name) with
    | .error exception => .error (.thrown exception)
    | .ok none => .error .floating
    | .ok (some value) => .ok (value, text)

/-- An operand that begins at a character. -/
def operand (current : Char) (text : List Char) : Parsed :=
  if current = '.' then .error .floating
  else if current.isDigit then do
    let (value, text) ← readLiteral 0 (current :: text)
    if text.head? = some '.' ∨ text.head? = some 'e' ∨ text.head? = some 'E' then .error .floating
    else return (value, text)
  else if ¬isNameStart current then fail "Expected identifier" (current :: text)
  else identifier resolver (current :: text.takeWhile isNameChar) (text.dropWhile isNameChar)

def primary (text : List Char) : Parsed :=
  match consume '(' (whitespace text) with
  | (true, text) => do
      let (result, text) ← call (.expression, text)
      match consume ')' text with
      | (true, text) => return (result, text)
      | (false, text) => fail "Missing closing parenthesis" text
  | (false, []) => fail "Expected number or identifier" []
  | (false, current :: text) => operand resolver current text

/-- One level of the parser: each of its functions, with the calls that it makes. -/
def parserBody : Call × List Char → Parsed
  | (.expression, text) => do
      let (result, text) ← call (.product, text)
      call (.expressionLoop result, text)
  | (.expressionLoop result, text) =>
      operatorLoop call [.add, .subtract] .product .expressionLoop result text
  | (.product, text) => do
      let (result, text) ← call (.unary, text)
      call (.productLoop result, text)
  | (.productLoop result, text) =>
      operatorLoop call [.multiply, .divide, .remainder] .unary .productLoop result text
  | (.unary, text) => unary call text
  | (.primary, text) => primary resolver call text

/-- How far the parser may still go: by the text that is left, and at one position down to
`primary`. -/
def size : Call × List Char → Nat
  | (.expression, text) => 4 * text.length + 3
  | (.product, text) => 4 * text.length + 2
  | (.unary, text) => 4 * text.length + 1
  | (_, text) => 4 * text.length

/-- The parser's functions, each calling the others. -/
def parse : Call × List Char → Parsed :=
  OpenRecursion.solution (parserBody resolver) (fun _ => .error .floating) size

/-- Evaluate the complete expression and reject trailing text. -/
def evaluate (text : List Char) : Except Stop ExactInteger := do
  let (result, text) ← parse resolver (.expression, text)
  let text := whitespace text
  if text ≠ [] then fail "Unexpected trailing text" text else return result

end

end IntegerParser

/-- Evaluate an expression exactly, only when every operand stays integral. -/
def tryEvaluateIntegerExpression (expression : String)
    (resolver : String → Except StdException (Option ExactInteger)) :
    Except StdException (Option ExactInteger) :=
  match IntegerParser.evaluate resolver expression.toList with
  | .ok value => .ok (some value)
  | .error .floating => .ok none
  | .error (.failed reason text) =>
      .error (.runtimeError (reason ++ " at column " ++
        toString (expression.length - text.length + 1) ++ " in expression: " ++ expression))
  | .error (.thrown exception) => .error exception

end UavBluetooth.Bridge
