import UavBluetooth.Lib.Binary64

set_option autoImplicit false

/-! # Numerals

What the standard library makes of a text that should begin with a number: digits in a base,
signs, and `std::stod`.
-/

namespace UavBluetooth.Util

/-! ## Digits -/

/-- The value of a digit, up to the fifteen hexadecimal ones. -/
def digit? (c : Char) : Option Nat :=
  if c.isDigit then some (c.toNat - '0'.toNat)
  else if 'a' ≤ c ∧ c ≤ 'f' then some (c.toNat - 'a'.toNat + 10)
  else if 'A' ≤ c ∧ c ≤ 'F' then some (c.toNat - 'A'.toNat + 10)
  else none

/-- Whether a character is a digit of a base. -/
def isDigitOf (base : Nat) (c : Char) : Bool := (digit? c).any (· < base)

/-- The number that a text of digits denotes. -/
def ofDigits (base : Nat) (digits : List Char) : Nat :=
  digits.foldl (fun n c => base * n + (digit? c).getD 0) 0

/-- The whitespace of the C locale. -/
def isCSpace (c : Char) : Bool :=
  c == ' ' || c == '\t' || c == '\n' || c == '\x0b' || c == '\x0c' || c == '\r'

/-- The sign of a numeral and what follows it. -/
def takeSign : List Char → Bool × List Char
  | '-' :: rest => (true, rest)
  | '+' :: rest => (false, rest)
  | text => (false, text)

/-! ## Doubles -/

/-- A double, with its exact value when it is finite. -/
inductive Double where
  | finite (value : ℚ)
  | infinite (negative : Bool)
  | nan
  deriving DecidableEq, Repr

def Double.neg : Double → Double
  | .finite value => .finite (-value)
  | .infinite negative => .infinite !negative
  | .nan => .nan

/-- Digits with an optional point: all digits, how many follow the point, and the rest. A point
without a digit on either side is not taken. -/
def takeMantissa (base : Nat) (text : List Char) : Option (List Char × Nat × List Char) :=
  let whole := text.takeWhile (isDigitOf base)
  let (fraction, rest) :=
    match text.dropWhile (isDigitOf base) with
    | '.' :: rest => (rest.takeWhile (isDigitOf base), rest.dropWhile (isDigitOf base))
    | rest => ([], rest)
  if (whole ++ fraction).isEmpty then none else some (whole ++ fraction, fraction.length, rest)

/-- An optional exponent behind its marker, and the rest. A marker without digits is not
taken. -/
def takeExponent (marker : Char) : List Char → Int × List Char
  | [] => (0, [])
  | c :: text =>
      let (negative, unsigned) := takeSign text
      let digits := unsigned.takeWhile Char.isDigit
      if c.toLower = marker ∧ digits ≠ [] then
        let magnitude : Int := ofDigits 10 digits
        (if negative then -magnitude else magnitude, unsigned.dropWhile Char.isDigit)
      else (0, c :: text)

/-- A mantissa with an exponent, in powers of ten or two. -/
def takeFinite (base radix : Nat) (marker : Char) (text : List Char) :
    Option (Double × List Char) :=
  (takeMantissa base text).map fun (digits, places, rest) =>
    let (exponent, rest) := takeExponent marker rest
    (.finite (ofDigits base digits * (radix : ℚ) ^ exponent / (base : ℚ) ^ places), rest)

/-- Whether a text begins with a lower-case word, in any case. -/
def startsWithWord (word : String) (text : List Char) : Bool :=
  word.toList.isPrefixOf (text.map Char.toLower)

/-- The optional parenthesis after `nan`. -/
def dropNanTag (text : List Char) : List Char :=
  match text with
  | '(' :: tag =>
      match tag.dropWhile fun c => c.isAlphanum || c == '_' with
      | ')' :: rest => rest
      | _ => text
  | _ => text

/-- `strtod` past blanks and sign. -/
def takeNumber (text : List Char) : Option (Double × List Char) :=
  if startsWithWord "infinity" text then some (.infinite false, text.drop 8)
  else if startsWithWord "inf" text then some (.infinite false, text.drop 3)
  else if startsWithWord "nan" text then some (.nan, dropNanTag (text.drop 3))
  else
    match if startsWithWord "0x" text then takeFinite 16 2 'p' (text.drop 2) else none with
    | some number => some number
    | none => takeFinite 10 10 'e' text

/-- The nearest double of a value that is not negative. -/
def Double.rounded : Double → Double
  | .finite value => .finite (Binary64.nearest value)
  | value => value

/-- `ERANGE` of `strtod` for a value that is not negative. It is too large if it is rounded to
`2 ^ 1024`. It is too small if it is no double, and is not rounded to a normal one even with 53
digits of its own: the last such value below `2 ^ -1022` is half of its last place below that. -/
def outOfRange : Double → Bool
  | .finite value =>
      2 ^ 1024 ≤ Binary64.nearest value ||
        (value < 1 / 2 ^ 1022 - 1 / 2 ^ 1076 && Binary64.nearest value != value)
  | _ => false

/-- `std::stod`: the double and what is left of the text. -/
def stod (text : List Char) : Except String (Double × List Char) :=
  let (negative, unsigned) := takeSign (text.dropWhile isCSpace)
  match takeNumber unsigned with
  | none => .error "stod"
  | some (value, rest) =>
      if outOfRange value then .error "stod"
      else .ok (if negative then value.rounded.neg else value.rounded, rest)

/-- On either side of the bound for the largest double. -/
example : (stod "1.7976931348623158e308".toList).toOption.isSome = true ∧
    (stod "1.7976931348623159e308".toList).toOption.isSome = false := by decide +kernel

/-- On either side of the bound for the smallest normal double. -/
example : (stod "2.2250738585072013e-308".toList).toOption.isSome = true ∧
    (stod "2.2250738585072012e-308".toList).toOption.isSome = false := by decide +kernel

end UavBluetooth.Util
