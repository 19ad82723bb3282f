import UavBluetooth.Config.Models
import UavBluetooth.Util.Numbers

set_option autoImplicit false

/-! # YAML documents

The trees that yaml-cpp hands to the loader, and the conversions the loader asks of it. A
lookup that finds nothing gives the invalid node, here `none`; converting it throws unless a
fallback is given. Integers are read through an `istream` that detects the base itself, so a
leading `0` selects octal and `0x` hexadecimal.
-/

namespace UavBluetooth

namespace Yaml

open Util

inductive Node where
  | null
  | scalar (text : String)
  | sequence (items : List Node)
  | map (entries : List (Node × Node))

/-- The trees that the conversions give for the loader's own literals. -/
def ofNat (n : Nat) : Node := .scalar (toString n)

namespace Node

def isMap : Node → Bool
  | .map _ => true
  | _ => false

/-- The entries of a mapping. -/
def entries : Node → List (Node × Node)
  | .map entries => entries
  | _ => []

/-- Whether a key node is the scalar `key`. -/
def isKey (key : String) : Node → Bool
  | .scalar text => text == key
  | _ => false

/-- The first entry under a key. -/
def get (node : Node) (key : String) : Option Node :=
  (node.entries.find? fun entry => entry.1.isKey key).map Prod.snd

end Node

/-! ## Conversions of scalars -/

/-- The message of every failed conversion, without its mark. -/
def badConversion : String := "bad conversion"

/-- The base that an `istream` detects, whether a digit has been read by then, and what is
left. -/
def detectBase : List Char → Nat × Bool × List Char
  | '0' :: 'x' :: rest => (16, false, rest)
  | '0' :: 'X' :: rest => (16, false, rest)
  | '0' :: rest => (8, true, rest)
  | text => (10, false, text)

/-- `stream >> value` with automatic base detection, then `(stream >> std::ws).eof()`: the
sign and the magnitude. -/
def readInteger (text : List Char) : Option (Bool × Nat) :=
  let (negative, unsigned) := takeSign text
  let (base, seen, rest) := detectBase unsigned
  let digits := rest.takeWhile (isDigitOf base)
  if digits.isEmpty && !seen then none
  else if (rest.dropWhile (isDigitOf base)).all isCSpace then some (negative, ofDigits base digits)
  else none

/-- Conversion to an unsigned type: a minus sign is refused. -/
def readUnsigned (max : Nat) (text : String) : Option Nat :=
  match readInteger text.toList with
  | some (false, magnitude) => if magnitude ≤ max then some magnitude else none
  | _ => none

/-- Conversion to a signed type. -/
def readSigned (min max : Int) (text : String) : Option Int :=
  match readInteger text.toList with
  | some (negative, magnitude) =>
      let value : Int := if negative then -magnitude else magnitude
      if min ≤ value ∧ value ≤ max then some value else none
  | none => none

/-- Lower case, upper case, or a capital followed by lower case. -/
def flexibleCase (text : List Char) : Bool :=
  text.all Char.isLower ||
    match text with
    | [] => true
    | first :: rest => first.isUpper && (rest.all Char.isLower || rest.all Char.isUpper)

def readBool (text : String) : Option Bool :=
  if flexibleCase text.toList then
    if text.toLower ∈ ["y", "yes", "true", "on"] then some true
    else if text.toLower ∈ ["n", "no", "false", "off"] then some false
    else none
  else none

/-- A decimal numeral with an optional fraction and exponent, then only whitespace. -/
def readDecimal (text : List Char) : Option Double :=
  let (negative, unsigned) := takeSign text
  match takeFinite 10 10 'e' unsigned with
  | none => none
  | some (value, rest) =>
      if rest.all isCSpace then some (if negative then value.neg else value) else none

def readDouble (text : String) : Option Double :=
  match readDecimal text.toList with
  | some value => some value
  | none =>
      if text ∈ [".inf", ".Inf", ".INF", "+.inf", "+.Inf", "+.INF"] then some (.infinite false)
      else if text ∈ ["-.inf", "-.Inf", "-.INF"] then some (.infinite true)
      else if text ∈ [".nan", ".NaN", ".NAN"] then some .nan
      else none

/-! ## Conversions of nodes -/

/-- `as<std::string>`; a null node is the text `null`. -/
def asString : Option Node → Except String String
  | some .null => .ok "null"
  | some (.scalar text) => .ok text
  | _ => .error badConversion

/-- `as<std::string>` with a fallback. -/
def asStringOr (fallback : String) (node : Option Node) : String :=
  (asString node).toOption.getD fallback

/-- `as<T>` for the types that are read from the text of a scalar. -/
def asRead {α : Type} (read : String → Option α) : Option Node → Except String α
  | some (.scalar text) =>
      match read text with
      | some value => .ok value
      | none => .error badConversion
  | _ => .error badConversion

/-- `as<T>` with a fallback. -/
def asReadOr {α : Type} (read : String → Option α) (fallback : α) (node : Option Node) : α :=
  (asRead read node).toOption.getD fallback

end Yaml

end UavBluetooth
