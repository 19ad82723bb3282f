import UavBluetooth.Config.Yaml
import UavBluetooth.Lib.Fallible
import UavBluetooth.Util.Text

set_option autoImplicit false

/-! # Configuration values

The helpers of `config_loader.cpp` that read one value: bounded integers, byte sequences, byte
maps and optional fields.
-/

namespace UavBluetooth.Config

open Fallible Util Yaml

/-! ## Integers -/

/-- The base of the textual fallback. -/
def fallbackBase : List Char → Nat
  | '0' :: 'x' :: _ :: _ => 16
  | '0' :: 'X' :: _ :: _ => 16
  | _ => 10

/-- `strtoull` and `strtoll` past blanks and sign: the digits of the base, after the prefix
`0x` when a hexadecimal digit follows it. -/
def takeNumeral (base : Nat) (text : List Char) : List Char × List Char :=
  let unprefixed :=
    match text with
    | '0' :: 'x' :: c :: rest => if base = 16 ∧ isDigitOf 16 c then c :: rest else text
    | '0' :: 'X' :: c :: rest => if base = 16 ∧ isDigitOf 16 c then c :: rest else text
    | text => text
  (unprefixed.takeWhile (isDigitOf base), unprefixed.dropWhile (isDigitOf base))

/-- `std::stoull` of a text that has to be consumed whole. A minus sign wraps. -/
def stoull (base : Nat) (text : List Char) : Except String (Nat × List Char) :=
  let (negative, unsigned) := takeSign (text.dropWhile isCSpace)
  let (digits, rest) := takeNumeral base unsigned
  if digits.isEmpty then .error "stoull"
  else if 2 ^ 64 ≤ ofDigits base digits then .error "stoull"
  else if negative then .ok ((2 ^ 64 - ofDigits base digits) % 2 ^ 64, rest)
  else .ok (ofDigits base digits, rest)

def stoll (base : Nat) (text : List Char) : Except String (Int × List Char) :=
  let (negative, unsigned) := takeSign (text.dropWhile isCSpace)
  let (digits, rest) := takeNumeral base unsigned
  let value : Int := if negative then -ofDigits base digits else ofDigits base digits
  if digits.isEmpty then .error "stoll"
  else if -2 ^ 63 ≤ value ∧ value < 2 ^ 63 then .ok (value, rest)
  else .error "stoll"

/-- Parse an unsigned YAML scalar and enforce its upper bound. -/
def parseIntegerValue (node : Option Node) (maxValue : Nat) (context : String) :
    Except String Nat :=
  match node with
  | none => .error (context ++ " must not be null")
  | some .null => .error (context ++ " must not be null")
  | some (.scalar text) =>
      match readUnsigned (2 ^ 64 - 1) text with
      | some value =>
          if maxValue < value then .error (context ++ " is out of range") else .ok value
      | none => do
          let token := Strip.strip isSpace text.toList
          require (!token.isEmpty) (context ++ " must not be empty")
          let (value, rest) ← stoull (fallbackBase token) token
          require (rest.isEmpty && value ≤ maxValue) (context ++ " is out of range")
          return value
  | _ => .error (context ++ " must be a scalar integer")

/-- Parse a signed YAML scalar and enforce both bounds. -/
def parseSignedIntegerValue (node : Option Node) (minValue maxValue : Int) (context : String) :
    Except String Int :=
  match node with
  | none => .error (context ++ " must not be null")
  | some .null => .error (context ++ " must not be null")
  | some (.scalar text) =>
      match readSigned (-2 ^ 63) (2 ^ 63 - 1) text with
      | some value =>
          if value < minValue ∨ maxValue < value then .error (context ++ " is out of range")
          else .ok value
      | none => do
          let token := Strip.strip isSpace text.toList
          require (!token.isEmpty) (context ++ " must not be empty")
          let (value, rest) ← stoll (fallbackBase token) token
          require (rest.isEmpty && minValue ≤ value && value ≤ maxValue)
            (context ++ " is out of range")
          return value
  | _ => .error (context ++ " must be a scalar integer")

/-! ## Fields of the document -/

/-- `doc[key] ? doc[key] : YAML::Node(fallback)`. -/
def getOr (doc : Node) (key : String) (fallback : Nat) : Option Node :=
  some ((doc.get key).getD (ofNat fallback))

/-- An optional field of a type that is read from a scalar. -/
def readField {α : Type} (convert : Option Node → Except String α) (doc : Node) (key : String)
    (fallback : α) : Except String α :=
  if (doc.get key).isSome then convert (doc.get key) else .ok fallback

def str (doc : Node) (key fallback : String) : Except String String :=
  readField asString doc key fallback

def dbl (doc : Node) (key : String) (fallback : Double) : Except String Double :=
  readField (asRead readDouble) doc key fallback

def bool (doc : Node) (key : String) (fallback : Bool) : Except String Bool :=
  readField (asRead readBool) doc key fallback

def u32 (doc : Node) (key : String) (fallback : UInt32) : Except String UInt32 := do
  let value ← readField (asRead (readUnsigned (2 ^ 32 - 1))) doc key fallback.toNat
  return UInt32.ofNat value

/-- A sequence of strings; anything else is an empty list. -/
def strList (doc : Node) (key : String) : List String :=
  match doc.get key with
  | some (.sequence items) => items.map fun item => asStringOr "" (some item)
  | _ => []

def u8Field (doc : Node) (key : String) (fallback : UInt8) (maxValue : Nat) :
    Except String UInt8 := do
  return UInt8.ofNat (← parseIntegerValue (getOr doc key fallback.toNat) maxValue key)

def u16Field (doc : Node) (key : String) (fallback : UInt16) (maxValue : Nat) :
    Except String UInt16 := do
  return UInt16.ofNat (← parseIntegerValue (getOr doc key fallback.toNat) maxValue key)

/-- Whether the field is neither absent nor null. -/
def present (doc : Node) (key : String) : Bool :=
  match doc.get key with
  | none => false
  | some .null => false
  | _ => true

/-- Distinguish an absent boolean from an explicit one. -/
def parseOptionalBool (doc : Node) (key : String) : Except String (Option Bool) :=
  if present doc key then some <$> asRead readBool (doc.get key) else .ok none

def parseOptionalInteger (doc : Node) (key : String) (maxValue : Nat) :
    Except String (Option Nat) :=
  if present doc key then some <$> parseIntegerValue (doc.get key) maxValue key else .ok none

def parseOptionalSignedInteger (doc : Node) (key : String) (minValue maxValue : Int) :
    Except String (Option Int) :=
  if present doc key then
    some <$> parseSignedIntegerValue (doc.get key) minValue maxValue key
  else .ok none

/-! ## Bytes -/

/-- The tokens between commas and blanks. -/
def splitScalarTokens (raw : String) : List String :=
  (raw.toList.splitOnP fun c => c == ',' || isCSpace c).filterMap fun token =>
    if token.isEmpty then none else some (String.ofList token)

/-- The bytes of a list of nodes, with the index in the context. -/
def parseBytes (context : String) : Nat → List Node → Except String Bytes
  | _, [] => .ok []
  | index, item :: rest => do
      let value ← parseIntegerValue (some item) 255 (context ++ "[" ++ toString index ++ "]")
      let bytes ← parseBytes context (index + 1) rest
      return UInt8.ofNat value :: bytes

/-- A YAML list or a compact scalar of bytes. -/
def parseByteSequence (node : Option Node) (context : String) : Except String Bytes :=
  match node with
  | none => .ok []
  | some .null => .ok []
  | some (.sequence items) => parseBytes context 0 items
  | some (.scalar text) =>
      parseBytes context 0 ((splitScalarTokens (trimAsciiCopy text)).map .scalar)
  | some (.map _) => .error (context ++ " must be a scalar or sequence of bytes")

/-- The entries of an identifier-to-bytes mapping; the first entry of a key is kept. -/
def parseByteEntries {K : Type} [Ord K] [Std.TransOrd K]
    (parseKey : String → String → Except String K) (context : String) :
    List (Node × Node) → Except String (Std.ExtTreeMap K Bytes)
  | [] => .ok ∅
  | (key, value) :: rest => do
      let rawKey := trimAsciiCopy (asStringOr "" (some key))
      require (rawKey ≠ "") (context ++ " contains an empty key")
      let parsed ← parseKey rawKey context
      let bytes ← parseByteSequence (some value) (context ++ "." ++ rawKey)
      let later ← parseByteEntries parseKey context rest
      return later.insert parsed bytes

def parseByteMap {K : Type} [Ord K] [Std.TransOrd K]
    (parseKey : String → String → Except String K) (node : Option Node) (context : String) :
    Except String (Std.ExtTreeMap K Bytes) :=
  match node with
  | none => .ok ∅
  | some .null => .ok ∅
  | some (.map entries) => parseByteEntries parseKey context entries
  | _ => .error (context ++ " must be a mapping")

/-- A manufacturer identifier or an advertising type as a map key. -/
def integerKey (maxValue : Nat) (rawKey context : String) : Except String Nat :=
  parseIntegerValue (some (.scalar rawKey)) maxValue (context ++ ".key=" ++ rawKey)

end UavBluetooth.Config
