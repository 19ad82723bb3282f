import UavBluetooth.Bridge.Introspection

set_option autoImplicit false

/-! # Messages to payloads and back

`GenericMessageBridge::encode_payload` and `decode_payload`. The type support of a message is
its schema; the evaluator of expressions is a parameter. Decoding also reports each write
through a binding with the message at that moment.
-/

namespace UavBluetooth.Bridge

open Config Fallible LittleEndian

/-! ## Reading and writing leaves -/

def unsupportedLeaf : StdException := .runtimeError "Unsupported bridge member leaf type"

/-- The value of a leaf; one that was not written is zero. -/
def MessageInstance.read (message : MessageInstance) (type : ScalarType) (position : Position) :
    ScalarValue :=
  (message.leaves position).getD (type.ofBytes (List.replicate type.size 0))

/-- The supported types of a leaf. -/
def leafType (member : MessageMember) : Except StdException ScalarType :=
  match member.type with
  | .scalar type => .ok type
  | _ => .error unsupportedLeaf

variable (float : FloatOps)

/-- Any supported leaf as a double. -/
def readNumeric (message : MessageInstance) (member : MessageMember) (position : Position) :
    Except StdException UInt64 := do
  let type ← leafType member
  return coerceIncoming float (message.read type position)

/-- An integral leaf exactly, and none for a floating one. -/
def readInteger (message : MessageInstance) (member : MessageMember) (position : Position) :
    Except StdException (Option Int) := do
  let type ← leafType member
  return coerceIncomingInteger (message.read type position)

def outsideField : String := "Decoded value is outside its ROS integer field range"

/-- The value that a leaf gets from an exact integer. -/
def writeInteger (member : MessageMember) (v : Int) : Except StdException ScalarValue := do
  match ← leafType member with
  | .bool => return .bool (v ≠ 0)
  | .integer type => narrow outsideField type v
  | .float32 => return .float (float.toFloat v)
  | .float64 => return .double (float.toDouble v)

/-- The value that a leaf gets from a double. -/
def writeNumeric (member : MessageMember) (v : UInt64) : Except StdException ScalarValue := do
  match ← leafType member with
  | .bool => return .bool (nonzero v)
  | .integer type =>
      match float.round v with
      | none =>
          .error (.runtimeError "Cannot assign a non-finite value to a ROS integer field")
      | some n => narrow outsideField type n
  | .float32 => return .float (float.narrow v)
  | .float64 => return .double v

/-! ## Single leaves -/

/-- The index of a segment, which a slice does not have. -/
def Selector.index? : Selector → Option Nat
  | .index n => some n
  | _ => none

/-- Follow one scalar path for reading. -/
def resolveLeafMember (message : MessageInstance) :
    List PathSegment → List MessageMember → Position →
      Except StdException (MessageMember × Position)
  | [], _, _ => .error (.invalidArgument "Member path must not be empty")
  | segment :: rest, members, position => do
      let member ← findMember members segment.name
      let field := position ++ [.field member.name]
      let element ← match member.shape, segment.selector.index? with
        | .single, none => pure field
        | .single, some _ =>
            .error (.runtimeError ("Indexed access on non-array member: " ++ member.name))
        | _, none =>
            .error (.runtimeError ("Array member requires explicit index: " ++ member.name))
        | _, some n => do
            require (n < arraySize member message field)
              (.runtimeError ("Array index out of range for member: " ++ member.name))
            require member.accessor
              (.runtimeError ("Array member lacks const accessor: " ++ member.name))
            pure (field ++ [.item n])
      if rest.isEmpty then return (member, element)
      else resolveLeafMember message rest (← getNestedMembers member) element

/-- Follow one scalar path for writing; a vector is grown to have the index. -/
def resolveLeafMemberMutable :
    List PathSegment → List MessageMember → Position → MessageInstance →
      Except StdException (MessageMember × Position × MessageInstance)
  | [], _, _, _ => .error (.invalidArgument "Member path must not be empty")
  | segment :: rest, members, position, message => do
      let member ← findMember members segment.name
      let field := position ++ [.field member.name]
      let (element, message) ← match member.shape, segment.selector.index? with
        | .single, none => pure (field, message)
        | .single, some _ =>
            .error (.runtimeError ("Indexed access on non-array member: " ++ member.name))
        | _, none =>
            .error (.runtimeError ("Array member requires explicit index: " ++ member.name))
        | .fixed size, some n => do
            require (n < size)
              (.runtimeError ("Array index out of range for member: " ++ member.name))
            require member.accessor
              (.runtimeError ("Array member lacks mutable accessor: " ++ member.name))
            pure (field ++ [.item n], message)
        | .sequence _ _, some n => do
            let message ← ensureSize member segment field (n + 1) message
            require member.accessor
              (.runtimeError ("Array member lacks mutable accessor: " ++ member.name))
            pure (field ++ [.item n], message)
      if rest.isEmpty then return (member, element, message)
      else resolveLeafMemberMutable rest (← getNestedMembers member) element message

/-! ## Expressions -/

/-- The evaluators of `math_expression.cpp`, each with a resolver of identifiers. The integer
evaluator declines a floating expression. -/
structure Evaluators where
  integer : String → (String → Except StdException (Option Int)) →
    Except StdException (Option Int)
  numeric : String → (String → Except StdException UInt64) → Except StdException UInt64

variable (eval : Evaluators)

/-- A serialized message: bytes that were copied, or a message that was serialized. -/
inductive SerializedMessage where
  | bytes (payload : Bytes)
  | message (instance_ : MessageInstance)

/-! ## Encoding -/

/-- The value of an expression member. -/
def encodeExpression (members : List MessageMember) (message : MessageInstance)
    (spec : BridgeMemberSpec) : Except StdException ScalarValue := do
  let exact ← eval.integer spec.expression fun identifier => do
    let (member, position) ← resolveLeafMember message (← parseMemberPath identifier) members []
    readInteger message member position
  match exact with
  | some n => coerceOutgoingInteger float n spec
  | none => do
      let numeric ← eval.numeric spec.expression fun identifier => do
        let (member, position) ←
          resolveLeafMember message (← parseMemberPath identifier) members []
        readNumeric float message member position
      coerceOutgoing float numeric spec

/-- The value of a leaf, for the wire type of its member. -/
def encodeLeaf (message : MessageInstance) (spec : BridgeMemberSpec)
    (binding : ConstLeafBinding) : Except StdException ScalarValue := do
  match ← readInteger message binding.member binding.position with
  | some n => coerceOutgoingInteger float n spec
  | none => do
      coerceOutgoing float (← readNumeric float message binding.member binding.position) spec

/-- The values of one member, each with its specification. -/
def encodeSpec (members : List MessageMember) (message : MessageInstance)
    (spec : BridgeMemberSpec) : Except StdException (List (ScalarValue × BridgeMemberSpec)) :=
  if spec.expression ≠ "" then do
    return [(← encodeExpression float eval members message spec, spec)]
  else do
    let path ← parseMemberPath spec.target
    let bindings ← collectConstLeafBindings message path members []
    bindings.mapM fun binding => do
      return (← encodeLeaf float message spec binding, spec)

/-- Extract the configured fields of a message. -/
def encodeFields (members : List MessageMember) (message : MessageInstance)
    (specs : List BridgeMemberSpec) : Except StdException Bytes := do
  let fields := (← specs.mapM (encodeSpec float eval members message)).flatten
  encodeStructPayload (fields.map Prod.fst) (fields.map Prod.snd)

/-- Pass through ROS serialization or extract configured fields. -/
def encodePayload (members : List MessageMember)
    (deserialize : Bytes → Except StdException MessageInstance) (serialized : Bytes)
    (specs : List BridgeMemberSpec) (format : PayloadFormat) : Except StdException Bytes :=
  if format = .ros2 ∨ specs = [] then .ok serialized
  else do encodeFields float eval members (← deserialize serialized) specs

/-! ## Decoding -/

/-- What the mapping makes of a payload's length: the bytes of the members of known count, and
the open-ended member with the width of its values. -/
structure Layout where
  fixedBytes : Nat := 0
  dynamicSpec : Option (Nat × Nat) := none

/-- The number of leaves of a member. -/
def bindingCount (members : List MessageMember) (spec : BridgeMemberSpec) :
    Except StdException Nat :=
  if spec.expression = "" then do
    selectionCountForPath (← parseMemberPath spec.target) members
  else .ok 1

def layoutFrom (members : List MessageMember) :
    Nat → List BridgeMemberSpec → Layout → Except StdException Layout
  | _, [], layout => .ok layout
  | index, spec :: rest, layout => do
      let count ← bindingCount members spec
      if count = kDynamicBindingCount then do
        require layout.dynamicSpec.isNone (.runtimeError
          "At most one open-ended dynamic array member may be decoded per bridge payload")
        layoutFrom members (index + 1) rest
          { layout with dynamicSpec := some (index, wireSize spec) }
      else
        layoutFrom members (index + 1) rest
          { layout with fixedBytes := (layout.fixedBytes + count * wireSize spec) % 2 ^ 64 }

/-- The number of leaves of the open-ended member, if there is one. -/
def Layout.dynamicCount (layout : Layout) (payloadSize : Nat) : Except StdException (Option Nat) :=
  match layout.dynamicSpec with
  | some (_, valueSize) => do
      require (layout.fixedBytes ≤ payloadSize)
        (.runtimeError "Payload is shorter than the fixed-width bridge mapping requires")
      let remaining := payloadSize - layout.fixedBytes
      require (valueSize ≠ 0 && remaining % valueSize = 0)
        (.runtimeError "Payload size does not align with the open-ended array bridge mapping")
      return some (remaining / valueSize)
  | none => do
      require (payloadSize = layout.fixedBytes)
        (.runtimeError "Payload size does not match the configured bridge mapping")
      return none

/-- The count that a member is collected with. -/
def Layout.countAt (layout : Layout) (dynamicCount : Option Nat) (index : Nat) : Option Nat :=
  match layout.dynamicSpec with
  | some (dynamicIndex, _) => if dynamicIndex = index then dynamicCount else none
  | none => none

/-- A wire value with the leaf that it is for; the value of an expression is for none. -/
structure WireField where
  spec : BridgeMemberSpec
  binding : Option MutableLeafBinding

/-- The wire values of one member. -/
def bindSpec (members : List MessageMember) (dynamicCount : Option Nat) (spec : BridgeMemberSpec)
    (message : MessageInstance) : Except StdException (List WireField × MessageInstance) :=
  if spec.expression ≠ "" then .ok ([⟨spec, none⟩], message)
  else do
    let path ← parseMemberPath spec.target
    let (bindings, message) ← collectMutableLeafBindings dynamicCount path members [] message
    return (bindings.map fun binding => ⟨spec, some binding⟩, message)

/-- The wire values of the members, in order; `countAt` gives the count of a member. -/
def bindSpecs (members : List MessageMember) (countAt : Nat → Option Nat) :
    Nat → List BridgeMemberSpec → MessageInstance →
      Except StdException (List WireField × MessageInstance)
  | _, [], message => .ok ([], message)
  | index, spec :: rest, message => do
      let (fields, message) ← bindSpec members (countAt index) spec message
      let (others, message) ← bindSpecs members countAt (index + 1) rest message
      return (fields ++ others, message)

/-- The value that a decoded scalar gives to a leaf. -/
def decodeLeaf (member : MessageMember) (v : ScalarValue) : Except StdException ScalarValue :=
  match coerceIncomingInteger v with
  | some n => writeInteger float member n
  | none => writeNumeric float member (coerceIncoming float v)

/-- A write through a binding, with the message at that moment. -/
structure Write where
  binding : MutableLeafBinding
  message : MessageInstance

/-- Write the decoded values in order. -/
def writeFields : List WireField → List ScalarValue → MessageInstance →
    Except StdException (List Write × MessageInstance)
  | field :: fields, v :: values, message =>
      match field.binding with
      | none => writeFields fields values message
      | some binding => do
          let stored ← decodeLeaf float binding.member v
          let (writes, result) ←
            writeFields fields values (message.write binding.pointer.path stored)
          return (⟨binding, message⟩ :: writes, result)
  | _, _, message => .ok ([], message)

/-- The decoded values by the targets of their members; the first of a target counts. -/
abbrev DecodedNames := List (String × ScalarValue)

def DecodedNames.numeric (names : DecodedNames) (name : String) : Except StdException UInt64 :=
  match names.lookup name with
  | some v => .ok (coerceIncoming float v)
  | none => .error (.runtimeError ("Unknown decoded member: " ++ name))

def DecodedNames.integer (names : DecodedNames) (name : String) :
    Except StdException (Option Int) :=
  let integers := names.filterMap fun (name, v) => (coerceIncomingInteger v).map (name, ·)
  match integers.lookup name with
  | some n => .ok (some n)
  | none => do
      require (names.lookup name).isSome (.runtimeError ("Unknown decoded member: " ++ name))
      return none

/-- One assignment, from the decoded values to a leaf. -/
def assign (members : List MessageMember) (names : DecodedNames)
    (assignment : BridgeAssignmentSpec) (message : MessageInstance) :
    Except StdException MessageInstance := do
  let exact ← eval.integer assignment.expression names.integer
  let numeric ← match exact with
    | some _ => pure 0
    | none => eval.numeric assignment.expression (names.numeric float)
  let path ← parseMemberPath assignment.target
  let (member, position, message) ← resolveLeafMemberMutable path members [] message
  let stored ← match exact with
    | some n => writeInteger float member n
    | none => writeNumeric float member numeric
  return message.write position stored

def assignAll (members : List MessageMember) (names : DecodedNames) :
    List BridgeAssignmentSpec → MessageInstance → Except StdException MessageInstance
  | [], message => .ok message
  | assignment :: rest, message => do
      assignAll members names rest (← assign float eval members names assignment message)

/-- A decoded message with the writes that went through bindings. -/
structure Decoded where
  message : SerializedMessage
  writes : List Write

/-- The mapping of a payload onto a message: the wire values and the message that they are
written to. -/
def bindPayload (members : List MessageMember) (payload : Bytes)
    (specs : List BridgeMemberSpec) : Except StdException (List WireField × MessageInstance) := do
  let layout ← layoutFrom members 0 specs {}
  let dynamicCount ← layout.dynamicCount payload.length
  bindSpecs members (layout.countAt dynamicCount) 0 specs (.initialized members)

/-- Pass through ROS serialization or write the configured fields of a new message. -/
def decodePayload (members : List MessageMember) (payload : Bytes)
    (specs : List BridgeMemberSpec) (format : PayloadFormat)
    (assignments : List BridgeAssignmentSpec) : Except StdException Decoded :=
  if format = .ros2 ∨ specs = [] then .ok ⟨.bytes payload, []⟩
  else do
    let (fields, message) ← bindPayload members payload specs
    let values ← decodeStructPayload payload (fields.map WireField.spec)
    let (writes, message) ← writeFields float fields values message
    let names := (fields.map fun field => field.spec.target).zip values
    let message ← assignAll float eval members names assignments message
    return ⟨.message message, writes⟩

end UavBluetooth.Bridge
