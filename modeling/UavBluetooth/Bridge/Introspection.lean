import UavBluetooth.Bridge.PayloadCodec
import UavBluetooth.Lib.Relocation

set_option autoImplicit false

/-! # Fields of a message by path

The first half of `generic_message_bridge.cpp`: how a member path is followed through the
introspection schema of a ROS message, to count what it selects and to collect the leaves.

A message is addressed symbolically: a position stands for the address of a field or an element,
and the store of arrays says how long the array at a position is and when it last moved.
-/

namespace UavBluetooth.Bridge

open Fallible

/-! ## Schemas -/

/-- The type of a field. Strings and wide characters have no wire type. -/
inductive RosType where
  | scalar (type : ScalarType)
  | text
  | message
  deriving DecidableEq

/-- The arrays of a field: none, an `std::array`, or a vector with its length after the
initialisation of the message and its bound if there is one. -/
inductive Shape where
  | single
  | fixed (size : Nat)
  | sequence (initial : Nat) (bound : Option Nat)
  deriving DecidableEq

/-- `MessageMember`: the name and the type of a field, its array, whether the array has element
accessors, and the fields of a nested message if they are known. -/
inductive MessageMember where
  | mk (name : String) (type : RosType) (shape : Shape) (accessor : Bool)
      (nested : Option (List MessageMember))

namespace MessageMember

def name : MessageMember → String
  | mk name _ _ _ _ => name

def type : MessageMember → RosType
  | mk _ type _ _ _ => type

def shape : MessageMember → Shape
  | mk _ _ shape _ _ => shape

def accessor : MessageMember → Bool
  | mk _ _ _ accessor _ => accessor

def nested : MessageMember → Option (List MessageMember)
  | mk _ _ _ _ nested => nested

end MessageMember

def findMember (members : List MessageMember) (name : String) : Except StdException MessageMember :=
  match members.find? (·.name = name) with
  | some member => .ok member
  | none => .error (.runtimeError ("Unknown member path segment: " ++ name))

/-- The fields that a path may go on with below a member. -/
def getNestedMembers (member : MessageMember) : Except StdException (List MessageMember) := do
  require (member.type = .message)
    (.runtimeError ("Non-message member in the middle of path: " ++ member.name))
  match member.nested with
  | some members => .ok members
  | none =>
      .error (.runtimeError ("Missing nested message type support for member: " ++ member.name))

/-! ## Messages -/

/-- A step into a message: to a field, or to an element of an array. -/
inductive Step where
  | field (name : String)
  | item (index : Nat)
  deriving DecidableEq, Repr

abbrev Position := List Step

/-- The length of a vector after the initialisation of the message. -/
def Shape.initialLength : Shape → Nat
  | .sequence initial _ => initial
  | _ => 0

/-- The length of the vector at a position of an initialised message. -/
def initialLength : Position → List MessageMember → Nat
  | [], _ => 0
  | .item _ :: rest, members => initialLength rest members
  | .field name :: rest, members =>
      match members.find? (·.name = name) with
      | none => 0
      | some member =>
          if rest = [] then member.shape.initialLength
          else initialLength rest (member.nested.getD [])

/-- The vectors of a message and the leaves that were written; the others have the values of the
initialisation. -/
structure MessageInstance where
  arrays : Relocation.Store Step
  leaves : Position → Option ScalarValue

/-- A message after its initialisation. -/
def MessageInstance.initialized (members : List MessageMember) : MessageInstance :=
  ⟨.initial fun position => initialLength position members, fun _ => none⟩

def MessageInstance.write (message : MessageInstance) (position : Position) (v : ScalarValue) :
    MessageInstance :=
  { message with leaves := Function.update message.leaves position (some v) }

/-- The number of elements of an array. -/
def arraySize (member : MessageMember) (message : MessageInstance) (field : Position) : Nat :=
  match member.shape with
  | .single => 0
  | .fixed size => size
  | .sequence _ _ => message.arrays.length field

/-! ## Counting a selection -/

/-- Stands for an open-ended selection of a vector. -/
def kDynamicBindingCount : Nat := 2 ^ 64 - 1

/-- The number of indices from `start` in steps before `stop`. -/
def countRange (start stop : Nat) (step : ℕ+) : Nat :=
  if stop ≤ start then 0 else 1 + (stop - start - 1) / step

/-- The number of elements that a selector picks, or none if the payload decides. -/
def selectedCount (member : MessageMember) (segment : PathSegment) (isLast : Bool) :
    Except StdException (Option Nat) :=
  match segment.selector, member.shape with
  | .index _, _ => .ok (some 1)
  | .slice start (some stop) step, .fixed size => do
      require (stop ≤ size) (.runtimeError
        ("Slice stop is out of range for fixed-size array member: " ++ segment.name))
      return some (countRange (start.getD 0) stop step)
  | .slice start (some stop) step, _ => .ok (some (countRange (start.getD 0) stop step))
  | .slice start none step, shape => do
      require isLast
        (.runtimeError "Open-ended slices are only supported on the final array path segment")
      match shape with
      | .fixed size => do
          require (start.getD 0 ≤ size) (.runtimeError
            ("Slice start is out of range for fixed-size array member: " ++ segment.name))
          return some (countRange (start.getD 0) size step)
      | _ => return none
  | .absent, .fixed size => .ok (some size)
  | .absent, _ => .ok none

/-- Count how many leaves a member path selects, in the unsigned arithmetic of 64 bits. -/
def selectionCountForPath : List PathSegment → List MessageMember → Except StdException Nat
  -- A parsed path has a segment.
  | [], _ => .error (.outOfRange "path")
  | segment :: rest, members => do
      let member ← findMember members segment.name
      let isLast := rest.isEmpty
      if member.shape = .single then do
        require (segment.selector = .absent)
          (.runtimeError ("Array selector applied to non-array member: " ++ segment.name))
        if isLast then return 1
        else selectionCountForPath rest (← getNestedMembers member)
      else do
        require (isLast || segment.selector ≠ .absent) (.runtimeError
          ("Non-leaf array member requires an explicit index or slice: " ++ segment.name))
        match ← selectedCount member segment isLast with
        | none => return kDynamicBindingCount
        | some selected =>
            if isLast then return selected
            else do
              let nested ← selectionCountForPath rest (← getNestedMembers member)
              require (nested ≠ kDynamicBindingCount) (.runtimeError
                "Open-ended dynamic arrays are only supported on the final path segment")
              return selected * nested % 2 ^ 64

/-! ## Indices -/

/-- `count` indices from `start` on. -/
def indicesFrom (start count : Nat) (step : ℕ+) : List Nat :=
  (List.range count).map fun item => start + item * step

/-- Validate a selector against a source array. -/
def selectIndicesConst (member : MessageMember) (segment : PathSegment) (isLast : Bool)
    (message : MessageInstance) (field : Position) : Except StdException (List Nat) :=
  let size := arraySize member message field
  match segment.selector with
  | .index n => do
      require (n < size)
        (.runtimeError ("Array index out of range for member: " ++ segment.name))
      return [n]
  | .slice start stop step => do
      let start := start.getD 0
      let stop := stop.getD size
      require (start ≤ size && stop ≤ size)
        (.runtimeError ("Slice is out of range for member: " ++ segment.name))
      return indicesFrom start (countRange start stop step) step
  | .absent => do
      require isLast (.runtimeError
        ("Non-leaf array member requires an explicit index or slice: " ++ segment.name))
      return List.range size

/-- Grow an array to a required size. -/
def ensureSize (member : MessageMember) (segment : PathSegment) (field : Position)
    (required : Nat) (message : MessageInstance) : Except StdException MessageInstance :=
  if required ≤ arraySize member message field then .ok message
  else
    match member.shape with
    | .sequence _ bound =>
        if bound.all (required ≤ ·) then
          .ok { message with arrays := message.arrays.resize field required }
        else .error (.lengthError "Exceeded upper bound")
    | _ =>
        .error (.runtimeError ("Array selection exceeds fixed-size member: " ++ segment.name))

/-- The size that an open-ended selection of `count` elements needs. -/
def requiredSize (start count : Nat) (step : ℕ+) : Nat :=
  if count = 0 then start else start + (count - 1) * step + 1

/-- Grow a destination only as far as the selector requires. -/
def selectIndicesMutable (member : MessageMember) (segment : PathSegment) (isLast : Bool)
    (field : Position) (dynamicCount : Option Nat) (message : MessageInstance) :
    Except StdException (List Nat × MessageInstance) :=
  match segment.selector, dynamicCount with
  | .index n, _ => do
      let message ← ensureSize member segment field (n + 1) message
      return ([n], message)
  | .slice start (some stop) step, _ => do
      let message ← ensureSize member segment field stop message
      return (indicesFrom (start.getD 0) (countRange (start.getD 0) stop step) step, message)
  | .slice start none step, some count => do
      let required := requiredSize (start.getD 0) count step
      let message ← ensureSize member segment field required message
      return (indicesFrom (start.getD 0) count step, message)
  | .slice start none step, none => do
      require isLast
        (.runtimeError "Open-ended slices are only supported on the final array path segment")
      let size := arraySize member message field
      return (indicesFrom (start.getD 0) (countRange (start.getD 0) size step) step, message)
  | .absent, dynamicCount => do
      require isLast (.runtimeError
        ("Non-leaf array member requires an explicit index or slice: " ++ segment.name))
      match dynamicCount with
      | some count => do
          let message ← ensureSize member segment field count message
          return (List.range count, message)
      | none => return (List.range (arraySize member message field), message)

/-! ## Leaves -/

structure ConstLeafBinding where
  member : MessageMember
  position : Position

structure MutableLeafBinding where
  member : MessageMember
  pointer : Relocation.Pointer Step

/-- Collect from each selected element. -/
def forItems {σ β : Type} (body : Position → σ → Except StdException (List β × σ))
    (field : Position) : List Nat → σ → Except StdException (List β × σ)
  | [], s => .ok ([], s)
  | index :: rest, s => do
      let (first, s) ← body (field ++ [.item index]) s
      let (others, s) ← forItems body field rest s
      return (first ++ others, s)

/-- Traverse a source message path and collect every selected leaf. -/
def collectConstLeafBindings (message : MessageInstance) :
    List PathSegment → List MessageMember → Position →
      Except StdException (List ConstLeafBinding)
  | [], _, _ => .error (.outOfRange "path")
  | segment :: rest, members, position => do
      let member ← findMember members segment.name
      let isLast := rest.isEmpty
      let field := position ++ [.field segment.name]
      let below := fun (element : Position) =>
        if isLast then .ok [⟨member, element⟩]
        else do
          collectConstLeafBindings message rest (← getNestedMembers member) element
      if member.shape = .single then do
        require (segment.selector = .absent)
          (.runtimeError ("Array selector applied to non-array member: " ++ segment.name))
        below field
      else do
        let indices ← selectIndicesConst member segment isLast message field
        let (bindings, _) ← forItems (fun element (_ : Unit) => do
          require member.accessor
            (.runtimeError ("Array member lacks const accessor: " ++ segment.name))
          return (← below element, ())) field indices ()
        return bindings

/-- Traverse a destination path, growing vectors, and collect every selected leaf. -/
def collectMutableLeafBindings (dynamicCount : Option Nat) :
    List PathSegment → List MessageMember → Position → MessageInstance →
      Except StdException (List MutableLeafBinding × MessageInstance)
  | [], _, _, _ => .error (.outOfRange "path")
  | segment :: rest, members, position, message => do
      let member ← findMember members segment.name
      let isLast := rest.isEmpty
      let field := position ++ [.field segment.name]
      let below := fun (element : Position) (message : MessageInstance) =>
        if isLast then .ok ([⟨member, message.arrays.take element⟩], message)
        else do
          collectMutableLeafBindings dynamicCount rest (← getNestedMembers member) element
            message
      if member.shape = .single then do
        require (segment.selector = .absent)
          (.runtimeError ("Array selector applied to non-array member: " ++ segment.name))
        below field message
      else do
        let (indices, message) ←
          selectIndicesMutable member segment isLast field dynamicCount message
        forItems (fun element message => do
          require member.accessor
            (.runtimeError ("Array member lacks mutable accessor: " ++ segment.name))
          below element message) field indices message

end UavBluetooth.Bridge
