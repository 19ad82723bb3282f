import UavBluetooth.Config.Loader

set_option autoImplicit false

/-! # Metadata of GATT bridges

The descriptor values that `topic_bridge_service.cpp` writes beside an exported topic, and the
inspector of `remote_gatt_inspector.cpp` that guesses from the syntax of each value what it is.
The YAML emitter and reader are parameters.

The inspector tries `std::stod` before it looks for a member layout, and `std::stod` throws on
a text that begins with a bracket: no exported bridge is recognised
(`metadata_recognition`).
-/

namespace UavBluetooth.Gatt

open Config Fallible Util Yaml

/-! ## The exporter -/

def toBytes (value : String) : Bytes := value.toList.map fun c => UInt8.ofNat c.toNat

/-- One member as a mapping; the expression only if there is one. -/
def memberNode (spec : BridgeMemberSpec) : Node :=
  .map ([(.scalar "target", .scalar spec.target), (.scalar "type", .scalar spec.valueType)] ++
    if spec.expression = "" then [] else [(.scalar "expression", .scalar spec.expression)])

/-- The ordered members in the emitter's flow style. -/
def serializeMemberSpecs (emit : Node → String) (specs : List BridgeMemberSpec) : Bytes :=
  toBytes (emit (.sequence (specs.map memberNode)))

/-- The nearest integer, the even one of two. -/
def roundHalfEven (value : ℚ) : Int :=
  let below := value.floor
  let rest := value - below
  if rest < 1 / 2 then below
  else if 1 / 2 < rest then below + 1
  else if below % 2 = 0 then below else below + 1

/-- Six decimals. -/
def formatRateHz (rateHz : ℚ) : String :=
  let scaled := roundHalfEven (rateHz * 1000000)
  let digits := toString (scaled.natAbs % 1000000)
  (if scaled < 0 then "-" else "") ++ toString (scaled.natAbs / 1000000) ++ "." ++
    String.ofList (List.replicate (6 - digits.length) '0') ++ digits

/-- A descriptor or characteristic as a remote peer sees it. -/
structure Attribute where
  flags : List String
  value : Bytes

/-- The static descriptors of an exported topic: type, format, members and rate. -/
def descriptors (emit : Node → String) (topic : SharedTopicConfig) : List Attribute :=
  [toBytes topic.messageType, toBytes topic.payloadFormat.name,
    serializeMemberSpecs emit topic.memberSpecs, toBytes (formatRateHz topic.rateHz)].map
      fun value => ⟨["read"], value⟩

/-- The flags of the value characteristic. -/
def characteristicFlags : List String := ["read", "notify"]

/-! ## The inspector -/

/-- The characters of a value without its zero bytes; `none` for a byte that does not print. -/
def printable (value : Bytes) : Option (List Char) :=
  let bytes := value.filter (· ≠ 0)
  if bytes.all fun byte => 32 ≤ byte && byte ≤ 126 then
    some (bytes.map fun byte => Char.ofNat byte.toNat)
  else none

/-- Descriptor bytes as trimmed printable text. -/
def bytesToAscii (value : Bytes) : String :=
  match printable value with
  | none => ""
  | some text => trimAsciiCopy (String.ofList text)

/-- The three-part syntax of a ROS message name. The pieces between the separators are a
package, a namespace that may be empty, and a name. -/
def looksLikeMessageType (value : String) : Bool :=
  match value.toList.splitOnP (· == '/') with
  | [package, _, name] =>
      !package.isEmpty && !name.isEmpty &&
        value.toList.all fun c => c.isAlphanum || c == '_' || c == '/'
  | _ => false

def looksLikePayloadFormat (value : String) : Bool := value == "struct" || value == "ros2"

def isFinite : Double → Bool
  | .finite _ => true
  | _ => false

/-- A finite nonnegative rate and nothing behind it; `std::stod` throws otherwise. -/
def looksLikeRateHz (value : String) : Except String Bool := do
  if value = "" then return false
  let (rate, rest) ← stod value.toList
  return rest.isEmpty && isFinite rate && 0 ≤ finiteValue rate

def looksLikeMemberType (value : String) : Bool := (structFormatSizes.lookup value).isSome

/-- One entry of a member layout. -/
def looksLikeMember (entry : Node) : Bool :=
  entry.isMap && (entry.get "type").isSome && asStringOr "" (entry.get "target") != "" &&
    looksLikeMemberType (asStringOr "" (entry.get "type"))

/-- A nonempty YAML list of members; `load` gives `none` where the reader throws. -/
def looksLikeMemberLayout (load : String → Option Node) (value : String) : Bool :=
  if value = "" then false
  else
    match load value with
    | some (.sequence items) => !items.isEmpty && items.all looksLikeMember
    | _ => false

inductive DescriptorKind where
  | unknown
  | messageType
  | payloadFormat
  | members
  | rateHz
  deriving DecidableEq, Repr

/-- The tests after the one for a rate, which cannot throw. -/
def classifyText (load : String → Option Node) (text : String) (rate : Bool) : DescriptorKind :=
  if rate then .rateHz
  else if looksLikeMemberLayout load text then .members
  else if looksLikeMessageType text then .messageType
  else .unknown

def classifyDescriptorPayload (load : String → Option Node) (payload : Bytes) :
    Except String DescriptorKind :=
  let text := bytesToAscii payload
  if text = "" then .ok .unknown
  else if looksLikePayloadFormat text then .ok .payloadFormat
  else do return classifyText load text (← looksLikeRateHz text)

/-- The loop over the descriptors, refusing unknown and repeated kinds. -/
def inspectDescriptors (load : String → Option Node) :
    List DescriptorKind → List Attribute → Except String Bool
  | found, [] =>
      .ok ([DescriptorKind.messageType, .payloadFormat, .members, .rateHz].all found.contains)
  | found, descriptor :: rest =>
      if !descriptor.flags.contains "read" then .ok false
      else do
        let kind ← classifyDescriptorPayload load descriptor.value
        if kind = .unknown ∨ kind ∈ found then return false
        else inspectDescriptors load (kind :: found) rest

def characteristicLooksLikeExportBridge (load : String → Option Node) (flags : List String)
    (descriptors : List Attribute) : Except String Bool :=
  if !flags.contains "read" || !flags.contains "notify" then .ok false
  else if flags.contains "write" || flags.contains "write-without-response" then .ok false
  else if descriptors.length ≠ 4 then .ok false
  else inspectDescriptors load [] descriptors

/-! ## Which values are classified -/

section

variable {load : String → Option Node} {payload : Bytes}

/-- A value is classified without a throw if it does not reach `std::stod` or begins with a
number. -/
def Classifiable (payload : Bytes) : Prop :=
  bytesToAscii payload = "" ∨ looksLikePayloadFormat (bytesToAscii payload) = true ∨
    ∃ number, stod (bytesToAscii payload).toList = .ok number

theorem looksLikeRateHz_eq_ok {value : String} (hvalue : value ≠ "") :
    (∃ b, looksLikeRateHz value = .ok b) ↔ ∃ number, stod value.toList = .ok number := by
  unfold looksLikeRateHz
  rw [if_neg hvalue]
  cases hnumber : stod value.toList with
  | error e =>
      constructor
      · rintro ⟨b, hb⟩
        cases hb
      · rintro ⟨number, hnumber⟩
        cases hnumber
  | ok number => exact ⟨fun _ => ⟨number, rfl⟩, fun _ => ⟨_, rfl⟩⟩

/-- **Which byte strings are classified** without a throw. -/
theorem classify_iff :
    (∃ kind, classifyDescriptorPayload load payload = .ok kind) ↔ Classifiable payload := by
  unfold Classifiable classifyDescriptorPayload
  simp only
  by_cases htext : bytesToAscii payload = ""
  · rw [if_pos htext]
    exact iff_of_true ⟨_, rfl⟩ (Or.inl htext)
  · rw [if_neg htext]
    cases hformat : looksLikePayloadFormat (bytesToAscii payload) with
    | true => exact iff_of_true ⟨_, rfl⟩ (Or.inr (Or.inl rfl))
    | false =>
        have hrate := looksLikeRateHz_eq_ok htext
        simp only [Bool.false_eq_true, if_false, bind_eq_ok, pure_eq_ok, htext, false_or]
        rw [← hrate]
        constructor
        · rintro ⟨_, b, hb, _⟩
          exact ⟨b, hb⟩
        · rintro ⟨b, hb⟩
          exact ⟨_, b, hb, rfl⟩

end

/-- **The format descriptor is recognised unless it says raw**, which the inspector does not
know. -/
theorem classify_payloadFormat (load : String → Option Node) (format : PayloadFormat) :
    classifyDescriptorPayload load (toBytes format.name) = .ok .payloadFormat ↔
      format ≠ .raw := by
  have htext : bytesToAscii (toBytes format.name) = format.name := by
    cases format <;> decide +kernel
  have hne : format.name ≠ "" := by cases format <;> decide
  unfold classifyDescriptorPayload
  simp only [htext, hne, if_false]
  cases format with
  | struct => exact iff_of_true rfl (by decide)
  | raw =>
      refine iff_of_false (fun h => ?_) (by decide)
      have hthrow : looksLikeRateHz "raw" = .error "stod" := rfl
      simp only [PayloadFormat.name, hthrow] at h
      cases h
  | ros2 => exact iff_of_true rfl (by decide)

/-! ## The members are never recognised -/

/-- The emitter writes a flow sequence between brackets. -/
def FlowStyle (emit : Node → String) : Prop :=
  ∀ items, ∃ rest, (emit (.sequence items)).toList = '[' :: rest

/-- No number begins with a bracket. -/
theorem stod_bracket (text : List Char) : stod ('[' :: text) = .error "stod" := rfl

/-- A value that begins with a bracket is a text that does so, unless it does not print. -/
theorem bytesToAscii_bracket (rest : Bytes) :
    bytesToAscii (0x5b :: rest) = "" ∨
      ∃ text, (bytesToAscii (0x5b :: rest)).toList = '[' :: text := by
  have hfilter : (0x5b :: rest : Bytes).filter (fun byte => decide (byte ≠ 0)) =
      0x5b :: rest.filter fun byte => decide (byte ≠ 0) := List.filter_cons_of_pos rfl
  unfold bytesToAscii printable
  simp only
  rw [hfilter]
  split
  · exact Or.inl rfl
  · rename_i text htext
    split at htext
    · obtain ⟨later, rfl⟩ : ∃ later, text = '[' :: later := by
        cases htext
        exact ⟨_, rfl⟩
      refine Or.inr ⟨later.rdropWhile isSpace, ?_⟩
      unfold trimAsciiCopy
      rw [String.toList_ofList, String.toList_ofList, Strip.strip_cons (by decide)]
    · cases htext

section

variable {emit : Node → String} {load : String → Option Node} {topic : SharedTopicConfig}

/-- **The members are taken for a rate**, on which `std::stod` throws, or do not print. -/
theorem classify_members (hemit : FlowStyle emit) (specs : List BridgeMemberSpec) :
    classifyDescriptorPayload load (serializeMemberSpecs emit specs) = .error "stod" ∨
      classifyDescriptorPayload load (serializeMemberSpecs emit specs) = .ok .unknown := by
  obtain ⟨rest, hrest⟩ := hemit (specs.map memberNode)
  have hbytes : serializeMemberSpecs emit specs =
      0x5b :: rest.map fun c => UInt8.ofNat c.toNat := by
    unfold serializeMemberSpecs toBytes
    rw [hrest]
    rfl
  rw [hbytes]
  unfold classifyDescriptorPayload
  simp only
  rcases bytesToAscii_bracket (rest.map fun c => UInt8.ofNat c.toNat) with hempty | ⟨text, htext⟩
  · rw [if_pos hempty]
    exact Or.inr rfl
  · have hne : ∀ value : String, value.toList.head? ≠ some '[' →
        bytesToAscii (0x5b :: rest.map fun c => UInt8.ofNat c.toNat) ≠ value := by
      rintro value hvalue rfl
      rw [htext] at hvalue
      exact hvalue rfl
    have hformat : looksLikePayloadFormat
        (bytesToAscii (0x5b :: rest.map fun c => UInt8.ofNat c.toNat)) = false := by
      simp [looksLikePayloadFormat, hne "struct" (by decide), hne "ros2" (by decide)]
    rw [if_neg (hne "" (by decide)), hformat, if_neg Bool.false_ne_true, looksLikeRateHz,
      if_neg (hne "" (by decide)), htext, stod_bracket]
    exact Or.inl rfl

/-- A repeated or unknown kind, or a throw, ends the inspection. -/
theorem inspectDescriptors_cons {found : List DescriptorKind} {descriptor : Attribute}
    {rest : List Attribute}
    (h : inspectDescriptors load found (descriptor :: rest) = .ok true) :
    ∃ kind, classifyDescriptorPayload load descriptor.value = .ok kind ∧ kind ≠ .unknown ∧
      inspectDescriptors load (kind :: found) rest = .ok true := by
  unfold inspectDescriptors at h
  split at h
  · cases h
  · obtain ⟨kind, hkind, hrest⟩ := bind_eq_ok.mp h
    split at hrest
    · cases hrest
    · rename_i hnew
      exact ⟨kind, hkind, fun hunknown => hnew (Or.inl hunknown), hrest⟩

theorem not_exportBridge (hemit : FlowStyle emit) :
    characteristicLooksLikeExportBridge load characteristicFlags (descriptors emit topic) ≠
      .ok true := by
  intro h
  have hinspect : inspectDescriptors load [] (descriptors emit topic) = .ok true := h
  obtain ⟨_, _, _, h⟩ := inspectDescriptors_cons hinspect
  obtain ⟨_, _, _, h⟩ := inspectDescriptors_cons h
  obtain ⟨kind, hkind, hunknown, _⟩ := inspectDescriptors_cons h
  rcases classify_members hemit topic.memberSpecs with hthrow | hnone
  · rw [hthrow] at hkind
    cases hkind
  · rw [hnone] at hkind
    cases hkind
    exact hunknown rfl

end

/-! ## The law and what holds of it -/

/-- What is promised of an exported bridge: each descriptor is classified as what it is, and
the characteristic counts as an exported bridge. -/
structure Recognized (emit : Node → String) (load : String → Option Node)
    (topic : SharedTopicConfig) : Prop where
  messageType : classifyDescriptorPayload load (toBytes topic.messageType) = .ok .messageType
  payloadFormat :
    classifyDescriptorPayload load (toBytes topic.payloadFormat.name) = .ok .payloadFormat
  members :
    classifyDescriptorPayload load (serializeMemberSpecs emit topic.memberSpecs) = .ok .members
  rateHz : classifyDescriptorPayload load (toBytes (formatRateHz topic.rateHz)) = .ok .rateHz
  exportBridge : characteristicLooksLikeExportBridge load characteristicFlags
    (descriptors emit topic) = .ok true

/-- **No exported bridge is recognised**: its members never are, nor is the characteristic. And
a byte string is classified without a throw exactly if it is blank or unprintable, names a
payload format or begins with a number. -/
theorem metadata_recognition (emit : Node → String) (load : String → Option Node)
    (hemit : FlowStyle emit) :
    (∀ topic : SharedTopicConfig,
      classifyDescriptorPayload load (serializeMemberSpecs emit topic.memberSpecs) ≠
          .ok .members ∧
        characteristicLooksLikeExportBridge load characteristicFlags (descriptors emit topic) ≠
          .ok true ∧ ¬ Recognized emit load topic) ∧
      ∀ payload : Bytes, (∃ kind, classifyDescriptorPayload load payload = .ok kind) ↔
        Classifiable payload := by
  refine ⟨fun topic => ?_, fun payload => classify_iff⟩
  have hmembers : classifyDescriptorPayload load (serializeMemberSpecs emit topic.memberSpecs) ≠
      .ok .members := by
    intro h
    rcases classify_members hemit topic.memberSpecs with hthrow | hnone
    · rw [hthrow] at h
      cases h
    · rw [hnone] at h
      cases h
  exact ⟨hmembers, not_exportBridge hemit, fun h => hmembers h.members⟩

/-- The emitter on scalars that need no quotes. -/
def emitPlain : Node → String
  | .sequence [.map [(.scalar target, .scalar name), (.scalar key, .scalar value)]] =>
      "[\x7b" ++ target ++ ": " ++ name ++ ", " ++ key ++ ": " ++ value ++ "\x7d]"
  | .sequence _ => "[]"
  | _ => "~"

theorem flowStyle_emitPlain : FlowStyle emitPlain := by
  intro items
  unfold emitPlain
  split
  · exact ⟨_, by simp only [String.toList_append]; rfl⟩
  · exact ⟨[']'], by decide⟩
  · rename_i hother
    exact absurd rfl (hother items)

/-- A bridge with one byte of payload. -/
def byteBridge : SharedTopicConfig :=
  { messageType := "std_msgs/msg/UInt8", memberSpecs := [⟨"data", "uint8", ""⟩] }

theorem metadata_recognition_byteBridge :
    classifyDescriptorPayload (fun _ => some (.sequence (byteBridge.memberSpecs.map memberNode)))
        (serializeMemberSpecs emitPlain byteBridge.memberSpecs) ≠ .ok .members :=
  ((metadata_recognition emitPlain _ flowStyle_emitPlain).1 byteBridge).1

/-- A GATT bridge that the loader accepts. -/
def byteDocument : Node :=
  topicsDocument [.map [(.scalar "export_topic", .scalar "/a"),
    (.scalar "message_type", .scalar "std_msgs/msg/UInt8"),
    (.scalar "members_encode", .sequence [.map [(.scalar "target", .scalar "data"),
      (.scalar "type", .scalar "uint8")]])]]

/-- The bridge of `byteDocument` is accepted and not recognised, and a peer's plain word makes
the inspector throw. -/
theorem metadata_unrecognized :
    (∃ cfg topic, parseNodeConfig (fun _ _ => false) byteDocument "uav1" "" = .ok cfg ∧
      topic ∈ cfg.sharedTopics ∧ topic.transport = .gatt ∧
      ∀ emit load, FlowStyle emit → ¬ Recognized emit load topic) ∧
    ∀ load, classifyDescriptorPayload load (toBytes "hello") = .error "stod" := by
  refine ⟨?_, fun load => ?_⟩
  · have haccepted : (parseNodeConfig (fun _ _ => false) byteDocument "uav1" "").toOption.any
        (fun cfg => cfg.sharedTopics.any (·.transport == .gatt)) = true := by decide +kernel
    obtain ⟨cfg, hcfg, hany⟩ := exists_ok_of_any haccepted
    obtain ⟨topic, htopic, htransport⟩ := List.any_eq_true.mp hany
    refine ⟨cfg, topic, hcfg, htopic, beq_iff_eq.mp htransport, fun emit load hemit h => ?_⟩
    rcases classify_members hemit topic.memberSpecs with hthrow | hnone
    · have hmembers := hthrow.symm.trans h.members
      cases hmembers
    · have hmembers := hnone.symm.trans h.members
      cases hmembers
  · have htext : bytesToAscii (toBytes "hello") = "hello" := by decide +kernel
    unfold classifyDescriptorPayload
    simp only [htext]
    rfl

end UavBluetooth.Gatt
