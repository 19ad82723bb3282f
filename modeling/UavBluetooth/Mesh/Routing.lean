import UavBluetooth.Bridge.TransportBridgeManager
import UavBluetooth.Mesh.Station
import UavBluetooth.Mesh.SwarmCoordinator

set_option autoImplicit false

/-! # Routing of received access payloads

Heartbeats, reliable frames and plain bridge frames share one access channel. The message
callback offers a payload to `MeshSwarmCoordinator::handle_message`; what that does not consume
goes to `publish_mesh_message`, which tells reliable frames from the rest by the byte at offset 3.

BlueZ hands over some payloads without their three-byte vendor opcode. Offset 3 of a bridge
frame is then the low byte of its channel, and `mesh_routing_iff` says which channels that
byte sends astray. Reliable frames, as this package builds them, always take the right way.
-/

namespace UavBluetooth.Mesh

open Config

/-- A payload as the callback gets it: complete, or without the vendor opcode. -/
def receivedForm (stripped : Bool) (payload : Bytes) : Bytes :=
  if stripped then payload.drop meshVendorPrefixBytes else payload

/-- The payload goes to the bridges: no heartbeat, no reliable frame, and passed on. -/
structure RoutedToBridges (data : Bytes) : Prop where
  unconsumed : ∀ (c : MeshSwarmCoordinator) (now : Time) (deviceKey : Bool) (m : ReceivedMessage),
    m.data = data → (c.handleMessage now deviceKey m).2 = false
  unreliable : isMeshReliableFrame data = false
  passed : ∀ (s : Station) (now : Time) (policy : Admittance) (m : ReceivedMessage),
    m.data = data → policy.localSource = false → policy.swarmAllowed = true →
      s.receive now policy m = (s, [.passed m])

/-- The payload goes to the reliability layer, and never past it to the bridges. -/
structure RoutedToReliability (data : Bytes) : Prop where
  unconsumed : ∀ (c : MeshSwarmCoordinator) (now : Time) (deviceKey : Bool) (m : ReceivedMessage),
    m.data = data → (c.handleMessage now deviceKey m).2 = false
  reliable : isMeshReliableFrame data = true
  withheld : ∀ (s : Station) (now : Time) (policy : Admittance) (m : ReceivedMessage),
    m.data = data → .passed m ∉ (s.receive now policy m).2

/-- The reliable frames this package builds: data frames of either kind, and the
acknowledgements and receipt queries that answer and follow them. -/
inductive ReliableFrame : Bytes → Prop where
  | data (bridge : SharedTopicConfig) (body : Bytes) (sequence swarmId : UInt16) (handOff : Bool) :
      0xc0 ≤ bridge.meshVendorOpcode →
        ReliableFrame (withKind (if handOff then reliableData else reliableDataNoTurn)
          (makeMeshReliableData (bridgePayload bridge body) sequence swarmId))
  | acknowledgement {frame : Bytes} : ReliableFrame frame → ReliableFrame (acknowledgementOf frame)
  | query {frame : Bytes} : ReliableFrame frame → ReliableFrame (receiptQueryOf frame)

/-! ## What the coordinator consumes -/

theorem byteAt_drop (data : Bytes) (n i : Nat) : byteAt (data.drop n) i = byteAt data (n + i) := by
  simp [byteAt, List.getD_eq_getElem?_getD]

/-- The coordinator leaves a payload alone that has the heartbeat's marks neither at its
beginning nor behind the control opcode. -/
theorem unconsumed_of_marks {data : Bytes} (hbegin : byteAt data 0 = 0x4d → byteAt data 1 ≠ 0x53)
    (hopcode : byteAt data 0 = controlOpcode → byteAt data 3 = 0x4d → byteAt data 4 ≠ 0x53)
    (c : MeshSwarmCoordinator) (now : Time) (deviceKey : Bool) (m : ReceivedMessage)
    (hm : m.data = data) : (c.handleMessage now deviceKey m).2 = false := by
  have hframe : c.coordinationFrame deviceKey m = none := by
    unfold MeshSwarmCoordinator.coordinationFrame
    rw [hm]
    split
    · rfl
    · split
      · -- the opcode was retained, so the marks would stand behind it
        rename_i hretained
        have hfirst : byteAt data 0 = controlOpcode := by
          have htake := congrArg (fun l => byteAt l 0) hretained.2
          have hzero : byteAt (data.take 3) 0 = byteAt data 0 := by
            cases data <;> rfl
          rw [← hzero]
          exact htake
        have hmarks := hopcode hfirst
        simp only [Option.filter_some, byteAt_drop]
        rw [if_neg]
        simp only [Bool.and_eq_true, beq_iff_eq, not_and]
        exact fun h => hmarks h.2
      · split
        · rfl
        · simp only [Option.filter_some]
          rw [if_neg]
          simp only [Bool.and_eq_true, beq_iff_eq, not_and]
          exact fun h => hbegin h.2
  unfold MeshSwarmCoordinator.handleMessage
  rw [hframe]

/-! ## Bridge frames -/

/-- What `TransportBridgeManager` hands to the Mesh sender. -/
theorem transportFrame_mesh {bridge : SharedTopicConfig} (h : bridge.transport = .mesh)
    (body : Bytes) : Bridge.transportFrame bridge body = bridgePayload bridge body := by
  unfold Bridge.transportFrame
  rw [h]
  rfl

/-- The kinds of reliable frames. -/
def reliableKinds : List UInt8 :=
  [reliableData, reliableDataNoTurn, reliableAck, reliableReceiptQuery]

theorem isMeshReliableFrame_iff {data : Bytes} :
    isMeshReliableFrame data = true ↔
      reliableAckHeaderBytes ≤ data.length ∧ frameKind data ∈ reliableKinds := by
  simp [isMeshReliableFrame, reliableKinds, or_assoc]

theorem passed_of_unreliable {data : Bytes} (h : isMeshReliableFrame data = false) (s : Station)
    (now : Time) (policy : Admittance) (m : ReceivedMessage) (hm : m.data = data)
    (hlocal : policy.localSource = false) (hswarm : policy.swarmAllowed = true) :
    s.receive now policy m = (s, [.passed m]) := by
  unfold Station.receive
  rw [hm, h, hlocal, hswarm]
  rfl

theorem withheld_of_reliable {data : Bytes} (h : isMeshReliableFrame data = true) (s : Station)
    (now : Time) (policy : Admittance) (m : ReceivedMessage) (hm : m.data = data) :
    .passed m ∉ (s.receive now policy m).2 := by
  unfold Station.receive
  rw [hm, h, if_pos rfl]
  split
  · exact List.not_mem_nil
  · split
    · split <;> simp
    · split
      · exact List.not_mem_nil
      · split
        · cases hdata : (receiveData now m s.reliable).2 <;> simp [hdata]
        · exact List.not_mem_nil

/-- A bridge frame is a reliable frame to the receiver iff its opcode is gone and the low byte of
its channel is a reliable kind, with a payload of three bytes at least. -/
theorem reliable_receivedForm_iff (bridge : SharedTopicConfig) (body : Bytes) (stripped : Bool) :
    isMeshReliableFrame (receivedForm stripped (bridgePayload bridge body)) = true ↔
      stripped = true ∧ 3 ≤ body.length ∧ bridge.channelId.toUInt8 ∈ reliableKinds := by
  rw [isMeshReliableFrame_iff]
  cases stripped with
  | false =>
      have hkind : frameKind (receivedForm false (bridgePayload bridge body)) = 0x4d := rfl
      rw [hkind]
      simp [reliableKinds, reliableData, reliableDataNoTurn, reliableAck, reliableReceiptQuery]
  | true =>
      have hkind : frameKind (receivedForm true (bridgePayload bridge body)) =
          bridge.channelId.toUInt8 := rfl
      have hlength : (receivedForm true (bridgePayload bridge body)).length = 5 + body.length := by
        simp [receivedForm, bridgePayload, u16Bytes, meshVendorPrefixBytes]
        omega
      rw [hkind, hlength]
      simp only [reliableAckHeaderBytes, true_and]
      constructor
      · exact fun h => ⟨by omega, h.2⟩
      · exact fun h => ⟨by omega, h.2⟩

theorem unconsumed_receivedForm {bridge : SharedTopicConfig} (hopcode : 0xc0 ≤ bridge.meshVendorOpcode)
    (body : Bytes) (stripped : Bool) (c : MeshSwarmCoordinator) (now : Time) (deviceKey : Bool)
    (m : ReceivedMessage) (hm : m.data = receivedForm stripped (bridgePayload bridge body)) :
    (c.handleMessage now deviceKey m).2 = false := by
  refine unconsumed_of_marks ?_ ?_ c now deviceKey m hm
  · cases stripped with
    | false =>
        intro hbegin
        have hbegin : bridge.meshVendorOpcode = 0x4d := hbegin
        rw [hbegin] at hopcode
        exact absurd hopcode (by decide)
    | true =>
        intro _ hmark
        exact absurd hmark (by show ¬ ((0x42 : UInt8) = 0x53); decide)
  · cases stripped with
    | false =>
        intro _ _ hmark
        exact absurd hmark (by show ¬ ((0x42 : UInt8) = 0x53); decide)
    | true =>
        intro hfirst
        exact absurd hfirst (by show ¬ ((0x4d : UInt8) = 0xc0); decide)

theorem routedToBridges_iff {bridge : SharedTopicConfig} (hopcode : 0xc0 ≤ bridge.meshVendorOpcode)
    (body : Bytes) (stripped : Bool) :
    RoutedToBridges (receivedForm stripped (bridgePayload bridge body)) ↔
      (stripped = true → 3 ≤ body.length → bridge.channelId.toUInt8 ∉ reliableKinds) := by
  have hreliable := reliable_receivedForm_iff bridge body stripped
  constructor
  · intro h hstripped hlength hkind
    have hrouted := h.unreliable
    rw [hreliable.mpr ⟨hstripped, hlength, hkind⟩] at hrouted
    cases hrouted
  · intro h
    have hunreliable : isMeshReliableFrame (receivedForm stripped (bridgePayload bridge body)) =
        false := by
      by_contra hcontra
      obtain ⟨hstripped, hlength, hkind⟩ := hreliable.mp (Bool.eq_true_of_not_eq_false hcontra)
      exact h hstripped hlength hkind
    exact ⟨unconsumed_receivedForm hopcode body stripped, hunreliable,
      passed_of_unreliable hunreliable⟩

/-! ## Reliable frames -/

/-- What all reliable frames have in common. -/
theorem ReliableFrame.shape {frame : Bytes} (h : ReliableFrame frame) :
    0xc0 ≤ byteAt frame 0 ∧ reliableAckHeaderBytes ≤ frame.length ∧
      frameKind frame ∈ reliableKinds := by
  induction h with
  | data bridge body sequence swarmId handOff hopcode =>
      refine ⟨?_, ?_, ?_⟩
      · rw [byteAt_withKind _ _ (by decide)]
        exact hopcode
      · simp [makeMeshReliableData, bridgePayload, u16Bytes, meshVendorPrefixBytes,
          reliableAckHeaderBytes]
      · rw [frameKind_withKind _ (by simp [makeMeshReliableData, bridgePayload, u16Bytes,
          meshVendorPrefixBytes])]
        cases handOff <;> decide
  | @acknowledgement frame _ ih =>
      obtain ⟨hopcode, hlength, _⟩ := ih
      rcases frame with _ | ⟨first, _ | ⟨second, _ | ⟨third, rest⟩⟩⟩
      · simp [reliableAckHeaderBytes] at hlength
      · simp [reliableAckHeaderBytes] at hlength
      · simp [reliableAckHeaderBytes] at hlength
      · exact ⟨hopcode, by simp [acknowledgementOf, u16Bytes, meshVendorPrefixBytes,
          reliableAckHeaderBytes], (by decide : reliableAck ∈ reliableKinds)⟩
  | @query frame _ ih =>
      obtain ⟨hopcode, hlength, _⟩ := ih
      have htake : (frame.take reliableAckHeaderBytes).length = 8 := by
        rw [List.length_take]
        exact min_eq_left hlength
      refine ⟨?_, ?_, ?_⟩
      · unfold receiptQueryOf
        rw [byteAt_withKind _ _ (by decide)]
        cases frame with
        | nil => exact absurd hlength (by decide)
        | cons first rest => exact hopcode
      · unfold receiptQueryOf
        rw [length_withKind, htake]
        exact le_refl _
      · unfold receiptQueryOf
        rw [frameKind_withKind _ (by rw [htake]; decide)]
        decide

theorem ReliableFrame.routed {frame : Bytes} (h : ReliableFrame frame) :
    RoutedToReliability frame := by
  obtain ⟨hopcode, hlength, hkind⟩ := h.shape
  have hreliable := isMeshReliableFrame_iff.mpr ⟨hlength, hkind⟩
  refine ⟨unconsumed_of_marks ?_ ?_, hreliable, withheld_of_reliable hreliable⟩
  · intro hbegin
    rw [hbegin] at hopcode
    exact absurd hopcode (by decide)
  · intro _ hmark
    have hkind' : (0x4d : UInt8) ∈ reliableKinds := hmark ▸ hkind
    exact absurd hkind' (by decide)

/-- **When the routing of Mesh payloads is unambiguous.** Reliable frames always reach the
reliability layer and only that. A plain bridge frame reaches the bridges unless BlueZ has
stripped its opcode, the low byte of the channel is the kind of a reliable frame, and the
payload has three bytes or more. -/
theorem mesh_routing_iff {bridge : SharedTopicConfig} (hmesh : bridge.transport = .mesh)
    (hopcode : 0xc0 ≤ bridge.meshVendorOpcode) (body : Bytes) (stripped : Bool) :
    (RoutedToBridges (receivedForm stripped (Bridge.transportFrame bridge body)) ∧
      ∀ frame, ReliableFrame frame → RoutedToReliability frame) ↔
    (stripped = true → 3 ≤ body.length → bridge.channelId.toUInt8 ∉ reliableKinds) := by
  rw [transportFrame_mesh hmesh, routedToBridges_iff hopcode]
  exact and_iff_left (fun frame hframe => hframe.routed)

theorem mesh_routing_iff_complete :
    RoutedToBridges (Bridge.transportFrame { transport := .mesh, channelId := 0xd1 } [1, 2, 3]) :=
  ((@mesh_routing_iff { transport := .mesh, channelId := 0xd1 } rfl (by decide) [1, 2, 3]
    false).mpr (by decide)).1

/-- Channel 209: without its opcode, a frame of three payload bytes is taken for a data frame. -/
theorem channel_209_astray :
    ¬ RoutedToBridges (receivedForm true
      (Bridge.transportFrame { transport := .mesh, channelId := 209 } [1, 2, 3])) := by
  intro h
  have hreliable := h.unreliable
  revert hreliable
  decide

end UavBluetooth.Mesh
