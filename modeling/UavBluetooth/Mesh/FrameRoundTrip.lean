import UavBluetooth.Bridge.Receive
import UavBluetooth.Mesh.Routing

set_option autoImplicit false

/-! # From the sender's bridge to the receiver's

An access payload that the bridge manager dispatches is wrapped in a reliable frame, sent in one of
two kinds, and handed to the bridge manager of the receiver. All that is read from the frame on the
way is what was written into it, and the keys that both ends use for the channel are the same.
-/

namespace UavBluetooth.Mesh

open Config

/-! ## Keys -/

theorem toNat_channelKeyOf (elementIndex : UInt8) (appKeyIndex channel : UInt16) :
    (channelKeyOf elementIndex appKeyIndex channel).toNat =
      (elementIndex.toNat * 2 ^ 16 + appKeyIndex.toNat) * 2 ^ 16 + channel.toNat := by
  have he : elementIndex.toNat < 2 ^ 8 := elementIndex.toNat_lt
  have ha : appKeyIndex.toNat < 2 ^ 16 := appKeyIndex.toNat_lt
  have hc : channel.toNat < 2 ^ 16 := channel.toNat_lt
  have h16 : UInt64.toNat 16 % 64 = 16 := rfl
  have h32 : UInt64.toNat 32 % 64 = 32 := rfl
  have happ : appKeyIndex.toNat <<< 16 < 2 ^ 32 := by
    rw [Nat.shiftLeft_eq]
    omega
  have hchannel : channel.toNat < 2 ^ 16 := hc
  have hupper : elementIndex.toNat <<< 32 ||| appKeyIndex.toNat <<< 16 =
      (elementIndex.toNat * 2 ^ 16 + appKeyIndex.toNat) <<< 16 := by
    rw [← Nat.shiftLeft_add_eq_or_of_lt happ]
    simp only [Nat.shiftLeft_eq]
    ring
  simp only [channelKeyOf, UInt64.toNat_or, UInt64.toNat_shiftLeft, UInt8.toNat_toUInt64,
    UInt16.toNat_toUInt64, h16, h32]
  rw [Nat.mod_eq_of_lt (by rw [Nat.shiftLeft_eq]; omega),
    Nat.mod_eq_of_lt (by rw [Nat.shiftLeft_eq]; omega), hupper,
    ← Nat.shiftLeft_add_eq_or_of_lt hchannel, Nat.shiftLeft_eq]

/-- **A channel key belongs to one channel.** -/
theorem channelKeyOf_inj {e e' : UInt8} {a a' c c' : UInt16} :
    channelKeyOf e a c = channelKeyOf e' a' c' ↔ e = e' ∧ a = a' ∧ c = c' := by
  constructor
  · intro h
    have hnat := congrArg UInt64.toNat h
    rw [toNat_channelKeyOf, toNat_channelKeyOf] at hnat
    have ha : a.toNat < 2 ^ 16 := a.toNat_lt
    have ha' : a'.toNat < 2 ^ 16 := a'.toNat_lt
    have hc : c.toNat < 2 ^ 16 := c.toNat_lt
    have hc' : c'.toNat < 2 ^ 16 := c'.toNat_lt
    exact ⟨UInt8.toNat_inj.mp (by omega), UInt16.toNat_inj.mp (by omega),
      UInt16.toNat_inj.mp (by omega)⟩
  · rintro ⟨rfl, rfl, rfl⟩
    rfl

theorem toNat_vendorOpcode (data : Bytes) :
    (vendorOpcode data).toNat =
      ((byteAt data 2).toNat * 2 ^ 8 + (byteAt data 1).toNat) * 2 ^ 8 + (byteAt data 0).toNat := by
  have h0 : (byteAt data 0).toNat < 2 ^ 8 := (byteAt data 0).toNat_lt
  have h1 : (byteAt data 1).toNat < 2 ^ 8 := (byteAt data 1).toNat_lt
  have h2 : (byteAt data 2).toNat < 2 ^ 8 := (byteAt data 2).toNat_lt
  have hmiddle : (byteAt data 1).toNat <<< 8 < 2 ^ 32 := by
    rw [Nat.shiftLeft_eq]
    omega
  have hupper : (byteAt data 2).toNat <<< 16 < 2 ^ 32 := by
    rw [Nat.shiftLeft_eq]
    omega
  have hlow : (byteAt data 0).toNat ||| (byteAt data 1).toNat <<< 8 =
      (byteAt data 1).toNat * 2 ^ 8 + (byteAt data 0).toNat := by
    rw [Nat.or_comm, ← Nat.shiftLeft_add_eq_or_of_lt h0, Nat.shiftLeft_eq]
  have hbound : (byteAt data 1).toNat * 2 ^ 8 + (byteAt data 0).toNat < 2 ^ 16 := by omega
  have h8 : UInt32.toNat 8 % 32 = 8 := by simp
  have h16 : UInt32.toNat 16 % 32 = 16 := by simp
  simp only [vendorOpcode, UInt32.toNat_or, UInt32.toNat_shiftLeft, UInt8.toNat_toUInt32, h8, h16]
  rw [Nat.mod_eq_of_lt hmiddle, Nat.mod_eq_of_lt hupper, hlow, Nat.or_comm,
    ← Nat.shiftLeft_add_eq_or_of_lt hbound, Nat.shiftLeft_eq]
  ring

/-- The receipt key has all of the vendor prefix. -/
theorem vendorOpcode_inj {data data' : Bytes} :
    vendorOpcode data = vendorOpcode data' ↔ byteAt data 0 = byteAt data' 0 ∧
      byteAt data 1 = byteAt data' 1 ∧ byteAt data 2 = byteAt data' 2 := by
  constructor
  · intro h
    have hnat := congrArg UInt32.toNat h
    rw [toNat_vendorOpcode, toNat_vendorOpcode] at hnat
    have h0 : (byteAt data 0).toNat < 2 ^ 8 := (byteAt data 0).toNat_lt
    have h1 : (byteAt data 1).toNat < 2 ^ 8 := (byteAt data 1).toNat_lt
    have h0' : (byteAt data' 0).toNat < 2 ^ 8 := (byteAt data' 0).toNat_lt
    have h1' : (byteAt data' 1).toNat < 2 ^ 8 := (byteAt data' 1).toNat_lt
    exact ⟨UInt8.toNat_inj.mp (by omega), UInt8.toNat_inj.mp (by omega),
      UInt8.toNat_inj.mp (by omega)⟩
  · rintro ⟨h0, h1, h2⟩
    rw [vendorOpcode, vendorOpcode, h0, h1, h2]

/-! ## Frames -/

section

variable {bridge : SharedTopicConfig} {body : Bytes} {sequence swarmId : UInt16} {kind : UInt8}

/-- The bytes of one copy of a sample on the air. -/
def reliableFrame (bridge : SharedTopicConfig) (body : Bytes) (sequence swarmId : UInt16)
    (kind : UInt8) : Bytes :=
  withKind kind (makeMeshReliableData (Bridge.transportFrame bridge body) sequence swarmId)

/-- The frame byte by byte. -/
theorem reliableFrame_eq (h : bridge.transport = .mesh) :
    reliableFrame bridge body sequence swarmId kind =
      [bridge.meshVendorOpcode] ++ u16Bytes bridge.meshCompanyId ++ [kind] ++
        u16Bytes sequence ++ u16Bytes swarmId ++ u16Bytes bridge.channelId ++ body := by
  rw [reliableFrame, transportFrame_mesh h]
  rfl

theorem frameKind_reliableFrame (h : bridge.transport = .mesh) :
    frameKind (reliableFrame bridge body sequence swarmId kind) = kind := by
  rw [reliableFrame_eq h]
  rfl

theorem length_reliableFrame (h : bridge.transport = .mesh) :
    (reliableFrame bridge body sequence swarmId kind).length =
      reliableDataHeaderBytes + body.length := by
  rw [reliableFrame_eq h]
  simp only [u16Bytes, List.length_append, List.length_cons, List.length_nil,
    reliableDataHeaderBytes]

theorem isDataFrame_reliableFrame (h : bridge.transport = .mesh)
    (hkind : kind = reliableData ∨ kind = reliableDataNoTurn) :
    isMeshReliableFrame (reliableFrame bridge body sequence swarmId kind) = true ∧
      isDataFrame (reliableFrame bridge body sequence swarmId kind) = true := by
  have hlength := @length_reliableFrame bridge body sequence swarmId kind h
  have hack : reliableAckHeaderBytes ≤ (reliableFrame bridge body sequence swarmId kind).length := by
    rw [hlength]
    unfold reliableAckHeaderBytes reliableDataHeaderBytes
    omega
  have hdata : reliableDataHeaderBytes ≤
      (reliableFrame bridge body sequence swarmId kind).length := by
    rw [hlength]
    exact Nat.le_add_right _ _
  unfold isMeshReliableFrame isDataFrame
  rw [decide_eq_true hack, decide_eq_true hdata, frameKind_reliableFrame h]
  rcases hkind with rfl | rfl <;> exact ⟨rfl, rfl⟩

theorem meshReliableSequence_reliableFrame (h : bridge.transport = .mesh) :
    meshReliableSequence (reliableFrame bridge body sequence swarmId kind) = sequence := by
  rw [reliableFrame_eq h]
  exact u16_of_bytes sequence

theorem meshReliableSwarmId_reliableFrame (h : bridge.transport = .mesh) :
    meshReliableSwarmId (reliableFrame bridge body sequence swarmId kind) = swarmId := by
  rw [reliableFrame_eq h]
  exact u16_of_bytes swarmId

theorem frameChannel_reliableFrame (h : bridge.transport = .mesh) :
    frameChannel (reliableFrame bridge body sequence swarmId kind) = bridge.channelId := by
  rw [reliableFrame_eq h]
  exact u16_of_bytes bridge.channelId

theorem decodedFrame_reliableFrame (h : bridge.transport = .mesh) :
    decodedFrame (reliableFrame bridge body sequence swarmId kind) =
      Bridge.transportFrame bridge body := by
  rw [reliableFrame, decodedFrame_withKind, transportFrame_mesh h, decodedFrame_make]

/-- A receipt query has the identity of the frame that it asks about. -/
theorem receiptQueryOf_reliableFrame (h : bridge.transport = .mesh) :
    vendorOpcode (receiptQueryOf (reliableFrame bridge body sequence swarmId kind)) =
        vendorOpcode (reliableFrame bridge body sequence swarmId kind) ∧
      meshReliableSequence (receiptQueryOf (reliableFrame bridge body sequence swarmId kind)) =
        sequence ∧
      meshReliableSwarmId (receiptQueryOf (reliableFrame bridge body sequence swarmId kind)) =
        swarmId := by
  rw [reliableFrame_eq h]
  exact ⟨rfl, u16_of_bytes sequence, u16_of_bytes swarmId⟩

/-- The receipt of a frame names the sample that it belongs to. -/
theorem acknowledgementOf_reliableFrame (h : bridge.transport = .mesh) :
    (acknowledgementOf (reliableFrame bridge body sequence swarmId kind)).take 3 =
        [bridge.meshVendorOpcode] ++ u16Bytes bridge.meshCompanyId ∧
      meshReliableSequence (acknowledgementOf (reliableFrame bridge body sequence swarmId kind)) =
        sequence ∧
      meshReliableSwarmId (acknowledgementOf (reliableFrame bridge body sequence swarmId kind)) =
        swarmId := by
  have hsequence := @meshReliableSequence_reliableFrame bridge body sequence swarmId kind h
  have hswarm := @meshReliableSwarmId_reliableFrame bridge body sequence swarmId kind h
  rw [acknowledgementOf, hsequence, hswarm, reliableFrame_eq h]
  exact ⟨rfl, u16_of_bytes sequence, u16_of_bytes swarmId⟩

end

/-! ## The receiver's bridge -/

theorem u16Bytes_inj {v w : UInt16} : u16Bytes v = u16Bytes w ↔ v = w := by
  constructor
  · intro h
    obtain ⟨hlow, hhigh⟩ : v.toUInt8 = w.toUInt8 ∧ (v >>> 8).toUInt8 = (w >>> 8).toUInt8 := by
      simpa [u16Bytes] using h
    rw [← u16_of_bytes v, ← u16_of_bytes w, hlow, hhigh]
  · rintro rfl
    rfl

/-- The receiver's bridge has the wire identity of the sender's. -/
def SameIdentity (bridge config : SharedTopicConfig) : Prop :=
  config.meshAppKeyIndex = bridge.meshAppKeyIndex ∧
    config.meshVendorOpcode = bridge.meshVendorOpcode ∧
    config.meshCompanyId = bridge.meshCompanyId

instance (bridge config : SharedTopicConfig) : Decidable (SameIdentity bridge config) :=
  inferInstanceAs (Decidable (_ ∧ _))

section

open Bridge

variable {bridge : SharedTopicConfig}

theorem unframePayload_transportFrame (h : bridge.transport = .mesh) (body : Bytes) :
    unframePayload (transportFrame bridge body) 3 = some (bridge.channelId, body) := by
  have hchannel := u16_of_bytes bridge.channelId
  rw [transportFrame_mesh h]
  simp only [unframePayload, bridgePayload, u16Bytes, List.cons_append, List.nil_append,
    List.drop_succ_cons, List.drop_zero, hchannel]
  simp

/-- The bridge of the channel publishes the body if it is the right one for the sender, and no
other bridge does. -/
theorem handleMesh_transportFrame (h : bridge.transport = .mesh)
    (hopcode : 0xc0 ≤ bridge.meshVendorOpcode) (ros : Ros) (now : Time) (source : UInt16)
    (body : Bytes) (m : Manager) :
    handleMesh ros now source bridge.meshAppKeyIndex (transportFrame bridge body) m =
      match m.entries[entryKey .mesh bridge.channelId]? with
      | none => (m, false, none)
      | some entry =>
          if imports entry.config = true ∧ SameIdentity bridge entry.config then
            match meshPeerName m source with
            | none => (m, false, none)
            | some peer =>
                let (entry, delivered, publication) :=
                  publish ros now (entryKey .mesh bridge.channelId) entry peer body false
                (m.setEntry (entryKey .mesh bridge.channelId) entry, delivered, publication)
          else (m, false, none) := by
  have hframe := unframePayload_transportFrame h body
  have hoffset : 3 ≤ (transportFrame bridge body).length ∧
      0xc0 ≤ (transportFrame bridge body).headD 0 := by
    rw [transportFrame_mesh h]
    exact ⟨by simp [bridgePayload, u16Bytes], hopcode⟩
  have htake : (transportFrame bridge body).take 3 =
      [bridge.meshVendorOpcode] ++ u16Bytes bridge.meshCompanyId := by
    rw [transportFrame_mesh h]
    rfl
  unfold handleMesh
  simp only [if_pos hoffset, hframe]
  cases m.entries[entryKey .mesh bridge.channelId]? with
  | none => rfl
  | some entry =>
      dsimp only
      have hvendorBytes : (transportFrame bridge body).take 3 = [entry.config.meshVendorOpcode,
          entry.config.meshCompanyId.toUInt8, (entry.config.meshCompanyId >>> 8).toUInt8] ↔
          entry.config.meshVendorOpcode = bridge.meshVendorOpcode ∧
            entry.config.meshCompanyId = bridge.meshCompanyId := by
        rw [htake, ← @u16Bytes_inj entry.config.meshCompanyId]
        simp only [u16Bytes, List.singleton_append, List.cons.injEq, and_true]
        tauto
      cases imports entry.config with
      | false => simp
      | true =>
          by_cases hkey : bridge.meshAppKeyIndex = entry.config.meshAppKeyIndex
          · by_cases hvendor : entry.config.meshVendorOpcode = bridge.meshVendorOpcode ∧
                entry.config.meshCompanyId = bridge.meshCompanyId
            · have hsame : SameIdentity bridge entry.config := ⟨hkey.symm, hvendor⟩
              simp only [hkey, hvendorBytes.mpr hvendor, hsame]
              cases meshPeerName m source <;> simp
            · have hother : ¬SameIdentity bridge entry.config := fun hsame => hvendor hsame.2
              simp only [hkey, hother]
              simp
              intro htake'
              exact absurd (hvendorBytes.mp htake') hvendor
          · have hother : ¬SameIdentity bridge entry.config := fun hsame => hkey hsame.1.symm
            simp only [hother]
            simp [hkey]

end

/-! ## The round trip -/

/-- The message that `Element1.MessageReceived` makes of a frame; it leaves the element index at
zero. -/
def messageReceived (source destination keyIndex : UInt16) (data : Bytes) : ReceivedMessage :=
  ⟨0, source, destination, keyIndex, data⟩

/-- **Reliable frames lose nothing.** Either kind of frame is a data frame with the sequence and
the swarm that it was made with. The receiver's bridge manager gets the access payload back and
publishes its body on the bridge of the same channel. The receipt keys of the frame, its query and
its acknowledgement name the sample. Both ends keep the channel under the same key exactly for the
element 0, the only one that there is: the receiver is not told of another. -/
theorem reliableFrame_roundTrip (bridge : SharedTopicConfig) (body : Bytes)
    (sequence swarmId : UInt16) (kind : UInt8) (htransport : bridge.transport = .mesh)
    (hopcode : 0xc0 ≤ bridge.meshVendorOpcode)
    (hkind : kind = reliableData ∨ kind = reliableDataNoTurn) :
    let payload := Bridge.transportFrame bridge body
    let frame := withKind kind (makeMeshReliableData payload sequence swarmId)
    (isMeshReliableFrame frame = true ∧ isDataFrame frame = true ∧
      meshReliableSequence frame = sequence ∧ meshReliableSwarmId frame = swarmId) ∧
    decodedFrame frame = payload ∧
    (∀ ros now source m,
      Bridge.handleMesh ros now source bridge.meshAppKeyIndex (decodedFrame frame) m =
        match m.entries[Bridge.entryKey .mesh bridge.channelId]? with
        | none => (m, false, none)
        | some entry =>
            if Bridge.imports entry.config = true ∧ SameIdentity bridge entry.config then
              match Bridge.meshPeerName m source with
              | none => (m, false, none)
              | some peer =>
                  let (entry, delivered, publication) := Bridge.publish ros now
                    (Bridge.entryKey .mesh bridge.channelId) entry peer body false
                  (m.setEntry (Bridge.entryKey .mesh bridge.channelId) entry, delivered,
                    publication)
            else (m, false, none)) ∧
    (∀ source destination,
      (messageReceived source destination bridge.meshAppKeyIndex frame).seenKey =
        ⟨source, bridge.meshAppKeyIndex, swarmId, vendorOpcode payload, sequence⟩ ∧
      (messageReceived source destination bridge.meshAppKeyIndex (receiptQueryOf frame)).seenKey =
        (messageReceived source destination bridge.meshAppKeyIndex frame).seenKey) ∧
    (∀ source destination,
      ((messageReceived source destination bridge.meshAppKeyIndex frame).channelKey =
        channelKey bridge ↔ bridge.meshElementIndex = 0) ∧
      ∀ now resumed adm,
        let sample := newSample now ⟨bridge, payload, resumed⟩ adm
          (makeMeshReliableData payload sequence swarmId)
        sample.channelKey = channelKey bridge ∧
        meshReliableSequence (acknowledgementOf frame) = sequence ∧
        ackMatches (messageReceived destination source bridge.meshAppKeyIndex
          (acknowledgementOf frame)) sample = true) ∧
    (∀ config : SharedTopicConfig, channelKey config = channelKey bridge ↔
      config.meshElementIndex = bridge.meshElementIndex ∧
        config.meshAppKeyIndex = bridge.meshAppKeyIndex ∧ config.channelId = bridge.channelId) ∧
    ∀ (config : SharedTopicConfig) other, config.transport = .mesh →
      (vendorOpcode (Bridge.transportFrame config other) = vendorOpcode payload ↔
        config.meshVendorOpcode = bridge.meshVendorOpcode ∧
          config.meshCompanyId = bridge.meshCompanyId) := by
  intro payload frame
  obtain ⟨hreliable, hdata⟩ : isMeshReliableFrame frame = true ∧ isDataFrame frame = true :=
    isDataFrame_reliableFrame htransport hkind
  have hsequence : meshReliableSequence frame = sequence :=
    meshReliableSequence_reliableFrame htransport
  have hswarm : meshReliableSwarmId frame = swarmId := meshReliableSwarmId_reliableFrame htransport
  have hdecoded : decodedFrame frame = payload := decodedFrame_reliableFrame htransport
  have hvendor : vendorOpcode frame = vendorOpcode payload := by
    change vendorOpcode (reliableFrame bridge body sequence swarmId kind) =
      vendorOpcode (Bridge.transportFrame bridge body)
    rw [reliableFrame_eq htransport, transportFrame_mesh htransport]
    rfl
  refine ⟨⟨hreliable, hdata, hsequence, hswarm⟩, hdecoded, ?_, ?_, ?_, ?_, ?_⟩
  · intro ros now source m
    rw [hdecoded]
    exact handleMesh_transportFrame htransport hopcode ros now source body m
  · intro source destination
    obtain ⟨hqvendor, hqsequence, hqswarm⟩ :
        vendorOpcode (receiptQueryOf frame) = vendorOpcode frame ∧
          meshReliableSequence (receiptQueryOf frame) = sequence ∧
            meshReliableSwarmId (receiptQueryOf frame) = swarmId :=
      receiptQueryOf_reliableFrame htransport
    constructor
    · rw [ReceivedMessage.seenKey, messageReceived, hvendor, hsequence, hswarm]
    · rw [ReceivedMessage.seenKey, ReceivedMessage.seenKey, messageReceived, messageReceived,
        hqvendor, hqsequence, hqswarm, hsequence, hswarm]
  · intro source destination
    have hchannel : frameChannel frame = bridge.channelId := frameChannel_reliableFrame htransport
    constructor
    · rw [ReceivedMessage.channelKey, messageReceived, hchannel]
      -- Of the three parts of the key only the element index is not read back from the frame.
      exact channelKeyOf_inj.trans ⟨fun h => h.1.symm, fun h => ⟨h.symm, rfl, rfl⟩⟩
    · intro now resumed adm sample
      obtain ⟨htake, hasequence, haswarm⟩ :
          (acknowledgementOf frame).take 3 =
              [bridge.meshVendorOpcode] ++ u16Bytes bridge.meshCompanyId ∧
            meshReliableSequence (acknowledgementOf frame) = sequence ∧
              meshReliableSwarmId (acknowledgementOf frame) = swarmId :=
        acknowledgementOf_reliableFrame htransport
      refine ⟨rfl, hasequence, ?_⟩
      have hsample : sample.data.take meshVendorPrefixBytes =
          [bridge.meshVendorOpcode] ++ u16Bytes bridge.meshCompanyId := by
        change (makeMeshReliableData (Bridge.transportFrame bridge body) sequence swarmId).take 3 = _
        rw [transportFrame_mesh htransport]
        rfl
      have hsampleSwarm : meshReliableSwarmId sample.data = swarmId := by
        refine meshReliableSwarmId_make payload sequence swarmId ?_
        change 3 ≤ (Bridge.transportFrame bridge body).length
        rw [transportFrame_mesh htransport]
        simp [bridgePayload, u16Bytes]
      have hkey : sample.appKeyIndex = bridge.meshAppKeyIndex := rfl
      rw [ackMatches, hsample, hsampleSwarm, hkey]
      simp only [messageReceived, Bool.and_eq_true, beq_iff_eq, true_and]
      exact ⟨htake, haswarm⟩
  · intro config
    exact channelKeyOf_inj
  · intro config other hconfig
    have hpayload : payload = bridgePayload bridge body := transportFrame_mesh htransport body
    rw [vendorOpcode_inj, ← @u16Bytes_inj config.meshCompanyId, transportFrame_mesh hconfig,
      hpayload]
    simp only [bridgePayload, u16Bytes, List.cons.injEq, and_true]
    rfl

theorem reliableFrame_roundTrip_empty :
    decodedFrame (withKind reliableDataNoTurn (makeMeshReliableData
        (Bridge.transportFrame { transport := .mesh, channelId := 0x1234 } []) 7 1)) =
      [0xc1, 0xf1, 0x05, 0x4d, 0x42, 0x01, 0x34, 0x12] ∧
    (messageReceived 0x0005 0xc000 0 (withKind reliableDataNoTurn (makeMeshReliableData
        (Bridge.transportFrame { transport := .mesh, channelId := 0x1234 } []) 7 1))).channelKey =
      channelKey { transport := .mesh, channelId := 0x1234 } ∧
    vendorOpcode (Bridge.transportFrame { transport := .mesh, meshCompanyId := 2 } [9]) ≠
      vendorOpcode (Bridge.transportFrame { transport := .mesh, channelId := 0x1234 } []) := by
  obtain ⟨-, hdecoded, -, -, hchannel, -, hvendor⟩ :=
    reliableFrame_roundTrip { transport := .mesh, channelId := 0x1234 } [] 7 1 reliableDataNoTurn
      rfl (by decide) (.inr rfl)
  refine ⟨hdecoded, (hchannel 0x0005 0xc000).1.mpr rfl, ?_⟩
  rw [ne_eq, hvendor { transport := .mesh, meshCompanyId := 2 } [9] rfl]
  decide

/-- The two ends keep a channel of the element 1, which the loader accepts, under different keys. -/
theorem second_element_split :
    (messageReceived 0x0005 0xc000 0 (withKind reliableData (makeMeshReliableData
        (Bridge.transportFrame { transport := .mesh, meshElementIndex := 1, channelId := 7 } [])
        7 1))).channelKey ≠
      channelKey { transport := .mesh, meshElementIndex := 1, channelId := 7 } := by
  decide +kernel

end UavBluetooth.Mesh
