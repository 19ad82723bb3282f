import UavBluetooth.Bridge.TransportBridgeManager

set_option autoImplicit false

/-! # Receiving bridge payloads

The import side of `transport_bridge_manager.cpp`: the frame header, the peer token, the replay
history of an advertisement bridge, and the three entry points `handle_advertisement`,
`remember_advertisement` and `handle_mesh`. Each holds the entry mutex throughout, so it is one
step (`operate`).

What ROS answers is an input (`Ros`): whether a publisher for the peer's topic exists or can be
created, and what the codec makes of a payload.
-/

namespace UavBluetooth.Bridge

open Config Util

/-- Validate and remove a bridge channel header that begins at `offset`. -/
def unframePayload (data : Bytes) (offset : Nat) : Option (UInt16 × Bytes) :=
  match data.drop offset with
  | magic0 :: magic1 :: version :: low :: high :: payload =>
      if magic0 ≠ 0x4d ∨ magic1 ≠ 0x42 ∨ version ≠ 1 then none
      else some (low.toUInt16 ||| (high.toUInt16 <<< 8), payload)
  | _ => none

/-- A nonempty topic component with a ROS-valid leading character. -/
def safePeerToken (peer : String) : String :=
  let peer := sanitizeTopicSuffix peer
  if peer = "" then "unknown"
  else if (peer.toList.headD 'a').isDigit then "peer_" ++ peer
  else peer

/-- What ROS and the codec do when a payload is published. -/
structure Ros where
  /-- The entry has a publisher for the token, or one is created. -/
  publisher : SharedTopicConfig → String → Bool := fun _ _ => true
  /-- `decode_payload`; `none` if it throws. -/
  decode : SharedTopicConfig → Bytes → Option Bytes

/-- A message on the ROS side: the bridge, the peer's token, the payload it was decoded from. -/
structure Publication where
  key : String
  token : String
  payload : Bytes
  deriving DecidableEq, Repr

/-! ## The replay history -/

def maxRecentPayloads : Nat := 4096

/-- `recent_payloads[token]`. -/
def Entry.recent (entry : Entry) (token : String) : List (Time × Bytes) :=
  entry.recentPayloads[token]?.getD []

/-- Add one payload to a peer's bounded replay history, and drop the oldest one of too many. -/
def remember (now : Time) (entry : Entry) (token : String) (payload : Bytes) : Entry :=
  let recent := entry.recent token
  if recent.any (·.2 == payload) then entry
  else
    let recent := recent ++ [(now, payload)]
    { entry with
      recentPayloads := entry.recentPayloads.insert token
        (if maxRecentPayloads < recent.length then recent.tail else recent) }

/-- Decode peer bytes and publish them on the import topic: the entry afterwards, the value
returned, and what was published. -/
def publish (ros : Ros) (now : Time) (key : String) (entry : Entry) (peer : String)
    (payload : Bytes) (deduplicate : Bool) : Entry × Bool × Option Publication :=
  let token := safePeerToken peer
  if deduplicate && (entry.recent token).any (·.2 == payload) then (entry, true, none)
  else if !ros.publisher entry.config token then (entry, false, none)
  else
    match ros.decode entry.config payload with
    | none => (entry, false, none)
    | some _ =>
        (if deduplicate then remember now entry token payload else entry, true,
          some ⟨key, token, payload⟩)

/-! ## Entry points -/

def handleAdvertisement (ros : Ros) (now : Time) (hostname mac : String) (payload : Bytes)
    (m : Manager) : Manager × Bool × Option Publication :=
  let normalizedPeer := lowerTrimCopy hostname
  let normalizedMac := lowerTrimCopy mac
  if m.peerWhitelist ≠ [] ∧ normalizedPeer ∉ m.peerWhitelist ∧
      normalizedMac ∉ m.peerWhitelist then (m, false, none)
  else
    let peer := if hostname = "" then "mac_" ++ mac else hostname
    let publishOn := fun (key : String) (entry : Entry) (body : Bytes) =>
      let (entry, delivered, publication) := publish ros now key entry peer body true
      (m.setEntry key entry, delivered, publication)
    let bareKey := entryKey .advertisement 0
    match m.entries[bareKey]?.filter (·.config.advertisementBare) with
    | some bare =>
        if !imports bare.config then (m, false, none) else publishOn bareKey bare payload
    | none =>
        match unframePayload payload 0 with
        | none => (m, false, none)
        | some (channel, body) =>
            let key := entryKey .advertisement channel
            match m.entries[key]? with
            | none => (m, false, none)
            | some entry =>
                if !imports entry.config then (m, false, none) else publishOn key entry body

def rememberAdvertisement (now : Time) (hostname mac : String) (payload : Bytes)
    (m : Manager) : Manager :=
  let normalizedPeer := lowerTrimCopy hostname
  let normalizedMac := lowerTrimCopy mac
  if m.peerWhitelist ≠ [] ∧ normalizedPeer ∉ m.peerWhitelist ∧
      normalizedMac ∉ m.peerWhitelist then m
  else
    let token := safePeerToken (if hostname = "" then "mac_" ++ mac else hostname)
    let bareKey := entryKey .advertisement 0
    match m.entries[bareKey]?.filter (·.config.advertisementBare) with
    | some bare =>
        if imports bare.config then m.setEntry bareKey (remember now bare token payload) else m
    | none =>
        match unframePayload payload 0 with
        | none => m
        | some (channel, body) =>
            let key := entryKey .advertisement channel
            match m.entries[key]? with
            | none => m
            | some entry =>
                if !imports entry.config then m
                else m.setEntry key (remember now entry token body)

/-- The peer name of a Mesh source; `none` if the source is not admitted. -/
def meshPeerName (m : Manager) (source : UInt16) : Option String :=
  match m.meshPeers[source]? with
  | some name => some name
  | none => if m.peerWhitelist ≠ [] then none else some ("unicast_" ++ toString source.toNat)

def handleMesh (ros : Ros) (now : Time) (source keyIndex : UInt16) (data : Bytes)
    (m : Manager) : Manager × Bool × Option Publication :=
  -- Both callback forms are accepted: vendor opcode retained or already stripped.
  let frameOffset := if 3 ≤ data.length ∧ 0xc0 ≤ data.headD 0 then 3 else 0
  match unframePayload data frameOffset with
  | none => (m, false, none)
  | some (channel, body) =>
      let key := entryKey .mesh channel
      match m.entries[key]? with
      | none => (m, false, none)
      | some entry =>
          if !imports entry.config then (m, false, none)
          else if keyIndex ≠ entry.config.meshAppKeyIndex then (m, false, none)
          else if frameOffset = 3 ∧ data.take 3 ≠ [entry.config.meshVendorOpcode,
              entry.config.meshCompanyId.toUInt8, (entry.config.meshCompanyId >>> 8).toUInt8] then
            (m, false, none)
          else
            match meshPeerName m source with
            | none => (m, false, none)
            | some peer =>
                let (entry, delivered, publication) := publish ros now key entry peer body false
                (m.setEntry key entry, delivered, publication)

/-! ## The operations of the manager -/

inductive Operation where
  | configure (loadable : String → Bool) (topics : List SharedTopicConfig)
      (peersPrefix : String) (peerWhitelist : List String)
  | clear
  | setSenders (advertisement mesh : Bool)
  | localMessage (key : String) (generation : Nat) (encoded : Option Bytes)
  | flushTake (key : String) (generation : Nat) (now : Time)
  | flushSettle (dispatch : Dispatch) (accepted : Bool) (now : Time)
  | handleAdvertisement (now : Time) (hostname mac : String) (payload : Bytes)
  | rememberAdvertisement (now : Time) (hostname mac : String) (payload : Bytes)
  | handleMesh (now : Time) (source keyIndex : UInt16) (data : Bytes)

/-- The manager after one operation, and what it published. -/
def operate (ros : Ros) (m : Manager) : Operation → Manager × Option Publication
  | .configure loadable topics peersPrefix peerWhitelist =>
      ((configure loadable topics peersPrefix peerWhitelist m).2, none)
  | .clear => (clear m, none)
  | .setSenders advertisement mesh =>
      ({ m with advertisementSender := advertisement, meshSender := mesh }, none)
  | .localMessage key generation encoded => (handleLocalMessage key generation encoded m, none)
  | .flushTake key generation now =>
      match flushTake key generation now m with
      | none => (m, none)
      | some (_, m) => (m, none)
  | .flushSettle dispatch accepted now => (flushSettle dispatch accepted now m, none)
  | .handleAdvertisement now hostname mac payload =>
      let (m, _, publication) := handleAdvertisement ros now hostname mac payload m
      (m, publication)
  | .rememberAdvertisement now hostname mac payload =>
      (rememberAdvertisement now hostname mac payload m, none)
  | .handleMesh now source keyIndex data =>
      let (m, _, publication) := handleMesh ros now source keyIndex data m
      (m, publication)

end UavBluetooth.Bridge
