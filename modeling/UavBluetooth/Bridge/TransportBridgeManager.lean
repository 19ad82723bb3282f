import UavBluetooth.Config.Models
import UavBluetooth.Lib.Binary64
import UavBluetooth.Lib.Run
import UavBluetooth.Util.Text

set_option autoImplicit false

/-! # The transport bridge manager

`transport_bridge_manager.cpp`: one entry for each advertisement or Mesh bridge, a slot for
the newest encoded value of an export bridge, and the dispatch of that value to the
transport.

Two locks order the operations. `dispatch_mutex` is held for the whole of `flush`,
`configure` and `clear`; the entry `mutex` is held by `handle_local_message` around encoding
and by `flush` only before and after the transport call. A step below is one stretch of code
under the entry mutex, or the transport call; a dispatch in progress (`dispatching`) stands
for a held `dispatch_mutex`.
-/

namespace UavBluetooth.Bridge

open Config Util

/-! ## Framing and keys -/

/-- Only export-capable entries have a subscription and a send timer. -/
def exports (item : SharedTopicConfig) : Bool :=
  item.mode == .export || item.mode == .both

/-- Only import-capable entries accept peer payloads. -/
def imports (item : SharedTopicConfig) : Bool :=
  item.mode == .import || item.mode == .both

/-- The map key of a transport channel. -/
def entryKey (transport : Transport) (channelId : UInt16) : String :=
  transport.name ++ ":" ++ toString channelId.toNat

/-- Prefix a bridge payload with the magic, the version and the channel. -/
def framePayload (channelId : UInt16) (payload : Bytes) : Bytes :=
  [0x4d, 0x42, 1, channelId.toUInt8, (channelId >>> 8).toUInt8] ++ payload

/-- The bytes `dispatch` hands to the transport for one encoded value. -/
def transportFrame (config : SharedTopicConfig) (payload : Bytes) : Bytes :=
  if config.transport == .advertisement then
    if config.advertisementBare then payload else framePayload config.channelId payload
  else
    [config.meshVendorOpcode, config.meshCompanyId.toUInt8,
      (config.meshCompanyId >>> 8).toUInt8] ++ framePayload config.channelId payload

/-! ## Peer names -/

/-- The numeric suffix of a peer name, when the name has one and more than digits. -/
def peerNumber (normalized : String) : Option Nat :=
  let digits := (normalized.toList.reverse.takeWhile Char.isDigit).reverse
  if digits.isEmpty || digits.length == normalized.length then none
  else some (digits.foldl (fun n c => 10 * n + (c.toNat - 48)) 0)

/-- The address book built from the whitelist: the first name of a number keeps it. -/
def meshPeerByAddress (whitelist : List String) : Std.ExtTreeMap UInt16 String :=
  whitelist.foldl (fun book normalized =>
    match peerNumber normalized with
    | some number =>
        if 0 < number ∧ number ≤ 0x7fff then book.insertIfNew (UInt16.ofNat number) normalized
        else book
    | none => book) ∅

/-! ## The manager's state -/

/-- One configured bridge. `revision` counts the values encoded since the entry was made. -/
structure Entry where
  config : SharedTopicConfig
  generation : Nat
  revision : Nat := 0
  pendingPayload : Option Bytes := none
  nextDispatchAt : Time := 0
  recentPayloads : Std.ExtTreeMap String (List (Time × Bytes)) := ∅

structure Manager where
  nextGeneration : Nat := 0
  peersPrefix : String := ""
  peerWhitelist : List String := []
  meshPeers : Std.ExtTreeMap UInt16 String := ∅
  /-- Whether ServiceNode has installed the two senders. -/
  advertisementSender : Bool := false
  meshSender : Bool := false
  entries : Std.ExtTreeMap String Entry := ∅

def Manager.setEntry (m : Manager) (key : String) (entry : Entry) : Manager :=
  { m with entries := m.entries.insert key entry }

/-- `handle_local_message` up to the release of the entry mutex: encode (`none` when the codec
throws), replace the waiting payload and count the revision. -/
def handleLocalMessage (key : String) (generation : Nat) (encoded : Option Bytes)
    (m : Manager) : Manager :=
  match m.entries[key]? with
  | none => m
  | some entry =>
      if entry.generation ≠ generation then m
      else
        match encoded with
        | none => m
        | some payload =>
            m.setEntry key
              { entry with pendingPayload := some payload, revision := entry.revision + 1 }

/-- What `flush` copies out of the entry before it releases the entry mutex, and the
transport's verdict once the call has returned. -/
structure Dispatch where
  key : String
  generation : Nat
  config : SharedTopicConfig
  payload : Bytes
  revision : Nat
  advertisementSender : Bool
  meshSender : Bool
  accepted : Option Bool := none

/-- The first critical section of `flush`: take the newest waiting payload. -/
def flushTake (key : String) (generation : Nat) (now : Time) (m : Manager) :
    Option (Dispatch × Manager) :=
  match m.entries[key]? with
  | none => none
  | some entry =>
      if entry.generation ≠ generation then none
      else
        match entry.pendingPayload with
        | none => none
        | some payload =>
            if 0 < entry.config.rateHz ∧ now < entry.nextDispatchAt then none
            else
              some ({ key := key, generation := generation, config := entry.config,
                      payload := payload, revision := entry.revision,
                      advertisementSender := m.advertisementSender,
                      meshSender := m.meshSender },
                m.setEntry key { entry with pendingPayload := none })

/-- What the transport callback does with a payload. -/
inductive SenderResult where
  | accept
  | reject
  | throw
  deriving DecidableEq, Repr

/-- Whether the sender that `dispatch` needs was installed. -/
def Dispatch.senderAvailable (d : Dispatch) : Bool :=
  if d.config.transport == .advertisement then d.advertisementSender else d.meshSender

/-- `dispatch` and the handler around it: a missing sender and a throwing sender both count
as not accepted. -/
def dispatchAccepted (d : Dispatch) (result : SenderResult) : Bool :=
  d.senderAvailable && result == .accept

/-- The spacing of two accepted values, at least one tick of the clock. The rate is rounded as it is
read, and so are the quotient and the product with the ticks of a second; the rest is cut off. -/
def spacing (rateHz : ℚ) : Time :=
  max 1 ⌊Binary64.nearest (Binary64.nearest (1 / Binary64.nearest rateHz) * 10 ^ 9)⌋.toNat

/-- The deadline after an accepted value: one spacing from now for the first value, else
`do deadline += spacing while (deadline <= now)`. -/
def nextDeadline (deadline now step : Time) : Time :=
  if deadline = 0 then now + step
  else deadline + ((now - deadline) / step + 1) * step

/-- The last critical section of `flush`: advance the deadline after an accepted value, or put
a rejected one back unless a newer value or another generation has come since. -/
def flushSettle (d : Dispatch) (accepted : Bool) (now : Time) (m : Manager) : Manager :=
  match m.entries[d.key]? with
  | none => m
  | some entry =>
      if entry.generation ≠ d.generation then m
      else if accepted then
        if 0 < d.config.rateHz then
          m.setEntry d.key
            { entry with
              nextDispatchAt := nextDeadline entry.nextDispatchAt now (spacing d.config.rateHz) }
        else m
      else if entry.revision = d.revision ∧ entry.pendingPayload = none then
        m.setEntry d.key { entry with pendingPayload := some d.payload }
      else m

/-- The loop of `configure` over the topics: make one entry for each bridge that is not GATT,
stopping at the first one that is a duplicate or whose type support cannot be loaded. -/
def configureTopics (loadable : String → Bool) :
    List SharedTopicConfig → Manager → Except String Unit × Manager
  | [], m => (.ok (), m)
  | configured :: rest, m =>
      if configured.transport == .gatt then configureTopics loadable rest m
      else
        let key := entryKey configured.transport configured.channelId
        if m.entries.contains key then
          (.error ("Duplicate " ++ configured.transport.name ++ " bridge channel_id " ++
            toString configured.channelId.toNat), m)
        else
          let m' := { m with nextGeneration := m.nextGeneration + 1 }.setEntry key
            { config := configured, generation := m.nextGeneration + 1 }
          if loadable configured.messageType then configureTopics loadable rest m'
          else (.error ("cannot load " ++ configured.messageType), m')

/-- `configure`: the state on return, and the exception if it throws. -/
def configure (loadable : String → Bool) (topics : List SharedTopicConfig)
    (peersPrefix : String) (peerWhitelist : List String) (m : Manager) :
    Except String Unit × Manager :=
  let whitelist := peerWhitelist.map lowerTrimCopy
  let m₀ := { m with
    entries := ∅
    peersPrefix := peersPrefix
    peerWhitelist := whitelist
    meshPeers := meshPeerByAddress whitelist }
  if 1 < topics.countP (fun item => item.transport == .advertisement && exports item) then
    (.error ("Only one advertisement shared-topic exporter can be active; " ++
      "a BLE advertisement has one dynamic user-data field"), m₀)
  else configureTopics loadable topics m₀

/-- `clear` releases every entry. -/
def clear (m : Manager) : Manager := { m with entries := ∅ }

/-! ## Interleavings -/

/-- What an observer of the manager can record. -/
inductive Event where
  /-- A value was encoded as revision `revision` of the entry. -/
  | encoded (key : String) (generation revision : Nat) (payload : Bytes)
  /-- A value was handed to the transport sender, which accepted it or not. -/
  | handed (key : String) (generation revision : Nat) (payload : Bytes) (accepted : Bool)
  /-- `configure` or `clear` returned; `generation` was the newest generation before it. -/
  | replaced (generation : Nat)

/-- The manager, the dispatch that holds `dispatch_mutex` if there is one, and the record of
the past, oldest first. -/
structure State where
  manager : Manager := {}
  dispatching : Option Dispatch := none
  log : List Event := []

inductive Action where
  | localMessage (key : String) (generation : Nat) (encoded : Option Bytes)
  | flushTake (key : String) (generation : Nat) (now : Time)
  | callSender (result : SenderResult)
  | flushSettle (now : Time)
  | configure (loadable : String → Bool) (topics : List SharedTopicConfig)
      (peersPrefix : String) (peerWhitelist : List String)
  | clear
  | setSenders (advertisement mesh : Bool)

/-- The event of a local message, if it is encoded. -/
def localMessageEvents (key : String) (generation : Nat) (encoded : Option Bytes)
    (m : Manager) : List Event :=
  match m.entries[key]?, encoded with
  | some entry, some payload =>
      if entry.generation = generation then
        [.encoded key generation (entry.revision + 1) payload]
      else []
  | _, _ => []

/-- One step of any thread. A `flush` that finds nothing to do leaves the state as it is; a
second `flush`, `configure` and `clear` wait while a dispatch is in progress. -/
def step (s : State) : Action → Option State
  | .localMessage key generation encoded =>
      some { s with
        manager := handleLocalMessage key generation encoded s.manager
        log := s.log ++ localMessageEvents key generation encoded s.manager }
  | .flushTake key generation now =>
      match s.dispatching with
      | some _ => none
      | none =>
          match Bridge.flushTake key generation now s.manager with
          | none => some s
          | some (d, m) => some { s with manager := m, dispatching := some d }
  | .callSender result =>
      match s.dispatching with
      | none => none
      | some d =>
          match d.accepted with
          | some _ => none
          | none =>
              let accepted := dispatchAccepted d result
              some { s with
                dispatching := some { d with accepted := some accepted }
                log := s.log ++
                  [.handed d.key d.generation d.revision d.payload accepted] }
  | .flushSettle now =>
      match s.dispatching with
      | none => none
      | some d =>
          match d.accepted with
          | none => none
          | some accepted =>
              some { s with
                manager := Bridge.flushSettle d accepted now s.manager
                dispatching := none }
  | .configure loadable topics peersPrefix peerWhitelist =>
      match s.dispatching with
      | some _ => none
      | none =>
          some { s with
            manager := (Bridge.configure loadable topics peersPrefix peerWhitelist
              s.manager).2
            log := s.log ++ [.replaced s.manager.nextGeneration] }
  | .clear =>
      match s.dispatching with
      | some _ => none
      | none =>
          some { s with
            manager := Bridge.clear s.manager
            log := s.log ++ [.replaced s.manager.nextGeneration] }
  | .setSenders advertisement mesh =>
      some { s with
        manager := { s.manager with advertisementSender := advertisement, meshSender := mesh } }

/-- A freshly constructed manager. -/
def Initial (s : State) : Prop := s = {}

end UavBluetooth.Bridge
