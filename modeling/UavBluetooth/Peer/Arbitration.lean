import UavBluetooth.Util.Names

set_option autoImplicit false

/-! # Connection arbitration

Both UAVs of a pair host a GATT server, and one of them is to open the link. `reconcile_peers`
decides by the order of the two names, by the order of the two addresses, or by default,
according to what the node knows at that moment (`localOwnsConnection`). The two nodes need not
decide by the same rule: `single_initiator_iff` says when exactly one of them opens the link.
-/

namespace UavBluetooth.Peer

open Util

variable (regexMatch : String → String → Bool)

/-! ## Sessions -/

/-- The fields of `NodeConfig` that select peers. -/
structure PeerConfig where
  autoConnectEnable : Bool := true
  autoConnectPattern : String
  peerWhitelist : List String := []

/-- `get_or_create_session` with the name that a device record gives. -/
def notePeerName (config : PeerConfig) (peerName : String) (device : DeviceInfo) : String :=
  let guess := deviceHostnameGuess regexMatch device config.autoConnectPattern config.peerWhitelist
  if guess = "" then peerName else guess

/-- The peer name of a session: the newest credible one of the records seen so far. -/
def sessionPeerName (config : PeerConfig) (records : List DeviceInfo) : String :=
  records.foldl (notePeerName regexMatch config) ""

def normalizeWhitelistToken (value : String) : String :=
  let value := trimAsciiCopy value
  if looksLikeMacAddress value then normalizeMac value else lowerTrimCopy value

def whitelistContains (whitelist : List String) (mac peerName : String) : Bool :=
  let normalizedPeerName := lowerTrimCopy peerName
  whitelist.any fun entry =>
    let normalizedEntry := normalizeWhitelistToken entry
    normalizedEntry ≠ "" && (normalizedEntry == normalizeMac mac ||
      (normalizedPeerName ≠ "" && normalizedEntry == normalizedPeerName))

/-- Whether `sync_device` makes the peer a target of automatic connection. -/
def desired (config : PeerConfig) (mac peerName : String) : Bool :=
  config.autoConnectEnable &&
    (whitelistContains config.peerWhitelist mac peerName ||
      (lowerTrimCopy peerName ≠ "" &&
        isUavHostname regexMatch (lowerTrimCopy peerName) config.autoConnectPattern &&
        config.peerWhitelist.isEmpty))

/-! ## The decision -/

/-- What a node knows of a peer and of itself: the records of the peer so far, whether the peer
is in the cache, and its own address if its adapter record is (empty while unknown). -/
structure Knowledge where
  records : List DeviceInfo := []
  device : Bool := true
  adapterAddress : Option String := none

/-- What decides who opens the link. -/
inductive Rule where
  | name
  | address
  | default
  deriving DecidableEq, Repr

/-- Both names are known UAV names and differ. -/
def namedPair (config : PeerConfig) (hostname peerName : String) : Bool :=
  let localName := lowerTrimCopy hostname
  let remoteName := lowerTrimCopy peerName
  isUavHostname regexMatch localName config.autoConnectPattern &&
    isUavHostname regexMatch remoteName config.autoConnectPattern && localName != remoteName

def localOwnsConnection (config : PeerConfig) (hostname mac : String) (k : Knowledge) : Bool :=
  let peerName := sessionPeerName regexMatch config k.records
  if namedPair regexMatch config hostname peerName then
    decide (lowerTrimCopy hostname < lowerTrimCopy peerName)
  else
    match k.device, k.adapterAddress with
    | true, some address =>
        if address ≠ "" then decide (lowerTrimCopy address < lowerTrimCopy mac) else true
    | _, _ => true

/-- The rule by which a node decides. -/
def Knowledge.rule (config : PeerConfig) (hostname : String) (k : Knowledge) : Rule :=
  if namedPair regexMatch config hostname (sessionPeerName regexMatch config k.records) then .name
  else if k.device ∧ k.adapterAddress.getD "" ≠ "" then .address
  else .default

/-- A node of the pair. -/
structure Endpoint where
  hostname : String
  address : String

/-- What `k` says of the peer is true, and its own address is, if known. -/
structure Knowledge.Honest (k : Knowledge) (own peer : Endpoint) : Prop where
  records : ∀ device ∈ k.records, ∀ text ∈ [device.name, device.alias],
    text = "" ∨ lowerTrimCopy text = peer.hostname
  address : ∀ address, k.adapterAddress = some address → address = "" ∨ address = own.address

/-- The two decisions are made by rules that give the link to exactly one node: one and the
same order, two orders that agree, or one order that leaves the link to the node that falls back
on the default. -/
def OneInitiator (a b : Endpoint) : Rule → Rule → Prop
  | .name, .name => True
  | .address, .address => True
  | .name, .address | .address, .name =>
      a.hostname < b.hostname ↔ lowerTrimCopy a.address < lowerTrimCopy b.address
  | .default, .name => a.hostname < b.hostname
  | .default, .address => lowerTrimCopy a.address < lowerTrimCopy b.address
  | .name, .default => b.hostname < a.hostname
  | .address, .default => lowerTrimCopy b.address < lowerTrimCopy a.address
  | .default, .default => False

/-- A session's name is unknown or the peer's. -/
theorem sessionPeerName_honest {config : PeerConfig} {k : Knowledge} {own peer : Endpoint}
    (h : k.Honest own peer) :
    sessionPeerName regexMatch config k.records = "" ∨
      lowerTrimCopy (sessionPeerName regexMatch config k.records) = peer.hostname := by
  have hnote : ∀ (peerName : String) (device : DeviceInfo), device ∈ k.records →
      (peerName = "" ∨ lowerTrimCopy peerName = peer.hostname) →
      (notePeerName regexMatch config peerName device = "" ∨
        lowerTrimCopy (notePeerName regexMatch config peerName device) = peer.hostname) := by
    intro peerName device hdevice hname
    have hguess := deviceHostnameGuess_cases regexMatch device config.autoConnectPattern
      config.peerWhitelist
    unfold notePeerName
    simp only
    split
    · exact hname
    · rename_i hne
      refine h.records device hdevice _ ?_
      simp only [List.mem_cons, List.not_mem_nil, or_false] at hguess ⊢
      rcases hguess with hg | hg | hg
      · exact Or.inl hg
      · exact Or.inr hg
      · exact absurd hg hne
  have hfold : ∀ (records : List DeviceInfo) (peerName : String),
      (∀ device ∈ records, device ∈ k.records) →
      (peerName = "" ∨ lowerTrimCopy peerName = peer.hostname) →
      (records.foldl (notePeerName regexMatch config) peerName = "" ∨
        lowerTrimCopy (records.foldl (notePeerName regexMatch config) peerName) =
          peer.hostname) := by
    intro records
    induction records with
    | nil => exact fun peerName _ hname => hname
    | cons device rest ih =>
        intro peerName hrecords hname
        exact ih _ (fun d hd => hrecords d (List.mem_cons_of_mem _ hd))
          (hnote peerName device (hrecords device List.mem_cons_self) hname)
  exact hfold k.records "" (fun _ hd => hd) (Or.inl rfl)

/-- What a node decides by each rule. -/
theorem localOwnsConnection_iff {config : PeerConfig} {k : Knowledge} {own peer : Endpoint}
    (h : k.Honest own peer) (hown : lowerTrimCopy own.hostname = own.hostname) :
    localOwnsConnection regexMatch config own.hostname peer.address k = true ↔
      match k.rule regexMatch config own.hostname with
      | .name => own.hostname < peer.hostname
      | .address => lowerTrimCopy own.address < lowerTrimCopy peer.address
      | .default => True := by
  unfold localOwnsConnection Knowledge.rule
  by_cases hpair : namedPair regexMatch config own.hostname
      (sessionPeerName regexMatch config k.records) = true
  · have hpeer : lowerTrimCopy (sessionPeerName regexMatch config k.records) = peer.hostname := by
      rcases @sessionPeerName_honest regexMatch config _ _ _ h with hname | hname
      · -- an unknown name is no UAV name
        rw [hname] at hpair
        have hblank : isUavHostname regexMatch (lowerTrimCopy "") config.autoConnectPattern =
            false := rfl
        simp [namedPair, hblank] at hpair
      · exact hname
    simp [hpair, hpeer, hown]
  · cases hdevice : k.device with
    | false => simp [hpair]
    | true =>
        cases haddress : k.adapterAddress with
        | none => simp [hpair]
        | some address =>
            rcases h.address address haddress with rfl | rfl
            · simp [hpair]
            · by_cases hempty : own.address = ""
              · simp [hpair, hempty]
              · simp [hpair, hempty]

/-- Two texts that differ are in one order. -/
theorem lt_iff_not_lt {x y : String} (h : x ≠ y) : y < x ↔ ¬ x < y := by
  constructor
  · exact fun hyx hxy => String.lt_asymm hyx hxy
  · intro hxy
    by_contra hyx
    exact h (String.le_antisymm (String.not_lt.mp hyx) (String.not_lt.mp hxy))

/-- **When exactly one of two nodes opens the link.** -/
theorem single_initiator_iff {config config' : PeerConfig} {a b : Endpoint} {k k' : Knowledge}
    (ha : lowerTrimCopy a.hostname = a.hostname) (hb : lowerTrimCopy b.hostname = b.hostname)
    (hnames : a.hostname ≠ b.hostname)
    (haddresses : lowerTrimCopy a.address ≠ lowerTrimCopy b.address)
    (hk : k.Honest a b) (hk' : k'.Honest b a) :
    localOwnsConnection regexMatch config a.hostname b.address k ≠
      localOwnsConnection regexMatch config' b.hostname a.address k' ↔
    OneInitiator a b (k.rule regexMatch config a.hostname)
      (k'.rule regexMatch config' b.hostname) := by
  have hfirst := @localOwnsConnection_iff regexMatch config _ _ _ hk ha
  have hsecond := @localOwnsConnection_iff regexMatch config' _ _ _ hk' hb
  have hname := lt_iff_not_lt hnames
  have haddress := lt_iff_not_lt haddresses
  have hxor : localOwnsConnection regexMatch config a.hostname b.address k ≠
      localOwnsConnection regexMatch config' b.hostname a.address k' ↔
      ¬ (localOwnsConnection regexMatch config a.hostname b.address k = true ↔
        localOwnsConnection regexMatch config' b.hostname a.address k' = true) := by
    rw [ne_eq, Bool.eq_iff_iff]
  rw [hxor, hfirst, hsecond]
  generalize k.rule regexMatch config a.hostname = rule
  generalize k'.rule regexMatch config' b.hostname = rule'
  clear hxor hfirst hsecond
  by_cases horder : a.hostname < b.hostname <;>
    by_cases horder' : lowerTrimCopy a.address < lowerTrimCopy b.address <;>
      cases rule <;> cases rule' <;>
        simp [OneInitiator, hname, haddress, horder, horder']

/-- The engine on the pattern `uav[0-9]+`. -/
def uavRegex (pattern text : String) : Bool :=
  pattern == "uav[0-9]+" && text.toList.take 3 == ['u', 'a', 'v'] && decide (3 < text.length) &&
    (text.toList.drop 3).all Char.isDigit

def pairConfig : PeerConfig where
  autoConnectPattern := "uav[0-9]+"
  peerWhitelist := ["uav1", "uav2", "aa:bb:cc:dd:ee:02", "aa:bb:cc:dd:ee:09"]

def uav1 : Endpoint := ⟨"uav1", "AA:BB:CC:DD:EE:09"⟩

def uav2 : Endpoint := ⟨"uav2", "AA:BB:CC:DD:EE:02"⟩

/-- A node that knows its own address, and the peer's name or not yet. -/
def knows (own : Endpoint) (peerName : String) : Knowledge where
  records := [{ name := peerName }]
  adapterAddress := some own.address

theorem knows_honest {own peer : Endpoint} {peerName : String}
    (h : peerName = "" ∨ lowerTrimCopy peerName = peer.hostname) :
    (knows own peerName).Honest own peer := by
  refine ⟨fun device hdevice text htext => ?_, fun address haddress => ?_⟩
  · rcases List.mem_singleton.mp hdevice with rfl
    simp only [List.mem_cons, List.not_mem_nil, or_false] at htext
    rcases htext with rfl | rfl
    · exact h
    · exact Or.inl rfl
  · exact Or.inr (Option.some.inj haddress).symm

theorem single_initiator_iff_named :
    localOwnsConnection uavRegex pairConfig "uav1" uav2.address (knows uav1 "uav2") ≠
      localOwnsConnection uavRegex pairConfig "uav2" uav1.address (knows uav2 "uav1") := by
  have hnamed : (knows uav1 "uav2").rule uavRegex pairConfig "uav1" = .name ∧
      (knows uav2 "uav1").rule uavRegex pairConfig "uav2" = .name := by decide +kernel
  refine (single_initiator_iff uavRegex (a := uav1) (b := uav2) (by decide) (by decide) (by decide)
    (by decide) (knows_honest (Or.inr (by decide))) (knows_honest (Or.inr (by decide)))).mpr ?_
  show OneInitiator uav1 uav2 ((knows uav1 "uav2").rule uavRegex pairConfig "uav1")
    ((knows uav2 "uav1").rule uavRegex pairConfig "uav2")
  rw [hnamed.1, hnamed.2]
  trivial

/-- The node uav1 knows the name of uav2 and goes by the names; uav2 does not know the name of
uav1 yet and goes by the addresses. Both desire the link and both open it. -/
theorem two_initiators :
    (knows uav1 "uav2").Honest uav1 uav2 ∧ (knows uav2 "").Honest uav2 uav1 ∧
      desired uavRegex pairConfig uav2.address
        (sessionPeerName uavRegex pairConfig (knows uav1 "uav2").records) = true ∧
      desired uavRegex pairConfig uav1.address
        (sessionPeerName uavRegex pairConfig (knows uav2 "").records) = true ∧
      localOwnsConnection uavRegex pairConfig uav1.hostname uav2.address (knows uav1 "uav2") =
        true ∧
      localOwnsConnection uavRegex pairConfig uav2.hostname uav1.address (knows uav2 "") =
        true := by
  refine ⟨knows_honest (Or.inr (by decide)), knows_honest (Or.inl rfl), ?_⟩
  decide +kernel

end UavBluetooth.Peer
