import UavBluetooth.Bridge.Operations
import UavBluetooth.Util.Names
import UavBluetooth.Util.Topics

set_option autoImplicit false

/-! # The topics of peers

Data of a peer is published below `<peers_prefix>/<token>`. The advertisement and Mesh bridges
take the token from `safe_peer_token`, the GATT bridges from `peer_topic_token` in
`service_node_notifications.cpp`. Both sanitise the peer's name, which forgets every character
that is not a letter or a digit: `safePeerToken_eq_iff` says which names get one token, and
`peer_isolation_iff` which peers share their topics and their replay history.
-/

namespace UavBluetooth.Bridge

open Config Util

/-! ## Tokens and topics -/

/-- The ROS topic component for one GATT peer. -/
def peerTopicToken (peerName mac : String) : String :=
  let token := sanitizeTopicSuffix peerName
  let token := if token = "" ∨ token = "ble_device" then "mac_" ++ sanitizeTopicSuffix mac
    else token
  if token ≠ "" ∧ (token.toList.headD 'a').isDigit then "peer_" ++ token else token

/-- Remove whitespace and slashes around one configured topic component. -/
def trimTopicSegment (value : String) : String :=
  String.ofList (Strip.strip (fun c => isSpace c || c == '/') value.toList)

/-- The import topic that `publish` creates a publisher for. -/
def importTopic (peersPrefix token importTopicSuffix : String) : String :=
  normalizeRosTopic (peersPrefix ++ "/" ++ token ++ "/" ++ importTopicSuffix)

/-- The topic of one peer-specific imported GATT bridge. -/
def peerBridgeTopic (peersPrefix mac peerName requestedTopicSuffix : String) : String :=
  let topic := peersPrefix ++ "/" ++ peerTopicToken peerName mac
  let suffix := trimTopicSegment requestedTopicSuffix
  normalizeRosTopic (if suffix = "" then topic else topic ++ "/" ++ suffix)

/-! ## Names with one token -/

/-- What a sanitised name keeps of its text: everything from the first to the last letter or
digit, with a leading digit guarded, and a constant if there is neither. -/
def stem (name : String) : List Char :=
  if core name = [] then "ble_device".toList
  else if ((core name).headD 'a').isDigit then "peer_".toList ++ core name
  else core name

/-- Two characters that no token tells apart. -/
def SameMark (c d : Char) : Prop := c = d ∨ (c.isAlphanum = false ∧ d.isAlphanum = false)

/-- Two names with the same letters and digits in the same places. -/
def Alike (a b : String) : Prop := List.Forall₂ SameMark (stem a) (stem b)

instance (c d : Char) : Decidable (SameMark c d) := inferInstanceAs (Decidable (_ ∨ _))

instance (a b : String) : Decidable (Alike a b) :=
  inferInstanceAs (Decidable (List.Forall₂ SameMark (stem a) (stem b)))

theorem topicChar_eq_iff {c d : Char} : topicChar c = topicChar d ↔ SameMark c d := by
  unfold SameMark
  cases hc : c.isAlphanum with
  | true =>
      rw [topicChar_of_isAlphanum hc]
      constructor
      · intro h
        -- a character that is replaced becomes an underscore, which is no letter or digit
        have hd : (topicChar d == '_') = false := by
          rw [← h]
          simp only [beq_eq_false_iff_ne, ne_eq]
          rintro rfl
          cases hc
        rw [topicChar_eq_underscore, Bool.not_eq_false'] at hd
        exact Or.inl (h.trans (topicChar_of_isAlphanum hd))
      · rintro (rfl | ⟨h, _⟩)
        · exact (topicChar_of_isAlphanum hc).symm
        · cases h
  | false =>
      have hunder : topicChar c = '_' := by
        have := topicChar_eq_underscore (c := c)
        simpa [hc] using this
      rw [hunder]
      constructor
      · intro h
        have hd := topicChar_eq_underscore (c := d)
        rw [← h] at hd
        exact Or.inr ⟨rfl, by simpa using hd.symm⟩
      · rintro (rfl | ⟨_, hd⟩)
        · exact hunder.symm
        · have := topicChar_eq_underscore (c := d)
          rw [hd] at this
          exact (beq_iff_eq.mp this).symm

/-- The token of a name, spelled out. -/
theorem toList_safePeerToken (name : String) :
    (safePeerToken name).toList = (stem name).map topicChar := by
  unfold safePeerToken stem
  rw [sanitizeTopicSuffix_eq]
  cases hcore : core name with
  | nil => rfl
  | cons c cs =>
      have hc : topicChar c = c := topicChar_of_isAlphanum (head_core hcore)
      by_cases hdigit : c.isDigit = true
      · have hlead : 'p' = topicChar 'p' ∧ 'e' = topicChar 'e' ∧ 'r' = topicChar 'r' ∧
            '_' = topicChar '_' := by decide
        simpa [hc, hdigit] using hlead
      · simp [hc, hdigit]

/-- **Two names get one token** iff they are alike. -/
theorem safePeerToken_eq_iff {a b : String} : safePeerToken a = safePeerToken b ↔ Alike a b := by
  rw [← String.toList_inj, toList_safePeerToken, toList_safePeerToken, Alike]
  generalize stem a = l
  generalize stem b = l'
  induction l generalizing l' with
  | nil => cases l' <;> simp
  | cons c cs ih =>
      cases l' with
      | nil => simp
      | cons d ds => simp [topicChar_eq_iff, ih]

theorem safePeerToken_safe (name : String) :
    (safePeerToken name).toList ≠ [] ∧
      ∀ c ∈ (safePeerToken name).toList, topicSafe c = true := by
  rw [toList_safePeerToken]
  constructor
  · unfold stem
    split
    · decide
    · rename_i hcore
      split <;> simp [hcore]
  · intro c hc
    obtain ⟨c', _, rfl⟩ := List.mem_map.mp hc
    exact topicSafe_topicChar c'

/-! ## The number at the end of a name -/

section

variable {α : Type} {p : α → Bool}

/-- The trailing run of a list, when what is before it ends otherwise. -/
theorem rtakeWhile_append {a b : List α} (ha : ∀ x ∈ a.getLast?, p x = false)
    (hb : ∀ x ∈ b, p x = true) : (a ++ b).rtakeWhile p = b := by
  induction b using List.reverseRecOn with
  | nil =>
      rw [List.append_nil, List.rtakeWhile_eq_nil_iff]
      intro hne
      rw [ha _ (List.getLast?_eq_some_getLast hne)]
      exact Bool.false_ne_true
  | append_singleton b x ih =>
      rw [← List.append_assoc, List.rtakeWhile_concat_pos _ _ _ (hb x (by simp)),
        ih (fun y hy => hb y (by simp [hy]))]

theorem rtakeWhile_getLast {l : List α} : ∀ x ∈ (l.rdropWhile p).getLast?, p x = false := by
  intro x hx
  have hne : l.rdropWhile p ≠ [] := by
    intro hnil
    rw [hnil] at hx
    cases hx
  have hnot := List.rdropWhile_last_not p l hne
  rw [List.getLast?_eq_some_getLast hne] at hx
  cases hx
  simpa using hnot

end

theorem isAlphanum_of_isDigit {c : Char} (h : c.isDigit = true) : c.isAlphanum = true := by
  simp [Char.isAlphanum, h]

/-- The digits at the end of a name. -/
def digitTail (l : List Char) : List Char := l.rtakeWhile Char.isDigit

theorem isDigit_of_mem_digitTail {l : List Char} {c : Char} (h : c ∈ digitTail l) :
    c.isDigit = true :=
  List.mem_rtakeWhile_imp h

/-- Stripping what is no digit leaves the digits at the end where they are. -/
theorem digitTail_strip {p : Char → Bool} (hp : ∀ c, c.isDigit = true → p c = false)
    {l : List Char} (h : digitTail l ≠ []) : digitTail (Strip.strip p l) = digitTail l := by
  have hsplit : l.rdropWhile Char.isDigit ++ digitTail l = l := List.rdropWhile_append_rtakeWhile
  have hfront := rtakeWhile_getLast (p := Char.isDigit) (l := l)
  have hdigits : ∀ c ∈ digitTail l, c.isDigit = true := fun c hc => isDigit_of_mem_digitTail hc
  generalize l.rdropWhile Char.isDigit = front at hsplit hfront
  generalize digitTail l = digits at hsplit hdigits h
  have hstripped : Strip.strip p l = front.dropWhile p ++ digits := by
    have hwhole : l = front.takeWhile p ++ ((front.dropWhile p ++ digits) ++ []) := by
      rw [List.append_nil, ← List.append_assoc, List.takeWhile_append_dropWhile, hsplit]
    rw [hwhole]
    refine Strip.strip_eq (fun c hc => List.mem_takeWhile_imp hc) ⟨?_, ?_⟩ (by simp)
    · intro c hc
      cases hleft : front.dropWhile p with
      | nil =>
          rw [hleft, List.nil_append] at hc
          exact hp c (hdigits c (List.mem_of_mem_head? hc))
      | cons x xs =>
          rw [hleft] at hc
          cases hc
          have hne : front.dropWhile p ≠ [] := by simp [hleft]
          have hhead := List.head_dropWhile_not p hne
          simpa only [hleft, List.head_cons, Bool.not_eq_true] using hhead
    · intro c hc
      rw [List.getLast?_append_of_ne_nil _ h] at hc
      exact hp c (hdigits c (List.mem_of_getLast? hc))
  unfold digitTail
  rw [hstripped]
  refine rtakeWhile_append (fun c hc => ?_) hdigits
  obtain ⟨gone, hgone⟩ := List.dropWhile_suffix p (l := front)
  refine hfront c ?_
  have hne : front.dropWhile p ≠ [] := by
    intro hnil
    rw [hnil] at hc
    cases hc
  rw [← hgone, List.getLast?_append_of_ne_nil _ hne]
  exact hc

/-- Replacing what is no digit leaves the digits at the end. -/
theorem digitTail_map {f : Char → Char} (hf : ∀ c, (f c).isDigit = c.isDigit)
    (hkeeps : ∀ c, c.isDigit = true → f c = c) (l : List Char) :
    digitTail (l.map f) = digitTail l := by
  induction l using List.reverseRecOn with
  | nil => rfl
  | append_singleton l c ih =>
      unfold digitTail at ih ⊢
      rw [List.map_append, List.map_singleton, List.rtakeWhile_concat, List.rtakeWhile_concat, hf]
      split
      · rename_i hc
        rw [ih, hkeeps c hc]
      · rfl

theorem digitTail_core {name : String} (h : digitTail name.toList ≠ []) :
    digitTail (core name) = digitTail name.toList :=
  digitTail_strip (fun c hc => by simp [isAlphanum_of_isDigit hc]) h

theorem digitTail_stem {name : String} (h : digitTail name.toList ≠ []) :
    digitTail (stem name) = digitTail name.toList := by
  have hcore := digitTail_core h
  unfold stem
  split
  · rename_i hnil
    rw [hnil] at hcore
    exact absurd hcore.symm h
  · split
    · rw [← hcore]
      have hsplit : (core name).rdropWhile Char.isDigit ++ digitTail (core name) = core name :=
        List.rdropWhile_append_rtakeWhile
      have hfront := rtakeWhile_getLast (p := Char.isDigit) (l := core name)
      have hlead : digitTail ("peer_".toList ++ core name) =
          digitTail (("peer_".toList ++ (core name).rdropWhile Char.isDigit) ++
            digitTail (core name)) := by
        rw [List.append_assoc, hsplit]
      rw [hlead]
      refine rtakeWhile_append (fun c hc => ?_) (fun c hc => isDigit_of_mem_digitTail hc)
      rcases List.eq_nil_or_concat ((core name).rdropWhile Char.isDigit) with hnil | ⟨xs, x, hx⟩
      · rw [hnil] at hc
        cases hc
        rfl
      · rw [hx] at hc hfront
        refine hfront c ?_
        rw [List.getLast?_append_of_ne_nil _ (by simp)] at hc
        exact hc
    · exact hcore

theorem isDigit_topicChar (c : Char) : (topicChar c).isDigit = c.isDigit := by
  cases hc : c.isAlphanum with
  | true => rw [topicChar_of_isAlphanum hc]
  | false =>
      have hunder : topicChar c = '_' := by
        have := topicChar_eq_underscore (c := c)
        simpa [hc] using this
      have hdigit : c.isDigit = false := by
        by_contra h
        rw [isAlphanum_of_isDigit (Bool.eq_true_of_not_eq_false h)] at hc
        cases hc
      rw [hunder, hdigit]
      rfl

theorem digitTail_token {name : String} (h : digitTail name.toList ≠ []) :
    digitTail (safePeerToken name).toList = digitTail name.toList := by
  rw [toList_safePeerToken, digitTail_map isDigit_topicChar fun c hc =>
    topicChar_of_isAlphanum (isAlphanum_of_isDigit hc), digitTail_stem h]

/-- The number of a peer name is the one that the digits at its end spell. -/
theorem peerNumber_eq_some {name : String} {number : Nat} (h : peerNumber name = some number) :
    digitTail name.toList ≠ [] ∧
      (digitTail name.toList).foldl (fun n c => 10 * n + (c.toNat - 48)) 0 = number := by
  unfold peerNumber at h
  simp only at h
  split at h
  · cases h
  · rename_i hdigits
    simp only [Bool.or_eq_true, not_or] at hdigits
    exact ⟨fun hnil => hdigits.1 (List.isEmpty_iff.mpr hnil), Option.some.inj h⟩

/-- Names with one token and numbers at their ends have the same number. -/
theorem peerNumber_of_token {a b : String} (h : safePeerToken a = safePeerToken b) {i j : Nat}
    (ha : peerNumber a = some i) (hb : peerNumber b = some j) : i = j := by
  obtain ⟨hane, hai⟩ := peerNumber_eq_some ha
  obtain ⟨hbne, hbj⟩ := peerNumber_eq_some hb
  have htail : digitTail a.toList = digitTail b.toList := by
    rw [← digitTail_token hane, ← digitTail_token hbne, h]
  rw [← hai, ← hbj, htail]

/-! ## Mesh names -/

/-- What one name adds to the address book. -/
def enterName (book : Std.ExtTreeMap UInt16 String) (normalized : String) :
    Std.ExtTreeMap UInt16 String :=
  match peerNumber normalized with
  | some number =>
      if 0 < number ∧ number ≤ 0x7fff then book.insertIfNew (UInt16.ofNat number) normalized
      else book
  | none => book

theorem meshPeerByAddress_eq_foldl (whitelist : List String) :
    meshPeerByAddress whitelist = whitelist.foldl enterName ∅ := rfl

theorem number_of_insertIfNew {book : Std.ExtTreeMap UInt16 String} {normalized : String}
    (hbook : ∀ (source : UInt16) (name : String), book[source]? = some name →
      peerNumber name = some source.toNat)
    {number : Nat} (hnumber : peerNumber normalized = some number) (hsmall : number ≤ 0x7fff)
    {source : UInt16} {name : String}
    (h : (book.insertIfNew (UInt16.ofNat number) normalized)[source]? = some name) :
    peerNumber name = some source.toNat := by
  rw [Std.ExtTreeMap.getElem?_insertIfNew] at h
  split at h
  · rename_i hkey
    cases h
    rw [← Std.LawfulEqCmp.compare_eq_iff_eq.mp hkey.1, hnumber,
      UInt16.toNat_ofNat_of_lt' (lt_of_le_of_lt hsmall (by decide))]
  · exact hbook source name h

theorem number_of_enterName {book : Std.ExtTreeMap UInt16 String} {normalized : String}
    (hbook : ∀ (source : UInt16) (name : String), book[source]? = some name →
      peerNumber name = some source.toNat)
    {source : UInt16} {name : String} (h : (enterName book normalized)[source]? = some name) :
    peerNumber name = some source.toNat := by
  unfold enterName at h
  split at h
  · rename_i number hnumber
    split at h
    · rename_i hrange
      exact number_of_insertIfNew hbook hnumber hrange.2 h
    · exact hbook source name h
  · exact hbook source name h

/-- The address book gives an address a name with its number. -/
theorem number_of_meshPeerByAddress {whitelist : List String} {source : UInt16} {name : String}
    (h : (meshPeerByAddress whitelist)[source]? = some name) :
    peerNumber name = some source.toNat := by
  have hfold : ∀ (peers : List String) (book : Std.ExtTreeMap UInt16 String),
      (∀ (source : UInt16) (name : String), book[source]? = some name →
        peerNumber name = some source.toNat) →
      ∀ (source : UInt16) (name : String), (peers.foldl enterName book)[source]? = some name →
        peerNumber name = some source.toNat := by
    intro peers
    induction peers with
    | nil => exact fun book hbook => hbook
    | cons normalized rest ih =>
        intro book hbook
        rw [List.foldl_cons]
        exact ih _ (fun _ _ => number_of_enterName hbook)
  rw [meshPeerByAddress_eq_foldl] at h
  exact hfold whitelist ∅ (by simp) source name h

/-- Where there is a whitelist, only named sources are admitted, and the names carry the
addresses. -/
theorem number_of_meshPeerName {m : Manager} (hm : m.Consistent) (hwhitelist : m.peerWhitelist ≠ [])
    {source : UInt16} {name : String} (h : meshPeerName m source = some name) :
    peerNumber name = some source.toNat := by
  unfold meshPeerName at h
  rw [hm.meshPeers] at h
  split at h
  · rename_i found hfound
    cases h
    exact number_of_meshPeerByAddress hfound
  · rw [if_pos hwhitelist] at h
    cases h

/-- A source without a name is known by its address. -/
theorem digitTail_unicast (number : Nat) :
    digitTail ("unicast_" ++ toString number).toList = (toString number).toList := by
  rw [String.toList_append]
  refine rtakeWhile_append (fun c hc => ?_) (fun c hc => ?_)
  · cases hc
    rfl
  · rw [Nat.toString_eq_repr, Nat.toList_repr] at hc
    exact Nat.isDigit_of_mem_toDigits (by decide) (by decide) hc

/-- **Two Mesh sources never share a token.** -/
theorem mesh_source_of_token {m : Manager} (hm : m.Consistent) {source source' : UInt16}
    {name name' : String} (h : meshPeerName m source = some name)
    (h' : meshPeerName m source' = some name') (htoken : safePeerToken name = safePeerToken name') :
    source = source' := by
  cases hwhitelist : m.peerWhitelist with
  | nil =>
      unfold meshPeerName at h h'
      rw [hm.meshPeers] at h h'
      -- Nobody is named: both are known by their addresses.
      have hbook : ∀ s : UInt16, (meshPeerByAddress [])[s]? = none := by
        intro s
        simp [meshPeerByAddress]
      simp only [hwhitelist, hbook, ne_eq, not_true_eq_false, if_false, Option.some.injEq] at h h'
      subst h h'
      have hne : ∀ n : Nat, digitTail ("unicast_" ++ toString n).toList ≠ [] := by
        intro n
        rw [digitTail_unicast, Nat.toString_eq_repr, Nat.toList_repr]
        exact Nat.toDigits_ne_nil
      have htail := congrArg (fun token => digitTail token.toList) htoken
      simp only [digitTail_token (hne _), digitTail_unicast] at htail
      exact UInt16.toNat_inj.mp (toList_toString_inj htail)
  | cons first rest =>
      have hne : m.peerWhitelist ≠ [] := by simp [hwhitelist]
      have hnumber := number_of_meshPeerName hm hne h
      have hnumber' := number_of_meshPeerName hm hne h'
      exact UInt16.toNat_inj.mp (peerNumber_of_token htoken hnumber hnumber')

/-! ## Addresses -/

theorem core_macName (mac : MacAddress) :
    core ("mac_" ++ mac.text) = 'm' :: 'a' :: 'c' :: '_' :: mac.text.toList := by
  obtain ⟨_, _, hlast, hne⟩ := hexPairs_spec mac.hexPairs
  unfold core
  rw [String.toList_append]
  refine Strip.strip_of_tight ⟨fun c hc => ?_, fun c hc => ?_⟩
  · cases hc
    rfl
  · rw [List.getLast?_append_of_ne_nil _ hne] at hc
    simp [hlast c hc]

/-- **Two addresses never share a token.** -/
theorem mac_of_alike {mac mac' : MacAddress} (h : Alike ("mac_" ++ mac.text) ("mac_" ++ mac'.text)) :
    mac.text = mac'.text := by
  have hstem : ∀ a : MacAddress, stem ("mac_" ++ a.text) =
      'm' :: 'a' :: 'c' :: '_' :: a.text.toList := by
    intro a
    unfold stem
    rw [core_macName]
    rfl
  unfold Alike at h
  rw [hstem, hstem] at h
  simp only [List.forall₂_cons] at h
  have hpairs := h.2.2.2.2
  have hmac := (hexPairs_spec mac.hexPairs).1
  have hmac' := (hexPairs_spec mac'.hexPairs).1
  rw [← String.toList_inj]
  generalize mac.text.toList = l at hpairs hmac
  generalize mac'.text.toList = l' at hpairs hmac'
  induction hpairs with
  | nil => rfl
  | @cons c d cs ds hcd _ ih =>
      have hhead : c = d := by
        rcases hcd with rfl | ⟨hc, hd⟩
        · rfl
        · have hc' := (hmac c List.mem_cons_self).resolve_left (by simp [hc])
          have hd' := (hmac' d List.mem_cons_self).resolve_left (by simp [hd])
          rw [hc', hd']
      rw [hhead, ih (fun x hx => hmac x (List.mem_cons_of_mem _ hx))
        (fun x hx => hmac' x (List.mem_cons_of_mem _ hx))]

/-! ## Isolation -/

/-- A packet of a peer, with what is known of the peer. -/
inductive Packet where
  | advertisement (hostname : String) (mac : MacAddress)
  | mesh (source : UInt16)
  | gatt (peerName : String) (mac : MacAddress)

/-- Who a packet comes from. -/
inductive Identity where
  | hostname (name : String)
  | mac (address : String)
  | unicast (address : UInt16)

def Packet.identity : Packet → Identity
  | .advertisement name mac | .gatt name mac =>
      if name = "" then .mac mac.text else .hostname name
  | .mesh source => .unicast source

/-- Whether the manager admits the packet; a GATT peer is admitted with its connection. -/
def Packet.Admitted (m : Manager) : Packet → Prop
  | .advertisement hostname mac => admitted m hostname mac.text = true
  | .mesh source => (meshPeerName m source).isSome
  | .gatt _ _ => True

/-- One peer: the same hostname, address or Mesh address, or a Mesh address with its name. -/
def SamePeer (m : Manager) : Identity → Identity → Prop
  | .hostname name, .unicast address => meshPeerName m address = some name
  | .unicast address, .hostname name => meshPeerName m address = some name
  | a, b => a = b

/-- The name that becomes the packet's token. -/
def Packet.name (m : Manager) : Packet → String
  | .advertisement hostname mac => advertisementPeer hostname mac.text
  | .mesh source => (meshPeerName m source).getD ""
  | .gatt peerName mac =>
      if sanitizeTopicSuffix peerName = "ble_device" then "mac_" ++ mac.text else peerName

/-- The token that the source gives the packet's peer. -/
def Packet.token (m : Manager) : Packet → String
  | .advertisement hostname mac => safePeerToken (advertisementPeer hostname mac.text)
  | .mesh source => safePeerToken ((meshPeerName m source).getD "")
  | .gatt peerName mac => peerTopicToken peerName mac.text

/-- The topic of the packet's peer below the manager's prefix. -/
def Packet.topic (m : Manager) (suffix : String) : Packet → String
  | .gatt peerName mac => peerBridgeTopic m.peersPrefix mac.text peerName suffix
  | packet => importTopic m.peersPrefix (packet.token m) suffix

/-- Two packets' data is kept apart: other tokens, no common topic, no common history. -/
structure Isolated (m : Manager) (p q : Packet) : Prop where
  tokens : p.token m ≠ q.token m
  topics : ∀ suffix suffix', p.topic m suffix ≠ q.topic m suffix'
  histories : ∀ now entry payload,
    (remember now entry (p.token m) payload).recent (q.token m) = entry.recent (q.token m)

/-- Two packets' names are alike, and neither are both addresses nor both Mesh addresses. -/
def Clash (m : Manager) (p q : Packet) : Prop :=
  match p.identity, q.identity with
  | .mac _, .mac _ => False
  | .unicast _, .unicast _ => False
  | _, _ => Alike (p.name m) (q.name m)

theorem sanitizeTopicSuffix_ne_empty (value : String) : sanitizeTopicSuffix value ≠ "" := by
  intro h
  have hne := (sanitizeTopicSuffix_safe value).1
  rw [h] at hne
  exact hne rfl

theorem sanitizeTopicSuffix_mac (mac : MacAddress) :
    "mac_" ++ sanitizeTopicSuffix mac.text = safePeerToken ("mac_" ++ mac.text) := by
  obtain ⟨_, hhead, hlast, hne⟩ := hexPairs_spec mac.hexPairs
  have hcore : core mac.text = mac.text.toList :=
    Strip.strip_of_tight ⟨fun c hc => by simp [hhead c hc], fun c hc => by simp [hlast c hc]⟩
  have hstem : stem ("mac_" ++ mac.text) = 'm' :: 'a' :: 'c' :: '_' :: mac.text.toList := by
    unfold stem
    rw [core_macName]
    rfl
  rw [← String.toList_inj, toList_safePeerToken, hstem, sanitizeTopicSuffix_eq, hcore,
    if_neg hne, String.toList_append, String.toList_ofList, String.toList_ofList]
  rfl

/-- A GATT peer's token is made as the other bridges make theirs, of the name or the address. -/
theorem token_eq (m : Manager) (p : Packet) : p.token m = safePeerToken (p.name m) := by
  cases p with
  | advertisement hostname mac => rfl
  | mesh source => rfl
  | gatt peerName mac =>
      show peerTopicToken peerName mac.text = safePeerToken
        (if sanitizeTopicSuffix peerName = "ble_device" then "mac_" ++ mac.text else peerName)
      have hne := sanitizeTopicSuffix_ne_empty peerName
      unfold peerTopicToken
      by_cases hname : sanitizeTopicSuffix peerName = "ble_device"
      · have hdigit : ((safePeerToken ("mac_" ++ mac.text)).toList.headD 'a').isDigit =
            false := by
          rw [← sanitizeTopicSuffix_mac, String.toList_append]
          rfl
        simp only [hname, or_true, if_true, sanitizeTopicSuffix_mac, hdigit]
        simp
      · simp [hname, hne, safePeerToken]

theorem token_safe (m : Manager) (p : Packet) :
    (p.token m).toList ≠ [] ∧ ∀ c ∈ (p.token m).toList, topicSafe c = true := by
  rw [token_eq]
  exact safePeerToken_safe _

/-- A packet's topic is its prefix, its token, and what the bridge's suffix leaves. -/
theorem topic_eq (m : Manager) (p : Packet) (suffix : String) :
    ∃ after : String, (after.toList = [] ∨ ∃ rest, after.toList = '/' :: rest) ∧
      p.topic m suffix = normalizeRosTopic (m.peersPrefix ++ "/" ++ p.token m ++ after) := by
  have himport : ∀ token : String, importTopic m.peersPrefix token suffix =
      normalizeRosTopic (m.peersPrefix ++ "/" ++ token ++ ("/" ++ suffix)) := by
    intro token
    unfold importTopic
    rw [@String.append_assoc _ "/" suffix]
  have hsuffix : ∀ value : String, ∃ rest, ("/" ++ value).toList = '/' :: rest :=
    fun value => ⟨value.toList, by simp⟩
  cases p with
  | advertisement hostname mac => exact ⟨"/" ++ suffix, Or.inr (hsuffix suffix), himport _⟩
  | mesh source => exact ⟨"/" ++ suffix, Or.inr (hsuffix suffix), himport _⟩
  | gatt peerName mac =>
      by_cases hblank : trimTopicSegment suffix = ""
      · refine ⟨"", Or.inl rfl, ?_⟩
        simp [Packet.topic, peerBridgeTopic, Packet.token, hblank]
      · refine ⟨"/" ++ trimTopicSegment suffix, Or.inr (hsuffix _), ?_⟩
        simp [Packet.topic, peerBridgeTopic, Packet.token, hblank, String.append_assoc]

theorem topic_ne {m : Manager} {p q : Packet} (h : p.token m ≠ q.token m)
    (suffix suffix' : String) : p.topic m suffix ≠ q.topic m suffix' := by
  obtain ⟨after, hafter, htopic⟩ := topic_eq m p suffix
  obtain ⟨after', hafter', htopic'⟩ := topic_eq m q suffix'
  intro hsame
  rw [htopic, htopic'] at hsame
  exact h (component_of_normalize (token_safe m p) (token_safe m q) hafter hafter' hsame)

theorem recent_remember_of_ne {token token' : String} (h : token ≠ token') (now : Time)
    (entry : Entry) (payload : Bytes) :
    (remember now entry token payload).recent token' = entry.recent token' := by
  unfold remember
  simp only
  split
  · rfl
  · unfold Entry.recent
    rw [Std.ExtTreeMap.getElem?_insert, if_neg (by simpa using h)]

/-- **Two packets are kept apart** iff their names are not alike. -/
theorem isolated_iff {m : Manager} {p q : Packet} :
    Isolated m p q ↔ ¬ Alike (p.name m) (q.name m) := by
  rw [← safePeerToken_eq_iff, ← token_eq, ← token_eq]
  exact ⟨fun h => h.tokens, fun h => ⟨h, topic_ne h, recent_remember_of_ne h⟩⟩

theorem name_of_mac {m : Manager} {p : Packet} {address : String}
    (h : p.identity = .mac address) :
    ∃ mac : MacAddress, mac.text = address ∧ p.name m = "mac_" ++ mac.text := by
  cases p with
  | mesh source => cases h
  | advertisement hostname mac | gatt peerName mac =>
      simp only [Packet.identity] at h
      split at h
      · rename_i hempty
        subst hempty
        exact ⟨mac, Identity.mac.inj h, rfl⟩
      · cases h

theorem name_of_unicast {m : Manager} {p : Packet} (hp : p.Admitted m) {address : UInt16}
    (h : p.identity = .unicast address) : meshPeerName m address = some (p.name m) := by
  cases p with
  | mesh source =>
      cases h
      obtain ⟨name, hname⟩ := Option.isSome_iff_exists.mp hp
      simp [Packet.name, hname]
  | advertisement hostname mac | gatt peerName mac =>
      simp only [Packet.identity] at h
      split at h <;> cases h

/-- **When the data of two peers is kept apart.** Two Mesh sources and two peers without a
hostname always are; others, iff their names differ in more than the characters that a
sanitised name forgets. -/
theorem peer_isolation_iff {ros : Ros} {m : Manager}
    (h : Run.Reachable (Manager.step ros) (· = {}) m) {p q : Packet} (hp : p.Admitted m)
    (hq : q.Admitted m) (hpq : ¬ SamePeer m p.identity q.identity) :
    Isolated m p q ↔ ¬ Clash m p q := by
  have hconsistent := consistent_reachable h
  rw [isolated_iff, not_iff_not]
  unfold Clash
  cases hpi : p.identity with
  | hostname name => exact Iff.rfl
  | mac address =>
      cases hqi : q.identity with
      | hostname name => exact Iff.rfl
      | unicast source => exact Iff.rfl
      | mac address' =>
          refine iff_of_false (fun halike => hpq ?_) id
          obtain ⟨mac, rfl, hname⟩ := name_of_mac (m := m) hpi
          obtain ⟨mac', rfl, hname'⟩ := name_of_mac (m := m) hqi
          rw [hname, hname'] at halike
          rw [hpi, hqi, mac_of_alike halike]
          rfl
  | unicast source =>
      cases hqi : q.identity with
      | hostname name => exact Iff.rfl
      | mac address => exact Iff.rfl
      | unicast source' =>
          refine iff_of_false (fun halike => hpq ?_) id
          have hsource := mesh_source_of_token hconsistent (name_of_unicast hp hpi)
            (name_of_unicast hq hqi) (safePeerToken_eq_iff.mpr halike)
          rw [hpi, hqi, hsource]
          rfl

/-- A manager with a framed advertisement importer and the peers of a whitelist. -/
def whitelisted (peers : List String) : Manager :=
  (configure (fun _ => true)
    [{ transport := .advertisement, channelId := 1, mode := .import }] "/uavs" peers {}).2

theorem whitelisted_reachable (ros : Ros) (peers : List String) :
    Run.Reachable (Manager.step ros) (· = {}) (whitelisted peers) :=
  .next (a := .configure (fun _ => true)
    [{ transport := .advertisement, channelId := 1, mode := .import }] "/uavs" peers)
    (.start rfl) trivial rfl

def firstAddress : MacAddress := ⟨"AA:BB:CC:DD:EE:01", by decide⟩

def secondAddress : MacAddress := ⟨"AA:BB:CC:DD:EE:02", by decide⟩

theorem peer_isolation_iff_numbered :
    Isolated (whitelisted ["uav1", "uav2"]) (.advertisement "uav1" firstAddress)
      (.gatt "uav2" secondAddress) := by
  have hadmitted : admitted (whitelisted ["uav1", "uav2"]) "uav1" firstAddress.text = true := by
    decide
  have hother : "uav1" ≠ "uav2" := by decide
  have hclash : ¬ Alike "uav1" "uav2" := by decide
  exact (peer_isolation_iff (whitelisted_reachable { decode := fun _ _ => none } _)
    (p := .advertisement "uav1" firstAddress) (q := .gatt "uav2" secondAddress) hadmitted trivial
    (fun hsame => hother (Identity.hostname.inj hsame))).mpr hclash

/-- Two whitelisted peers whose names differ in a hyphen and an underscore share a token. -/
theorem hyphen_peer_shares_topic :
    ∃ m : Manager, Run.Reachable (Manager.step { decode := fun _ _ => none }) (· = {}) m ∧
      (Packet.advertisement "uav-1" firstAddress).Admitted m ∧
      (Packet.advertisement "uav_1" secondAddress).Admitted m ∧
      ¬ SamePeer m (Packet.advertisement "uav-1" firstAddress).identity
        (Packet.advertisement "uav_1" secondAddress).identity ∧
      ¬ Isolated m (.advertisement "uav-1" firstAddress)
        (.advertisement "uav_1" secondAddress) := by
  have hadmitted : admitted (whitelisted ["uav-1", "uav_1"]) "uav-1" firstAddress.text = true ∧
      admitted (whitelisted ["uav-1", "uav_1"]) "uav_1" secondAddress.text = true := by decide
  have hother : "uav-1" ≠ "uav_1" := by decide
  have halike : Alike "uav-1" "uav_1" := by decide
  exact ⟨whitelisted ["uav-1", "uav_1"], whitelisted_reachable _ _, hadmitted.1, hadmitted.2,
    fun hsame => hother (Identity.hostname.inj hsame),
    fun hisolated => hisolated.tokens (safePeerToken_eq_iff.mpr halike)⟩

end UavBluetooth.Bridge
