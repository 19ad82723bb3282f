import UavBluetooth.Config.SharedNodes
import UavBluetooth.Lib.Fallible
import UavBluetooth.Util.Text

set_option autoImplicit false

/-! # Netplan documents

How `NetplanManager` reads and edits a netplan document, and in which order it hands the parts
of the document to the emitter. Indexing a constant node looks a key up; it throws for a scalar and
for the invalid node, and what it finds depends on the tree alone. The edit indexes mutable nodes
and assigns them: what it assigns changes wherever an alias leads to it.
-/

namespace UavBluetooth.Network

open Util Yaml

/-! ## Indexing -/

def invalidNode : String := "invalid node"

/-- `node[key]` on a constant node. -/
def constIndex (node : Option Node) (key : String) : Except String (Option Node) :=
  match node with
  | none => .error invalidNode
  | some (.scalar _) => .error badSubscript
  | some node => .ok (node.get key)

/-- The entries once the first one under the key has the value. -/
def setKey (key : String) (value : Node) : List (Node × Node) → List (Node × Node)
  | [] => [(.scalar key, value)]
  | entry :: entries =>
      if entry.1.isKey key then (entry.1, value) :: entries else entry :: setKey key value entries

/-! ## Reading -/

/-- `config["network"]["wifis"]["wlan0"]["access-points"]` -/
def accessPoints (config : Node) : Except String (Option Node) := do
  let network ← constIndex (some config) "network"
  let wifis ← constIndex network "wifis"
  let wlan0 ← constIndex wifis "wlan0"
  constIndex wlan0 "access-points"

def readAccessPointSsid (config : Node) : Except String String := do
  match ← accessPoints config with
  | some (.map ((ap, _) :: _)) => return asStringOr "" (some ap)
  | _ => return ""

def readAccessPointPassword (config : Node) : Except String String := do
  match ← accessPoints config with
  | some (.map ((_, .map apCfg) :: _)) =>
      match Node.get (.map apCfg) "password" with
      | none => return ""
      | some password => return asStringOr "" (some password)
  | _ => return ""

/-! ## Editing -/

/-- The digits after the first occurrence of `uav`. -/
def uavDigits : List Char → Option (List Char)
  | [] => none
  | c :: cs =>
      if ['u', 'a', 'v'].isPrefixOf (c :: cs) then some ((cs.drop 2).takeWhile Char.isDigit)
      else uavDigits cs

def defaultUavStaticAddress (hostname : String) : String :=
  let digits :=
    match uavDigits (hostname.toList.map Char.toLower) with
    | none | some [] => "00"
    | some [digit] => "0" ++ String.ofList [digit]
    | some digits => String.ofList (digits.drop (digits.length - 2))
  "192.168.69.1" ++ digits ++ "/24"

/-- A new `wlan0`. -/
def newInterface (hostname : String) : Node :=
  .map [(.scalar "dhcp4", .scalar "false"), (.scalar "dhcp6", .scalar "false"),
    (.scalar "addresses", .sequence [.scalar (defaultUavStaticAddress hostname)])]

/-- The credentials of the requested access point. -/
def accessPointConfig (password : Option String) (previousPassword : String) : Node :=
  let given := (password.map trimAsciiCopy).getD ""
  if given ≠ "" then .map [(.scalar "password", .scalar given)]
  else if previousPassword ≠ "" then .map [(.scalar "password", .scalar previousPassword)]
  else .map []

/-- The access points with the requested one alone. -/
def requestedAps (ssid : String) (password : Option String) (previousPassword : String) : Node :=
  .map [(.scalar ssid, accessPointConfig password previousPassword)]

def hasEntries : Data → Bool
  | .map (_ :: _) => true
  | _ => false

/-- `node = YAML::Node(...)`, unless the node will do. What is assigned is built of new nodes. -/
def orElse (suits : Data → Bool) (otherwise : Node) (m : Memory) (n : Nat) : Memory :=
  if suits (m.content n) then m
  else
    let (m, new) := load m otherwise
    m.assign n new

/-- The edit of the nodes: the access points of `wlan0` are assigned the requested one. -/
def editNodes (hostname : String) (m : Memory) (config : Nat) (ssid : String)
    (password : Option String) (previousPassword : String) : Except String Memory := do
  let (m, network) ← subscript m config "network"
  let m := orElse Data.isMap (.map []) m network
  let (m, wifis) ← subscript m network "wifis"
  let m := orElse hasEntries (.map [(.scalar "wlan0", .map [])]) m wifis
  let (m, interface) ← subscript m wifis "wlan0"
  let m := orElse Data.isMap (newInterface hostname) m interface
  let (m, aps) := load m (requestedAps ssid password previousPassword)
  let (m, slot) ← subscript m interface "access-points"
  let m := m.assign slot aps
  -- `wlan0` is this node already, if its key has not changed with the access points
  let (m, slot) ← subscript m wifis "wlan0"
  return m.assign slot interface

/-- The edited document, which is at most six levels deeper. -/
def editDocument (hostname : String) (config : Document) (ssid : String) (password : Option String)
    (previousPassword : String) : Except String Node := do
  let m ← editNodes hostname config.memory config.root ssid password previousPassword
  return m.treeOf (config.depth + 6) config.root

/-! ## Emitting -/

/-- What the emitter is given. -/
inductive Token where
  | beginMap | endMap | key | value | beginSeq | endSeq
  | doubleQuoted (text : String)
  | node (n : Node)

mutual

def emitYamlNode : Node → Bool → List Token
  | .map entries, doubleQuoteMapKeys =>
      .beginMap :: emitEntries entries doubleQuoteMapKeys ++ [.endMap]
  | .sequence items, _ => .beginSeq :: emitItems items ++ [.endSeq]
  | node, _ => [.node node]

def emitEntries : List (Node × Node) → Bool → List Token
  | [], _ => []
  | (key, value) :: entries, doubleQuoteMapKeys =>
      let text := asStringOr "" (some key)
      .key :: (if doubleQuoteMapKeys then [.doubleQuoted text] else emitYamlNode key false) ++
        .value :: emitYamlNode value (text == "access-points") ++
        emitEntries entries doubleQuoteMapKeys

def emitItems : List Node → List Token
  | [] => []
  | item :: items => emitYamlNode item false ++ emitItems items

end

/-! ## What was read can be edited -/

/-- A document whose password can be read is a mapping. -/
theorem isMap_of_readAccessPointPassword {config : Node} {password : String}
    (h : readAccessPointPassword config = .ok password) : config.isMap = true := by
  cases config with
  | map entries => rfl
  | null => cases h
  | scalar text => cases h
  | sequence items => cases h

theorem keeps_orElse {suits : Data → Bool} {entries : List (Node × Node)} {m : Memory} {n : Nat}
    (h : m.Closed) (hsuits : ∀ data, suits data = true → data.isMap = true) :
    m.Keeps (orElse suits (.map entries) m n) ∧
      ((orElse suits (.map entries) m n).content n).isMap = true := by
  unfold orElse
  split
  · rename_i hn
    exact ⟨.refl h, hsuits _ hn⟩
  · have hloaded := closed_load (.map entries) h
    have hkept := (load_stores (.map entries) m).1.keeps h hloaded
    refine ⟨hkept.trans (hloaded.keeps_assign (load_lt (.map entries) m) (isMap_load m entries)), ?_⟩
    rw [Memory.content_assign_self]
    exact isMap_load m entries

theorem isMap_of_hasEntries {data : Data} (h : hasEntries data = true) : data.isMap = true := by
  cases data with
  | map pairs => rfl
  | undefined => cases h
  | null => cases h
  | scalar text => cases h
  | sequence items => cases h

/-- The edit of a document whose password was read does not throw. -/
theorem editDocument_ok {config : Document} (h : config.tree.isMap = true) (hostname ssid : String)
    (password : Option String) (previousPassword : String) :
    ∃ document, editDocument hostname config ssid password previousPassword = .ok document := by
  have hroot := isMap_content_of_treeOf h
  have hmaps : ∀ data : Data, data.isMap = true → data.isMap = true := fun _ => id
  obtain ⟨m₁, network, hs₁, hnetwork, hk₁⟩ :=
    exists_subscript config.closed config.root_lt hroot "network"
  obtain ⟨hk₂, hmap₂⟩ := @keeps_orElse Data.isMap [] m₁ network hk₁.closed hmaps
  obtain ⟨m₃, wifis, hs₃, hwifis, hk₃⟩ :=
    exists_subscript hk₂.closed (hnetwork.trans_le hk₂.next) hmap₂ "wifis"
  obtain ⟨hk₄, hmap₄⟩ := @keeps_orElse hasEntries [(.scalar "wlan0", .map [])] m₃ wifis hk₃.closed
    fun _ => isMap_of_hasEntries
  have hwifis₄ := hwifis.trans_le hk₄.next
  obtain ⟨m₅, interface, hs₅, hinterface, hk₅⟩ :=
    exists_subscript hk₄.closed hwifis₄ hmap₄ "wlan0"
  obtain ⟨hk₆, hmap₆⟩ : m₅.Keeps (orElse Data.isMap (newInterface hostname) m₅ interface) ∧ _ :=
    keeps_orElse hk₅.closed hmaps
  have hinterface₆ := hinterface.trans_le hk₆.next
  -- The requested access point is a map among the new nodes, and is assigned.
  have hk₇ := (load_stores (requestedAps ssid password previousPassword)
    (orElse Data.isMap (newInterface hostname) m₅ interface)).1.keeps hk₆.closed
      (closed_load _ hk₆.closed)
  obtain ⟨m₈, slot, hs₈, hslot, hk₈⟩ := exists_subscript hk₇.closed (hinterface₆.trans_le hk₇.next)
    (hk₇.maps interface hinterface₆ hmap₆) "access-points"
  have haps := load_lt (requestedAps ssid password previousPassword)
    (orElse Data.isMap (newInterface hostname) m₅ interface)
  have hk₉ := @Memory.Closed.keeps_assign m₈ slot _ hk₈.closed (haps.trans_le hk₈.next)
    (hk₈.maps _ haps (isMap_load _ _))
  -- The interfaces have been a map all the while.
  have hkept := (((hk₅.trans hk₆).trans hk₇).trans hk₈).trans hk₉
  obtain ⟨m₁₀, slot', hs₁₀, -, -⟩ := exists_subscript hk₉.closed (hwifis₄.trans_le hkept.next)
    (hkept.maps wifis hwifis₄ hmap₄) "wlan0"
  refine ⟨(m₁₀.assign slot' interface).treeOf (config.depth + 6) config.root, ?_⟩
  simp only [editDocument, editNodes, hs₁, hs₃, hs₅, hs₈, hs₁₀, bind, Except.bind, pure,
    Except.pure]

end UavBluetooth.Network
