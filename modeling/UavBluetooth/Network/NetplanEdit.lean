import UavBluetooth.Network.NetplanManager

set_option autoImplicit false

/-! # What the edit of a netplan document is to change

The password of the saved access point is read from the document, and the document is handed to the
emitter item by item. The stream of items spells one tree (`spelled_emitYamlNode`). The reading does
not get past a missing `network`, `wifis` or `wlan0`, although the edit would make one.

`EditedFrom` is what the edit is for: the document outside of `network.wifis.wlan0`, and the
requested access point in there.
-/

namespace UavBluetooth.Network

open Util Yaml

/-! ## Paths -/

/-- The node at a path of keys. -/
def nodeAt : Node → List String → Option Node
  | node, [] => some node
  | node, key :: path => (node.get key).bind fun child => nodeAt child path

/-- The tree with another node at a path of keys. -/
def setAt (value : Node) : List String → Node → Node
  | [], _ => value
  | key :: path, node =>
      .map (setKey key (setAt value path ((node.get key).getD (.map []))) node.entries)

def wlan0Path : List String := ["network", "wifis", "wlan0"]

section

variable {key other : String} {value node : Node} {entries : List (Node × Node)}

theorem get_cons (entry : Node × Node) :
    Node.get (.map (entry :: entries)) key =
      if entry.1.isKey key then some entry.2 else Node.get (.map entries) key := by
  unfold Node.get Node.entries
  rw [List.find?_cons]
  cases entry.1.isKey key <;> rfl

@[simp] theorem isKey_scalar (text : String) : Node.isKey key (.scalar text) = (text == key) := rfl

theorem eq_of_isKey {node : Node} (h : node.isKey key = true) : node = .scalar key := by
  cases node with
  | scalar text =>
      rw [isKey_scalar, beq_iff_eq] at h
      rw [h]
  | null => cases h
  | sequence items => cases h
  | map entries => cases h

@[simp] theorem get_setKey_self : Node.get (.map (setKey key value entries)) key = some value := by
  induction entries with
  | nil => rw [setKey, get_cons, if_pos (by simp)]
  | cons entry entries ih =>
      unfold setKey
      by_cases hkey : entry.1.isKey key = true
      · rw [if_pos hkey, get_cons, if_pos hkey]
      · rw [if_neg hkey, get_cons, if_neg hkey, ih]

theorem get_setKey_of_ne (h : other ≠ key) :
    Node.get (.map (setKey key value entries)) other = Node.get (.map entries) other := by
  induction entries with
  | nil =>
      have hother : Node.isKey other (.scalar key) = false := by simp [h.symm]
      rw [setKey, get_cons, hother]
      rfl
  | cons entry entries ih =>
      unfold setKey
      by_cases hkey : entry.1.isKey key = true
      · have hother : entry.1.isKey other = false := by
          rw [eq_of_isKey hkey, isKey_scalar]
          simp [h.symm]
        rw [if_pos hkey, get_cons, get_cons, hother, if_neg Bool.false_ne_true,
          if_neg Bool.false_ne_true]
      · rw [if_neg hkey, get_cons, get_cons, ih]

/-- A path that begins with another key misses what is set. -/
theorem nodeAt_setKey_of_ne {path : List String} (h : other ≠ key) :
    nodeAt (.map (setKey key value entries)) (other :: path) =
      nodeAt (.map entries) (other :: path) := by
  rw [nodeAt, nodeAt, get_setKey_of_ne h]

theorem nodeAt_setKey_self {path : List String} :
    nodeAt (.map (setKey key value entries)) (key :: path) = nodeAt value path := by
  rw [nodeAt, get_setKey_self]
  rfl

end

/-! ## Text keys -/

mutual

/-- All keys of the tree are texts. -/
def stringKeys : Node → Bool
  | .map entries => stringKeysEntries entries
  | .sequence items => stringKeysItems items
  | _ => true

def stringKeysEntries : List (Node × Node) → Bool
  | [] => true
  | (.scalar _, value) :: entries => stringKeys value && stringKeysEntries entries
  | _ :: _ => false

def stringKeysItems : List Node → Bool
  | [] => true
  | item :: items => stringKeys item && stringKeysItems items

end

theorem stringKeysEntries_cons {key value : Node} {entries : List (Node × Node)}
    (h : stringKeysEntries ((key, value) :: entries) = true) :
    (∃ text, key = .scalar text) ∧ stringKeys value = true ∧ stringKeysEntries entries = true := by
  cases key with
  | scalar text =>
      rw [stringKeysEntries, Bool.and_eq_true] at h
      exact ⟨⟨text, rfl⟩, h⟩
  | null => cases h
  | sequence items => cases h
  | map entries => cases h

theorem stringKeysEntries_iff {entries : List (Node × Node)} : stringKeysEntries entries = true ↔
    ∀ entry ∈ entries, (∃ text, entry.1 = .scalar text) ∧ stringKeys entry.2 = true := by
  induction entries with
  | nil => exact iff_of_true rfl fun entry hentry => by cases hentry
  | cons entry entries ih =>
      rw [List.forall_mem_cons, ← ih]
      constructor
      · intro h
        obtain ⟨hkey, hvalue, hrest⟩ := stringKeysEntries_cons h
        exact ⟨⟨hkey, hvalue⟩, hrest⟩
      · obtain ⟨key, value⟩ := entry
        rintro ⟨⟨⟨text, rfl⟩, hvalue⟩, hrest⟩
        rw [stringKeysEntries, hvalue, hrest, Bool.and_self]

theorem stringKeysItems_iff {items : List Node} :
    stringKeysItems items = true ↔ ∀ item ∈ items, stringKeys item = true := by
  induction items with
  | nil => exact iff_of_true rfl fun item hitem => by cases hitem
  | cons item items ih => rw [stringKeysItems, Bool.and_eq_true, List.forall_mem_cons, ih]

theorem stringKeys_get {key : String} {value : Node} {entries : List (Node × Node)}
    (h : stringKeysEntries entries = true) (hget : Node.get (.map entries) key = some value) :
    stringKeys value = true := by
  induction entries with
  | nil => cases hget
  | cons entry entries ih =>
      obtain ⟨-, hvalue, hrest⟩ := stringKeysEntries_cons h
      rw [get_cons] at hget
      split at hget
      · cases hget
        exact hvalue
      · exact ih hrest hget

/-! ## The tree that a stream spells -/

/-- A collection under construction. -/
inductive Frame where
  | items (done : List Node)
  | entries (done : List (Node × Node)) (key : Option Node)

/-- A finished node goes into the innermost collection. -/
def putNode (node : Node) : List Frame → Option (List Frame)
  | [] => none
  | .items done :: frames => some (.items (done ++ [node]) :: frames)
  | .entries done none :: frames => some (.entries done (some node) :: frames)
  | .entries done (some key) :: frames => some (.entries (done ++ [(key, node)]) none :: frames)

def readToken (frames : List Frame) : Token → Option (List Frame)
  | .beginMap => some (.entries [] none :: frames)
  | .beginSeq => some (.items [] :: frames)
  | .endMap =>
      match frames with
      | .entries done none :: frames => putNode (.map done) frames
      | _ => none
  | .endSeq =>
      match frames with
      | .items done :: frames => putNode (.sequence done) frames
      | _ => none
  | .key =>
      match frames with
      | .entries _ none :: _ => some frames
      | _ => none
  | .value =>
      match frames with
      | .entries _ (some _) :: _ => some frames
      | _ => none
  | .doubleQuoted text => putNode (.scalar text) frames
  | .node node => putNode node frames

def readTokens (frames : List Frame) (tokens : List Token) : Option (List Frame) :=
  tokens.foldlM readToken frames

/-- The one document of a stream. -/
def spelled (tokens : List Token) : Option Node :=
  match readTokens [.items []] tokens with
  | some [.items [node]] => some node
  | _ => none

section

variable {frames : List Frame}

@[simp] theorem readTokens_nil : readTokens frames [] = some frames := rfl

@[simp] theorem readTokens_cons (token : Token) (tokens : List Token) :
    readTokens frames (token :: tokens) =
      (readToken frames token).bind fun frames => readTokens frames tokens :=
  List.foldlM_cons

@[simp] theorem readTokens_append (tokens later : List Token) :
    readTokens frames (tokens ++ later) =
      (readTokens frames tokens).bind fun frames => readTokens frames later :=
  List.foldlM_append ..

end

mutual

/-- **The emitter is given the node and nothing else.** -/
theorem readTokens_emitYamlNode : ∀ (node : Node) (doubleQuoteMapKeys : Bool)
    (frames : List Frame), stringKeys node = true →
      readTokens frames (emitYamlNode node doubleQuoteMapKeys) = putNode node frames
  | .map entries, doubleQuoteMapKeys, frames, h => by
      have hentries :=
        readTokens_emitEntries entries doubleQuoteMapKeys [] frames (by rwa [stringKeys] at h)
      rw [emitYamlNode, readTokens_append, readTokens_cons]
      change ((readTokens (.entries [] none :: frames)
        (emitEntries entries doubleQuoteMapKeys)).bind _) = _
      rw [hentries, List.nil_append, Option.bind_some, readTokens_cons, readToken]
      cases putNode (.map entries) frames <;> rfl
  | .sequence items, doubleQuoteMapKeys, frames, h => by
      have hitems := readTokens_emitItems items [] frames (by rwa [stringKeys] at h)
      rw [emitYamlNode, readTokens_append, readTokens_cons]
      change ((readTokens (.items [] :: frames) (emitItems items)).bind _) = _
      rw [hitems, List.nil_append, Option.bind_some, readTokens_cons, readToken]
      cases putNode (.sequence items) frames <;> rfl
  | .scalar text, doubleQuoteMapKeys, frames, _ => by
      simp only [emitYamlNode, readTokens_cons, readToken]
      cases putNode (.scalar text) frames <;> rfl
  | .null, doubleQuoteMapKeys, frames, _ => by
      simp only [emitYamlNode, readTokens_cons, readToken]
      cases putNode .null frames <;> rfl

theorem readTokens_emitEntries : ∀ (entries : List (Node × Node)) (doubleQuoteMapKeys : Bool)
    (done : List (Node × Node)) (frames : List Frame), stringKeysEntries entries = true →
      readTokens (.entries done none :: frames) (emitEntries entries doubleQuoteMapKeys) =
        some (.entries (done ++ entries) none :: frames)
  | [], _, done, frames, _ => by
      rw [emitEntries, readTokens_nil, List.append_nil]
  | (key, value) :: entries, doubleQuoteMapKeys, done, frames, h => by
      obtain ⟨⟨text, htext⟩, hvalue, hrest⟩ := stringKeysEntries_cons h
      subst htext
      -- A key is the same text with and without the quotes.
      have hkey : readTokens (.entries done none :: frames)
          (if doubleQuoteMapKeys then [.doubleQuoted text] else emitYamlNode (.scalar text) false) =
            some (.entries done (some (.scalar text)) :: frames) := by
        cases doubleQuoteMapKeys <;> rfl
      have hnode := readTokens_emitYamlNode value (text == "access-points")
        (.entries done (some (.scalar text)) :: frames) hvalue
      have hentries := readTokens_emitEntries entries doubleQuoteMapKeys
        (done ++ [(.scalar text, value)]) frames hrest
      have htext : asStringOr "" (some (.scalar text)) = text := rfl
      rw [emitEntries, htext]
      simp only [List.append_assoc, List.cons_append]
      rw [readTokens_cons, readToken, Option.bind_some, readTokens_append, hkey, Option.bind_some,
        readTokens_cons, readToken, Option.bind_some, readTokens_append, hnode, putNode,
        Option.bind_some, hentries, List.append_assoc, List.singleton_append]

theorem readTokens_emitItems : ∀ (items done : List Node) (frames : List Frame),
    stringKeysItems items = true →
      readTokens (.items done :: frames) (emitItems items) = some (.items (done ++ items) :: frames)
  | [], done, frames, _ => by
      rw [emitItems, readTokens_nil, List.append_nil]
  | item :: items, done, frames, h => by
      rw [stringKeysItems, Bool.and_eq_true] at h
      have hitem := readTokens_emitYamlNode item false (.items done :: frames) h.1
      have hitems := readTokens_emitItems items (done ++ [item]) frames h.2
      rw [emitItems, readTokens_append, hitem, putNode, Option.bind_some, hitems,
        List.append_assoc, List.singleton_append]

end

/-- What is emitted of a document with text keys spells the document. -/
theorem spelled_emitYamlNode {document : Node} (h : stringKeys document = true) :
    spelled (emitYamlNode document false) = some document := by
  rw [spelled, readTokens_emitYamlNode document false [.items []] h]
  rfl

/-! ## Reading -/

theorem nodeAt_cons {node : Node} {key : String} {path : List String} :
    nodeAt node (key :: path) = (node.get key).bind fun child => nodeAt child path := rfl

/-- The parents of `wlan0` and `wlan0` itself are absent or mappings. -/
def AbsentOrMaps (config : Node) : Prop :=
  ∀ path ∈ [["network"], ["network", "wifis"], wlan0Path], ∀ node,
    nodeAt config path = some node → node.isMap = true

/-- The password of the access point that the document lists first. -/
def savedPassword (config : Node) : String :=
  match nodeAt config (wlan0Path ++ ["access-points"]) with
  | some (.map ((_, settings) :: _)) => (asString (settings.get "password")).toOption.getD ""
  | _ => ""

section

variable {config : Node}

theorem exists_map_of_isMap {node : Node} (h : node.isMap = true) :
    ∃ entries, node = .map entries := by
  cases node with
  | map entries => exact ⟨entries, rfl⟩
  | null => cases h
  | scalar text => cases h
  | sequence items => cases h

/-- What is there at `network.wifis.wlan0`, level by level. -/
theorem levels_of_wlan0 (hmaps : AbsentOrMaps config)
    (h : (nodeAt config wlan0Path).isSome = true) :
    ∃ document network wifis interface, config = .map document ∧
      Node.get (.map document) "network" = some (.map network) ∧
      Node.get (.map network) "wifis" = some (.map wifis) ∧
      Node.get (.map wifis) "wlan0" = some (.map interface) := by
  obtain ⟨wlan0, hwlan0⟩ := Option.isSome_iff_exists.mp h
  obtain ⟨network, hnetwork, hbelow⟩ := Option.bind_eq_some_iff.mp hwlan0
  obtain ⟨wifis, hwifis, hbelow'⟩ := Option.bind_eq_some_iff.mp hbelow
  obtain ⟨interface, hinterface, hlast⟩ := Option.bind_eq_some_iff.mp hbelow'
  obtain rfl : interface = wlan0 := Option.some.inj hlast
  obtain ⟨networkEntries, rfl⟩ := exists_map_of_isMap <|
    hmaps ["network"] List.mem_cons_self network (by rw [nodeAt, hnetwork]; rfl)
  obtain ⟨wifisEntries, rfl⟩ := exists_map_of_isMap <|
    hmaps ["network", "wifis"] (List.mem_cons_of_mem _ List.mem_cons_self) wifis
      (by rw [nodeAt, hnetwork, Option.bind_some, nodeAt, hwifis]; rfl)
  obtain ⟨interfaceEntries, rfl⟩ := exists_map_of_isMap <|
    hmaps wlan0Path (List.mem_cons_of_mem _ (List.mem_cons_of_mem _ List.mem_cons_self)) interface
      hwlan0
  cases config with
  | map document => exact ⟨document, _, _, _, rfl, hnetwork, hwifis, hinterface⟩
  | null => cases hnetwork
  | scalar text => cases hnetwork
  | sequence items => cases hnetwork

/-- Without `wlan0` the reading throws, since a lookup in what is not there does. -/
theorem readAccessPointPassword_of_absent (hmaps : AbsentOrMaps config)
    (h : nodeAt config wlan0Path = none) : ∃ e, readAccessPointPassword config = .error e := by
  have hthrows : ∃ e, accessPoints config = .error e := by
    cases hnetwork : config.get "network" with
    | none =>
        cases config with
        | scalar text => exact ⟨badSubscript, rfl⟩
        | null => exact ⟨invalidNode, rfl⟩
        | sequence items => exact ⟨invalidNode, rfl⟩
        | map document =>
            refine ⟨invalidNode, ?_⟩
            simp only [accessPoints, constIndex, hnetwork]
            rfl
    | some network =>
        obtain ⟨document, rfl⟩ : ∃ document, config = .map document := by
          cases config with
          | map document => exact ⟨document, rfl⟩
          | null => cases hnetwork
          | scalar text => cases hnetwork
          | sequence items => cases hnetwork
        obtain ⟨networkEntries, rfl⟩ := exists_map_of_isMap <|
          hmaps ["network"] List.mem_cons_self network (by rw [nodeAt, hnetwork]; rfl)
        cases hwifis : Node.get (.map networkEntries) "wifis" with
        | none =>
            refine ⟨invalidNode, ?_⟩
            simp only [accessPoints, constIndex, hnetwork, bind, Except.bind, hwifis]
        | some wifis =>
            obtain ⟨wifisEntries, rfl⟩ := exists_map_of_isMap <|
              hmaps ["network", "wifis"] (List.mem_cons_of_mem _ List.mem_cons_self) wifis
                (by rw [nodeAt, hnetwork, Option.bind_some, nodeAt, hwifis]; rfl)
            have hnone : Node.get (.map wifisEntries) "wlan0" = none := by
              rw [wlan0Path, nodeAt, hnetwork, Option.bind_some, nodeAt, hwifis, Option.bind_some,
                nodeAt] at h
              cases hwlan0 : Node.get (.map wifisEntries) "wlan0" with
              | none => rfl
              | some wlan0 =>
                  rw [hwlan0] at h
                  cases h
            refine ⟨invalidNode, ?_⟩
            simp only [accessPoints, constIndex, hnetwork, bind, Except.bind, hwifis, hnone]
  obtain ⟨e, he⟩ := hthrows
  refine ⟨e, ?_⟩
  simp only [readAccessPointPassword, he, bind, Except.bind]

/-- With `wlan0` the saved password is read. -/
theorem readAccessPointPassword_of_present {document network wifis interface : List (Node × Node)}
    (hnetwork : Node.get (.map document) "network" = some (.map network))
    (hwifis : Node.get (.map network) "wifis" = some (.map wifis))
    (hinterface : Node.get (.map wifis) "wlan0" = some (.map interface)) :
    readAccessPointPassword (.map document) = .ok (savedPassword (.map document)) := by
  have hpoints : accessPoints (.map document) =
      .ok (Node.get (.map interface) "access-points") := by
    simp only [accessPoints, constIndex, hnetwork, bind, Except.bind, hwifis, hinterface]
  have hsaved : nodeAt (.map document) (wlan0Path ++ ["access-points"]) =
      Node.get (.map interface) "access-points" := by
    simp only [wlan0Path, List.cons_append, List.nil_append, nodeAt, hnetwork, hwifis, hinterface,
      Option.bind_some]
    exact Option.bind_fun_some _
  simp only [readAccessPointPassword, hpoints, bind, Except.bind, savedPassword, hsaved]
  cases Node.get (.map interface) "access-points" with
  | none => rfl
  | some points =>
      match points with
      | .null => rfl
      | .scalar text => rfl
      | .sequence items => rfl
      | .map [] => rfl
      | .map ((name, .null) :: rest) => rfl
      | .map ((name, .scalar text) :: rest) => rfl
      | .map ((name, .sequence items) :: rest) => rfl
      | .map ((name, .map settings) :: rest) =>
          dsimp only
          cases Node.get (.map settings) "password" <;> rfl

end

/-! ## Editing -/

/-- The settings of the requested access point: the given password if it is not blank, else the
saved one if there is one. -/
def requestedSettings (password : Option String) (saved : String) : List (Node × Node) :=
  match (password.map trimAsciiCopy).filter (· ≠ "") with
  | some given => [(.scalar "password", .scalar given)]
  | none => if saved = "" then [] else [(.scalar "password", .scalar saved)]

/-- The access points that are asked for. -/
def requested (ssid : String) (password : Option String) (config : Node) : Node :=
  .map [(.scalar ssid, .map (requestedSettings password (savedPassword config)))]

/-- The document is the given one outside `wlan0`. In there the access points are the requested
one, and the rest is as it was, or as in a new interface. Paths meet the first entry under a key;
the others are as they were too. -/
structure EditedFrom (hostname ssid : String) (password : Option String)
    (config document : Node) : Prop where
  outside : ∀ path, ¬path <+: wlan0Path → ¬wlan0Path <+: path →
    nodeAt document path = nodeAt config path
  interface : ∃ entries, nodeAt document wlan0Path = some (.map entries) ∧
    Node.get (.map entries) "access-points" = some (requested ssid password config) ∧
    ∀ key, key ≠ "access-points" → Node.get (.map entries) key =
      ((nodeAt config wlan0Path).getD (newInterface hostname)).get key
  entries : (nodeAt config wlan0Path).isSome = true →
    document = setAt (requested ssid password config) (wlan0Path ++ ["access-points"]) config

theorem accessPointConfig_eq (password : Option String) (saved : String) :
    accessPointConfig password saved = .map (requestedSettings password saved) := by
  unfold accessPointConfig requestedSettings
  cases password with
  | none =>
      simp only [Option.map_none, Option.getD_none, ne_eq, not_true_eq_false, if_false,
        Option.filter_none]
      by_cases hsaved : saved = ""
      · rw [if_pos hsaved, if_neg (not_not.mpr hsaved)]
      · rw [if_neg hsaved, if_pos hsaved]
  | some given =>
      simp only [Option.map_some, Option.getD_some, Option.filter_some]
      by_cases hblank : trimAsciiCopy given = ""
      · by_cases hsaved : saved = ""
        · simp [hblank, hsaved]
        · simp [hblank, hsaved]
      · simp [hblank]

/-- Setting a key leaves the paths alone that leave the edit of its value alone. -/
theorem nodeAt_setKey_outside {key : String} {inner value : Node} {entries : List (Node × Node)}
    {edited : List String} (hget : Node.get (.map entries) key = some inner)
    (hinner : ∀ path, ¬path <+: edited → ¬edited <+: path → nodeAt value path = nodeAt inner path)
    (path : List String) (habove : ¬path <+: key :: edited) (hbelow : ¬key :: edited <+: path) :
    nodeAt (.map (setKey key value entries)) path = nodeAt (.map entries) path := by
  cases path with
  | nil => exact absurd List.nil_prefix habove
  | cons other rest =>
      by_cases hkey : other = key
      · subst hkey
        rw [List.cons_prefix_cons] at habove hbelow
        rw [nodeAt_setKey_self, nodeAt_cons, hget, Option.bind_some]
        exact hinner rest (fun h => habove ⟨rfl, h⟩) (fun h => hbelow ⟨rfl, h⟩)
      · exact nodeAt_setKey_of_ne hkey

section

variable {document network wifis interface : List (Node × Node)}

/-- **Setting the access points** edits the document. -/
theorem editedFrom_setAt (hostname ssid : String) (password : Option String)
    (hnetwork : Node.get (.map document) "network" = some (.map network))
    (hwifis : Node.get (.map network) "wifis" = some (.map wifis))
    (hinterface : Node.get (.map wifis) "wlan0" = some (.map interface)) :
    EditedFrom hostname ssid password (.map document)
      (setAt (requested ssid password (.map document)) (wlan0Path ++ ["access-points"])
        (.map document)) := by
  have hwlan0 : nodeAt (.map document) wlan0Path = some (.map interface) := by
    rw [wlan0Path, nodeAt_cons, hnetwork, Option.bind_some, nodeAt_cons, hwifis, Option.bind_some,
      nodeAt_cons, hinterface]
    rfl
  have hset : setAt (requested ssid password (.map document)) (wlan0Path ++ ["access-points"])
      (.map document) = .map (setKey "network" (.map (setKey "wifis" (.map (setKey "wlan0"
        (.map (setKey "access-points" (requested ssid password (.map document)) interface))
        wifis)) network)) document) := by
    simp only [wlan0Path, List.cons_append, List.nil_append, setAt, hnetwork, hwifis, hinterface,
      Option.getD_some]
    rfl
  refine ⟨?_, ?_, fun _ => rfl⟩
  · intro path habove hbelow
    rw [hset]
    refine nodeAt_setKey_outside hnetwork ?_ path habove hbelow
    refine nodeAt_setKey_outside hwifis ?_
    refine nodeAt_setKey_outside hinterface ?_
    intro path _ hbelow
    exact absurd List.nil_prefix hbelow
  · refine ⟨setKey "access-points" _ interface, ?_, get_setKey_self, ?_⟩
    · rw [hset, wlan0Path, nodeAt_setKey_self, nodeAt_setKey_self, nodeAt_setKey_self]
      rfl
    · intro key hkey
      rw [hwlan0, get_setKey_of_ne hkey]
      rfl

end

end UavBluetooth.Network
