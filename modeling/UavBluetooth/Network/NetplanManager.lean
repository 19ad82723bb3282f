import UavBluetooth.Network.NetplanDocument

set_option autoImplicit false

/-! # The netplan manager

`set_current_network` edits the netplan file, applies it and waits for the connection. How each of
its calls to the system ends is in `Outcomes`; `set_current_network_restores` says for which
outcomes a request that fails leaves the file as it was and the manager free for the next one.
-/

namespace UavBluetooth.Network

open Fallible Util Yaml

/-! ## The outcomes of one request -/

inductive ReadOutcome where
  | complete
  | notOpened
  | short (count : Nat)
  deriving DecidableEq, Repr

/-- How the writing of a file ends. -/
inductive WriteOutcome where
  | complete
  /-- The file cannot be opened and stays as it is. -/
  | notOpened
  /-- The file has been truncated and holds `left` when it is closed; `noticed` says whether the
  stream has failed before that. -/
  | broken (left : Bytes) (noticed : Bool)
  deriving DecidableEq, Repr

/-- Whether the stream calls the write good. -/
def WriteOutcome.good : WriteOutcome → Bool
  | .complete => true
  | .notOpened => false
  | .broken _ noticed => !noticed

/-- What `std::error_code` says of an error. -/
structure ErrorText where
  text : String
  nonempty : text ≠ ""

/-- The parts of `write_netplan` that catch no exception while the manager is busy. The rollback,
before which the manager is free again, is taken to return. -/
inductive Stage where
  | snapshot | edit | apply | verify
  deriving DecidableEq, Repr

structure Outcomes where
  readSnapshot : ReadOutcome := .complete
  existsError : Option String := none
  /-- What `LoadFile` makes of the bytes of the file. -/
  load : Bytes → Except String Document
  /-- The text of the emitter, or its error. -/
  emit : List Token → Except String Bytes
  write : WriteOutcome := .complete
  applyCode : Int := 0
  /-- The networks that are seen until the deadline. -/
  polls : List String := []
  connectedSsid : String := ""
  restore : WriteOutcome := .complete
  removeError : Option ErrorText := none
  rollbackApplyCode : Int := 0
  /-- Where an exception leaves the function, such as a failed allocation. -/
  escape : Option Stage := none

/-! ## The manager -/

structure NetplanManager where
  hostname : String
  netplanConfigFile : String := "/etc/netplan/01-netcfg.yaml"
  allowedNetworks : List String := []
  busy : Bool := false

/-- How the call of a request ends. -/
inductive Exit where
  | returned (success : Bool) (message : String)
  | threw
  deriving DecidableEq, Repr

def Exit.success : Exit → Bool
  | .returned success _ => success
  | .threw => false

/-- What a request does to the system. -/
inductive Effect where
  | wrote | applied
  deriving DecidableEq, Repr

structure Response where
  busy : Bool
  file : Option Bytes
  exit : Exit
  /-- The error of the restoring write; empty if it has none. -/
  restoreError : String := ""
  effects : List Effect := []

structure FileSnapshot where
  existed : Bool := false
  contents : Bytes := []
  deriving DecidableEq, Repr

def takeFileSnapshot (file : Option Bytes) (outcome : ReadOutcome) : FileSnapshot :=
  match file, outcome with
  | none, _ => {}
  | some _, .notOpened => {}
  | some contents, .complete => { existed := true, contents := contents }
  | some contents, .short count => { existed := true, contents := contents.take count }

/-- The file after it is written, and whether the stream is good. -/
def writeFile (file : Option Bytes) (contents : Bytes) : WriteOutcome → Option Bytes × Bool
  | .complete => (some contents, true)
  | .notOpened => (file, false)
  | .broken left noticed => (some left, !noticed)

/-- The file after it is restored, and the error. -/
def restoreSnapshot (o : Outcomes) (file : Option Bytes) (snapshot : FileSnapshot) :
    Option Bytes × String :=
  if snapshot.existed = false then
    match o.removeError with
    | none => (none, "")
    | some error => (file, error.text)
  else
    match o.restore with
    | .notOpened => (file, "failed to reopen config file for rollback")
    | outcome =>
        let (file, good) := writeFile file snapshot.contents outcome
        (file, if good then "" else "failed to restore previous config contents")

def runNetplanApply (code : Int) : String :=
  if code = 0 then "" else "netplan apply failed with code " ++ toString code

/-- How a rollback explains itself. -/
def rollbackMessage (message restoreError rollbackApplyError : String) : String :=
  if restoreError ≠ "" then message ++ "; rollback write failed: " ++ restoreError
  else if rollbackApplyError ≠ "" then message ++ "; rollback apply failed: " ++ rollbackApplyError
  else message ++ "; previous netplan config restored"

def rollbackNetplanChange (o : Outcomes) (file : Option Bytes) (snapshot : FileSnapshot)
    (message : String) (effects : List Effect) : Response :=
  let (file, restoreError) := restoreSnapshot o file snapshot
  let rollbackApplyError := if restoreError = "" then runNetplanApply o.rollbackApplyCode else ""
  { busy := false
    file := file
    exit := .returned false (rollbackMessage message restoreError rollbackApplyError)
    restoreError := restoreError
    effects := effects ++ .wrote :: if restoreError = "" then [.applied] else [] }

def connectMessage (ssid connectedSsid : String) : String :=
  "failed to connect to SSID '" ++ ssid ++ "' within 20s" ++
    if connectedSsid ≠ "" then "; connected SSID remained '" ++ connectedSsid ++ "'"
    else "; no active Wi-Fi connection detected"

def waitForConnectedSsid (polls : List String) (expected : String) : Bool := polls.contains expected

/-- From where the configuration is applied. -/
def verifyConnection (o : Outcomes) (file : Option Bytes) (snapshot : FileSnapshot) (ssid : String) :
    Response :=
  let effects := [Effect.wrote, .applied]
  if o.escape = some .verify then
    { busy := true, file := file, exit := .threw, effects := effects }
  else if waitForConnectedSsid o.polls ssid = false then
    rollbackNetplanChange o file snapshot (connectMessage ssid o.connectedSsid) effects
  else
    { busy := false
      file := file
      exit := .returned true ("connected to SSID '" ++ ssid ++ "'")
      effects := effects }

/-- From where the file is written. -/
def applyChange (o : Outcomes) (file : Option Bytes) (snapshot : FileSnapshot) (ssid : String) :
    Response :=
  let effects := [Effect.wrote, .applied]
  let applyError := runNetplanApply o.applyCode
  if o.escape = some .apply then
    { busy := true, file := file, exit := .threw, effects := effects }
  else if applyError ≠ "" then rollbackNetplanChange o file snapshot applyError effects
  else verifyConnection o file snapshot ssid

def failedFlush : String := "failed to flush updated config to disk"

/-- From where the document is edited. -/
def commitDocument (o : Outcomes) (file : Option Bytes) (snapshot : FileSnapshot) (ssid : String)
    (document : Node) : Response :=
  match o.emit (emitYamlNode document false) with
  | .error e => { busy := false, file := file, exit := .returned false e }
  | .ok text =>
      let (file, good) := writeFile file text o.write
      if good then applyChange o file snapshot ssid
      else
        -- the file is not restored here
        { busy := false, file := file, exit := .returned false failedFlush, effects := [.wrote] }

/-- The document to be edited and its password. -/
def readDocument (o : Outcomes) (file : Option Bytes) : Except String (Document × String) :=
  match o.existsError with
  | some e => .error e
  | none =>
      match file with
      | none => .ok (.ofNode (.map []), "")
      | some contents => do
          let config ← o.load contents
          let previousPassword ← readAccessPointPassword config.tree
          return (config, previousPassword)

/-- A document that was read is a mapping. -/
theorem isMap_of_readDocument {o : Outcomes} {file : Option Bytes} {config : Document}
    {previousPassword : String} (h : readDocument o file = .ok (config, previousPassword)) :
    config.tree.isMap = true := by
  unfold readDocument at h
  split at h
  · cases h
  · split at h
    · cases h
      rw [Document.tree_ofNode]
      rfl
    · simp only [bind_eq_ok, pure_eq_ok, Prod.mk.injEq] at h
      obtain ⟨loaded, _, password, hpassword, rfl, _⟩ := h
      exact isMap_of_readAccessPointPassword hpassword

namespace NetplanManager

variable (m : NetplanManager)

def writeNetplan (o : Outcomes) (file : Option Bytes) (ssid : String) (password : Option String) :
    Response :=
  let snapshot := takeFileSnapshot file o.readSnapshot
  if o.escape = some .snapshot then { busy := true, file := file, exit := .threw }
  else
    match readDocument o file with
    | .error e =>
        { busy := false
          file := file
          exit := .returned false ("failed to parse netplan config: " ++ e) }
    | .ok (config, previousPassword) =>
        match editDocument m.hostname config ssid password previousPassword with
        | .error _ => { busy := true, file := file, exit := .threw }
        | .ok document =>
            if o.escape = some .edit then { busy := true, file := file, exit := .threw }
            else commitDocument o file snapshot ssid document

/-- A blank password counts as none. -/
def givenPassword (password : Option String) : Option String :=
  password.filter fun password => trimAsciiCopy password ≠ ""

/-- Whether a request for the network passes the checks. -/
def admits (ssid : String) : Bool :=
  ssid ≠ "" && (m.allowedNetworks.isEmpty || m.allowedNetworks.contains ssid)

variable {m} in
/-- The checks of `set_current_network`, as it makes them. -/
theorem admits_iff {ssid : String} : m.admits ssid = true ↔
    ssid ≠ "" ∧ ¬(m.allowedNetworks.isEmpty = false ∧ m.allowedNetworks.contains ssid = false) := by
  unfold admits
  rw [Bool.and_eq_true, decide_eq_true_eq, ← Bool.or_eq_false_iff, Bool.not_eq_false]

def setCurrentNetwork (o : Outcomes) (file : Option Bytes) (ssid : String)
    (password : Option String) : Response :=
  if m.busy then
    { busy := m.busy, file := file, exit := .returned false "netplan change already in progress" }
  else if ssid = "" then
    { busy := m.busy, file := file, exit := .returned false "empty target SSID" }
  else if m.allowedNetworks.isEmpty = false ∧ m.allowedNetworks.contains ssid = false then
    { busy := m.busy
      file := file
      exit := .returned false "SSID not present in allowed_wifi_networks" }
  else m.writeNetplan o file ssid (givenPassword password)

end NetplanManager

/-! ## All or nothing -/

namespace Response

/-- The restoring write failed, and the message says so. -/
def ReportsRestore (r : Response) : Prop :=
  r.restoreError ≠ "" ∧
    ∃ message, r.exit = .returned false (message ++ "; rollback write failed: " ++ r.restoreError)

/-- A request that fails leaves the file as it was or reports that it could not; and the manager is
free for the next one. -/
structure AllOrNothing (before : Option Bytes) (r : Response) : Prop where
  file : r.exit.success = false → r.file = before ∨ r.ReportsRestore
  idle : r.busy = false

theorem not_allOrNothing_of_busy {before : Option Bytes} {r : Response} (h : r.busy = true) :
    ¬r.AllOrNothing before := fun hr => absurd (hr.idle.symm.trans h) Bool.false_ne_true

end Response

/-- The restoring write brings the file back, or fails and is seen to fail. -/
def Outcomes.Restorable (o : Outcomes) (before : Option Bytes) : Prop :=
  if (takeFileSnapshot before o.readSnapshot).existed = false then
    o.removeError.isNone = true → before = none
  else
    match o.restore with
    | .complete => before = some (takeFileSnapshot before o.readSnapshot).contents
    | .broken left false => before = some left
    | _ => True

namespace NetplanManager

variable (m : NetplanManager)

/-- Whether the document is read, edited and emitted. -/
def prepares (o : Outcomes) (file : Option Bytes) (ssid : String) (password : Option String) :
    Bool :=
  match readDocument o file with
  | .error _ => false
  | .ok (config, previousPassword) =>
      match editDocument m.hostname config ssid (givenPassword password) previousPassword with
      | .error _ => false
      | .ok document => (o.emit (emitYamlNode document false)).toOption.isSome

/-- What a request needs, to be all or nothing: no exception while the manager is busy, no write
that breaks the file and is given up, and a restoring write that does what it says. -/
structure Undoable (o : Outcomes) (before : Option Bytes) (ssid : String)
    (password : Option String) : Prop where
  idle : m.busy = false
  begun : m.admits ssid = true → o.escape ≠ some .snapshot
  edited : m.admits ssid = true → (readDocument o before).toOption.isSome = true →
    o.escape ≠ some .edit
  unbroken : m.admits ssid = true → m.prepares o before ssid password = true →
    ∀ left, o.write = .broken left true → before = some left
  applied : m.admits ssid = true → m.prepares o before ssid password = true →
    o.write.good = true → o.escape ≠ some .apply
  verified : m.admits ssid = true → m.prepares o before ssid password = true →
    o.write.good = true → o.applyCode = 0 → o.escape ≠ some .verify
  restored : m.admits ssid = true → m.prepares o before ssid password = true →
    o.write.good = true → o.applyCode ≠ 0 ∨ o.polls.contains ssid = false →
      o.Restorable before

end NetplanManager

/-! ### The stages -/

section

variable {o : Outcomes} {before file : Option Bytes} {ssid : String}

theorem restoreSnapshot_restores :
    ((restoreSnapshot o file (takeFileSnapshot before o.readSnapshot)).1 = before ∨
      (restoreSnapshot o file (takeFileSnapshot before o.readSnapshot)).2 ≠ "") ↔
      o.Restorable before := by
  unfold restoreSnapshot Outcomes.Restorable
  split
  · cases hremove : o.removeError with
    | none => simp [eq_comm]
    | some error => simp [error.nonempty]
  · cases hrestore : o.restore with
    | complete => simp [writeFile, eq_comm]
    | notOpened => simp
    | broken left noticed =>
        cases noticed with
        | false => simp [writeFile, eq_comm]
        | true => simp [writeFile]

theorem rollbackNetplanChange_allOrNothing (message : String) (effects : List Effect) :
    (rollbackNetplanChange o file (takeFileSnapshot before o.readSnapshot) message
      effects).AllOrNothing before ↔ o.Restorable before := by
  rw [← @restoreSnapshot_restores o before file]
  unfold rollbackNetplanChange
  generalize restoreSnapshot o file (takeFileSnapshot before o.readSnapshot) = restored
  obtain ⟨file', restoreError⟩ := restored
  dsimp only
  constructor
  · intro h
    rcases h.file rfl with hfile | hreport
    · exact Or.inl hfile
    · exact Or.inr hreport.1
  · intro h
    refine ⟨fun _ => ?_, rfl⟩
    rcases h with hfile | herror
    · exact Or.inl hfile
    · refine Or.inr ⟨herror, message, ?_⟩
      unfold rollbackMessage
      rw [if_pos herror]

theorem verifyConnection_allOrNothing :
    (verifyConnection o file (takeFileSnapshot before o.readSnapshot) ssid).AllOrNothing before ↔
      o.escape ≠ some .verify ∧ (o.polls.contains ssid = false → o.Restorable before) := by
  unfold verifyConnection waitForConnectedSsid
  dsimp only
  split
  · rename_i hescape
    exact iff_of_false (Response.not_allOrNothing_of_busy rfl) fun h => h.1 hescape
  · rename_i hescape
    split
    · rename_i hlost
      rw [rollbackNetplanChange_allOrNothing]
      exact ⟨fun h => ⟨hescape, fun _ => h⟩, fun h => h.2 hlost⟩
    · rename_i hfound
      refine iff_of_true ⟨fun hfailed => ?_, rfl⟩ ⟨hescape, fun hlost => absurd hlost hfound⟩
      cases hfailed

theorem runNetplanApply_ne_empty {code : Int} : runNetplanApply code ≠ "" ↔ code ≠ 0 := by
  unfold runNetplanApply
  split
  · rename_i hzero
    exact iff_of_false (fun h => h rfl) fun h => h hzero
  · rename_i hcode
    refine iff_of_true (fun h => ?_) hcode
    have hlength := congrArg String.length h
    rw [String.length_append] at hlength
    have hlead : "netplan apply failed with code ".length = 31 := rfl
    rw [hlead, String.length_empty] at hlength
    omega

theorem applyChange_allOrNothing :
    (applyChange o file (takeFileSnapshot before o.readSnapshot) ssid).AllOrNothing before ↔
      o.escape ≠ some .apply ∧ (o.applyCode = 0 → o.escape ≠ some .verify) ∧
        (o.applyCode ≠ 0 ∨ o.polls.contains ssid = false → o.Restorable before) := by
  unfold applyChange
  dsimp only
  split
  · rename_i hescape
    exact iff_of_false (Response.not_allOrNothing_of_busy rfl) fun h => h.1 hescape
  · rename_i hescape
    split
    · rename_i hfailed
      rw [runNetplanApply_ne_empty] at hfailed
      rw [rollbackNetplanChange_allOrNothing]
      exact ⟨fun h => ⟨hescape, fun hzero => absurd hzero hfailed, fun _ => h⟩,
        fun h => h.2.2 (Or.inl hfailed)⟩
    · rename_i hdone
      rw [runNetplanApply_ne_empty, not_not] at hdone
      rw [verifyConnection_allOrNothing]
      constructor
      · intro h
        exact ⟨hescape, fun _ => h.1, fun hwhy => h.2 (hwhy.resolve_left fun hno => hno hdone)⟩
      · intro h
        exact ⟨h.2.1 hdone, fun hlost => h.2.2 (Or.inr hlost)⟩

/-- What the outcomes need once the document is there. -/
structure Outcomes.Completes (o : Outcomes) (before : Option Bytes) (ssid : String) : Prop where
  unbroken : ∀ left, o.write = .broken left true → before = some left
  applied : o.write.good = true → o.escape ≠ some .apply
  verified : o.write.good = true → o.applyCode = 0 → o.escape ≠ some .verify
  restored : o.write.good = true → o.applyCode ≠ 0 ∨ o.polls.contains ssid = false →
    o.Restorable before

theorem Outcomes.completes_of_good (hgood : o.write.good = true)
    (hunbroken : ∀ left, o.write = .broken left true → before = some left) :
    o.escape ≠ some .apply ∧ (o.applyCode = 0 → o.escape ≠ some .verify) ∧
        (o.applyCode ≠ 0 ∨ o.polls.contains ssid = false → o.Restorable before) ↔
      o.Completes before ssid := by
  constructor
  · rintro ⟨happlied, hverified, hrestored⟩
    exact ⟨hunbroken, fun _ => happlied, fun _ => hverified, fun _ => hrestored⟩
  · intro h
    exact ⟨h.applied hgood, h.verified hgood, h.restored hgood⟩

theorem commitDocument_allOrNothing {document : Node} :
    (commitDocument o before (takeFileSnapshot before o.readSnapshot) ssid
        document).AllOrNothing before ↔
      ((o.emit (emitYamlNode document false)).toOption.isSome = true → o.Completes before ssid) := by
  unfold commitDocument
  cases hemit : o.emit (emitYamlNode document false) with
  | error e => exact iff_of_true ⟨fun _ => Or.inl rfl, rfl⟩ fun hno => by cases hno
  | ok text =>
      have hsome : (Except.ok text : Except String Bytes).toOption.isSome = true := rfl
      rw [forall_prop_of_true hsome]
      cases hwrite : o.write with
      | complete =>
          have hcompletes := @Outcomes.completes_of_good o before ssid (by rw [hwrite]; rfl)
            fun left hbroken => by rw [hwrite] at hbroken; cases hbroken
          rw [← hcompletes]
          exact applyChange_allOrNothing
      | notOpened =>
          refine iff_of_true ⟨fun _ => Or.inl rfl, rfl⟩ ⟨?_, ?_, ?_, ?_⟩
          · intro left hbroken
            rw [hwrite] at hbroken
            cases hbroken
          all_goals
            intro hgood
            rw [hwrite] at hgood
            cases hgood
      | broken left noticed =>
          cases noticed with
          | false =>
              have hcompletes := @Outcomes.completes_of_good o before ssid (by rw [hwrite]; rfl)
                fun left' hbroken => by rw [hwrite] at hbroken; cases hbroken
              rw [← hcompletes]
              exact applyChange_allOrNothing
          | true =>
              constructor
              · intro h
                rcases h.file rfl with hfile | hreport
                · refine ⟨?_, ?_, ?_, ?_⟩
                  · intro left' hbroken
                    rw [hwrite] at hbroken
                    cases hbroken
                    exact hfile.symm
                  all_goals
                    intro hgood
                    rw [hwrite] at hgood
                    cases hgood
                · exact absurd rfl hreport.1
              · intro h
                exact ⟨fun _ => Or.inl (h.unbroken left hwrite).symm, rfl⟩

theorem toOption_isSome_ok {α : Type} (a : α) : (Except.ok a : Except String α).toOption.isSome = true :=
  rfl

variable {m : NetplanManager} {password : Option String}

theorem writeNetplan_allOrNothing :
    (m.writeNetplan o before ssid (NetplanManager.givenPassword password)).AllOrNothing before ↔
      o.escape ≠ some .snapshot ∧
        ((readDocument o before).toOption.isSome = true → o.escape ≠ some .edit) ∧
        (m.prepares o before ssid password = true → o.Completes before ssid) := by
  unfold NetplanManager.writeNetplan NetplanManager.prepares
  dsimp only
  split
  · rename_i hescape
    exact iff_of_false (Response.not_allOrNothing_of_busy rfl) fun h => h.1 hescape
  · rename_i hescape
    cases hread : readDocument o before with
    | error e =>
        refine iff_of_true ⟨fun _ => Or.inl rfl, rfl⟩ ⟨hescape, ?_, ?_⟩
        · intro hno
          cases hno
        · intro hno
          cases hno
    | ok read =>
        obtain ⟨config, previousPassword⟩ := read
        have hmap := isMap_of_readDocument hread
        obtain ⟨document, hdocument⟩ := editDocument_ok hmap m.hostname ssid
          (NetplanManager.givenPassword password) previousPassword
        dsimp only
        rw [hdocument, forall_prop_of_true (toOption_isSome_ok _)]
        dsimp only
        split
        · rename_i hedit
          exact iff_of_false (Response.not_allOrNothing_of_busy rfl) fun h => h.2.1 hedit
        · rename_i hedit
          rw [commitDocument_allOrNothing]
          exact ⟨fun h => ⟨hescape, hedit, h⟩, fun h => h.2.2⟩

end

/-- **Netplan changes are all or nothing** exactly if the outcomes let them be: a request that fails
leaves the file as it was or reports that it could not, and the manager is free again. -/
theorem set_current_network_restores (m : NetplanManager) (o : Outcomes) (before : Option Bytes)
    (ssid : String) (password : Option String) :
    (m.setCurrentNetwork o before ssid password).AllOrNothing before ↔
      m.Undoable o before ssid password := by
  unfold NetplanManager.setCurrentNetwork
  split
  · rename_i hbusy
    exact iff_of_false (Response.not_allOrNothing_of_busy hbusy) fun h =>
      absurd (h.idle.symm.trans hbusy) Bool.false_ne_true
  · rename_i hidle
    rw [Bool.not_eq_true] at hidle
    have hrefused : ∀ message : String, m.admits ssid = false →
        (({ busy := m.busy, file := before, exit := .returned false message } : Response).AllOrNothing
          before ↔ m.Undoable o before ssid password) := by
      intro message hrefused
      have hno : ¬m.admits ssid = true := fun h => absurd (hrefused.symm.trans h) Bool.false_ne_true
      exact iff_of_true ⟨fun _ => Or.inl rfl, hidle⟩
        ⟨hidle, fun h => absurd h hno, fun h => absurd h hno, fun h => absurd h hno,
          fun h => absurd h hno, fun h => absurd h hno, fun h => absurd h hno⟩
    split
    · rename_i hempty
      refine hrefused _ ?_
      simp [NetplanManager.admits, hempty]
    · rename_i hsome
      split
      · rename_i hforeign
        refine hrefused _ ?_
        simp only [NetplanManager.admits, hforeign.1, hforeign.2, Bool.or_self, Bool.and_false]
      · rename_i hlisted
        have hadmits : m.admits ssid = true := NetplanManager.admits_iff.mpr ⟨hsome, hlisted⟩
        rw [writeNetplan_allOrNothing]
        constructor
        · rintro ⟨hbegun, hedited, hcompletes⟩
          exact ⟨hidle, fun _ => hbegun, fun _ => hedited, fun _ h => (hcompletes h).unbroken,
            fun _ h => (hcompletes h).applied, fun _ h => (hcompletes h).verified,
            fun _ h => (hcompletes h).restored⟩
        · intro h
          exact ⟨h.begun hadmits, h.edited hadmits, fun hprepares =>
            ⟨h.unbroken hadmits hprepares, h.applied hadmits hprepares,
              h.verified hadmits hprepares, h.restored hadmits hprepares⟩⟩

/-- A configuration with one access point. -/
def savedDocument : Document :=
  .ofNode <| .map [(.scalar "network", .map [(.scalar "wifis", .map [(.scalar "wlan0",
    .map [(.scalar "access-points", .map [(.scalar "lab", .map [])])])])])]

/-- The file is truncated for the new configuration, the write fails, and nothing restores it. -/
theorem broken_write_stays : ¬∀ (m : NetplanManager) (o : Outcomes) (before : Option Bytes)
    (ssid : String) (password : Option String), m.busy = false →
      (m.setCurrentNetwork o before ssid password).AllOrNothing before := by
  intro hclaim
  have hrestored := (hclaim { hostname := "uav1", allowedNetworks := ["field"] }
    { load := fun _ => .ok savedDocument
      emit := fun _ => .ok (List.replicate 9000 35)
      write := .broken [] true } (some [35, 10]) "field" none rfl).file rfl
  rcases hrestored with hfile | hreport
  · exact absurd hfile (by decide)
  · exact absurd rfl hreport.1

end UavBluetooth.Network
