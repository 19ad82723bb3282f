import UavBluetooth.Lib.Run
import UavBluetooth.Network.NetplanManager

set_option autoImplicit false

/-! # Wi-Fi requests

The peers ask for a network by writing the characteristics of the Wi-Fi service; the list of the
networks they may ask for changes with the configuration. `allow_list_enforced` says when only
listed networks are written and applied.
-/

namespace UavBluetooth.Network

open Util Yaml Run

/-- A request that has come as far as the file, with the list in force. -/
structure Access where
  ssid : String
  allowed : List String
  effects : List Effect
  deriving DecidableEq, Repr

structure WifiNode where
  manager : NetplanManager
  files : Std.ExtTreeMap String Bytes := ∅
  /-- The password writes that have read the current network and wait for the manager. -/
  passwordWrites : List (String × String) := []
  accesses : List Access := []

namespace WifiNode

variable (n : WifiNode)

def configFile : Option Bytes := n.files[n.manager.netplanConfigFile]?

/-- `get_current_ssid`: the saved access point, else the live link. -/
def currentSsid (load : Bytes → Except String Document) (iwgetid : String) : String :=
  let saved := n.configFile.bind fun contents =>
    (load contents >>= fun config => readAccessPointSsid config.tree).toOption
  match saved.filter (· ≠ "") with
  | some ssid => ssid
  | none => trimAsciiCopy iwgetid

/-- What a request leaves behind. -/
def respond (ssid : String) (r : Response) : WifiNode :=
  { n with
    manager := { n.manager with busy := r.busy }
    files :=
      match r.file with
      | none => n.files.erase n.manager.netplanConfigFile
      | some contents => n.files.insert n.manager.netplanConfigFile contents
    accesses := n.accesses ++
      if r.effects = [] then [] else [⟨ssid, n.manager.allowedNetworks, r.effects⟩] }

def setCurrentNetwork (o : Outcomes) (ssid : String) (password : Option String) : WifiNode :=
  n.respond ssid (n.manager.setCurrentNetwork o n.configFile ssid password)

def setConfigFile (value : String) : WifiNode :=
  let path := trimAsciiCopy value
  { n with
    manager := { n.manager with
      netplanConfigFile := if path = "" then "/etc/netplan/01-netcfg.yaml" else path } }

def setAllowedNetworks (value : List String) : WifiNode :=
  { n with manager := { n.manager with allowedNetworks := value } }

/-- The password without its trailing white space. -/
def trimTrailing (password : String) : String :=
  String.ofList ((password.toList.reverse.dropWhile isSpace).reverse)

/-- The password callback, up to where it has read the current network. -/
def passwordWritten (value : String) (load : Bytes → Except String Document) (iwgetid : String) :
    WifiNode :=
  let trimmed := trimTrailing value
  let ssid := n.currentSsid load iwgetid
  if trimmed = "" ∨ ssid = "" ∨ ssid = "unknown" then n
  else { n with passwordWrites := n.passwordWrites ++ [(ssid, trimmed)] }

inductive Action where
  | setConfigFile (value : String)
  | setAllowedNetworks (value : List String)
  /-- A peer writes the name of the network. -/
  | ssidWritten (data : String) (o : Outcomes)
  /-- A peer writes the password of the current network. -/
  | passwordWritten (value : String) (load : Bytes → Except String Document) (iwgetid : String)
  | passwordApplied (index : Nat) (o : Outcomes)
  /-- `set_current_ssid` -/
  | setCurrentSsid (target : String) (o : Outcomes)

def step : Action → Option WifiNode
  | .setConfigFile value => some (n.setConfigFile value)
  | .setAllowedNetworks value => some (n.setAllowedNetworks value)
  | .ssidWritten data o => some (n.setCurrentNetwork o (trimAsciiCopy data) none)
  | .passwordWritten value load iwgetid => some (n.passwordWritten value load iwgetid)
  | .passwordApplied index o =>
      match n.passwordWrites[index]? with
      | none => none
      | some (ssid, password) =>
          some ({ n with passwordWrites := n.passwordWrites.eraseIdx index }.setCurrentNetwork o
            ssid (some password))
  | .setCurrentSsid target o => some (n.setCurrentNetwork o target none)

/-- A node before its first request. -/
def Initial (n : WifiNode) : Prop := n.manager.busy = false ∧ n.passwordWrites = [] ∧ n.accesses = []

/-- The file is written and applied for listed networks only. -/
def Enforced (n : WifiNode) : Prop := ∀ a ∈ n.accesses, a.ssid ∈ a.allowed

/-- A request for the network comes as far as the list. -/
def comesToList (n : WifiNode) (ssid : String) : Bool := !n.manager.busy && ssid ≠ ""

/-- No request comes as far as an empty list. -/
def Listed (n : WifiNode) : Action → Prop
  | .ssidWritten data _ =>
      n.comesToList (trimAsciiCopy data) = true → n.manager.allowedNetworks ≠ []
  | .passwordApplied index _ => ∀ write, n.passwordWrites[index]? = some write →
      n.comesToList write.1 = true → n.manager.allowedNetworks ≠ []
  | .setCurrentSsid target _ => n.comesToList target = true → n.manager.allowedNetworks ≠ []
  | _ => True

instance (a : Action) : Decidable (n.Listed a) := by
  cases a <;> dsimp only [Listed] <;> infer_instance

/-! ## The list is enforced -/

variable {n}

/-- A request that reaches the file has passed the checks. -/
theorem admits_of_effects {m : NetplanManager} {o : Outcomes} {file : Option Bytes} {ssid : String}
    {password : Option String} (h : (m.setCurrentNetwork o file ssid password).effects ≠ []) :
    m.admits ssid = true := by
  unfold NetplanManager.setCurrentNetwork at h
  split at h
  · exact absurd rfl h
  · split at h
    · exact absurd rfl h
    · rename_i hsome
      split at h
      · exact absurd rfl h
      · rename_i hlisted
        exact NetplanManager.admits_iff.mpr ⟨hsome, hlisted⟩

theorem comesToList_of_effects {o : Outcomes} {file : Option Bytes} {ssid : String}
    {password : Option String} (h : (n.manager.setCurrentNetwork o file ssid password).effects ≠ []) :
    n.comesToList ssid = true := by
  obtain ⟨hsome, _⟩ := NetplanManager.admits_iff.mp (admits_of_effects h)
  unfold NetplanManager.setCurrentNetwork at h
  split at h
  · exact absurd rfl h
  · rename_i hidle
    simp [comesToList, hidle, hsome]

theorem Enforced.setCurrentNetwork (h : n.Enforced) {ssid : String}
    (hlist : n.comesToList ssid = true → n.manager.allowedNetworks ≠ []) (o : Outcomes)
    (password : Option String) : (n.setCurrentNetwork o ssid password).Enforced := by
  intro a ha
  rcases List.mem_append.mp ha with hold | hnew
  · exact h a hold
  · split at hnew
    · exact (List.not_mem_nil hnew).elim
    · rename_i heffects
      rw [List.mem_singleton] at hnew
      subst hnew
      obtain ⟨_, hlisted⟩ := NetplanManager.admits_iff.mp (admits_of_effects heffects)
      have hfull : n.manager.allowedNetworks.isEmpty = false :=
        List.isEmpty_eq_false_iff.mpr (hlist (comesToList_of_effects heffects))
      by_contra hforeign
      refine hlisted ⟨hfull, ?_⟩
      rw [List.contains_eq_mem]
      exact decide_eq_false hforeign

theorem Enforced.step (h : n.Enforced) {a : Action} (hlisted : n.Listed a) {n' : WifiNode}
    (hstep : n.step a = some n') : n'.Enforced := by
  unfold WifiNode.step at hstep
  cases a with
  | setConfigFile value =>
      obtain rfl := Option.some.inj hstep
      unfold WifiNode.setConfigFile WifiNode.Enforced
      dsimp only
      exact h
  | setAllowedNetworks value =>
      obtain rfl := Option.some.inj hstep
      exact h
  | ssidWritten data o =>
      obtain rfl := Option.some.inj hstep
      exact h.setCurrentNetwork hlisted o none
  | passwordWritten value load iwgetid =>
      obtain rfl := Option.some.inj hstep
      unfold WifiNode.passwordWritten
      dsimp only
      split
      · exact h
      · unfold WifiNode.Enforced
        exact h
  | passwordApplied index o =>
      dsimp only at hstep
      split at hstep
      · cases hstep
      · rename_i ssid password hwrite
        obtain rfl := Option.some.inj hstep
        have hrest : ({ n with passwordWrites := n.passwordWrites.eraseIdx index } :
            WifiNode).Enforced := h
        exact hrest.setCurrentNetwork (hlisted (ssid, password) hwrite) o (some password)
  | setCurrentSsid target o =>
      obtain rfl := Option.some.inj hstep
      exact h.setCurrentNetwork hlisted o none

/-- **The allow-list is enforced** as long as no request meets an empty one: by whichever route it
comes, the file is written and applied only for a network of the list then in force. -/
theorem allow_list_enforced (h : ReachableUnder step Listed Initial n) : n.Enforced :=
  h.invariant (fun _ hinit _ ha => absurd (hinit.2.2 ▸ ha) List.not_mem_nil)
    fun _ _ _ henforced hlisted hstep => henforced.step hlisted hstep

/-- The outcomes of a request that goes well. -/
def reached (ssid : String) : Outcomes where
  load := fun _ => .ok savedDocument
  emit := fun _ => .ok [123, 125]
  polls := [ssid]

def newNode : WifiNode where
  manager := { hostname := "uav1" }

theorem initial_newNode : newNode.Initial := ⟨rfl, rfl, rfl⟩

/-- The list changes from one network to another while both are asked for. -/
def changingList : List Action :=
  [.setAllowedNetworks ["lab"], .ssidWritten "lab\n" (reached "lab"),
    .ssidWritten "field" (reached "field"), .setAllowedNetworks ["field"],
    .passwordWritten "secret " (fun _ => .ok savedDocument) "", .passwordApplied 0 (reached "lab"),
    .ssidWritten "field" (reached "field")]

theorem allow_list_enforced_after_change : ∃ n, exec step newNode changingList = some n ∧
    n.accesses.map (·.ssid) = ["lab", "field"] ∧ n.Enforced := by
  have hcomputed : (allowed step (fun n a => decide (n.Listed a)) newNode changingList &&
      (exec step newNode changingList).any fun n =>
        decide (n.accesses.map (·.ssid) = ["lab", "field"])) = true := by
    decide +kernel
  rw [Bool.and_eq_true] at hcomputed
  obtain ⟨n, hn, haccesses⟩ := (Option.any_eq_true _ _).mp hcomputed.2
  exact ⟨n, hn, of_decide_eq_true haccesses, allow_list_enforced
    (ReachableUnder.exec (.start initial_newNode) (guarded_of_decide hcomputed.1) hn)⟩

/-- The empty list lets every network pass. -/
theorem empty_list_admits : ¬∀ n, Reachable step Initial n → n.Enforced := by
  intro hclaim
  have hcomputed : (exec step newNode [.setAllowedNetworks [], .ssidWritten "cafe"
      (reached "cafe")]).any (fun n =>
        decide (n.accesses = [⟨"cafe", [], [.wrote, .applied]⟩])) = true := by
    decide +kernel
  obtain ⟨n, hn, haccesses⟩ := (Option.any_eq_true _ _).mp hcomputed
  rw [decide_eq_true_eq] at haccesses
  have henforced := hclaim n (Reachable.exec (.start initial_newNode) hn)
    ⟨"cafe", [], [.wrote, .applied]⟩ (by rw [haccesses]; exact List.mem_cons_self)
  exact List.not_mem_nil henforced

end WifiNode

end UavBluetooth.Network
