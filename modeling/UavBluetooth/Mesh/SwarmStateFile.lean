import UavBluetooth.Lib.Run
import UavBluetooth.Mesh.UnicastCursor

set_option autoImplicit false

/-! # The swarm membership over restarts

`join_swarm` and `leave_swarm` write the membership to a temporary file, flush it, rename it over
the state file, and only then change what the coordinator holds. The process may be killed between
any two of these, and each may fail.

`membership_survives` says what a restart then finds: the membership from before, or, once the
file has been renamed, the one that was asked for. It needs that the line that is written reads
back as it was (`readState_stateLine`), and that the swarm is never 0, which the loader of the
configuration checks.
-/

namespace UavBluetooth.Mesh

open Config Fallible Util Run

/-! ## The file -/

/-- What `persist_swarm_state` writes. -/
def stateLine (swarmId : UInt16) (participating : Bool) : List Char :=
  Nat.toDigits 10 swarmId.toNat ++ [' ', if participating then '1' else '0', '\n']

/-- `input >> stored_id` for a `uint32_t`: the number and what is left, or a failed stream. A
negative numeral wraps around. -/
def extractUInt32 (text : List Char) : Option (Nat × List Char) :=
  let (negative, unsigned) := takeSign (text.dropWhile isCSpace)
  let digits := unsigned.takeWhile (isDigitOf 10)
  let value := ofDigits 10 digits
  if digits = [] ∨ 2 ^ 32 ≤ value then none
  else
    some (if negative then (2 ^ 32 - value) % 2 ^ 32 else value, unsigned.dropWhile (isDigitOf 10))

/-- `input >> stored_participating` for an `int`. -/
def extractInt32 (text : List Char) : Option (Int × List Char) :=
  let (negative, unsigned) := takeSign (text.dropWhile isCSpace)
  let digits := unsigned.takeWhile (isDigitOf 10)
  let value : Int := if negative then -ofDigits 10 digits else ofDigits 10 digits
  if digits = [] ∨ value < -2 ^ 31 ∨ 2 ^ 31 ≤ value then none
  else some (value, unsigned.dropWhile (isDigitOf 10))

/-- The two numbers in the state file. -/
def readState (text : List Char) : Option (Nat × Int) := do
  let (id, rest) ← extractUInt32 text
  let (participating, _) ← extractInt32 rest
  return (id, participating)

/-! ### Reading the line back -/

theorem ofDigits_toDigits (n : Nat) : ofDigits 10 (Nat.toDigits 10 n) = n := by
  rw [← decimalValue_eq fun c hc => isDigit_of_mem_toDigits hc]
  exact Nat.ofDigitChars_ten_toDigits

/-- A numeral in front of something else is read as it was written. -/
theorem extractUInt32_toDigits {n : Nat} (hn : n < 2 ^ 32) {rest : List Char}
    (hrest : ∀ c ∈ rest.head?, isDigitOf 10 c = false) :
    extractUInt32 (Nat.toDigits 10 n ++ rest) = some (n, rest) := by
  have hdigit : ∀ c ∈ Nat.toDigits 10 n, c.isDigit = true := fun c hc => isDigit_of_mem_toDigits hc
  have hvalue := ofDigits_toDigits n
  have hne : Nat.toDigits 10 n ≠ [] := Nat.toDigits_ne_nil
  generalize Nat.toDigits 10 n = digits at hdigit hvalue hne
  obtain ⟨htake, hdrop⟩ := span_digits (fun c hc => isDigitOf_ten (hdigit c hc)) hrest
  obtain ⟨c, tail, rfl⟩ := List.exists_cons_of_ne_nil hne
  have hc := hdigit c List.mem_cons_self
  have hspaces : (c :: tail ++ rest).dropWhile isCSpace = c :: tail ++ rest := by
    rw [List.cons_append, List.dropWhile_cons, isCSpace_of_isDigit hc]
    rfl
  have hsign : takeSign (c :: tail ++ rest) = (false, c :: tail ++ rest) :=
    takeSign_of_isDigit hc
  unfold extractUInt32
  rw [hspaces, hsign]
  simp only [htake, hdrop, hvalue]
  rw [if_neg (by simp; omega)]
  rfl

theorem readState_stateLine (swarmId : UInt16) (participating : Bool) :
    readState (stateLine swarmId participating) =
      some (swarmId.toNat, if participating then 1 else 0) := by
  have hid : extractUInt32 (stateLine swarmId participating) =
      some (swarmId.toNat, [' ', if participating then '1' else '0', '\n']) := by
    refine extractUInt32_toDigits (by have := swarmId.toNat_lt; omega) fun c hc => ?_
    rw [← Option.some.inj hc]
    decide
  have hflag : extractInt32 [' ', if participating then '1' else '0', '\n'] =
      some (if participating then 1 else 0, ['\n']) := by
    cases participating with
    | true => decide
    | false => decide
  unfold readState
  rw [hid, Option.bind_eq_bind, Option.bind_some]
  dsimp only
  rw [hflag]
  rfl

/-- What a restart makes of the file. -/
theorem loadSwarmState_stateLine {swarmId : UInt16} (hid : swarmId ≠ 0) (participating : Bool) :
    loadSwarmState (readState (stateLine swarmId participating)) = some (swarmId, participating) := by
  have hpos : swarmId.toNat ≠ 0 := fun h => hid (UInt16.toNat.inj h)
  have hlt := swarmId.toNat_lt
  rw [readState_stateLine]
  unfold loadSwarmState
  cases participating with
  | true =>
      simp only [if_true]
      rw [if_neg (by omega), UInt16.ofNat_toNat]
      rfl
  | false =>
      simp only [Bool.false_eq_true, if_false]
      rw [if_neg (by omega), UInt16.ofNat_toNat]
      rfl

/-! ## The node -/

/-- A membership: the swarm, and whether the node takes part in it. -/
abbrev Membership := UInt16 × Bool

def MeshSwarmCoordinator.membership (c : MeshSwarmCoordinator) : Membership :=
  (c.swarmId, c.swarmParticipating)

namespace SwarmNode

/-- How far `persist_swarm_state` has come. -/
inductive Stage where
  /-- The temporary file is open, and perhaps written in part. -/
  | writing
  | flushed
  | renamed
  deriving DecidableEq, Repr

/-- A call of `join_swarm` or `leave_swarm`, which holds the mutex. -/
structure Save where
  /-- Set for `join_swarm`. -/
  join : Bool
  swarmId : UInt16
  stage : Stage := .writing
  deriving DecidableEq, Repr

end SwarmNode

structure SwarmNode where
  config : SwarmConfig
  hostname : String
  meshSwarmStatePath : String
  /-- The state file and the temporary one, if they exist. -/
  file : Option (List Char) := none
  temporary : Option (List Char) := none
  /-- There is none while the process is not running. -/
  coordinator : Option MeshSwarmCoordinator := none
  saving : Option SwarmNode.Save := none

namespace SwarmNode

/-- What `load_swarm_state` reads. -/
def stored (n : SwarmNode) : Option (Nat × Int) :=
  if n.meshSwarmStatePath = "" then none else n.file.bind readState

/-- The membership that a restart begins with. -/
def restored (n : SwarmNode) : Membership :=
  (loadSwarmState n.stored).getD (n.config.meshSwarmId, n.config.meshSwarmParticipating)

def Save.line (save : Save) : List Char := stateLine save.swarmId save.join

inductive Action where
  /-- The process starts. -/
  | start
  /-- The process is killed. -/
  | kill
  | join (swarmId : UInt16)
  | leave
  /-- So much of the line has reached the temporary file. -/
  | write (count : Nat)
  | flush
  | rename
  /-- Something in `persist_swarm_state` fails. -/
  | throw
  | finish
  /-- Everything else that the coordinator does. -/
  | other (a : MeshSwarmCoordinator.Action)

/-- The end of `join_swarm` or `leave_swarm`. -/
def Save.apply (save : Save) (c : MeshSwarmCoordinator) : MeshSwarmCoordinator :=
  if save.join then c.joinSwarm save.swarmId true else c.leaveSwarm true

/-- `join_swarm` and `leave_swarm` call `persist_swarm_state`, which does nothing without a path. -/
def begin (n : SwarmNode) (c : MeshSwarmCoordinator) (save : Save) : SwarmNode :=
  if n.meshSwarmStatePath = "" then { n with coordinator := some (save.apply c) }
  else { n with saving := some save, temporary := some [] }

def step (n : SwarmNode) : Action → Option SwarmNode
  | .start =>
      match n.coordinator with
      | some _ => none
      | none =>
          match MeshSwarmCoordinator.create n.config n.hostname n.stored with
          | .ok c => some { n with coordinator := some c }
          | .error _ => none
  | .kill => some { n with coordinator := none, saving := none }
  | .join swarmId =>
      match n.coordinator, n.saving with
      | some c, none =>
          if swarmId = 0 then some n else some (n.begin c { join := true, swarmId := swarmId })
      | _, _ => none
  | .leave =>
      match n.coordinator, n.saving with
      | some c, none => some (n.begin c { join := false, swarmId := c.swarmId })
      | _, _ => none
  | .write count =>
      match n.saving with
      | some ⟨join, swarmId, .writing⟩ =>
          some { n with temporary := some ((stateLine swarmId join).take count) }
      | _ => none
  | .flush =>
      match n.saving with
      | some ⟨join, swarmId, .writing⟩ =>
          some { n with
            temporary := some (stateLine swarmId join)
            saving := some ⟨join, swarmId, .flushed⟩ }
      | _ => none
  | .rename =>
      match n.saving with
      | some ⟨join, swarmId, .flushed⟩ =>
          some { n with
            file := n.temporary
            temporary := none
            saving := some ⟨join, swarmId, .renamed⟩ }
      | _ => none
  | .throw =>
      match n.saving with
      | some ⟨_, _, .renamed⟩ | none => none
      | some _ => some { n with saving := none }
  | .finish =>
      match n.coordinator, n.saving with
      | some c, some save =>
          if save.stage = .renamed then
            some { n with coordinator := some (save.apply c), saving := none }
          else none
      | _, _ => none
  | .other a =>
      match n.coordinator, n.saving, a with
      | _, _, .join _ _ => none
      | _, _, .leave _ => none
      | some c, none, a => (c.step a).map fun c => { n with coordinator := some c }
      | _, _, _ => none

/-- The node is off; there may be any files. -/
def Initial (n : SwarmNode) : Prop :=
  n.coordinator = none ∧ n.saving = none ∧ n.meshSwarmStatePath ≠ "" ∧ n.config.meshSwarmId ≠ 0

/-- What is asked for, once it is in the state file. -/
def renamed (n : SwarmNode) : Option Membership :=
  match n.saving with
  | some ⟨join, swarmId, .renamed⟩ => some (swarmId, join)
  | _ => none

/-! ## The invariant -/

/-- The state file has the membership that the coordinator holds, or the one it is about to. -/
structure Saved (n : SwarmNode) : Prop where
  path : n.meshSwarmStatePath ≠ ""
  configured : n.config.meshSwarmId ≠ 0
  running : n.saving ≠ none → n.coordinator ≠ none
  requested : ∀ save ∈ n.saving, save.swarmId ≠ 0 ∧
    (save.join = false → ∀ c ∈ n.coordinator, c.swarmId = save.swarmId)
  held : ∀ c ∈ n.coordinator, c.swarmId ≠ 0 ∧ n.restored = n.renamed.getD c.membership
  flushed : ∀ save ∈ n.saving, save.stage = .flushed → n.temporary = some save.line

section

variable {n n' : SwarmNode} {c c' : MeshSwarmCoordinator}

theorem loadSwarmState_ne_zero {stored : Option (Nat × Int)} {m : Membership}
    (h : loadSwarmState stored = some m) : m.1 ≠ 0 := by
  unfold loadSwarmState at h
  split at h
  · cases h
  · rename_i id participating
    split at h
    · cases h
    · rename_i hvalid
      cases h
      intro hzero
      have hid : id % 2 ^ 16 = 0 := by simpa using congrArg UInt16.toNat hzero
      omega

theorem restored_ne_zero (hconfigured : n.config.meshSwarmId ≠ 0) : n.restored.1 ≠ 0 := by
  unfold restored
  cases hload : loadSwarmState n.stored with
  | none => exact hconfigured
  | some m => exact loadSwarmState_ne_zero hload

/-- The constructor takes the membership over that it loads. -/
theorem create_membership
    (h : MeshSwarmCoordinator.create n.config n.hostname n.stored = .ok c) :
    c.membership = n.restored := by
  unfold MeshSwarmCoordinator.create at h
  simp only [bind_eq_ok] at h
  obtain ⟨localNumber, _, members, _, preferred, _, h⟩ := h
  cases h
  rfl

/-- Messages and the selection of a provisioner leave the membership alone. -/
theorem membership_step {a : MeshSwarmCoordinator.Action} (h : c.step a = some c')
    (hjoin : ∀ swarmId persisted, a ≠ .join swarmId persisted)
    (hleave : ∀ persisted, a ≠ .leave persisted) : c'.membership = c.membership := by
  cases a with
  | message now deviceKey m =>
      cases h
      unfold MeshSwarmCoordinator.handleMessage
      split
      · rfl
      · unfold MeshSwarmCoordinator.acceptCoordinationFrame
        split
        · rfl
        · dsimp only
          split <;> rfl
  | payload now source senderSwarmId =>
      cases h
      unfold MeshSwarmCoordinator.acceptsSwarmPayload
      split
      · rfl
      · split <;> rfl
  | join swarmId persisted => exact absurd rfl (hjoin swarmId persisted)
  | leave persisted => exact absurd rfl (hleave persisted)
  | updateSelection now =>
      cases h
      unfold MeshSwarmCoordinator.updateSelection
      dsimp only
      split <;> rfl

/-- The state file stays. -/
theorem restored_of_file (hconfig : n'.config = n.config)
    (hpath : n'.meshSwarmStatePath = n.meshSwarmStatePath) (hfile : n'.file = n.file) :
    n'.restored = n.restored := by
  rw [restored, restored, stored, stored, hconfig, hpath, hfile]

/-- The line is in place. -/
theorem restored_of_line {swarmId : UInt16} {participating : Bool}
    (hpath : n.meshSwarmStatePath ≠ "") (hfile : n.file = some (stateLine swarmId participating))
    (hid : swarmId ≠ 0) : n.restored = (swarmId, participating) := by
  rw [restored, stored, if_neg hpath, hfile, Option.bind_some, loadSwarmState_stateLine hid]
  rfl

theorem membership_apply {save : Save} (hid : save.swarmId ≠ 0)
    (hleave : save.join = false → c.swarmId = save.swarmId) :
    (save.apply c).membership = (save.swarmId, save.join) := by
  unfold Save.apply
  cases hjoin : save.join with
  | true =>
      rw [if_pos rfl, MeshSwarmCoordinator.joinSwarm, if_neg (by simp [hid])]
      rfl
  | false =>
      rw [if_neg Bool.false_ne_true, MeshSwarmCoordinator.leaveSwarm, if_pos rfl]
      exact Prod.ext (hleave hjoin) rfl

theorem Saved.begin (h : Saved n) (hc : n.coordinator = some c) (hsaving : n.saving = none)
    {join : Bool} {swarmId : UInt16} (hid : swarmId ≠ 0) (hleave : join = false → c.swarmId = swarmId) :
    Saved (n.begin c { join := join, swarmId := swarmId }) := by
  unfold SwarmNode.begin
  rw [if_neg h.path]
  refine ⟨h.path, h.configured, fun _ => by rw [hc]; simp, ?_, ?_, ?_⟩
  · intro save hsave
    cases hsave
    refine ⟨hid, fun hjoin c' hc' => ?_⟩
    rw [hc] at hc'
    cases hc'
    exact hleave hjoin
  · intro c' hc'
    obtain ⟨hne, hheld⟩ := h.held c' hc'
    refine ⟨hne, (restored_of_file (n := n) rfl rfl rfl).trans ?_⟩
    rw [hheld, renamed, hsaving]
    rfl
  · intro save hsave hstage
    cases hsave
    cases hstage

/-- `persist_swarm_state` goes on, and the state file stays. -/
theorem Saved.proceed (h : Saved n) {save : Save} {stage : Stage} (hsaving : n.saving = some save)
    (hstage : save.stage ≠ .renamed) (hnext : stage ≠ .renamed) {temporary : Option (List Char)}
    (hflushed : stage = .flushed → temporary = some save.line) :
    Saved { n with temporary := temporary, saving := some { save with stage := stage } } where
  path := h.path
  configured := h.configured
  running := fun _ => h.running (by simp [hsaving])
  requested := by
    intro other hother
    cases hother
    exact h.requested save hsaving
  held := by
    intro c hc
    obtain ⟨hne, hheld⟩ := h.held c hc
    refine ⟨hne, (restored_of_file (n := n) rfl rfl rfl).trans ?_⟩
    rw [hheld, renamed, renamed, hsaving]
    -- The file is not renamed yet, so a restart reads the old line before and after.
    obtain ⟨join, swarmId, before⟩ := save
    cases before with
    | renamed => exact absurd rfl hstage
    | writing => cases stage <;> first | rfl | exact absurd rfl hnext
    | flushed => cases stage <;> first | rfl | exact absurd rfl hnext
  flushed := by
    intro other hother hstage
    cases hother
    exact hflushed hstage

theorem Saved.rename (h : Saved n) {join : Bool} {swarmId : UInt16}
    (hsaving : n.saving = some ⟨join, swarmId, .flushed⟩) :
    Saved { n with
      file := n.temporary
      temporary := none
      saving := some ⟨join, swarmId, .renamed⟩ } := by
  obtain ⟨hid, hleave⟩ := h.requested _ hsaving
  refine ⟨h.path, h.configured, fun _ => h.running (by simp [hsaving]), ?_, ?_, ?_⟩
  · intro save hsave
    cases hsave
    exact ⟨hid, hleave⟩
  · intro c hc
    have hline : n.temporary = some (stateLine swarmId join) := h.flushed _ hsaving rfl
    exact ⟨(h.held c hc).1, (restored_of_line (by exact h.path) (by exact hline) hid).trans rfl⟩
  · intro save hsave hstage
    cases hsave
    cases hstage

/-- The call is over; the coordinator has the membership that is in the file. -/
theorem Saved.settle (h : Saved n) {coordinator : Option MeshSwarmCoordinator}
    (hheld : ∀ c ∈ coordinator, c.swarmId ≠ 0 ∧ n.restored = c.membership) :
    Saved { n with coordinator := coordinator, saving := none } where
  path := h.path
  configured := h.configured
  running := fun hsaving => absurd rfl hsaving
  requested := by
    intro save hsave
    cases hsave
  held := fun c hc => ⟨(hheld c hc).1, (restored_of_file rfl rfl rfl).trans (hheld c hc).2⟩
  flushed := by
    intro save hsave
    cases hsave

theorem Saved.step (h : Saved n) {a : Action} (hx : n.step a = some n') : Saved n' := by
  cases a with
  | start =>
      simp only [SwarmNode.step] at hx
      split at hx
      · cases hx
      · rename_i hoff
        split at hx
        · rename_i c hcreate
          cases hx
          -- Only a running node saves.
          have hidle : n.saving = none := by
            by_contra hbusy
            exact h.running hbusy hoff
          have hmembership := create_membership hcreate
          have hne : c.membership.1 ≠ 0 := by
            rw [hmembership]
            exact restored_ne_zero h.configured
          have hsettled : Saved { n with coordinator := some c, saving := none } :=
            h.settle fun c' hc' => by
              cases hc'
              exact ⟨hne, hmembership.symm⟩
          rw [← hidle] at hsettled
          exact hsettled
        · cases hx
  | kill =>
      cases hx
      exact h.settle fun c hc => by cases hc
  | join swarmId =>
      simp only [SwarmNode.step] at hx
      split at hx
      · rename_i c hc hidle
        split at hx
        · cases hx
          exact h
        · rename_i hid
          cases hx
          exact h.begin hc hidle hid fun hjoin => by cases hjoin
      · cases hx
  | leave =>
      simp only [SwarmNode.step] at hx
      split at hx
      · rename_i c hc hidle
        cases hx
        exact h.begin hc hidle (h.held c hc).1 fun _ => rfl
      · cases hx
  | write count =>
      simp only [SwarmNode.step] at hx
      split at hx
      · rename_i join swarmId hsaving
        cases hx
        have hnext : Saved { n with
            temporary := some ((stateLine swarmId join).take count)
            saving := some ⟨join, swarmId, .writing⟩ } :=
          h.proceed hsaving (by simp) (by simp) (by simp)
        rw [← hsaving] at hnext
        exact hnext
      · cases hx
  | flush =>
      simp only [SwarmNode.step] at hx
      split at hx
      · rename_i join swarmId hsaving
        cases hx
        exact h.proceed hsaving (by simp) (by simp) fun _ => rfl
      · cases hx
  | rename =>
      simp only [SwarmNode.step] at hx
      split at hx
      · rename_i join swarmId hsaving
        cases hx
        exact h.rename hsaving
      · cases hx
  | throw =>
      simp only [SwarmNode.step] at hx
      split at hx
      · cases hx
      · cases hx
      · rename_i save hnot hsaving
        cases hx
        refine h.settle fun c hc => ⟨(h.held c hc).1, ?_⟩
        -- Nothing throws once the file is renamed, so the old membership is kept on both sides.
        rw [(h.held c hc).2, renamed, hsaving]
        obtain ⟨join, swarmId, stage⟩ := save
        cases stage with
        | writing => rfl
        | flushed => rfl
        | renamed => exact (hnot join swarmId rfl).elim
  | finish =>
      simp only [SwarmNode.step] at hx
      split at hx
      · rename_i c save hc hsaving
        split at hx
        · rename_i hstage
          cases hx
          obtain ⟨hid, hleave⟩ := h.requested save hsaving
          have hmembership := membership_apply hid fun hjoin => hleave hjoin c hc
          refine h.settle fun c' hc' => ?_
          cases hc'
          refine ⟨?_, ?_⟩
          · rw [show (save.apply c).swarmId = (save.apply c).membership.1 from rfl, hmembership]
            exact hid
          · rw [(h.held c hc).2, hmembership, renamed, hsaving]
            obtain ⟨join, swarmId, stage⟩ := save
            obtain rfl : stage = .renamed := hstage
            rfl
        · cases hx
      · cases hx
  | other a =>
      simp only [SwarmNode.step] at hx
      split at hx
      · cases hx
      · cases hx
      · rename_i c hc hidle hjoin hleave
        obtain ⟨c', hc', rfl⟩ := Option.map_eq_some_iff.mp hx
        have hmembership := membership_step hc' hjoin hleave
        obtain ⟨hne, hheld⟩ := h.held c hc
        have hsettled : Saved { n with coordinator := some c', saving := none } :=
          h.settle fun o ho => by
            cases ho
            refine ⟨?_, ?_⟩
            · rw [show c'.swarmId = c'.membership.1 from rfl, hmembership]
              exact hne
            · rw [hheld, renamed, hidle, hmembership]
              rfl
        rw [← hidle] at hsettled
        exact hsettled
      · cases hx

theorem saved_initial (h : n.Initial) : Saved n := by
  obtain ⟨hoff, hidle, hpath, hconfigured⟩ := h
  refine ⟨hpath, hconfigured, fun hbusy => absurd hidle hbusy, ?_, ?_, ?_⟩
  · simp [hidle]
  · simp [hoff]
  · simp [hidle]

theorem saved_reachable (h : Reachable SwarmNode.step Initial n) : Saved n :=
  h.invariant (fun _ => saved_initial) fun _ _ _ hs _ hx => hs.step hx

/-- **A membership survives a crash at any moment.** A node that is killed and starts again takes
up the membership that it had, or, once the state file of a call of `join_swarm` or `leave_swarm`
has been renamed, the one that was asked for. -/
theorem membership_survives (h : Reachable SwarmNode.step Initial n) (hc : n.coordinator = some c)
    (hrestart : Run.exec SwarmNode.step n [.kill, .start] = some n')
    (hc' : n'.coordinator = some c') : c'.membership = n.renamed.getD c.membership := by
  have hs : Saved n := saved_reachable h
  simp only [Run.exec, SwarmNode.step, Option.bind_some] at hrestart
  split at hrestart
  · rename_i d hcreate
    rw [Option.bind_some] at hrestart
    cases hrestart
    cases hc'
    exact (create_membership (n := { n with coordinator := none, saving := none }) hcreate).trans
      ((restored_of_file rfl rfl rfl).trans (hs.held c hc).2)
  · cases hrestart

end

def uav2 : SwarmNode where
  config := {}
  hostname := "uav2"
  meshSwarmStatePath := "/var/lib/mrs/swarm"

/-- The node joins swarm 5, and is killed when the file has been renamed. -/
def killedRun : List Action := [.start, .join 5, .write 1, .flush, .rename]

theorem membership_survives_killedRun :
    ∃ (n n' : SwarmNode) (c c' : MeshSwarmCoordinator), n.coordinator = some c ∧
      n'.coordinator = some c' ∧ c.membership = (1, true) ∧ c'.membership = (5, true) := by
  have hrun : ((Run.exec SwarmNode.step uav2 killedRun).map fun n =>
      (n.coordinator.map MeshSwarmCoordinator.membership, n.renamed)) =
        some (some (1, true), some (5, true)) := by
    decide +kernel
  have hagain : ((Run.exec SwarmNode.step uav2 (killedRun ++ [.kill, .start])).map fun n =>
      n.coordinator.isSome) = some true := by
    decide +kernel
  obtain ⟨n, hn, heq⟩ := Option.map_eq_some_iff.mp hrun
  obtain ⟨hheld, hrenamed⟩ := Prod.mk.inj heq
  obtain ⟨c, hc, hmembership⟩ := Option.map_eq_some_iff.mp hheld
  obtain ⟨n', hn', hsome⟩ := Option.map_eq_some_iff.mp hagain
  obtain ⟨c', hc'⟩ := Option.isSome_iff_exists.mp hsome
  rw [Run.exec_append, hn, Option.bind_some] at hn'
  have hreach : Reachable SwarmNode.step Initial n :=
    Reachable.exec (.start ⟨rfl, rfl, by simp [uav2], by simp [uav2]⟩) hn
  refine ⟨n, n', c, c', hc, hc', hmembership, ?_⟩
  rw [membership_survives hreach hc hn' hc', hrenamed]
  rfl

end SwarmNode

end UavBluetooth.Mesh
