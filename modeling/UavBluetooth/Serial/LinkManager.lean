import UavBluetooth.Lib.Run

set_option autoImplicit false

/-! # The links of the serial link manager

`SerialLinkManager` takes over an RFCOMM socket, opens a PTY for it, makes a link with a stable
name to the PTY, and runs the bridge of the two in a thread of its own. `attach` and `detach` are
called by several threads, and a bridge ends whenever a side closes.

A descriptor passes from `attach` to the link and from the link to `detach`; on the way the bridge
closes the PTY master. The kernel gives a number out again once it is closed, so a descriptor that
is closed twice is the descriptor of somebody else. `descriptors_closed_once` says that none is,
and that nothing is left open or on the disk behind the last link.
-/

namespace UavBluetooth.Serial

open Run

/-! ## Names -/

def isNameChar (c : Char) : Bool := c.isAlphanum || c == '-' || c == '_' || c == '.'

def isHexDigit (c : Char) : Bool := c.isDigit || ('a' ≤ c && c ≤ 'f') || ('A' ≤ c && c ≤ 'F')

/-- Whether the character at the index fits the form XX:XX:XX:XX:XX:XX. -/
def fitsAddress (index : Nat) (c : Char) : Bool :=
  if index % 3 = 2 then c == ':' else isHexDigit c

/-- `tty_basename_for_peer`; there is none for a malformed address. -/
def ttyBasenameForPeer (peerName peerMac : String) : Option String :=
  if peerName ≠ "" ∧ peerName.toList.all isNameChar then some ("ttyBLE_" ++ peerName)
  else if peerMac.toList.length = 17 ∧
      (peerMac.toList.zipIdx.all fun (c, index) => fitsAddress index c) then
    some (String.ofList ("ttyBLE_".toList ++
      peerMac.toList.map fun c => if c == ':' then '-' else c.toUpper))
  else none

/-! ## The manager -/

namespace SerialLinkManager

/-- How far `attach` or `detach` has come with a link. -/
inductive Stage where
  /-- `attach` has taken the socket. -/
  | accepted
  /-- `attach` waits for its call of `detach` to finish with the link `replaced`. -/
  | waiting (replaced : Nat)
  | ready
  /-- `openpty` has returned. -/
  | opened
  /-- The tty link is made. -/
  | linked
  /-- The link is in `links_`. -/
  | registered
  /-- `detach` has taken the link off `links_` and waits for its thread. -/
  | detached
  /-- The descriptors that are still to be closed, by `detach` or by an exception. -/
  | closing (descriptors : List Nat)
  deriving DecidableEq, Repr

/-- The thread of a link. -/
inductive Worker where
  | idle
  | running
  /-- The loop of `run_bridge` has ended. -/
  | left
  /-- The PTY master is closed. -/
  | hungUp
  | ended
  deriving DecidableEq, Repr

structure Link where
  /-- Tells the objects apart. -/
  id : Nat
  devicePath : String
  socketFd : Nat
  /-- `none` stands for -1. -/
  ptyMasterFd : Option Nat := none
  ptySlaveFd : Nat := 0
  ptyPath : String := ""
  ttyPath : String := ""
  stage : Stage := .accepted
  worker : Worker := .idle
  deriving DecidableEq, Repr

end SerialLinkManager

structure SerialLinkManager where
  preferredDirectory : String := "/dev"
  fallbackDirectory : String
  /-- All links: those in `links_`, and those that `attach` or `detach` is about. -/
  links : List SerialLinkManager.Link := []
  nextId : Nat := 0
  /-- The open descriptors. -/
  descriptors : List Nat := []
  /-- Descriptors that were closed without being open. -/
  failedCloses : Nat := 0
  /-- What the symbolic links on the disk lead to. -/
  files : String → Option String

namespace SerialLinkManager

def Stage.hasPty : Stage → Bool
  | .opened | .linked | .registered | .detached => true
  | _ => false

namespace Link

variable (l : Link)

/-- The descriptors that somebody has yet to close for this link. -/
def owned : List Nat :=
  match l.stage with
  | .closing descriptors => descriptors
  | stage =>
      if stage.hasPty then l.socketFd :: (l.ptyMasterFd.toList ++ [l.ptySlaveFd])
      else [l.socketFd]

/-- The tty link is on the disk. -/
def holdsTty : Bool :=
  match l.stage with
  | .linked => true
  | .registered | .detached => l.worker != .ended
  | _ => false

end Link

section

variable (s : SerialLinkManager)

def find (id : Nat) : Option Link := s.links.find? (·.id == id)

def setLink (link : Link) : SerialLinkManager :=
  { s with links := s.links.map fun l => if l.id = link.id then link else l }

def dropLink (id : Nat) : SerialLinkManager :=
  { s with links := s.links.filter (·.id != id) }

/-- The link that `links_` has for the device. -/
def registered (devicePath : String) : Option Link :=
  s.links.find? fun l => l.stage == .registered && l.devicePath == devicePath

def close (fd : Nat) : SerialLinkManager :=
  if fd ∈ s.descriptors then { s with descriptors := s.descriptors.erase fd }
  else { s with failedCloses := s.failedCloses + 1 }

/-- `remove_owned_link` -/
def removeOwnedLink (linkPath ptyPath : String) : SerialLinkManager :=
  if s.files linkPath = some ptyPath then { s with files := Function.update s.files linkPath none }
  else s

/-- `create_tty_link` in one of the directories: a link that leads to the PTY already is kept. -/
def linkIn (directory basename ptyPath : String) : Option (SerialLinkManager × String) :=
  let path := directory ++ "/" ++ basename
  match s.files path with
  | none => some ({ s with files := Function.update s.files path (some ptyPath) }, path)
  | some target => if target = ptyPath then some (s, path) else none

/-- `create_tty_link`, when `symlink` works in the preferred directory (`preferred`) and in the
fallback directory. -/
def createTtyLink (preferred fallback : Bool) (basename ptyPath : String) :
    Option (SerialLinkManager × String) :=
  ((if preferred then s.linkIn s.preferredDirectory basename ptyPath else none).or
    (if fallback then s.linkIn s.fallbackDirectory basename ptyPath else none))

end

/-! ## Steps -/

inductive Action where
  /-- `attach` is called with a socket that BlueZ has handed over. -/
  | attach (devicePath : String) (socketFd : Nat)
  /-- Its call of `detach` looks for a link of the device, -/
  | displace (id : Nat)
  /-- and is done with it. -/
  | proceed (id : Nat)
  | openpty (id : Nat) (result : Option (Nat × Nat × String))
  | createTtyLink (id : Nat) (preferred fallback : Bool) (peerName peerMac : String)
  | register (id : Nat) (threadStarted : Bool)
  /-- The loop of `run_bridge` ends. -/
  | leave (id : Nat)
  | hangUp (id : Nat)
  | retire (id : Nat)
  | detach (devicePath : String)
  | join (id : Nat)
  | close (id : Nat)

/-- What the destructors of the owners close, last one first. -/
def Link.guarded (l : Link) : List Nat :=
  if l.stage.hasPty then l.ptySlaveFd :: (l.ptyMasterFd.toList ++ [l.socketFd]) else [l.socketFd]

/-- An exception leaves `attach`. -/
def Link.fail (l : Link) : Link := { l with stage := .closing l.guarded }

def openPty (s : SerialLinkManager) (l : Link) :
    Option (Nat × Nat × String) → Option SerialLinkManager
  | none => some (s.setLink l.fail)
  | some (master, slave, ptyPath) =>
      if master ∉ s.descriptors ∧ slave ∉ s.descriptors ∧ master ≠ slave ∧
          ∀ other ∈ s.links, other.stage.hasPty = true → other.ptyPath ≠ ptyPath then
        some ({ s with descriptors := master :: slave :: s.descriptors }.setLink
          { l with ptyMasterFd := some master, ptySlaveFd := slave, ptyPath := ptyPath
                   stage := .opened })
      else none

def makeTtyLink (s : SerialLinkManager) (l : Link) (preferred fallback : Bool)
    (peerName peerMac : String) : SerialLinkManager :=
  match (ttyBasenameForPeer peerName peerMac).bind fun basename =>
      s.createTtyLink preferred fallback basename l.ptyPath with
  | some (s', path) => s'.setLink { l with ttyPath := path, stage := .linked }
  | none => s.setLink l.fail

/-- The thread starts under the lock, so a link without a thread is not seen in `links_`. -/
def register (s : SerialLinkManager) (l : Link) (threadStarted : Bool) : SerialLinkManager :=
  if (s.registered l.devicePath).isNone ∧ threadStarted = true then
    s.setLink { l with stage := .registered, worker := .running }
  else (s.removeOwnedLink l.ttyPath l.ptyPath).setLink l.fail

/-- Close the next descriptor; the link goes with the last one. -/
def closeNext (s : SerialLinkManager) (l : Link) : List Nat → SerialLinkManager
  | [] => s.dropLink l.id
  | fd :: rest => (s.close fd).setLink { l with stage := .closing rest }

def step (s : SerialLinkManager) : Action → Option SerialLinkManager
  | .attach devicePath socketFd =>
      if socketFd ∈ s.descriptors then none
      else
        some { s with
          descriptors := socketFd :: s.descriptors
          links := { id := s.nextId, devicePath := devicePath, socketFd := socketFd } :: s.links
          nextId := s.nextId + 1 }
  | .displace id =>
      (s.find id).bind fun l =>
        if l.stage = .accepted then
          match s.registered l.devicePath with
          | some other =>
              some ((s.setLink { other with stage := .detached }).setLink
                { l with stage := .waiting other.id })
          | none => some (s.setLink { l with stage := .ready })
        else none
  | .proceed id =>
      (s.find id).bind fun l =>
        match l.stage with
        | .waiting replaced =>
            if (s.find replaced).isNone then some (s.setLink { l with stage := .ready }) else none
        | _ => none
  | .openpty id result =>
      (s.find id).bind fun l => if l.stage = .ready then s.openPty l result else none
  | .createTtyLink id preferred fallback peerName peerMac =>
      (s.find id).bind fun l =>
        if l.stage = .opened then some (s.makeTtyLink l preferred fallback peerName peerMac)
        else none
  | .register id threadStarted =>
      (s.find id).bind fun l =>
        if l.stage = .linked then some (s.register l threadStarted) else none
  | .leave id =>
      (s.find id).bind fun l =>
        if l.worker = .running then some (s.setLink { l with worker := .left }) else none
  | .hangUp id =>
      (s.find id).bind fun l =>
        match l.worker, l.ptyMasterFd with
        | .left, some master =>
            some ((s.close master).setLink { l with ptyMasterFd := none, worker := .hungUp })
        | .left, none => some (s.setLink { l with worker := .hungUp })
        | _, _ => none
  | .retire id =>
      (s.find id).bind fun l =>
        if l.worker = .hungUp then
          some ((s.removeOwnedLink l.ttyPath l.ptyPath).setLink { l with worker := .ended })
        else none
  | .detach devicePath =>
      (s.registered devicePath).map fun l => s.setLink { l with stage := .detached }
  | .join id =>
      (s.find id).bind fun l =>
        if l.stage = .detached ∧ l.worker = .ended then
          some ((s.removeOwnedLink l.ttyPath l.ptyPath).setLink
            { l with stage := .closing l.owned })
        else none
  | .close id =>
      (s.find id).bind fun l =>
        match l.stage with
        | .closing descriptors => some (s.closeNext l descriptors)
        | _ => none

/-- No links yet; there may be files of others, also links left by an earlier process. -/
def Initial (foreign : String → Option String) (s : SerialLinkManager) : Prop :=
  s.links = [] ∧ s.descriptors = [] ∧ s.failedCloses = 0 ∧ s.files = foreign

/-! ## One link among the others -/

/-- The step puts `l'` in the place of `l`. -/
structure Replaces (s s' : SerialLinkManager) (l l' : Link) : Prop where
  split : ∃ before after, s.links = before ++ l :: after ∧ s'.links = before ++ l' :: after ∧
    ∀ o ∈ before ++ after, o.id ≠ l.id
  id : l'.id = l.id
  nextId : s'.nextId = s.nextId

section

variable {s s' : SerialLinkManager} {l l' o : Link} {id : Nat}

theorem Replaces.mem (h : Replaces s s' l l') :
    o ∈ s'.links ↔ o = l' ∨ (o ∈ s.links ∧ o.id ≠ l.id) := by
  obtain ⟨before, after, hs, hs', hother⟩ := h.split
  rw [hs, hs']
  simp only [List.mem_append, List.mem_cons] at hother ⊢
  constructor
  · rintro (ho | rfl | ho)
    · exact Or.inr ⟨Or.inl ho, hother o (Or.inl ho)⟩
    · exact Or.inl rfl
    · exact Or.inr ⟨Or.inr (Or.inr ho), hother o (Or.inr ho)⟩
  · rintro (rfl | ⟨ho | rfl | ho, hne⟩)
    · exact Or.inr (Or.inl rfl)
    · exact Or.inl ho
    · exact absurd rfl hne
    · exact Or.inr (Or.inr ho)

theorem Replaces.mem_before (h : Replaces s s' l l') : l ∈ s.links := by
  obtain ⟨before, after, hs, _⟩ := h.split
  rw [hs]
  exact List.mem_append_right _ List.mem_cons_self

theorem Replaces.eq_of_id (h : Replaces s s' l l') (ho : o ∈ s.links) (hid : o.id = l.id) :
    o = l := by
  obtain ⟨before, after, hs, _, hother⟩ := h.split
  rw [hs] at ho
  rcases List.mem_append.mp ho with ho | ho
  · exact absurd hid (hother o (List.mem_append_left _ ho))
  · rcases List.mem_cons.mp ho with ho | ho
    · exact ho
    · exact absurd hid (hother o (List.mem_append_right _ ho))

theorem replaces_setLink {t : SerialLinkManager} {n : Link} (hids : (s.links.map Link.id).Nodup)
    (hl : l ∈ s.links) (hid : n.id = l.id) (hlinks : t.links = s.links)
    (hnext : t.nextId = s.nextId) : Replaces s (t.setLink n) l n := by
  obtain ⟨before, after, hs⟩ := List.append_of_mem hl
  have hother : ∀ o ∈ before ++ after, o.id ≠ l.id := by
    rw [hs, List.map_append, List.map_cons, List.nodup_append, List.nodup_cons] at hids
    obtain ⟨_, ⟨hafter, _⟩, hbefore⟩ := hids
    intro o ho heq
    rcases List.mem_append.mp ho with ho | ho
    · exact hbefore o.id (List.mem_map_of_mem ho) l.id List.mem_cons_self heq
    · exact hafter (heq ▸ List.mem_map_of_mem ho)
  -- The identifiers are distinct, so the two parts around the link stay as they are.
  refine ⟨⟨before, after, hs, ?_, hother⟩, hid, hnext⟩
  have hsame : ∀ part : List Link, (∀ o ∈ part, o.id ≠ l.id) →
      part.map (fun o => if o.id = n.id then n else o) = part := by
    intro part hpart
    rw [List.map_congr_left (g := fun o => o)]
    · exact List.map_id _
    · intro o ho
      rw [if_neg (hid ▸ hpart o ho)]
  show t.links.map _ = _
  rw [hlinks, hs, List.map_append, List.map_cons, if_pos hid.symm,
    hsame before fun o ho => hother o (List.mem_append_left _ ho),
    hsame after fun o ho => hother o (List.mem_append_right _ ho)]

theorem mem_of_find (h : s.find id = some l) : l ∈ s.links := List.mem_of_find?_eq_some h

theorem registered_spec {devicePath : String} (h : s.registered devicePath = some l) :
    l ∈ s.links ∧ l.stage = .registered ∧ l.devicePath = devicePath := by
  have hp := List.find?_some h
  simp only [Bool.and_eq_true, beq_iff_eq] at hp
  exact ⟨List.mem_of_find?_eq_some h, hp⟩

end

/-! ## The descriptors -/

/-- A thread runs only while its link is in `links_` or `detach` waits for it. -/
def Link.Threaded (l : Link) : Prop :=
  l.worker = .idle ∨ (l.worker = .ended ∧ ∃ fds, l.stage = .closing fds) ∨
    l.stage = .registered ∨ l.stage = .detached

/-- Each open descriptor has one owner. -/
structure Accounted (s : SerialLinkManager) : Prop where
  ids : (s.links.map Link.id).Nodup
  fresh : ∀ l ∈ s.links, l.id < s.nextId
  nodup : s.descriptors.Nodup
  owners : (s.links.flatMap Link.owned).Perm s.descriptors
  clean : s.failedCloses = 0
  threaded : ∀ l ∈ s.links, l.Threaded

section

variable {s s' : SerialLinkManager} {l l' : Link}

theorem Replaces.owners (h : Replaces s s' l l') :
    ∃ rest, (s.links.flatMap Link.owned).Perm (l.owned ++ rest) ∧
      (s'.links.flatMap Link.owned).Perm (l'.owned ++ rest) := by
  obtain ⟨before, after, hs, hs', _⟩ := h.split
  refine ⟨before.flatMap Link.owned ++ after.flatMap Link.owned, ?_, ?_⟩
  all_goals
    simp only [hs, hs', List.flatMap_append, List.flatMap_cons]
    exact List.perm_append_comm_assoc _ _ _

theorem Replaces.map_id (h : Replaces s s' l l') : s'.links.map Link.id = s.links.map Link.id := by
  obtain ⟨before, after, hs, hs', _⟩ := h.split
  rw [hs, hs', List.map_append, List.map_append, List.map_cons, List.map_cons, h.id]

/-- One link is replaced; `hopen` says how the open descriptors follow. -/
theorem Accounted.replace (h : Accounted s) (hr : Replaces s s' l l')
    (hnodup : s'.descriptors.Nodup)
    (hopen : ∀ rest, (l.owned ++ rest).Perm s.descriptors →
      (l'.owned ++ rest).Perm s'.descriptors)
    (hclean : s'.failedCloses = s.failedCloses) (hthreaded : l'.Threaded) : Accounted s' where
  ids := hr.map_id ▸ h.ids
  fresh := by
    intro o ho
    rw [hr.nextId]
    rcases hr.mem.mp ho with rfl | ⟨ho, _⟩
    · exact hr.id ▸ h.fresh l hr.mem_before
    · exact h.fresh o ho
  nodup := hnodup
  owners := by
    obtain ⟨rest, hbefore, hafter⟩ := hr.owners
    exact hafter.trans (hopen rest (hbefore.symm.trans h.owners))
  clean := hclean.trans h.clean
  threaded := by
    intro o ho
    rcases hr.mem.mp ho with rfl | ⟨ho, _⟩
    · exact hthreaded
    · exact h.threaded o ho

/-- A link goes on with the descriptors that it has. -/
theorem Accounted.keep (h : Accounted s) (hr : Replaces s s' l l')
    (hdescriptors : s'.descriptors = s.descriptors) (howned : l'.owned.Perm l.owned)
    (hclean : s'.failedCloses = s.failedCloses) (hthreaded : l'.Threaded) : Accounted s' := by
  refine h.replace hr (hdescriptors ▸ h.nodup) (fun rest hrest => ?_) hclean hthreaded
  rw [hdescriptors]
  exact (howned.append_right rest).trans hrest

theorem owned_of_hasPty (h : l.stage.hasPty = true) :
    l.owned = l.socketFd :: (l.ptyMasterFd.toList ++ [l.ptySlaveFd]) := by
  unfold Link.owned
  split
  · rename_i hstage
    rw [hstage] at h
    cases h
  · exact if_pos h

theorem owned_of_not_hasPty (h : l.stage.hasPty = false)
    (hclosing : ∀ fds, l.stage ≠ .closing fds) : l.owned = [l.socketFd] := by
  unfold Link.owned
  split
  · exact absurd ‹_› (hclosing _)
  · rw [if_neg (by simp [h])]

theorem owned_fail (hclosing : ∀ fds, l.stage ≠ .closing fds) : l.fail.owned.Perm l.owned := by
  show l.guarded.Perm l.owned
  unfold Link.guarded
  split
  · rename_i hpty
    rw [owned_of_hasPty hpty]
    have hlast : ∀ fd, (l.ptyMasterFd.toList ++ [fd]).Perm (fd :: l.ptyMasterFd.toList) :=
      fun fd => List.perm_append_singleton fd _
    exact (((hlast _).cons _).trans (.swap _ _ _)).trans ((hlast _).symm.cons _)
  · rename_i hpty
    rw [owned_of_not_hasPty (Bool.eq_false_iff.mpr hpty) hclosing]

/-- A descriptor of the link is closed. -/
theorem Accounted.close (h : Accounted s) {t : SerialLinkManager} {fd : Nat} {rest : List Nat}
    (howned : l.owned.Perm (fd :: rest)) (hl : l ∈ s.links) (hid : l'.id = l.id)
    (howned' : l'.owned.Perm rest) (hthreaded : l'.Threaded) (ht : t = s.close fd) :
    Accounted (t.setLink l') := by
  have hmem : fd ∈ s.descriptors := by
    refine h.owners.mem_iff.mp (List.mem_flatMap.mpr ⟨l, hl, ?_⟩)
    exact howned.mem_iff.mpr List.mem_cons_self
  -- The link owns the descriptor, so it is open and closing it cannot fail.
  have hclose : t = { s with descriptors := s.descriptors.erase fd } := by
    rw [ht, SerialLinkManager.close, if_pos hmem]
  have hlinks : t.links = s.links := by rw [hclose]
  have hnext : t.nextId = s.nextId := by rw [hclose]
  have hdescriptors : (t.setLink l').descriptors = s.descriptors.erase fd := by rw [hclose]; rfl
  have hclean : (t.setLink l').failedCloses = s.failedCloses := by rw [hclose]; rfl
  refine h.replace (replaces_setLink h.ids hl hid hlinks hnext) ?_ (fun others hothers => ?_)
    hclean hthreaded
  · rw [hdescriptors]
    exact h.nodup.erase fd
  · rw [hdescriptors]
    have hall : (fd :: (rest ++ others)).Perm s.descriptors :=
      ((howned.append_right others).symm.trans hothers)
    have herase := hall.erase fd
    rw [List.erase_cons_head] at herase
    exact (howned'.append_right others).trans herase

theorem Accounted.setLink (h : Accounted s) {t : SerialLinkManager} (hl : l ∈ s.links)
    (hid : l'.id = l.id) (howned : l'.owned.Perm l.owned) (hthreaded : l'.Threaded)
    (hlinks : t.links = s.links) (hnext : t.nextId = s.nextId)
    (hdescriptors : t.descriptors = s.descriptors) (hclean : t.failedCloses = s.failedCloses) :
    Accounted (t.setLink l') :=
  h.keep (replaces_setLink h.ids hl hid hlinks hnext) hdescriptors howned hclean hthreaded

theorem Accounted.drop (h : Accounted s) (hl : l ∈ s.links) (howned : l.owned = []) :
    Accounted (s.dropLink l.id) := by
  obtain ⟨before, after, hs, _, hother⟩ :=
    (replaces_setLink (t := s) h.ids hl rfl rfl rfl).split
  have hlinks : (s.dropLink l.id).links = before ++ after := by
    have hsame : ∀ part : List Link, (∀ o ∈ part, o.id ≠ l.id) →
        part.filter (·.id != l.id) = part := fun part hpart =>
      List.filter_eq_self.mpr fun o ho => by simpa using hpart o ho
    show s.links.filter _ = _
    rw [hs, List.filter_append, List.filter_cons_of_neg (by simp),
      hsame before fun o ho => hother o (List.mem_append_left _ ho),
      hsame after fun o ho => hother o (List.mem_append_right _ ho)]
  have hsub : (s.dropLink l.id).links.Sublist s.links := List.filter_sublist
  refine ⟨h.ids.sublist (hsub.map _), fun o ho => h.fresh o (hsub.mem ho), h.nodup, ?_, h.clean,
    fun o ho => h.threaded o (hsub.mem ho)⟩
  have howners := h.owners
  rw [hs, List.flatMap_append, List.flatMap_cons, howned, List.nil_append] at howners
  rw [hlinks, List.flatMap_append]
  exact howners

theorem removeOwnedLink_spec (linkPath ptyPath : String) :
    (s.removeOwnedLink linkPath ptyPath).links = s.links ∧
      (s.removeOwnedLink linkPath ptyPath).nextId = s.nextId ∧
      (s.removeOwnedLink linkPath ptyPath).descriptors = s.descriptors ∧
      (s.removeOwnedLink linkPath ptyPath).failedCloses = s.failedCloses := by
  unfold removeOwnedLink
  split <;> exact ⟨rfl, rfl, rfl, rfl⟩

theorem linkIn_spec {directory basename ptyPath path : String}
    (h : s.linkIn directory basename ptyPath = some (s', path)) :
    s' = { s with files := s'.files } ∧
      (s.files path = none ∧ s'.files = Function.update s.files path (some ptyPath) ∨
        s.files path = some ptyPath ∧ s'.files = s.files) := by
  unfold linkIn at h
  dsimp only at h
  split at h
  · rename_i hnone
    cases h
    exact ⟨rfl, Or.inl ⟨hnone, rfl⟩⟩
  · split at h
    · rename_i htarget heq
      cases h
      exact ⟨rfl, Or.inr ⟨heq ▸ htarget, rfl⟩⟩
    · cases h

theorem createTtyLink_spec {preferred fallback : Bool} {basename ptyPath path : String}
    (h : s.createTtyLink preferred fallback basename ptyPath = some (s', path)) :
    s' = { s with files := s'.files } ∧
      (s.files path = none ∧ s'.files = Function.update s.files path (some ptyPath) ∨
        s.files path = some ptyPath ∧ s'.files = s.files) := by
  rcases Option.or_eq_some_iff.mp h with h | ⟨_, h⟩
  · split at h
    · exact linkIn_spec h
    · cases h
  · split at h
    · exact linkIn_spec h
    · cases h

/-- A link that only `attach` knows. -/
def Stage.attaching : Stage → Bool
  | .closing _ | .registered | .detached => false
  | _ => true

theorem Link.Threaded.idle (h : l.Threaded) (hattaching : l.stage.attaching = true) :
    l.worker = .idle := by
  rcases h with h | ⟨_, fds, h⟩ | h | h
  · exact h
  all_goals
    rw [h] at hattaching
    cases hattaching

/-- A link moves on, and what it owns does not depend on the stage. -/
theorem Accounted.move (h : Accounted s) (hl : l ∈ s.links) {stage : Stage}
    (hthreaded : ({ l with stage := stage } : Link).Threaded)
    (howned : ({ l with stage := stage } : Link).owned.Perm l.owned) :
    Accounted (s.setLink { l with stage := stage }) :=
  h.setLink hl rfl howned hthreaded rfl rfl rfl rfl

theorem Accounted.fail (h : Accounted s) (hl : l ∈ s.links) {t : SerialLinkManager}
    (hattaching : l.stage.attaching = true) (hlinks : t.links = s.links) (hnext : t.nextId = s.nextId)
    (hdescriptors : t.descriptors = s.descriptors) (hclean : t.failedCloses = s.failedCloses) :
    Accounted (t.setLink l.fail) :=
  h.setLink hl rfl (owned_fail fun fds hstage => by rw [hstage] at hattaching; cases hattaching)
    (Or.inl ((h.threaded l hl).idle hattaching)) hlinks hnext hdescriptors hclean

theorem Accounted.openPty (h : Accounted s) (hl : l ∈ s.links) (hstage : l.stage = .ready)
    {result : Option (Nat × Nat × String)} (hx : s.openPty l result = some s') :
    Accounted s' := by
  have hthreaded := h.threaded l hl
  rcases result with _ | ⟨master, slave, ptyPath⟩
  · cases hx
    exact h.fail hl (by rw [hstage]; rfl) rfl rfl rfl rfl
  · simp only [SerialLinkManager.openPty] at hx
    split at hx
    · rename_i hfree
      cases hx
      obtain ⟨hmaster, hslave, hne, _⟩ := hfree
      refine h.replace (replaces_setLink h.ids hl (n := { l with
          ptyMasterFd := some master, ptySlaveFd := slave, ptyPath := ptyPath, stage := .opened })
        rfl rfl rfl) ?_ (fun rest hrest => ?_) rfl
        (Or.inl (hthreaded.idle (by rw [hstage]; rfl)))
      · refine List.nodup_cons.mpr ⟨?_, List.nodup_cons.mpr ⟨hslave, h.nodup⟩⟩
        intro hmem
        rcases List.mem_cons.mp hmem with hmem | hmem
        · exact hne hmem
        · exact hmaster hmem
      · rw [owned_of_not_hasPty (by simp [hstage, Stage.hasPty]) (by simp [hstage])] at hrest
        -- Up to here the link owned its socket only.
        have hswap : ([l.socketFd] ++ [master, slave]).Perm ([master, slave] ++ [l.socketFd]) :=
          List.perm_append_comm
        exact (hswap.append_right rest).trans ((hrest.cons slave).cons master)
    · cases hx

theorem Accounted.makeTtyLink (h : Accounted s) (hl : l ∈ s.links) (hstage : l.stage = .opened)
    (preferred fallback : Bool) (peerName peerMac : String) :
    Accounted (s.makeTtyLink l preferred fallback peerName peerMac) := by
  unfold SerialLinkManager.makeTtyLink
  split
  · rename_i t path hx
    obtain ⟨basename, _, hx⟩ := Option.bind_eq_some_iff.mp hx
    obtain ⟨ht, _⟩ := createTtyLink_spec hx
    have hpty : l.stage.hasPty = true := by rw [hstage]; rfl
    refine h.setLink hl rfl ?_ (Or.inl ((h.threaded l hl).idle (by rw [hstage]; rfl)))
      (by rw [ht]) (by rw [ht]) (by rw [ht]) (by rw [ht])
    rw [owned_of_hasPty hpty]
    exact .refl _
  · exact h.fail hl (by rw [hstage]; rfl) rfl rfl rfl rfl

theorem Accounted.register (h : Accounted s) (hl : l ∈ s.links) (hstage : l.stage = .linked)
    (threadStarted : Bool) : Accounted (s.register l threadStarted) := by
  unfold SerialLinkManager.register
  have hpty : l.stage.hasPty = true := by rw [hstage]; rfl
  split
  · refine h.setLink hl rfl ?_ (Or.inr (Or.inr (Or.inl rfl))) rfl rfl rfl rfl
    rw [owned_of_hasPty hpty]
    exact .refl _
  · obtain ⟨hlinks, hnext, hdescriptors, hclean⟩ := removeOwnedLink_spec (s := s) l.ttyPath l.ptyPath
    exact h.fail hl (by rw [hstage]; rfl) hlinks hnext hdescriptors hclean

/-- `detach` takes a link off `links_`. -/
theorem Accounted.detach (h : Accounted s) (hl : l ∈ s.links) (hstage : l.stage = .registered) :
    Accounted (s.setLink { l with stage := .detached }) := by
  refine h.move hl (Or.inr (Or.inr (Or.inr rfl))) ?_
  rw [owned_of_hasPty (l := l) (by rw [hstage]; rfl)]
  exact .refl _

theorem Accounted.displace (h : Accounted s) (hl : l ∈ s.links) (hstage : l.stage = .accepted)
    {other : Link} (hother : s.registered l.devicePath = some other) :
    Accounted ((s.setLink { other with stage := .detached }).setLink
      { l with stage := .waiting other.id }) := by
  obtain ⟨hmem, hregistered, _⟩ := registered_spec hother
  have hne : l.id ≠ other.id := by
    intro heq
    have hsame : l = other := List.inj_on_of_nodup_map h.ids hl hmem heq
    rw [hsame, hregistered] at hstage
    cases hstage
  have hafter := h.detach hmem hregistered
  have hl' : l ∈ (s.setLink { other with stage := .detached }).links :=
    (replaces_setLink (t := s) (n := { other with stage := .detached }) h.ids hmem rfl rfl
      rfl).mem.mpr (Or.inr ⟨hl, hne⟩)
  refine hafter.move hl' (Or.inl ((h.threaded l hl).idle (by rw [hstage]; rfl))) ?_
  rw [owned_of_not_hasPty (l := l) (by simp [hstage, Stage.hasPty]) (by simp [hstage])]
  exact .refl _

theorem Accounted.ready (h : Accounted s) (hl : l ∈ s.links) (hpty : l.stage.hasPty = false)
    (hattaching : l.stage.attaching = true) : Accounted (s.setLink { l with stage := .ready }) := by
  refine h.move hl (Or.inl ((h.threaded l hl).idle hattaching)) ?_
  rw [owned_of_not_hasPty hpty fun fds hstage => by rw [hstage] at hattaching; cases hattaching]
  exact .refl _

/-- The thread of a link goes on; the master may be closed on the way. -/
theorem Accounted.work (h : Accounted s) (hl : l ∈ s.links) {worker : Worker}
    (hstage : l.stage = .registered ∨ l.stage = .detached) {t : SerialLinkManager}
    (hlinks : t.links = s.links) (hnext : t.nextId = s.nextId)
    (hdescriptors : t.descriptors = s.descriptors) (hclean : t.failedCloses = s.failedCloses) :
    Accounted (t.setLink { l with worker := worker }) :=
  h.setLink hl rfl (.refl _) (Or.inr (Or.inr hstage)) hlinks hnext hdescriptors hclean

theorem stage_of_worker (h : l.Threaded) (hidle : l.worker ≠ .idle) (hended : l.worker ≠ .ended) :
    l.stage = .registered ∨ l.stage = .detached := by
  rcases h with h | ⟨h, _⟩ | h
  · exact absurd h hidle
  · exact absurd h hended
  · exact h

theorem Accounted.hangUp (h : Accounted s) (hl : l ∈ s.links) {master : Nat}
    (hmaster : l.ptyMasterFd = some master) (hstage : l.stage = .registered ∨ l.stage = .detached) :
    Accounted ((s.close master).setLink { l with ptyMasterFd := none, worker := .hungUp }) := by
  have hpty : l.stage.hasPty = true := by
    rcases hstage with hstage | hstage
    · rw [hstage]; rfl
    · rw [hstage]; rfl
  have howned : l.owned.Perm (master :: [l.socketFd, l.ptySlaveFd]) := by
    rw [owned_of_hasPty hpty, hmaster]
    exact .swap _ _ _
  refine h.close howned hl rfl ?_ (Or.inr (Or.inr hstage)) rfl
  rw [owned_of_hasPty (l := { l with ptyMasterFd := none, worker := .hungUp }) hpty]
  exact .refl _

theorem Accounted.closeNext (h : Accounted s) (hl : l ∈ s.links) {fds : List Nat}
    (hstage : l.stage = .closing fds) : Accounted (s.closeNext l fds) := by
  have howned : l.owned = fds := by rw [Link.owned, hstage]
  rcases fds with _ | ⟨fd, rest⟩
  · exact h.drop hl howned
  · refine h.close (howned ▸ .refl _) hl rfl (.refl _) ?_ rfl
    rcases h.threaded l hl with hidle | ⟨hended, _⟩ | hregistered | hdetached
    · exact Or.inl hidle
    · exact Or.inr (Or.inl ⟨hended, rest, rfl⟩)
    · rw [hstage] at hregistered
      cases hregistered
    · rw [hstage] at hdetached
      cases hdetached

theorem Accounted.join (h : Accounted s) (hl : l ∈ s.links) (hworker : l.worker = .ended) :
    Accounted ((s.removeOwnedLink l.ttyPath l.ptyPath).setLink
      { l with stage := .closing l.owned }) := by
  obtain ⟨hlinks, hnext, hdescriptors, hclean⟩ := removeOwnedLink_spec (s := s) l.ttyPath l.ptyPath
  exact h.setLink hl rfl (.refl _) (Or.inr (Or.inl ⟨hworker, _, rfl⟩)) hlinks hnext hdescriptors
    hclean

theorem Accounted.attach (h : Accounted s) {devicePath : String} {socketFd : Nat}
    (hfree : socketFd ∉ s.descriptors) :
    Accounted { s with
      descriptors := socketFd :: s.descriptors
      links := { id := s.nextId, devicePath := devicePath, socketFd := socketFd } :: s.links
      nextId := s.nextId + 1 } where
  ids := by
    refine List.nodup_cons.mpr ⟨fun hmem => ?_, h.ids⟩
    obtain ⟨o, ho, heq⟩ := List.mem_map.mp hmem
    exact Nat.lt_irrefl _ (heq ▸ h.fresh o ho)
  fresh := by
    intro o ho
    rcases List.mem_cons.mp ho with rfl | ho
    · exact Nat.lt_succ_self _
    · exact Nat.lt_succ_of_lt (h.fresh o ho)
  nodup := List.nodup_cons.mpr ⟨hfree, h.nodup⟩
  owners := h.owners.cons socketFd
  clean := h.clean
  threaded := by
    intro o ho
    rcases List.mem_cons.mp ho with rfl | ho
    · exact Or.inl rfl
    · exact h.threaded o ho

theorem find_bind {id : Nat} {f : Link → Option SerialLinkManager}
    (hx : (s.find id).bind f = some s') : ∃ l ∈ s.links, f l = some s' := by
  obtain ⟨l, hfind, hl⟩ := Option.bind_eq_some_iff.mp hx
  exact ⟨l, mem_of_find hfind, hl⟩

/-- Every step accounts for the descriptors that it opens and closes. -/
theorem Accounted.step (h : Accounted s) {a : Action} (hx : s.step a = some s') :
    Accounted s' := by
  cases a with
  | attach devicePath socketFd =>
      simp only [SerialLinkManager.step] at hx
      split at hx
      · cases hx
      · rename_i hfree
        cases hx
        exact h.attach hfree
  | displace id =>
      obtain ⟨l, hl, hx⟩ := find_bind hx
      split at hx
      · rename_i hstage
        split at hx
        · rename_i other hother
          cases hx
          exact h.displace hl hstage hother
        · cases hx
          exact h.ready hl (by rw [hstage]; rfl) (by rw [hstage]; rfl)
      · cases hx
  | proceed id =>
      obtain ⟨l, hl, hx⟩ := find_bind hx
      split at hx
      · rename_i replaced hstage
        split at hx
        · cases hx
          exact h.ready hl (by rw [hstage]; rfl) (by rw [hstage]; rfl)
        · cases hx
      · cases hx
  | openpty id result =>
      obtain ⟨l, hl, hx⟩ := find_bind hx
      split at hx
      · exact h.openPty hl ‹_› hx
      · cases hx
  | createTtyLink id preferred fallback peerName peerMac =>
      obtain ⟨l, hl, hx⟩ := find_bind hx
      split at hx
      · rename_i hstage
        cases hx
        exact h.makeTtyLink hl hstage preferred fallback peerName peerMac
      · cases hx
  | register id threadStarted =>
      obtain ⟨l, hl, hx⟩ := find_bind hx
      split at hx
      · rename_i hstage
        cases hx
        exact h.register hl hstage threadStarted
      · cases hx
  | leave id =>
      obtain ⟨l, hl, hx⟩ := find_bind hx
      split at hx
      · rename_i hworker
        cases hx
        exact h.work hl (stage_of_worker (h.threaded l hl) (by simp [hworker]) (by simp [hworker]))
          rfl rfl rfl rfl
      · cases hx
  | hangUp id =>
      obtain ⟨l, hl, hx⟩ := find_bind hx
      split at hx
      · rename_i master hworker hmaster
        cases hx
        exact h.hangUp hl hmaster
          (stage_of_worker (h.threaded l hl) (by simp [hworker]) (by simp [hworker]))
      · rename_i hworker hmaster
        cases hx
        exact h.work hl (stage_of_worker (h.threaded l hl) (by simp [hworker]) (by simp [hworker]))
          rfl rfl rfl rfl
      · cases hx
  | retire id =>
      obtain ⟨l, hl, hx⟩ := find_bind hx
      split at hx
      · rename_i hworker
        cases hx
        obtain ⟨hlinks, hnext, hdescriptors, hclean⟩ :=
          removeOwnedLink_spec (s := s) l.ttyPath l.ptyPath
        exact h.work hl (stage_of_worker (h.threaded l hl) (by simp [hworker]) (by simp [hworker]))
          hlinks hnext hdescriptors hclean
      · cases hx
  | detach devicePath =>
      obtain ⟨l, hl, rfl⟩ := Option.map_eq_some_iff.mp hx
      obtain ⟨hmem, hstage, _⟩ := registered_spec hl
      exact h.detach hmem hstage
  | join id =>
      obtain ⟨l, hl, hx⟩ := find_bind hx
      split at hx
      · rename_i hended
        cases hx
        exact h.join hl hended.2
      · cases hx
  | close id =>
      obtain ⟨l, hl, hx⟩ := find_bind hx
      split at hx
      · rename_i fds hstage
        cases hx
        exact h.closeNext hl hstage
      · cases hx

theorem accounted_initial {foreign : String → Option String} (h : s.Initial foreign) :
    Accounted s := by
  obtain ⟨hlinks, hdescriptors, hclean, _⟩ := h
  refine ⟨?_, ?_, ?_, ?_, hclean, ?_⟩
  · rw [hlinks]
    exact List.nodup_nil
  · simp [hlinks]
  · rw [hdescriptors]
    exact List.nodup_nil
  · rw [hlinks, hdescriptors]
    exact .refl _
  · simp [hlinks]

theorem accounted_reachable {foreign : String → Option String}
    (h : Reachable SerialLinkManager.step (Initial foreign) s) : Accounted s :=
  h.invariant (fun _ => accounted_initial) fun _ _ _ hs _ hx => hs.step hx

end

/-! ## The tty links -/

/-- The master of a PTY is open until the thread closes it. -/
def Link.Mastered (l : Link) : Prop :=
  l.stage.hasPty = true → l.worker = .hungUp ∨ l.worker = .ended ∨ l.ptyMasterFd.isSome = true

/-- A tty link is on the disk as long as its PTY is bridged, and it leads there. -/
structure Traced (foreign : String → Option String) (s : SerialLinkManager) : Prop where
  apart : ∀ l ∈ s.links, ∀ o ∈ s.links, l.stage.hasPty = true → o.stage.hasPty = true →
    l.ptyPath = o.ptyPath → l.id = o.id
  leads : ∀ l ∈ s.links, l.holdsTty = true → s.files l.ttyPath = some l.ptyPath
  known : ∀ path target, s.files path = some target → foreign path = some target ∨
    ∃ l ∈ s.links, l.holdsTty = true ∧ l.ttyPath = path ∧ l.ptyPath = target
  mastered : ∀ l ∈ s.links, l.Mastered

section

variable {foreign : String → Option String} {s s' : SerialLinkManager} {l l' : Link}

theorem hasPty_of_holdsTty (h : l.holdsTty = true) : l.stage.hasPty = true := by
  unfold Link.holdsTty at h
  split at h
  · rw [‹l.stage = _›]; rfl
  · rw [‹l.stage = _›]; rfl
  · rw [‹l.stage = _›]; rfl
  · cases h

/-- A link keeps its PTY's name. -/
theorem Traced.apart_of (h : Traced foreign s) (hr : Replaces s s' l l')
    (hpty : l'.ptyPath = l.ptyPath) (hhas : l'.stage.hasPty = true → l.stage.hasPty = true) :
    ∀ o ∈ s'.links, ∀ o' ∈ s'.links, o.stage.hasPty = true → o'.stage.hasPty = true →
      o.ptyPath = o'.ptyPath → o.id = o'.id := by
  intro o ho o' ho' hhas₁ hhas₂ heq
  rcases hr.mem.mp ho with rfl | ⟨ho, _⟩
  · rcases hr.mem.mp ho' with rfl | ⟨ho', _⟩
    · rfl
    · rw [hr.id]
      exact h.apart l hr.mem_before o' ho' (hhas hhas₁) hhas₂ (hpty ▸ heq)
  · rcases hr.mem.mp ho' with rfl | ⟨ho', _⟩
    · rw [hr.id]
      exact h.apart o ho l hr.mem_before hhas₁ (hhas hhas₂) (hpty ▸ heq)
    · exact h.apart o ho o' ho' hhas₁ hhas₂ heq

/-- A link goes on under its names; no files change. -/
theorem Traced.keep (h : Traced foreign s) (hr : Replaces s s' l l') (hfiles : s'.files = s.files)
    (hpty : l'.ptyPath = l.ptyPath) (htty : l'.ttyPath = l.ttyPath)
    (hhas : l'.stage.hasPty = true → l.stage.hasPty = true) (hholds : l'.holdsTty = l.holdsTty)
    (hmastered : l'.Mastered) : Traced foreign s' where
  apart := h.apart_of hr hpty hhas
  leads := by
    intro o ho hheld
    rw [hfiles]
    rcases hr.mem.mp ho with rfl | ⟨ho, _⟩
    · rw [htty, hpty]
      exact h.leads l hr.mem_before (hholds ▸ hheld)
    · exact h.leads o ho hheld
  known := by
    intro path target hpath
    rw [hfiles] at hpath
    refine (h.known path target hpath).imp_right ?_
    rintro ⟨o, ho, hheld, hpaths⟩
    -- The file may lead to the very link that goes on.
    by_cases heq : o.id = l.id
    · refine ⟨l', hr.mem.mpr (Or.inl rfl), ?_⟩
      obtain rfl := hr.eq_of_id ho heq
      exact ⟨hholds.trans hheld, htty.trans hpaths.1, hpty.trans hpaths.2⟩
    · exact ⟨o, hr.mem.mpr (Or.inr ⟨ho, heq⟩), hheld, hpaths⟩
  mastered := by
    intro o ho
    rcases hr.mem.mp ho with rfl | ⟨ho, _⟩
    · exact hmastered
    · exact h.mastered o ho

/-- A link gives its tty link up; one of the same name that leads elsewhere stays. -/
theorem Traced.release (h : Traced foreign s)
    (hr : Replaces s s' l l') (hfiles : s'.files = (s.removeOwnedLink l.ttyPath l.ptyPath).files)
    (hpty : l'.ptyPath = l.ptyPath) (hlpty : l.stage.hasPty = true)
    (hholds : l'.holdsTty = false) (hmastered : l'.Mastered) : Traced foreign s' := by
  -- One file goes, and only if it still leads to the PTY of this link.
  have hchange : ∀ path target, s'.files path = some target ↔
      s.files path = some target ∧ ¬(path = l.ttyPath ∧ target = l.ptyPath) := by
    intro path target
    rw [hfiles, removeOwnedLink]
    split
    · rename_i hown
      show Function.update s.files l.ttyPath none path = some target ↔ _
      by_cases heq : path = l.ttyPath
      · rw [heq, Function.update_self, hown]
        constructor
        · intro hnone
          cases hnone
        · rintro ⟨htarget, hnot⟩
          exact absurd ⟨rfl, (Option.some.inj htarget).symm⟩ hnot
      · rw [Function.update_of_ne heq]
        exact ⟨fun hpath => ⟨hpath, fun hboth => heq hboth.1⟩, fun hpath => hpath.1⟩
    · rename_i hother
      refine ⟨fun hpath => ⟨hpath, ?_⟩, fun hpath => hpath.1⟩
      rintro ⟨rfl, rfl⟩
      exact hother hpath
  refine ⟨h.apart_of hr hpty fun _ => hlpty, ?_, ?_, ?_⟩
  · intro o ho hheld
    rcases hr.mem.mp ho with rfl | ⟨ho, hne⟩
    · rw [hholds] at hheld
      cases hheld
    · refine (hchange _ _).mpr ⟨h.leads o ho hheld, fun hboth => hne ?_⟩
      exact h.apart o ho l hr.mem_before (hasPty_of_holdsTty hheld) hlpty hboth.2
  · intro path target hpath
    obtain ⟨hpath, hnot⟩ := (hchange path target).mp hpath
    refine (h.known path target hpath).imp_right ?_
    rintro ⟨o, ho, hheld, rfl, rfl⟩
    refine ⟨o, hr.mem.mpr (Or.inr ⟨ho, fun heq => hnot ?_⟩), hheld, rfl, rfl⟩
    rw [hr.eq_of_id ho heq]
    exact ⟨rfl, rfl⟩
  · intro o ho
    rcases hr.mem.mp ho with rfl | ⟨ho, _⟩
    · exact hmastered
    · exact h.mastered o ho

/-- `openpty` returns a name that is not in use. -/
theorem Traced.opened (h : Traced foreign s) (hr : Replaces s s' l l') (hfiles : s'.files = s.files)
    (hfree : ∀ o ∈ s.links, o.stage.hasPty = true → o.ptyPath ≠ l'.ptyPath)
    (hbefore : l.holdsTty = false) (hafter : l'.holdsTty = false) (hmastered : l'.Mastered) :
    Traced foreign s' where
  apart := by
    intro o ho o' ho' hhas₁ hhas₂ heq
    rcases hr.mem.mp ho with rfl | ⟨ho, _⟩
    · rcases hr.mem.mp ho' with rfl | ⟨ho', _⟩
      · rfl
      · exact absurd heq.symm (hfree o' ho' hhas₂)
    · rcases hr.mem.mp ho' with rfl | ⟨ho', _⟩
      · exact absurd heq (hfree o ho hhas₁)
      · exact h.apart o ho o' ho' hhas₁ hhas₂ heq
  leads := by
    intro o ho hheld
    rw [hfiles]
    rcases hr.mem.mp ho with rfl | ⟨ho, _⟩
    · rw [hafter] at hheld
      cases hheld
    · exact h.leads o ho hheld
  known := by
    intro path target hpath
    rw [hfiles] at hpath
    refine (h.known path target hpath).imp_right ?_
    rintro ⟨o, ho, hheld, hpaths⟩
    refine ⟨o, hr.mem.mpr (Or.inr ⟨ho, fun heq => ?_⟩), hheld, hpaths⟩
    rw [hr.eq_of_id ho heq, hbefore] at hheld
    cases hheld
  mastered := by
    intro o ho
    rcases hr.mem.mp ho with rfl | ⟨ho, _⟩
    · exact hmastered
    · exact h.mastered o ho

/-- A link makes its tty link, or finds one that leads to its PTY. -/
theorem Traced.take (h : Traced foreign s) (hr : Replaces s s' l l')
    (hfiles : s.files l'.ttyPath = none ∧
        s'.files = Function.update s.files l'.ttyPath (some l'.ptyPath) ∨
      s.files l'.ttyPath = some l'.ptyPath ∧ s'.files = s.files)
    (hpty : l'.ptyPath = l.ptyPath) (hlpty : l.stage.hasPty = true) (hbefore : l.holdsTty = false)
    (hholds : l'.holdsTty = true) (hmastered : l'.Mastered) : Traced foreign s' := by
  -- The file is new, or it was there and leads to the PTY already.
  have hchange : ∀ path target, s'.files path = some target ↔
      s.files path = some target ∨ (path = l'.ttyPath ∧ target = l'.ptyPath) := by
    intro path target
    rcases hfiles with ⟨hnone, hupdate⟩ | ⟨hsome, hsame⟩
    · rw [hupdate]
      by_cases heq : path = l'.ttyPath
      · rw [heq, Function.update_self, hnone]
        constructor
        · intro htarget
          exact Or.inr ⟨rfl, (Option.some.inj htarget).symm⟩
        · rintro (hpath | ⟨_, rfl⟩)
          · cases hpath
          · rfl
      · rw [Function.update_of_ne heq]
        exact ⟨Or.inl, fun hor => hor.resolve_right fun hboth => heq hboth.1⟩
    · rw [hsame]
      refine ⟨Or.inl, fun hor => hor.elim id ?_⟩
      rintro ⟨rfl, rfl⟩
      exact hsome
  refine ⟨h.apart_of hr hpty fun _ => hlpty, ?_, ?_, ?_⟩
  · intro o ho hheld
    rcases hr.mem.mp ho with rfl | ⟨ho, _⟩
    · exact (hchange _ _).mpr (Or.inr ⟨rfl, rfl⟩)
    · exact (hchange _ _).mpr (Or.inl (h.leads o ho hheld))
  · intro path target hpath
    rcases (hchange path target).mp hpath with hpath | ⟨rfl, rfl⟩
    · refine (h.known path target hpath).imp_right ?_
      rintro ⟨o, ho, hheld, hpaths⟩
      refine ⟨o, hr.mem.mpr (Or.inr ⟨ho, fun heq => ?_⟩), hheld, hpaths⟩
      rw [hr.eq_of_id ho heq, hbefore] at hheld
      cases hheld
    · exact Or.inr ⟨l', hr.mem.mpr (Or.inl rfl), hholds, rfl, rfl⟩
  · intro o ho
    rcases hr.mem.mp ho with rfl | ⟨ho, _⟩
    · exact hmastered
    · exact h.mastered o ho

/-- A link that holds no tty link goes. -/
theorem Traced.drop (h : Traced foreign s) (hids : (s.links.map Link.id).Nodup) (hl : l ∈ s.links)
    (hholds : l.holdsTty = false) : Traced foreign (s.dropLink l.id) := by
  have hmem : ∀ o, o ∈ (s.dropLink l.id).links ↔ o ∈ s.links ∧ o.id ≠ l.id := by
    intro o
    show o ∈ s.links.filter _ ↔ _
    rw [List.mem_filter, bne_iff_ne]
  refine ⟨fun o ho o' ho' => h.apart o ((hmem o).mp ho).1 o' ((hmem o').mp ho').1,
    fun o ho => h.leads o ((hmem o).mp ho).1, fun path target hpath => ?_,
    fun o ho => h.mastered o ((hmem o).mp ho).1⟩
  refine (h.known path target hpath).imp_right ?_
  rintro ⟨o, ho, hheld, hpaths⟩
  refine ⟨o, (hmem o).mpr ⟨ho, fun heq => ?_⟩, hheld, hpaths⟩
  rw [List.inj_on_of_nodup_map hids ho hl heq, hholds] at hheld
  cases hheld

theorem Traced.attach (h : Traced foreign s) (devicePath : String) (socketFd : Nat) :
    Traced foreign { s with
      descriptors := socketFd :: s.descriptors
      links := { id := s.nextId, devicePath := devicePath, socketFd := socketFd } :: s.links
      nextId := s.nextId + 1 } where
  apart := by
    intro o ho o' ho' hhas₁ hhas₂
    rcases List.mem_cons.mp ho with rfl | ho
    · cases hhas₁
    · rcases List.mem_cons.mp ho' with rfl | ho'
      · cases hhas₂
      · exact h.apart o ho o' ho' hhas₁ hhas₂
  leads := by
    intro o ho hheld
    rcases List.mem_cons.mp ho with rfl | ho
    · cases hheld
    · exact h.leads o ho hheld
  known := by
    intro path target hpath
    refine (h.known path target hpath).imp_right ?_
    rintro ⟨o, ho, hrest⟩
    exact ⟨o, List.mem_cons_of_mem _ ho, hrest⟩
  mastered := by
    intro o ho
    rcases List.mem_cons.mp ho with rfl | ho
    · intro hhas
      cases hhas
    · exact h.mastered o ho

theorem mastered_of_hasPty_false (h : l.stage.hasPty = false) : l.Mastered := by
  intro hhas
  rw [h] at hhas
  cases hhas

theorem close_files (s : SerialLinkManager) (fd : Nat) : (s.close fd).files = s.files := by
  unfold SerialLinkManager.close
  split <;> rfl

theorem close_links (s : SerialLinkManager) (fd : Nat) :
    (s.close fd).links = s.links ∧ (s.close fd).nextId = s.nextId := by
  unfold SerialLinkManager.close
  split <;> exact ⟨rfl, rfl⟩

theorem holdsTty_of_hasPty_false (h : l.stage.hasPty = false) : l.holdsTty = false := by
  cases hholds : l.holdsTty with
  | false => rfl
  | true => rw [hasPty_of_holdsTty hholds] at h; cases h

/-- A link moves on between stages without a PTY. -/
theorem Traced.pass (h : Traced foreign s) (hr : Replaces s s' l l') (hfiles : s'.files = s.files)
    (hpty : l'.ptyPath = l.ptyPath) (htty : l'.ttyPath = l.ttyPath)
    (hbefore : l.holdsTty = false) (hafter : l'.stage.hasPty = false) : Traced foreign s' :=
  h.keep hr hfiles hpty htty (fun hhas => by rw [hafter] at hhas; cases hhas)
    ((holdsTty_of_hasPty_false hafter).trans hbefore.symm) (mastered_of_hasPty_false hafter)

theorem Traced.fail (h : Traced foreign s) (hids : (s.links.map Link.id).Nodup) (hl : l ∈ s.links)
    (hbefore : l.holdsTty = false) : Traced foreign (s.setLink l.fail) :=
  h.pass (replaces_setLink (n := l.fail) hids hl rfl rfl rfl) rfl rfl rfl hbefore rfl

theorem Traced.openPty (h : Traced foreign s) (hids : (s.links.map Link.id).Nodup)
    (hl : l ∈ s.links) (hstage : l.stage = .ready) {result : Option (Nat × Nat × String)}
    (hx : s.openPty l result = some s') : Traced foreign s' := by
  have hbefore : l.holdsTty = false := holdsTty_of_hasPty_false (by rw [hstage]; rfl)
  rcases result with _ | ⟨master, slave, ptyPath⟩
  · cases hx
    exact h.fail hids hl hbefore
  · simp only [SerialLinkManager.openPty] at hx
    split at hx
    · rename_i hfree
      cases hx
      refine h.opened (replaces_setLink (n := { l with
          ptyMasterFd := some master, ptySlaveFd := slave, ptyPath := ptyPath, stage := .opened })
        hids hl rfl rfl rfl) rfl hfree.2.2.2 hbefore rfl ?_
      intro _
      exact Or.inr (Or.inr rfl)
    · cases hx

theorem Traced.makeTtyLink (h : Traced foreign s) (hids : (s.links.map Link.id).Nodup)
    (hl : l ∈ s.links) (hstage : l.stage = .opened) (preferred fallback : Bool)
    (peerName peerMac : String) :
    Traced foreign (s.makeTtyLink l preferred fallback peerName peerMac) := by
  unfold SerialLinkManager.makeTtyLink
  have hbefore : l.holdsTty = false := by rw [Link.holdsTty, hstage]
  split
  · rename_i t path hx
    obtain ⟨basename, _, hx⟩ := Option.bind_eq_some_iff.mp hx
    obtain ⟨ht, hfiles⟩ := createTtyLink_spec hx
    have hpty : l.stage.hasPty = true := by rw [hstage]; rfl
    exact h.take (replaces_setLink (n := { l with ttyPath := path, stage := .linked }) hids hl rfl
      (by rw [ht]) (by rw [ht])) hfiles rfl hpty hbefore rfl fun _ => h.mastered l hl hpty
  · exact h.fail hids hl hbefore

theorem Traced.register (h : Traced foreign s) (hids : (s.links.map Link.id).Nodup)
    (hl : l ∈ s.links) (hstage : l.stage = .linked) (hworker : l.Threaded)
    (threadStarted : Bool) : Traced foreign (s.register l threadStarted) := by
  unfold SerialLinkManager.register
  have hpty : l.stage.hasPty = true := by rw [hstage]; rfl
  split
  · refine h.keep (replaces_setLink (n := { l with stage := .registered, worker := .running })
      hids hl rfl rfl rfl) rfl rfl rfl (fun _ => hpty) ?_ fun _ => ?_
    · rw [Link.holdsTty, Link.holdsTty, hstage]
      rfl
    · -- No thread has run yet, so the master is there.
      have hidle : l.worker = .idle := hworker.idle (by rw [hstage]; rfl)
      rcases h.mastered l hl hpty with hhung | hended | hsome
      · rw [hidle] at hhung
        cases hhung
      · rw [hidle] at hended
        cases hended
      · exact Or.inr (Or.inr hsome)
  · obtain ⟨hlinks, hnext, _⟩ := removeOwnedLink_spec (s := s) l.ttyPath l.ptyPath
    exact h.release (replaces_setLink (n := l.fail) hids hl rfl hlinks hnext) rfl rfl hpty rfl
      (mastered_of_hasPty_false rfl)

/-- `detach` takes a link off `links_`; the tty link stays until the thread has ended. -/
theorem Traced.detach (h : Traced foreign s) (hids : (s.links.map Link.id).Nodup)
    (hl : l ∈ s.links) (hstage : l.stage = .registered) :
    Traced foreign (s.setLink { l with stage := .detached }) := by
  have hpty : l.stage.hasPty = true := by rw [hstage]; rfl
  refine h.keep (replaces_setLink (n := { l with stage := .detached }) hids hl rfl rfl rfl) rfl rfl
    rfl (fun _ => hpty) ?_ fun _ => h.mastered l hl hpty
  rw [Link.holdsTty, Link.holdsTty, hstage]

theorem Traced.displace (h : Traced foreign s) (ha : Accounted s) (hl : l ∈ s.links)
    (hstage : l.stage = .accepted) {other : Link}
    (hother : s.registered l.devicePath = some other) :
    Traced foreign ((s.setLink { other with stage := .detached }).setLink
      { l with stage := .waiting other.id }) := by
  obtain ⟨hmem, hregistered, _⟩ := registered_spec hother
  have hne : l.id ≠ other.id := by
    intro heq
    have hsame : l = other := List.inj_on_of_nodup_map ha.ids hl hmem heq
    rw [hsame, hregistered] at hstage
    cases hstage
  have hr := replaces_setLink (t := s) (n := { other with stage := .detached }) ha.ids hmem rfl
    rfl rfl
  have hafter := h.detach ha.ids hmem hregistered
  have hids : ((s.setLink { other with stage := .detached }).links.map Link.id).Nodup :=
    hr.map_id ▸ ha.ids
  exact hafter.pass (replaces_setLink (n := { l with stage := .waiting other.id }) hids
    (hr.mem.mpr (Or.inr ⟨hl, hne⟩)) rfl rfl rfl) rfl rfl rfl
    (holdsTty_of_hasPty_false (by rw [hstage]; rfl)) rfl

/-- The thread of a link goes on; the tty link stays. -/
theorem Traced.work (h : Traced foreign s) (hids : (s.links.map Link.id).Nodup) (hl : l ∈ s.links)
    (hstage : l.stage = .registered ∨ l.stage = .detached) (hended : l.worker ≠ .ended)
    {t : SerialLinkManager} {n : Link} (hlinks : t.links = s.links) (hnext : t.nextId = s.nextId)
    (hfiles : t.files = s.files) (hid : n.id = l.id) (hsame : n.stage = l.stage)
    (hworker : n.worker ≠ .ended) (hpty : n.ptyPath = l.ptyPath) (htty : n.ttyPath = l.ttyPath)
    (hmastered : n.Mastered) : Traced foreign (t.setLink n) := by
  refine h.keep (replaces_setLink hids hl hid hlinks hnext) hfiles hpty htty
    (fun hhas => hsame ▸ hhas) ?_ hmastered
  rw [Link.holdsTty, Link.holdsTty, hsame]
  rcases hstage with hstage | hstage
  all_goals
    rw [hstage]
    show (n.worker != Worker.ended) = (l.worker != Worker.ended)
    rw [bne_iff_ne.mpr hworker, bne_iff_ne.mpr hended]

theorem Traced.retire (h : Traced foreign s) (hids : (s.links.map Link.id).Nodup)
    (hl : l ∈ s.links) (hstage : l.stage = .registered ∨ l.stage = .detached) :
    Traced foreign ((s.removeOwnedLink l.ttyPath l.ptyPath).setLink
      { l with worker := .ended }) := by
  obtain ⟨hlinks, hnext, _⟩ := removeOwnedLink_spec (s := s) l.ttyPath l.ptyPath
  refine h.release (replaces_setLink (n := { l with worker := .ended }) hids hl rfl hlinks hnext)
    rfl rfl ?_ ?_ fun _ => Or.inr (Or.inl rfl)
  · rcases hstage with hstage | hstage
    · rw [hstage]; rfl
    · rw [hstage]; rfl
  · rcases hstage with hstage | hstage
    · rw [Link.holdsTty, hstage]; rfl
    · rw [Link.holdsTty, hstage]; rfl

theorem Traced.join (h : Traced foreign s) (hids : (s.links.map Link.id).Nodup) (hl : l ∈ s.links)
    (hstage : l.stage = .detached) :
    Traced foreign ((s.removeOwnedLink l.ttyPath l.ptyPath).setLink
      { l with stage := .closing l.owned }) := by
  obtain ⟨hlinks, hnext, _⟩ := removeOwnedLink_spec (s := s) l.ttyPath l.ptyPath
  exact h.release (replaces_setLink (n := { l with stage := .closing l.owned }) hids hl rfl hlinks
    hnext) rfl rfl (by rw [hstage]; rfl) rfl (mastered_of_hasPty_false rfl)

theorem Traced.closeNext (h : Traced foreign s) (hids : (s.links.map Link.id).Nodup)
    (hl : l ∈ s.links) {fds : List Nat} (hstage : l.stage = .closing fds) :
    Traced foreign (s.closeNext l fds) := by
  have hbefore : l.holdsTty = false := by rw [Link.holdsTty, hstage]
  rcases fds with _ | ⟨fd, rest⟩
  · exact h.drop hids hl hbefore
  · exact h.pass (replaces_setLink (n := { l with stage := .closing rest }) hids hl rfl
      (close_links s fd).1 (close_links s fd).2) (close_files s fd) rfl rfl hbefore rfl

/-- Every step leaves the tty links to the bridged PTYs. -/
theorem Traced.step (h : Traced foreign s) (ha : Accounted s) {a : Action}
    (hx : s.step a = some s') : Traced foreign s' := by
  cases a with
  | attach devicePath socketFd =>
      simp only [SerialLinkManager.step] at hx
      split at hx
      · cases hx
      · cases hx
        exact h.attach devicePath socketFd
  | displace id =>
      obtain ⟨l, hl, hx⟩ := find_bind hx
      split at hx
      · rename_i hstage
        split at hx
        · rename_i other hother
          cases hx
          exact h.displace ha hl hstage hother
        · cases hx
          exact h.pass (replaces_setLink (n := { l with stage := .ready }) ha.ids hl rfl rfl rfl)
            rfl rfl rfl (holdsTty_of_hasPty_false (by rw [hstage]; rfl)) rfl
      · cases hx
  | proceed id =>
      obtain ⟨l, hl, hx⟩ := find_bind hx
      split at hx
      · rename_i replaced hstage
        split at hx
        · cases hx
          exact h.pass (replaces_setLink (n := { l with stage := .ready }) ha.ids hl rfl rfl rfl)
            rfl rfl rfl (holdsTty_of_hasPty_false (by rw [hstage]; rfl)) rfl
        · cases hx
      · cases hx
  | openpty id result =>
      obtain ⟨l, hl, hx⟩ := find_bind hx
      split at hx
      · exact h.openPty ha.ids hl ‹_› hx
      · cases hx
  | createTtyLink id preferred fallback peerName peerMac =>
      obtain ⟨l, hl, hx⟩ := find_bind hx
      split at hx
      · rename_i hstage
        cases hx
        exact h.makeTtyLink ha.ids hl hstage preferred fallback peerName peerMac
      · cases hx
  | register id threadStarted =>
      obtain ⟨l, hl, hx⟩ := find_bind hx
      split at hx
      · rename_i hstage
        cases hx
        exact h.register ha.ids hl hstage (ha.threaded l hl) threadStarted
      · cases hx
  | leave id =>
      obtain ⟨l, hl, hx⟩ := find_bind hx
      split at hx
      · rename_i hworker
        cases hx
        have hstage := stage_of_worker (ha.threaded l hl) (by simp [hworker]) (by simp [hworker])
        refine h.work (n := { l with worker := .left }) ha.ids hl hstage (by simp [hworker]) rfl
          rfl rfl rfl rfl (by simp) rfl rfl fun hhas => ?_
        refine Or.inr (Or.inr ?_)
        simpa [hworker] using h.mastered l hl hhas
      · cases hx
  | hangUp id =>
      obtain ⟨l, hl, hx⟩ := find_bind hx
      split at hx
      · rename_i master hworker hmaster
        cases hx
        have hstage := stage_of_worker (ha.threaded l hl) (by simp [hworker]) (by simp [hworker])
        exact h.work (n := { l with ptyMasterFd := none, worker := .hungUp }) ha.ids hl hstage
          (by simp [hworker]) (close_links s master).1 (close_links s master).2
          (close_files s master) rfl rfl (by simp) rfl rfl fun _ => Or.inl rfl
      · rename_i hworker hmaster
        cases hx
        have hstage := stage_of_worker (ha.threaded l hl) (by simp [hworker]) (by simp [hworker])
        exact h.work (n := { l with worker := .hungUp }) ha.ids hl hstage (by simp [hworker]) rfl
          rfl rfl rfl rfl (by simp) rfl rfl fun _ => Or.inl rfl
      · cases hx
  | retire id =>
      obtain ⟨l, hl, hx⟩ := find_bind hx
      split at hx
      · rename_i hworker
        cases hx
        exact h.retire ha.ids hl
          (stage_of_worker (ha.threaded l hl) (by simp [hworker]) (by simp [hworker]))
      · cases hx
  | detach devicePath =>
      obtain ⟨l, hl, rfl⟩ := Option.map_eq_some_iff.mp hx
      obtain ⟨hmem, hstage, _⟩ := registered_spec hl
      exact h.detach ha.ids hmem hstage
  | join id =>
      obtain ⟨l, hl, hx⟩ := find_bind hx
      split at hx
      · rename_i hended
        cases hx
        exact h.join ha.ids hl hended.1
      · cases hx
  | close id =>
      obtain ⟨l, hl, hx⟩ := find_bind hx
      split at hx
      · rename_i fds hstage
        cases hx
        exact h.closeNext ha.ids hl hstage
      · cases hx

theorem traced_initial (h : s.Initial foreign) : Traced foreign s := by
  obtain ⟨hlinks, _, _, hfiles⟩ := h
  refine ⟨?_, ?_, fun path target hpath => ?_, ?_⟩
  · simp [hlinks]
  · simp [hlinks]
  · rw [hfiles] at hpath
    exact Or.inl hpath
  · simp [hlinks]

theorem traced_reachable (h : Reachable SerialLinkManager.step (Initial foreign) s) :
    Traced foreign s :=
  h.invariant_of (fun _ => accounted_reachable) (fun _ => traced_initial)
    fun _ _ _ ha _ hs _ hx => hs.step ha hx

/-- **Every descriptor is closed once, in every interleaving.** No close ever fails; the open
descriptors are those that the links still own, each once. A link whose bridge runs has its socket
and its PTY open, and its tty link leads to the PTY. Once no link is left, nothing is open, and no
tty link is on the disk that was not there before. -/
theorem descriptors_closed_once (h : Reachable SerialLinkManager.step (Initial foreign) s) :
    s.failedCloses = 0 ∧ s.descriptors.Nodup ∧
      (s.links.flatMap Link.owned).Perm s.descriptors ∧
      (∀ l ∈ s.links, l.worker = .running →
        l.socketFd ∈ s.descriptors ∧ (∃ master ∈ l.ptyMasterFd, master ∈ s.descriptors) ∧
          l.ptySlaveFd ∈ s.descriptors ∧ s.files l.ttyPath = some l.ptyPath) ∧
      (s.links = [] → s.descriptors = [] ∧
        ∀ path target, s.files path = some target → foreign path = some target) := by
  have ha : Accounted s := accounted_reachable h
  have ht : Traced foreign s := traced_reachable h
  refine ⟨ha.clean, ha.nodup, ha.owners, fun l hl hworker => ?_, fun hnone => ⟨?_, ?_⟩⟩
  · have hstage := stage_of_worker (ha.threaded l hl) (by simp [hworker]) (by simp [hworker])
    have hpty : l.stage.hasPty = true := by
      rcases hstage with hstage | hstage
      · rw [hstage]; rfl
      · rw [hstage]; rfl
    have hholds : l.holdsTty = true := by
      rcases hstage with hstage | hstage
      · rw [Link.holdsTty, hstage, hworker]; rfl
      · rw [Link.holdsTty, hstage, hworker]; rfl
    have hsome : l.ptyMasterFd.isSome = true := by
      simpa [hworker] using ht.mastered l hl hpty
    obtain ⟨master, hmaster⟩ := Option.isSome_iff_exists.mp hsome
    have hopen : ∀ fd ∈ l.owned, fd ∈ s.descriptors := fun fd hfd =>
      ha.owners.mem_iff.mp (List.mem_flatMap.mpr ⟨l, hl, hfd⟩)
    rw [owned_of_hasPty hpty, hmaster] at hopen
    exact ⟨hopen _ (by simp), ⟨master, hmaster, hopen _ (by simp)⟩, hopen _ (by simp),
      ht.leads l hl hholds⟩
  · have howners := ha.owners
    rw [hnone] at howners
    exact List.nil_perm.mp howners
  · intro path target hpath
    rcases ht.known path target hpath with hforeign | ⟨l, hl, _⟩
    · exact hforeign
    · rw [hnone] at hl
      cases hl

end

def idle : SerialLinkManager where
  fallbackDirectory := "/run/user/1000/mrs_bluetooth"
  files := fun _ => none

/-- The bridge of a device runs, and the device connects once more. The second call of `attach`
takes the first link away and waits for its thread; `openpty` returns numbers and a name that have
been in use before. -/
def replacedRun : List Action :=
  [.attach "/dev_1" 5, .displace 0, .openpty 0 (some (6, 7, "/dev/pts/3")),
    .createTtyLink 0 true true "uav2" "", .register 0 true,
    .attach "/dev_1" 8, .displace 1, .leave 0, .hangUp 0, .retire 0, .join 0,
    .close 0, .close 0, .close 0,
    .proceed 1, .openpty 1 (some (6, 5, "/dev/pts/3")), .createTtyLink 1 false true "uav2" "",
    .register 1 true]

theorem descriptors_closed_once_replacedRun :
    ∃ s : SerialLinkManager, s.descriptors = [6, 5, 8] ∧ s.failedCloses = 0 ∧
      s.descriptors.Nodup ∧ ∀ l ∈ s.links, l.worker = .running → l.socketFd ∈ s.descriptors := by
  have hrun : ((Run.exec SerialLinkManager.step idle replacedRun).map
      SerialLinkManager.descriptors) = some [6, 5, 8] := by
    decide +kernel
  obtain ⟨s, hs, hdescriptors⟩ := Option.map_eq_some_iff.mp hrun
  have hreach : Reachable SerialLinkManager.step (Initial fun _ => none) s :=
    Reachable.exec (.start ⟨rfl, rfl, rfl, rfl⟩) hs
  obtain ⟨hclean, hnodup, _, hrunning, _⟩ := descriptors_closed_once hreach
  exact ⟨s, hdescriptors, hclean, hnodup, fun l hl hworker => (hrunning l hl hworker).1⟩

end SerialLinkManager

end UavBluetooth.Serial
