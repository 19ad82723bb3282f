import UavBluetooth.Config.IntegerText
import UavBluetooth.Lib.Allotment
import UavBluetooth.Lib.Run
import UavBluetooth.Mesh.Enrollment

set_option autoImplicit false

/-! # Manual unicast allocation

The cursor of the RequestProvData callback of `mesh_application.cpp` when addresses are not
bound to UAV numbers: it is kept in memory and in a file, and a restart of the service goes on
from what it can read there.

The file is written through a stream whose flush at close nobody checks, and then renamed over
the old one. `unicast_ranges_law` says when the ranges that are handed out stay apart: when every
restart finds the digits of the last number complete.
-/

namespace UavBluetooth.Mesh

open Config Fallible Util

/-! ## The file -/

/-- A cursor file that the service has written: the number, and how many characters of its line
had reached the disk when the stream was closed. -/
structure CursorFile where
  number : UInt16
  flushed : Nat
  deriving DecidableEq, Repr

namespace CursorFile

def digits (file : CursorFile) : List Char := Nat.toDigits 10 file.number.toNat

/-- What a reader finds. -/
def text (file : CursorFile) : List Char := (file.digits ++ ['\n']).take file.flushed

/-- All digits have reached the disk. -/
def Whole (file : CursorFile) : Prop := file.digits.length ≤ file.flushed

instance (file : CursorFile) : Decidable file.Whole := inferInstanceAs (Decidable (_ ≤ _))

end CursorFile

/-- The base that `std::stoul` detects when none is given. -/
def autoBase (text : List Char) : Nat :=
  match (takeSign (text.dropWhile isCSpace)).2 with
  | '0' :: 'x' :: c :: _ => if isDigitOf 16 c then 16 else 8
  | '0' :: 'X' :: c :: _ => if isDigitOf 16 c then 16 else 8
  | '0' :: _ => 8
  | _ => 10

/-- `cursor_file >> cursor_text`. -/
def cursorText (text : List Char) : List Char :=
  (text.dropWhile isCSpace).takeWhile fun c => !isCSpace c

/-- The settings that the allocation reads. -/
structure CursorConfig where
  meshSwarmAutoProvisioning : Bool := false
  meshSwarmNetworkIndex : UInt16 := 0
  meshNextUnicast : UInt16 := 0x0100
  meshUnicastCursorPath : String := ""
  deriving DecidableEq, Repr

/-- The end of the allocation block. -/
def lastUnicast : UInt16 := 0x7fff

/-- The number in the file, if the constructor accepts it. -/
def acceptedCursor (config : CursorConfig) (file : Option CursorFile) : Option Nat :=
  match file with
  | none => none
  | some file =>
      if config.meshUnicastCursorPath = "" ∨ cursorText file.text = [] then none
      else
        match stoull (autoBase (cursorText file.text)) (cursorText file.text) with
        | .error _ => none
        | .ok (persisted, _) =>
            if config.meshNextUnicast.toNat ≤ persisted ∧ persisted ≤ lastUnicast.toNat + 1 then
              some persisted
            else none

/-- The part of the constructor that sets the allocation up. -/
def Provisioner.create (config : CursorConfig) (file : Option CursorFile) : Provisioner where
  meshSwarmAutoProvisioning := config.meshSwarmAutoProvisioning
  meshSwarmNetworkIndex := config.meshSwarmNetworkIndex
  nextUnicast :=
    match acceptedCursor config file with
    | some persisted => UInt16.ofNat persisted
    | none => config.meshNextUnicast
  unicastBlockEnd := lastUnicast

/-- What the file system does to an attempt to persist. -/
inductive Storage where
  | noDirectory (message : String)
  | noOpen
  | noWrite
  /-- The rename failed; `removal` is set if removing the temporary file failed as well. -/
  | noRename (message : String) (removal : Option String)
  /-- The rename succeeded; the flush at close had written `flushed` characters. -/
  | renamed (flushed : Nat)
  deriving DecidableEq, Repr

/-- `persist_next_unicast`: the file afterwards, and what is thrown. -/
def persistNextUnicast (config : CursorConfig) (nextUnicast : UInt16) (storage : Storage)
    (file : Option CursorFile) : Option CursorFile × Except String Unit :=
  if config.meshUnicastCursorPath = "" then (file, .ok ())
  else
    match storage with
    | .noDirectory message => (file, .error message)
    | .noOpen => (file, .error "cannot open Mesh unicast cursor file")
    | .noWrite => (file, .error "cannot write Mesh unicast cursor file")
    | .noRename _ (some removal) => (file, .error removal)
    | .noRename message none =>
        (file, .error ("cannot replace Mesh unicast cursor file: " ++ message))
    | .renamed flushed => (some ⟨nextUnicast, flushed⟩, .ok ())

/-! ## Reading the file -/

/-- A decimal numeral does not begin with a zero. -/
theorem head?_toDigits {n : Nat} (hn : 0 < n) : (Nat.toDigits 10 n).head? ≠ some '0' := by
  induction n using Nat.strong_induction_on with
  | _ n ih =>
      by_cases hsmall : n < 10
      · rw [Nat.toDigits_of_lt_base hsmall, List.head?_cons, ne_eq, Option.some.injEq,
          Nat.digitChar_eq_zero]
        omega
      · have hquotient := ih (n / 10) (by omega) (by omega)
        rw [Nat.toDigits_of_base_le (by decide) (by omega), List.head?_append]
        cases hhead : (Nat.toDigits 10 (n / 10)).head? with
        | none => exact absurd (List.head?_eq_none_iff.mp hhead) Nat.toDigits_ne_nil
        | some c =>
            rw [hhead] at hquotient
            exact hquotient

/-- The first digits of a number are those of a smaller one. -/
theorem take_toDigits {n k : Nat} (hn : 0 < n) (hk : 0 < k) :
    ∃ m, 0 < m ∧ (Nat.toDigits 10 n).take k = Nat.toDigits 10 m ∧ m ≤ n ∧
      (k < (Nat.toDigits 10 n).length → m < n) := by
  induction n using Nat.strong_induction_on with
  | _ n ih =>
      by_cases hall : (Nat.toDigits 10 n).length ≤ k
      · exact ⟨n, hn, List.take_of_length_le hall, Nat.le_refl n, fun hlt => by omega⟩
      · -- the last digit is lost, and perhaps more
        have hlarge : 10 ≤ n := by
          by_contra hsmall
          rw [Nat.toDigits_of_lt_base (by omega)] at hall
          exact hall hk
        have hsplit := Nat.toDigits_of_base_le (b := 10) (by decide) hlarge
        have hlength := congrArg List.length hsplit
        rw [List.length_append, List.length_singleton] at hlength
        obtain ⟨m, hm, htake, hle, -⟩ := ih (n / 10) (by omega) (by omega)
        refine ⟨m, hm, ?_, by omega, fun _ => by omega⟩
        rw [hsplit, List.take_append_of_le_length (by omega), htake]

theorem isDigit_of_mem_toDigits {n : Nat} {c : Char} (h : c ∈ Nat.toDigits 10 n) :
    c.isDigit = true :=
  Nat.isDigit_of_mem_toDigits (by decide) (by decide) h

theorem cursorText_digits {digits rest : List Char} (hdigits : ∀ c ∈ digits, c.isDigit = true)
    (hrest : ∀ c ∈ rest, isCSpace c = true) : cursorText (digits ++ rest) = digits := by
  have hword : ∀ c ∈ digits, (!isCSpace c) = true := fun c hc => by
    rw [isCSpace_of_isDigit (hdigits c hc)]
    rfl
  have hstop : rest.takeWhile (fun c => !isCSpace c) = [] := by
    cases rest with
    | nil => rfl
    | cons c tail => simp [hrest c List.mem_cons_self]
  unfold cursorText
  cases digits with
  | nil =>
      rw [List.nil_append, List.dropWhile_eq_nil_iff.mpr hrest]
      rfl
  | cons c tail =>
      rw [List.cons_append, List.dropWhile_cons_of_neg
        (by rw [isCSpace_of_isDigit (hdigits c List.mem_cons_self)]; exact Bool.false_ne_true),
        ← List.cons_append, List.takeWhile_append_of_pos hword, hstop, List.append_nil]

/-- `std::stoul` reads a decimal numeral as it was written. -/
theorem stoull_toDigits {n : Nat} (hn : 0 < n) (hsmall : n < 2 ^ 64) :
    stoull (autoBase (Nat.toDigits 10 n)) (Nat.toDigits 10 n) = .ok (n, []) := by
  have hdigits : ∀ c ∈ Nat.toDigits 10 n, c.isDigit = true := fun c hc =>
    isDigit_of_mem_toDigits hc
  have hvalue : ofDigits 10 (Nat.toDigits 10 n) = n := by
    rw [← decimalValue_eq hdigits]
    exact Nat.ofDigitChars_ten_toDigits
  have hhead := head?_toDigits hn
  have hne : Nat.toDigits 10 n ≠ [] := Nat.toDigits_ne_nil
  generalize Nat.toDigits 10 n = text at hdigits hvalue hhead hne
  obtain ⟨htake, hdrop⟩ := takeWhile_of_digits hdigits
  obtain ⟨c, tail, rfl⟩ := List.exists_cons_of_ne_nil hne
  have hc := hdigits c List.mem_cons_self
  have hspaces : (c :: tail).dropWhile isCSpace = c :: tail := by
    rw [List.dropWhile_cons, isCSpace_of_isDigit hc]
    rfl
  have hbase : autoBase (c :: tail) = 10 := by
    have hzero : c ≠ '0' := fun h => hhead (congrArg some h)
    unfold autoBase
    rw [hspaces, takeSign_of_isDigit hc]
    simp only
    split
    · rename_i heq
      exact absurd (List.cons.inj heq).1 hzero
    · rename_i heq
      exact absurd (List.cons.inj heq).1 hzero
    · rename_i heq
      exact absurd (List.cons.inj heq).1 hzero
    · rfl
  rw [hbase]
  simp only [stoull, hspaces, takeSign_of_isDigit hc, takeNumeral_ten, htake, hdrop, hvalue]
  rw [if_neg (by simp), if_neg (by omega)]
  rfl

section

variable {config : CursorConfig} {file : CursorFile}

theorem cursorText_text (file : CursorFile) :
    cursorText file.text = file.digits.take file.flushed := by
  rw [CursorFile.text, List.take_append]
  refine cursorText_digits (fun c hc => isDigit_of_mem_toDigits (List.mem_of_mem_take hc))
    fun c hc => ?_
  rw [List.mem_singleton.mp (List.mem_of_mem_take hc)]
  rfl

/-- A file whose digits are complete is read back. -/
theorem acceptedCursor_whole (hpath : config.meshUnicastCursorPath ≠ "")
    (hpos : 0 < file.number.toNat) (hwhole : file.Whole)
    (hlow : config.meshNextUnicast.toNat ≤ file.number.toNat)
    (hhigh : file.number.toNat ≤ lastUnicast.toNat + 1) :
    acceptedCursor config (some file) = some file.number.toNat := by
  have htext : cursorText file.text = Nat.toDigits 10 file.number.toNat := by
    rw [cursorText_text, List.take_of_length_le hwhole]
    rfl
  have hsmall : file.number.toNat < 2 ^ 64 := by
    have hlt := file.number.toNat_lt
    omega
  simp only [acceptedCursor, htext, stoull_toDigits hpos hsmall, hpath, Nat.toDigits_ne_nil, or_self,
    if_false, hlow, hhigh, and_self, if_true]

/-- A file that lacks digits is not read, or as a smaller number. -/
theorem acceptedCursor_torn (hpos : 0 < file.number.toNat) (htorn : ¬ file.Whole) {n : Nat}
    (h : acceptedCursor config (some file) = some n) : n < file.number.toNat := by
  simp only [acceptedCursor] at h
  split_ifs at h with hread
  obtain ⟨-, hne⟩ := not_or.mp hread
  have hflushed : 0 < file.flushed := by
    by_contra hzero
    rw [cursorText_text, Nat.eq_zero_of_not_pos hzero] at hne
    exact hne rfl
  obtain ⟨m, hm, htake, hle, hlt⟩ := take_toDigits (n := file.number.toNat) hpos hflushed
  have htext : cursorText file.text = Nat.toDigits 10 m := by rw [cursorText_text, ← htake]; rfl
  have hsmall : m < 2 ^ 64 := by
    have hbound := file.number.toNat_lt
    omega
  rw [htext, stoull_toDigits hm hsmall] at h
  simp only at h
  split_ifs at h
  cases h
  exact hlt (Nat.lt_of_not_le htorn)

/-- The conversion of the stored number to 16 bits is exact. -/
theorem create_nextUnicast (config : CursorConfig) (file : Option CursorFile) :
    (Provisioner.create config file).nextUnicast.toNat =
      (acceptedCursor config file).getD config.meshNextUnicast.toNat := by
  cases haccepted : acceptedCursor config file with
  | none => simp only [Provisioner.create, haccepted, Option.getD_none]
  | some n =>
      have hbound : n ≤ lastUnicast.toNat + 1 := by
        unfold acceptedCursor at haccepted
        split at haccepted
        · cases haccepted
        · split_ifs at haccepted
          split at haccepted
          · cases haccepted
          · split_ifs at haccepted with hrange
            cases haccepted
            exact hrange.2
      have hlast : lastUnicast.toNat = 32767 := rfl
      simp only [Provisioner.create, haccepted, Option.getD_some]
      exact UInt16.toNat_ofNat_of_lt' (show n < 65536 by omega)

end

/-! ## The service -/

namespace Provisioner

/-- A request gets as far as `persist_next_unicast`. -/
def Allocates (p : Provisioner) (count : UInt8) : Prop :=
  p.meshSwarmAutoProvisioning = false ∧ ¬ (count = 0 ∨ p.unicastBlockEnd < p.nextUnicast ∨
    p.unicastBlockEnd.toNat < p.nextUnicast.toNat + count.toNat - 1)

instance (p : Provisioner) (count : UInt8) : Decidable (p.Allocates count) :=
  inferInstanceAs (Decidable (_ ∧ _))

end Provisioner

/-- The service, its cursor file, and the ranges that RequestProvData has answered with. -/
structure UnicastService where
  config : CursorConfig
  application : Provisioner
  file : Option CursorFile := none
  handed : List (UInt16 × UInt8) := []

namespace UnicastService

def initial (config : CursorConfig) : UnicastService where
  config := config
  application := Provisioner.create config none

/-- RequestProvData with the storage behind it. -/
def requestProvData (s : UnicastService) (count : UInt8) (storage : Storage) :
    UnicastService × Except String (UInt16 × UInt16) :=
  let (file, persisted) := persistNextUnicast s.config
    (s.application.nextUnicast + count.toUInt16) storage s.file
  let (application, answer) := s.application.requestProvData count persisted
  ({ s with
      application := application
      file := if s.application.Allocates count then file else s.file
      handed :=
        match answer with
        | .ok (_, assigned) => (assigned, count) :: s.handed
        | .error _ => s.handed },
    answer)

/-- The process ends, and a new one is constructed over the same file. -/
def restart (s : UnicastService) : UnicastService :=
  { s with application := Provisioner.create s.config s.file }

inductive Action where
  | requestProvData (count : UInt8) (storage : Storage)
  | restart
  deriving DecidableEq, Repr

def step (s : UnicastService) : Action → Option UnicastService
  | .requestProvData count storage => some (s.requestProvData count storage).1
  | .restart => some s.restart

/-! ## Reachable states -/

/-- The number up to which the file should speak. -/
def stored (s : UnicastService) : Nat :=
  match s.file with
  | none => s.config.meshNextUnicast.toNat
  | some file => file.number.toNat

/-- The first address of a range and the one after its last. -/
def range (r : UInt16 × UInt8) : Nat × Nat := (r.1.toNat, r.1.toNat + r.2.toNat)

/-- The allotment that the service implements. -/
def allotment (s : UnicastService) : Allotment Nat :=
  ⟨s.application.nextUnicast.toNat, s.stored, s.handed.map range⟩

/-- What holds in every state reached. -/
structure Kept (config : CursorConfig) (s : UnicastService) : Prop where
  config_eq : s.config = config
  manual : s.application.meshSwarmAutoProvisioning = config.meshSwarmAutoProvisioning
  blockEnd : s.application.unicastBlockEnd = lastUnicast
  sound : s.allotment.Sound config.meshNextUnicast.toNat
  number : ∀ file, s.file = some file → 0 < file.number.toNat ∧ file.number.toNat ≤ 32768
  last : ∀ file, s.file = some file → ∃ r ∈ s.handed, (range r).2 = file.number.toNat
  ranges : ∀ r ∈ s.handed, 0 < r.2.toNat ∧ r.1.toNat + r.2.toNat ≤ 32768

/-- A restart finds all digits of the last number. -/
def Intact (s : UnicastService) (a : Action) : Prop :=
  a = .restart → ∀ file, s.file = some file → file.Whole

instance (s : UnicastService) (a : Action) : Decidable (s.Intact a) :=
  inferInstanceAs (Decidable (a = .restart → ∀ file ∈ s.file, file.Whole))

section

variable {config : CursorConfig} {s t : UnicastService}

theorem kept_initial (config : CursorConfig) : Kept config (initial config) where
  config_eq := rfl
  manual := rfl
  blockEnd := rfl
  sound := Allotment.sound_initial _
  number := fun _ h => nomatch h
  last := fun _ h => nomatch h
  ranges := fun _ h => nomatch h

/-- The addition to the cursor does not wrap. -/
theorem Kept.next (h : Kept config s) {count : UInt8} (hcount : s.application.Allocates count) :
    0 < count.toNat ∧ (s.application.nextUnicast + count.toUInt16).toNat =
      s.application.nextUnicast.toNat + count.toNat ∧
        s.application.nextUnicast.toNat + count.toNat ≤ 32768 := by
  obtain ⟨-, hroom⟩ := hcount
  rw [h.blockEnd, not_or, not_or, show lastUnicast.toNat = 32767 from rfl] at hroom
  obtain ⟨hzero, -, hend⟩ := hroom
  have hpos : 0 < count.toNat := by
    have hne : count.toNat ≠ 0 := fun heq => hzero (UInt8.toNat_inj.mp heq)
    omega
  refine ⟨hpos, ?_, by omega⟩
  rw [UInt16.toNat_add, UInt8.toNat_toUInt16]
  omega

/-- What a request does: it is refused at once, or it moves the cursor and then succeeds if and
only if the new cursor has been stored. -/
theorem requestProvData_cases (hmanual : s.application.meshSwarmAutoProvisioning = false)
    (count : UInt8) (storage : Storage) :
    (¬ s.application.Allocates count ∧ (∃ message, s.requestProvData count storage =
      (s, .error message))) ∨
    (s.application.Allocates count ∧ ∃ file persisted,
      persistNextUnicast s.config (s.application.nextUnicast + count.toUInt16) storage s.file =
        (file, persisted) ∧
      s.requestProvData count storage =
        ({ s with
            application :=
              { s.application with nextUnicast := s.application.nextUnicast + count.toUInt16 }
            file := file
            handed :=
              match persisted with
              | .ok _ => (s.application.nextUnicast, count) :: s.handed
              | .error _ => s.handed },
          persisted.map fun _ =>
            (s.application.meshSwarmNetworkIndex, s.application.nextUnicast))) := by
  rcases hpersist : persistNextUnicast s.config (s.application.nextUnicast + count.toUInt16)
    storage s.file with ⟨file, persisted⟩
  by_cases hcount : s.application.Allocates count
  · refine Or.inr ⟨hcount, file, persisted, rfl, ?_⟩
    have hroom := hcount.2
    simp only [requestProvData, hpersist, Provisioner.requestProvData, hmanual, Bool.false_eq_true,
      if_false, if_neg hroom, if_pos hcount]
    cases persisted <;> rfl
  · refine Or.inl ⟨hcount, "This provisioner's unicast allocation block is exhausted", ?_⟩
    have hfull : count = 0 ∨ s.application.unicastBlockEnd < s.application.nextUnicast ∨
        s.application.unicastBlockEnd.toNat <
          s.application.nextUnicast.toNat + count.toNat - 1 := by
      by_contra hroom
      exact hcount ⟨hmanual, hroom⟩
    simp only [requestProvData, hpersist, Provisioner.requestProvData, hmanual, Bool.false_eq_true,
      if_false, if_pos hfull, if_neg hcount]

/-- The file is replaced exactly when nothing is thrown. -/
theorem persistNextUnicast_cases (hpath : config.meshUnicastCursorPath ≠ "") (next : UInt16)
    (storage : Storage) (file : Option CursorFile) :
    (∃ message, persistNextUnicast config next storage file = (file, .error message)) ∨
      ∃ flushed, persistNextUnicast config next storage file = (some ⟨next, flushed⟩, .ok ()) := by
  unfold persistNextUnicast
  rw [if_neg hpath]
  cases storage with
  | noDirectory message => exact Or.inl ⟨_, rfl⟩
  | noOpen => exact Or.inl ⟨_, rfl⟩
  | noWrite => exact Or.inl ⟨_, rfl⟩
  | noRename message removal => cases removal <;> exact Or.inl ⟨_, rfl⟩
  | renamed flushed => exact Or.inr ⟨flushed, rfl⟩

/-- An intact restart goes on from the last number. -/
theorem Kept.restarted (h : Kept config s) (hpath : config.meshUnicastCursorPath ≠ "")
    (hintact : s.Intact .restart) : s.restart.application.nextUnicast.toNat = s.stored := by
  show (Provisioner.create s.config s.file).nextUnicast.toNat = s.stored
  rw [create_nextUnicast, stored]
  cases hfile : s.file with
  | none => rfl
  | some file =>
      obtain ⟨hpos, hhigh⟩ := h.number file hfile
      have hlow : config.meshNextUnicast.toNat ≤ s.stored := h.sound.floor_le
      rw [stored, hfile] at hlow
      rw [h.config_eq, acceptedCursor_whole hpath hpos (hintact rfl file hfile) hlow hhigh]
      rfl

theorem kept_step (h : Kept config s) (hpath : config.meshUnicastCursorPath ≠ "")
    (hauto : config.meshSwarmAutoProvisioning = false) {a : Action} (hintact : s.Intact a)
    (hstep : step s a = some t) : Kept config t := by
  cases a with
  | restart =>
      cases hstep
      refine ⟨h.config_eq, congrArg CursorConfig.meshSwarmAutoProvisioning h.config_eq, rfl, ?_,
        h.number, h.last, h.ranges⟩
      have hmove : s.allotment.Move s.restart.allotment := by
        show s.allotment.Move ⟨s.restart.application.nextUnicast.toNat, s.stored, _⟩
        rw [h.restarted hpath hintact]
        exact .restart
      exact h.sound.move hmove
  | requestProvData count storage =>
      cases hstep
      rcases requestProvData_cases (h.manual.trans hauto) count storage with
        ⟨_, message, hrefused⟩ | ⟨hcount, file, persisted, hpersist, hresult⟩
      · rw [hrefused]
        exact h
      · obtain ⟨hpos, hexact, hend⟩ := h.next hcount
        have hle : s.allotment.memory ≤
            (s.application.nextUnicast + count.toUInt16).toNat := by
          rw [hexact]
          exact Nat.le_add_right _ _
        rw [h.config_eq] at hpersist
        rw [hresult]
        rcases persistNextUnicast_cases hpath (s.application.nextUnicast + count.toUInt16) storage
          s.file with ⟨message, hthrown⟩ | ⟨flushed, hstored⟩
        · -- the cursor in memory has moved, nothing else has
          rw [hthrown] at hpersist
          cases hpersist
          exact ⟨h.config_eq, h.manual, h.blockEnd, h.sound.move (.skip hle), h.number, h.last, h.ranges⟩
        · rw [hstored] at hpersist
          cases hpersist
          refine ⟨h.config_eq, h.manual, h.blockEnd, ?_, fun file hfile => ?_,
            fun file hfile => ?_, fun r hr => ?_⟩
          · have hmove := Allotment.Move.hand hle
            rw [hexact] at hmove
            have hsound := h.sound.move hmove
            show Allotment.Sound _ ⟨(s.application.nextUnicast + count.toUInt16).toNat,
              (s.application.nextUnicast + count.toUInt16).toNat, _⟩
            rw [hexact]
            exact hsound
          · cases hfile
            show 0 < (s.application.nextUnicast + count.toUInt16).toNat ∧
              (s.application.nextUnicast + count.toUInt16).toNat ≤ 32768
            omega
          · cases hfile
            exact ⟨_, List.mem_cons_self, hexact.symm⟩
          · rcases List.mem_cons.mp hr with rfl | hr
            · exact ⟨hpos, hend⟩
            · exact h.ranges r hr

theorem kept_reachable (hpath : config.meshUnicastCursorPath ≠ "")
    (hauto : config.meshSwarmAutoProvisioning = false)
    (h : Run.ReachableUnder step Intact (· = initial config) s) : Kept config s := by
  refine h.invariant (fun _ hs => hs ▸ kept_initial config) fun _ _ _ hs hintact hstep => ?_
  exact kept_step hs hpath hauto hintact hstep

/-! ## A restart over a torn file -/

/-- What one more request with a single element does while there is room. -/
theorem request_one (hpath : s.config.meshUnicastCursorPath ≠ "")
    (hmanual : s.application.meshSwarmAutoProvisioning = false)
    (hend : s.application.unicastBlockEnd = lastUnicast)
    (hroom : s.application.nextUnicast.toNat ≤ 32767) (flushed : Nat) :
    ∃ t, step s (.requestProvData 1 (.renamed flushed)) = some t ∧ t.config = s.config ∧
      t.application.meshSwarmAutoProvisioning = false ∧
      t.application.unicastBlockEnd = lastUnicast ∧
      t.application.nextUnicast.toNat = s.application.nextUnicast.toNat + 1 ∧
      t.handed = (s.application.nextUnicast, 1) :: s.handed := by
  have hlast : lastUnicast.toNat = 32767 := rfl
  have hallocates : s.application.Allocates 1 := by
    refine ⟨hmanual, ?_⟩
    rw [hend, UInt16.lt_iff_toNat_lt, hlast]
    rintro (hzero | hpast | hpast)
    · cases hzero
    · omega
    · rw [show (1 : UInt8).toNat = 1 from rfl] at hpast
      omega
  rcases requestProvData_cases hmanual 1 (.renamed flushed) with
    ⟨hno, _⟩ | ⟨_, file, persisted, hpersist, hresult⟩
  · exact absurd hallocates hno
  · rw [persistNextUnicast, if_neg hpath] at hpersist
    cases hpersist
    refine ⟨(s.requestProvData 1 (.renamed flushed)).1, rfl, ?_⟩
    rw [hresult]
    refine ⟨rfl, hmanual, hend, ?_, rfl⟩
    show (s.application.nextUnicast + (1 : UInt8).toUInt16).toNat = _
    rw [UInt16.toNat_add, show (1 : UInt8).toUInt16.toNat = 1 from rfl]
    omega

/-- With room for them, requests for single elements reach every address past the cursor. -/
theorem requests_reach (hpath : s.config.meshUnicastCursorPath ≠ "")
    (hmanual : s.application.meshSwarmAutoProvisioning = false)
    (hend : s.application.unicastBlockEnd = lastUnicast) (k : Nat)
    (hroom : s.application.nextUnicast.toNat + k ≤ 32767) :
    ∃ actions t first rest, Run.exec step s actions = some t ∧ t.handed = (first, 1) :: rest ∧
      first.toNat = s.application.nextUnicast.toNat + k ∧ ∀ r ∈ s.handed, r ∈ rest := by
  obtain ⟨t, hstep, hconfig, hmanual', hend', hnext, hhanded⟩ :=
    request_one hpath hmanual hend (by omega) 6
  induction k generalizing s t with
  | zero =>
      refine ⟨[.requestProvData 1 (.renamed 6)], t, _, _, ?_, hhanded, rfl, fun r hr => hr⟩
      rw [Run.exec, hstep]
      rfl
  | succ k ih =>
      have hpath' : t.config.meshUnicastCursorPath ≠ "" := by rwa [hconfig]
      obtain ⟨u, hstep', hconfig', hmanual'', hend'', hnext', hhanded'⟩ :=
        request_one hpath' hmanual' hend' (by omega) 6
      obtain ⟨actions, v, first, rest, hrun, hv, hfirst, hrest⟩ :=
        ih hpath' hmanual' hend' (by omega) u hstep' hconfig' hmanual'' hend'' hnext' hhanded'
      refine ⟨.requestProvData 1 (.renamed 6) :: actions, v, first, rest, ?_, hv, by omega,
        fun r hr => hrest r ?_⟩
      · rw [Run.exec, hstep]
        exact hrun
      · rw [hhanded]
        exact List.mem_cons_of_mem _ hr

/-- A restart that finds digits missing goes back, and hands out again what it has forgotten. -/
theorem Kept.overlaps (h : Kept config s) (hpath : config.meshUnicastCursorPath ≠ "")
    (hauto : config.meshSwarmAutoProvisioning = false) {file : CursorFile}
    (hfile : s.file = some file) (htorn : ¬ file.Whole) :
    ∃ actions t, Run.exec step s (.restart :: actions) = some t ∧
      ¬ (t.handed.map range).Pairwise Allotment.Apart := by
  obtain ⟨hpos, hhigh⟩ := h.number file hfile
  obtain ⟨r, hr, hlast⟩ := h.last file hfile
  obtain ⟨hcount, -⟩ := h.ranges r hr
  have hlow : config.meshNextUnicast.toNat ≤ (range r).1 :=
    (h.sound.inside _ (List.mem_map_of_mem hr)).1
  have hbegin : (range r).1 < file.number.toNat := by
    rw [← hlast]
    exact Nat.lt_add_of_pos_right hcount
  have hback : s.restart.application.nextUnicast.toNat < file.number.toNat := by
    show (Provisioner.create s.config s.file).nextUnicast.toNat < _
    rw [create_nextUnicast, hfile, h.config_eq]
    cases haccepted : acceptedCursor config (some file) with
    | none => exact lt_of_le_of_lt hlow hbegin
    | some n => exact acceptedCursor_torn hpos htorn haccepted
  -- the address to hand out again
  generalize htarget : max s.restart.application.nextUnicast.toNat (range r).1 = target
  obtain ⟨actions, t, first, rest, hrun, hhanded, hfirst, hrest⟩ :=
    @requests_reach s.restart (by rw [← h.config_eq] at hpath; exact hpath)
      (by show s.config.meshSwarmAutoProvisioning = false; rw [h.config_eq, hauto]) rfl
      (target - s.restart.application.nextUnicast.toNat) (by omega)
  refine ⟨actions, t, hrun, fun hapart => ?_⟩
  rw [hhanded, List.map_cons, List.pairwise_cons] at hapart
  refine Allotment.not_apart ?_ ?_ (hapart.1 (range r) (List.mem_map_of_mem (hrest r hr)))
  · show first.toNat < (range r).2
    omega
  · show (range r).1 < first.toNat + 1
    omega

/-- What a provisioner owes its network: no address twice, none outside the block, no cursor that
wraps, and nothing handed out by a call that throws. -/
structure Allocated (config : CursorConfig) (s : UnicastService) : Prop where
  apart : (s.handed.map range).Pairwise Allotment.Apart
  inside : ∀ r ∈ s.handed, 0 < r.2.toNat ∧ config.meshNextUnicast.toNat ≤ r.1.toNat ∧
    r.1.toNat + r.2.toNat - 1 ≤ 0x7fff
  request : ∀ count, s.application.Allocates count →
    (s.application.nextUnicast + count.toUInt16).toNat =
      s.application.nextUnicast.toNat + count.toNat
  load : ∀ file, (Provisioner.create config file).nextUnicast.toNat =
    (acceptedCursor config file).getD config.meshNextUnicast.toNat
  thrown : ∀ count storage message, (s.requestProvData count storage).2 = .error message →
    (s.requestProvData count storage).1.handed = s.handed

theorem Kept.allocated (h : Kept config s) : Allocated config s where
  apart := h.sound.apart
  inside := fun r hr => by
    have hinside := (h.sound.inside (range r) (List.mem_map_of_mem hr)).1
    have hrange := h.ranges r hr
    exact ⟨hrange.1, hinside, by omega⟩
  request := fun count hcount => (h.next hcount).2.1
  load := create_nextUnicast config
  thrown := fun count storage message hthrown => by
    have hhanded : (s.requestProvData count storage).1.handed =
        match (s.requestProvData count storage).2 with
        | .ok (_, assigned) => (assigned, count) :: s.handed
        | .error _ => s.handed := rfl
    rw [hhanded, hthrown]

/-- **No address is handed out twice as long as every restart finds the last number complete**;
a restart that does not is followed by requests that hand an address out again. -/
theorem unicast_ranges_law (hpath : config.meshUnicastCursorPath ≠ "")
    (hauto : config.meshSwarmAutoProvisioning = false)
    (h : Run.ReachableUnder step Intact (· = initial config) s) :
    Allocated config s ∧
      ∀ file, s.file = some file → ¬ file.Whole →
        ∃ actions t, Run.exec step s (.restart :: actions) = some t ∧ ¬ Allocated config t := by
  have hkept := kept_reachable hpath hauto h
  refine ⟨hkept.allocated, fun file hfile htorn => ?_⟩
  obtain ⟨actions, t, hrun, hoverlap⟩ := hkept.overlaps hpath hauto hfile htorn
  exact ⟨actions, t, hrun, fun hallocated => hoverlap hallocated.apart⟩

end

/-- A provisioner that keeps its cursor in a file. -/
def provisioner : CursorConfig where
  meshUnicastCursorPath := "mesh_unicast"

/-- A range is lost to a rename that fails, and a restart comes in between. -/
theorem ranges_over_restart : ∃ s : UnicastService,
    Run.exec step (initial provisioner) [.requestProvData 3 (.renamed 4),
      .requestProvData 2 (.noRename "No space left on device" none),
      .requestProvData 1 (.renamed 4), .restart, .requestProvData 2 (.renamed 4)] = some s ∧
    s.handed = [(262, 2), (261, 1), (256, 3)] ∧ Allocated provisioner s := by
  generalize hactions : [Action.requestProvData 3 (.renamed 4),
    .requestProvData 2 (.noRename "No space left on device" none),
    .requestProvData 1 (.renamed 4), .restart, .requestProvData 2 (.renamed 4)] = actions
  have hcomputed : (Run.allowed step (fun s a => decide (s.Intact a)) (initial provisioner) actions &&
      (Run.exec step (initial provisioner) actions).any fun s =>
        s.handed == [(262, 2), (261, 1), (256, 3)]) = true := by
    rw [← hactions]
    decide +kernel
  rw [Bool.and_eq_true] at hcomputed
  obtain ⟨s, hs, hhanded⟩ := (Option.any_eq_true _ _).mp hcomputed.2
  exact ⟨s, hs, eq_of_beq hhanded, (unicast_ranges_law (by decide) rfl
    (Run.ReachableUnder.exec (.start rfl) (Run.guarded_of_decide hcomputed.1) hs)).1⟩

/-- The flush at close fails, the rename succeeds, and the next process begins anew. -/
theorem address_handed_twice : ¬ ∀ (config : CursorConfig) (s : UnicastService),
    config.meshUnicastCursorPath ≠ "" → config.meshSwarmAutoProvisioning = false →
      Run.Reachable step (· = initial config) s → Allocated config s := by
  intro hclaim
  generalize hactions : [Action.requestProvData 1 (.renamed 0), .restart,
    .requestProvData 1 (.renamed 4)] = actions
  have hcomputed : (Run.exec step (initial provisioner) actions).any
      (fun s => s.handed == [(256, 1), (256, 1)]) = true := by
    rw [← hactions]
    decide +kernel
  obtain ⟨s, hs, hhanded⟩ := (Option.any_eq_true _ _).mp hcomputed
  have hapart := (hclaim provisioner s (by decide) rfl (Run.Reachable.exec (.start rfl) hs)).apart
  rw [eq_of_beq hhanded] at hapart
  rcases (List.pairwise_cons.mp hapart).1 _ List.mem_cons_self with h | h <;>
    exact absurd h (by decide)

end UnicastService

end UavBluetooth.Mesh
