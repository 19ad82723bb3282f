import Mathlib.Tactic

set_option autoImplicit false

/-! # Little-endian integers

Integers of a fixed width, with or without a sign, and their bytes from the least significant
one.
-/

namespace LittleEndian

/-- The last `width` bytes of a number. -/
def bytes : Nat → Nat → List UInt8
  | 0, _ => []
  | width + 1, n => UInt8.ofNat n :: bytes width (n / 256)

def value : List UInt8 → Nat
  | [] => 0
  | b :: rest => b.toNat + 256 * value rest

@[simp] theorem length_bytes (width n : Nat) : (bytes width n).length = width := by
  induction width generalizing n with
  | zero => rfl
  | succ width ih => rw [bytes, List.length_cons, ih]

theorem value_bytes (width n : Nat) : value (bytes width n) = n % 256 ^ width := by
  induction width generalizing n with
  | zero => rw [bytes, value, pow_zero, Nat.mod_one]
  | succ width ih =>
      have hbyte : (UInt8.ofNat n).toNat = n % 256 := UInt8.toNat_ofNat'
      rw [bytes, value, ih, hbyte, pow_succ', Nat.mod_mul]

theorem value_lt (l : List UInt8) : value l < 256 ^ l.length := by
  induction l with
  | nil => exact Nat.one_pos
  | cons b rest ih =>
      have hb := b.toNat_lt
      rw [value, List.length_cons, pow_succ]
      omega

theorem bytes_value (l : List UInt8) : bytes l.length (value l) = l := by
  induction l with
  | nil => rfl
  | cons b rest ih =>
      have hb := b.toNat_lt
      have hlast : UInt8.ofNat (b.toNat + 256 * value rest) = b := by
        apply UInt8.toNat_inj.mp
        rw [UInt8.toNat_ofNat']
        omega
      have hrest : (b.toNat + 256 * value rest) / 256 = value rest := by omega
      rw [List.length_cons, value, bytes, hlast, hrest, ih]

/-! ## Integer types -/

/-- A type of integers of some bytes, such as those of `<cstdint>`. -/
structure IntegerType where
  signed : Bool
  size : Nat
  size_pos : 0 < size := by decide
  deriving DecidableEq

namespace IntegerType

variable (type : IntegerType)

def min : Int := if type.signed then -(2 ^ (8 * type.size - 1)) else 0

def max : Int := if type.signed then 2 ^ (8 * type.size - 1) - 1 else 2 ^ (8 * type.size) - 1

/-- The values of the type. -/
def InRange (n : Int) : Prop := type.min ≤ n ∧ n ≤ type.max

instance (n : Int) : Decidable (type.InRange n) := inferInstanceAs (Decidable (_ ∧ _))

/-- The value of the type with the same last bits. -/
def wrap (n : Int) : Int :=
  if type.signed then n.bmod (2 ^ (8 * type.size)) else n % 2 ^ (8 * type.size)

theorem two_pow_eq : (2 : Int) ^ (8 * type.size) = 2 * 2 ^ (8 * type.size - 1) := by
  have h := type.size_pos
  rw [← pow_succ']
  congr 1
  omega

theorem wrap_inRange (n : Int) : type.InRange (type.wrap n) := by
  have htwo := type.two_pow_eq
  have hpos : (0 : Int) < 2 ^ (8 * type.size - 1) := by positivity
  have hcast : ((2 ^ (8 * type.size) : Nat) : Int) = 2 ^ (8 * type.size) := by push_cast; rfl
  unfold InRange min max wrap
  cases type.signed with
  | true =>
      have hlow := @Int.le_bmod n (2 ^ (8 * type.size)) (by positivity)
      have hhigh := @Int.bmod_lt n (2 ^ (8 * type.size)) (by positivity)
      rw [hcast] at hlow hhigh
      simp only [if_true]
      omega
  | false =>
      have hlow := Int.emod_nonneg n (show (2 : Int) ^ (8 * type.size) ≠ 0 by positivity)
      have hhigh := Int.emod_lt_of_pos n (show (0 : Int) < 2 ^ (8 * type.size) by positivity)
      simp only [Bool.false_eq_true, if_false]
      omega

/-- A value is determined by its last bits. -/
theorem wrap_eq_of_inRange {n m : Int} (h : type.InRange n)
    (hm : m % 2 ^ (8 * type.size) = n % 2 ^ (8 * type.size)) : type.wrap m = n := by
  have htwo := type.two_pow_eq
  have hpos : (0 : Int) < 2 ^ (8 * type.size - 1) := by positivity
  have hcast : ((2 ^ (8 * type.size) : Nat) : Int) = 2 ^ (8 * type.size) := by push_cast; rfl
  unfold InRange min max at h
  unfold wrap
  cases hsigned : type.signed with
  | true =>
      simp only [hsigned, if_true] at h ⊢
      have hmod : m.bmod (2 ^ (8 * type.size)) = n.bmod (2 ^ (8 * type.size)) := by
        rw [← Int.emod_bmod m, ← Int.emod_bmod n, hcast, hm]
      rw [hmod]
      refine Int.bmod_eq_of_le ?_ ?_ <;> rw [hcast] <;> omega
  | false =>
      simp only [hsigned, Bool.false_eq_true, if_false] at h ⊢
      rw [hm]
      exact Int.emod_eq_of_lt h.1 (by omega)

/-- The bytes of a value, in two's complement. -/
def toBytes (n : Int) : List UInt8 := bytes type.size (n % 2 ^ (8 * type.size)).toNat

def ofBytes (l : List UInt8) : Int := type.wrap (value l)

@[simp] theorem length_toBytes (n : Int) : (type.toBytes n).length = type.size :=
  length_bytes _ _

/-- **Values survive their bytes.** -/
theorem ofBytes_toBytes {n : Int} (h : type.InRange n) : type.ofBytes (type.toBytes n) = n := by
  refine type.wrap_eq_of_inRange h ?_
  have hnonneg := Int.emod_nonneg n (show (2 : Int) ^ (8 * type.size) ≠ 0 by positivity)
  have hpow : ((256 ^ type.size : Nat) : Int) = 2 ^ (8 * type.size) := by
    rw [pow_mul]
    norm_num
  rw [toBytes, value_bytes, Int.natCast_mod, Int.toNat_of_nonneg hnonneg, hpow,
    Int.emod_emod, Int.emod_emod]

theorem wrap_emod (n : Int) : type.wrap n % 2 ^ (8 * type.size) = n % 2 ^ (8 * type.size) := by
  have hcast : ((2 ^ (8 * type.size) : Nat) : Int) = 2 ^ (8 * type.size) := by push_cast; rfl
  unfold wrap
  cases type.signed with
  | true =>
      have h := @Int.bmod_emod n (2 ^ (8 * type.size))
      rw [hcast] at h
      exact h
  | false => exact Int.emod_emod _ _

/-- **Bytes survive their value.** -/
theorem toBytes_ofBytes {l : List UInt8} (h : l.length = type.size) :
    type.toBytes (type.ofBytes l) = l := by
  have hbound : (value l : Int) < 2 ^ (8 * type.size) := by
    have hvalue := value_lt l
    rw [h, show 256 = 2 ^ 8 by norm_num, ← pow_mul] at hvalue
    exact_mod_cast hvalue
  rw [toBytes, ofBytes, wrap_emod, Int.emod_eq_of_lt (by positivity) hbound, Int.toNat_natCast,
    ← h, bytes_value]

end IntegerType

end LittleEndian
