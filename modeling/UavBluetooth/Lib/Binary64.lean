import Mathlib.Tactic
import Mathlib.Data.Int.Log

set_option autoImplicit false

/-! # The nearest double

What a product of doubles is rounded to: the multiple of the last place that is nearest to the
exact value, the even one of two. The last place is 52 places below the leading one, but not below
the smallest positive double. Only values that are not negative are considered: how far the
result is from the value (`abs_nearest_sub_le`), which values are doubles (`nearest_of_multiple`),
and that rounding keeps their order (`nearest_mono`).
-/

namespace Binary64

/-- The nearest integer, the even one of two. -/
def roundHalfEven (y : ℚ) : ℤ :=
  if y - ⌊y⌋ < 1 / 2 then ⌊y⌋
  else if 1 / 2 < y - ⌊y⌋ then ⌊y⌋ + 1
  else if ⌊y⌋ % 2 = 0 then ⌊y⌋
  else ⌊y⌋ + 1

/-- The exponent of the last place. -/
def lastPlace (x : ℚ) : ℤ := max (Int.log 2 x - 52) (-1074)

/-- The smallest positive double. -/
def smallest : ℚ := 2 ^ (-1074 : ℤ)

/-- The double nearest to a value; from `2 ^ 1024` on it stands for infinity. -/
def nearest (x : ℚ) : ℚ := roundHalfEven (x / 2 ^ lastPlace x) * 2 ^ lastPlace x

theorem abs_roundHalfEven_sub_le (y : ℚ) : |(roundHalfEven y : ℚ) - y| ≤ 1 / 2 := by
  have hfloor : (⌊y⌋ : ℚ) ≤ y := Int.floor_le y
  have hceil : y < ⌊y⌋ + 1 := Int.lt_floor_add_one y
  unfold roundHalfEven
  rw [abs_le]
  split
  · constructor <;> linarith
  · split
    · push_cast
      constructor <;> linarith
    · split
      · constructor <;> linarith
      · push_cast
        constructor <;> linarith

theorem roundHalfEven_intCast (n : ℤ) : roundHalfEven n = n := by
  rw [roundHalfEven, Int.floor_intCast, sub_self, if_pos (by norm_num)]

theorem smallest_pos : 0 < smallest := zpow_pos two_pos _

/-- The last place of a value is small against it, unless it is the smallest of all. -/
theorem lastPlace_le {x : ℚ} (hx : 0 < x) : (2 : ℚ) ^ lastPlace x ≤ x / 2 ^ 52 + smallest := by
  have hlog : (2 : ℚ) ^ Int.log 2 x ≤ x := by
    exact_mod_cast Int.zpow_log_le_self Nat.one_lt_two hx
  have hsmall := smallest_pos
  rcases le_total (Int.log 2 x - 52) (-1074) with hle | hle
  · rw [lastPlace, max_eq_right hle, ← smallest]
    have hquotient : 0 < x / 2 ^ 52 := by positivity
    linarith
  · rw [lastPlace, max_eq_left hle, zpow_sub₀ (by norm_num)]
    have hscaled : (2 : ℚ) ^ Int.log 2 x / 2 ^ (52 : ℤ) ≤ x / 2 ^ 52 := by
      have h52 : (2 : ℚ) ^ (52 : ℤ) = 2 ^ 52 := by norm_cast
      rw [h52]
      gcongr
    linarith

/-- **The rounding error** is at most half of the last place. -/
theorem abs_nearest_sub_le {x : ℚ} (hx : 0 ≤ x) :
    |nearest x - x| ≤ x / 2 ^ 53 + smallest / 2 := by
  rcases hx.eq_or_lt with rfl | hpos
  · have hzero : nearest 0 = 0 := by
      have hround := roundHalfEven_intCast 0
      rw [Int.cast_zero] at hround
      rw [nearest, zero_div, hround, Int.cast_zero, zero_mul]
    have hsmall := smallest_pos
    rw [hzero, sub_self, abs_zero, zero_div, zero_add]
    linarith
  · have hplace : (0 : ℚ) < 2 ^ lastPlace x := by positivity
    have hround := abs_roundHalfEven_sub_le (x / 2 ^ lastPlace x)
    calc |nearest x - x|
        = |(roundHalfEven (x / 2 ^ lastPlace x) : ℚ) - x / 2 ^ lastPlace x| * 2 ^ lastPlace x := by
          rw [← abs_of_pos hplace, ← abs_mul, abs_of_pos hplace, sub_mul,
            div_mul_cancel₀ x hplace.ne', nearest]
      _ ≤ 1 / 2 * 2 ^ lastPlace x := mul_le_mul_of_nonneg_right hround hplace.le
      _ ≤ 1 / 2 * (x / 2 ^ 52 + smallest) :=
          mul_le_mul_of_nonneg_left (lastPlace_le hpos) (by norm_num)
      _ = x / 2 ^ 53 + smallest / 2 := by ring

theorem nearest_nonneg {x : ℚ} (hx : 0 ≤ x) : 0 ≤ nearest x := by
  have hplace : (0 : ℚ) < 2 ^ lastPlace x := by positivity
  have hround := abs_le.mp (abs_roundHalfEven_sub_le (x / 2 ^ lastPlace x))
  have hquotient : 0 ≤ x / 2 ^ lastPlace x := by positivity
  have hlower : (-1 : ℚ) < roundHalfEven (x / 2 ^ lastPlace x) := by linarith [hround.1]
  have hint : 0 ≤ roundHalfEven (x / 2 ^ lastPlace x) := by
    have hcast : ((-1 : ℤ) : ℚ) < roundHalfEven (x / 2 ^ lastPlace x) := by simpa using hlower
    have hlt := Int.cast_lt.mp hcast
    omega
  rw [nearest]
  exact mul_nonneg (Int.cast_nonneg hint) hplace.le

/-! ## Order and exact values -/

theorem floor_le_roundHalfEven (y : ℚ) : ⌊y⌋ ≤ roundHalfEven y := by
  unfold roundHalfEven
  split_ifs <;> omega

theorem roundHalfEven_le_floor (y : ℚ) : roundHalfEven y ≤ ⌊y⌋ + 1 := by
  unfold roundHalfEven
  split_ifs <;> omega

theorem roundHalfEven_mono {x y : ℚ} (h : x ≤ y) : roundHalfEven x ≤ roundHalfEven y := by
  rcases (Int.floor_mono h).lt_or_eq with hlt | heq
  · calc roundHalfEven x ≤ ⌊x⌋ + 1 := roundHalfEven_le_floor x
      _ ≤ ⌊y⌋ := hlt
      _ ≤ roundHalfEven y := floor_le_roundHalfEven y
  · -- the two fractions belong to one integer
    unfold roundHalfEven
    rw [heq]
    split_ifs <;> first | omega | (exfalso; linarith)

/-- A multiple of the last place is a double. -/
theorem nearest_of_multiple {x : ℚ} {m : ℤ} (h : x = m * 2 ^ lastPlace x) : nearest x = x := by
  have hplace : (2 : ℚ) ^ lastPlace x ≠ 0 := (zpow_pos two_pos _).ne'
  have hquotient : x / 2 ^ lastPlace x = m := by
    rw [div_eq_iff hplace]
    exact h
  rw [nearest, hquotient, roundHalfEven_intCast]
  exact h.symm

theorem nearest_zero : nearest 0 = 0 :=
  nearest_of_multiple (m := 0) (by rw [Int.cast_zero, zero_mul])

/-- The integers of 53 bits are doubles. -/
theorem nearest_natCast {n : Nat} (h : n < 2 ^ 53) : nearest (n : ℚ) = n := by
  rcases Nat.eq_zero_or_pos n with rfl | hpos
  · rw [Nat.cast_zero, nearest_zero]
  · have hlog : Int.log 2 (n : ℚ) < 53 := by
      rw [Int.log_natCast]
      have hnat : Nat.log 2 n < 53 := Nat.log_lt_of_lt_pow (by omega) h
      omega
    have hplace : lastPlace (n : ℚ) ≤ 0 := max_le (by omega) (by norm_num)
    obtain ⟨k, hk⟩ := Int.eq_ofNat_of_zero_le (neg_nonneg.mpr hplace)
    refine nearest_of_multiple (m := n * 2 ^ k) ?_
    have hinverse : (2 : ℚ) ^ lastPlace (n : ℚ) = ((2 : ℚ) ^ k)⁻¹ := by
      rw [← zpow_natCast, ← zpow_neg, ← show -lastPlace (n : ℚ) = (k : ℤ) from hk, neg_neg]
    rw [hinverse]
    push_cast
    rw [mul_assoc, mul_inv_cancel₀ (by positivity), mul_one]

/-- **Rounding keeps the order.** Values of different magnitude are on either side of a power of
two, and so are their doubles. -/
theorem nearest_mono {x y : ℚ} (hx : 0 ≤ x) (h : x ≤ y) : nearest x ≤ nearest y := by
  rcases hx.eq_or_lt with rfl | hpos
  · rw [nearest_zero]
    exact nearest_nonneg h
  have hy : 0 < y := lt_of_lt_of_le hpos h
  have hlog : Int.log 2 x ≤ Int.log 2 y := Int.log_mono_right hpos h
  have hplaces : lastPlace x ≤ lastPlace y := max_le_max (by omega) (le_refl _)
  have hux : (0 : ℚ) < 2 ^ lastPlace x := by positivity
  have huy : (0 : ℚ) < 2 ^ lastPlace y := by positivity
  rcases hplaces.eq_or_lt with hsame | hless
  · rw [nearest, nearest, hsame]
    gcongr
    exact roundHalfEven_mono (div_le_div_of_nonneg_right h huy.le)
  · have hsmallest : -1074 ≤ lastPlace x := le_max_right _ _
    have hplace : lastPlace y = Int.log 2 y - 52 := by
      unfold lastPlace at hless hsmallest ⊢
      omega
    have hlower : Int.log 2 x - 52 ≤ lastPlace x := le_max_left _ _
    -- the power of two between them, as a multiple of either last place
    have habove : nearest x ≤ 2 ^ Int.log 2 y := by
      obtain ⟨k, hk⟩ := Int.eq_ofNat_of_zero_le (show 0 ≤ Int.log 2 y - lastPlace x by omega)
      have hpower : (2 : ℚ) ^ Int.log 2 y = ((2 ^ k : ℤ) : ℚ) * 2 ^ lastPlace x := by
        push_cast
        rw [← zpow_natCast, ← zpow_add₀ two_ne_zero, ← show Int.log 2 y - lastPlace x = (k : ℤ) from hk,
          sub_add_cancel]
      have hbelow : x ≤ 2 ^ Int.log 2 y := by
        have hnext : x < 2 ^ (Int.log 2 x + 1) := by
          exact_mod_cast Int.lt_zpow_succ_log_self Nat.one_lt_two x
        exact hnext.le.trans (zpow_le_zpow_right₀ one_le_two (by omega))
      have hround : roundHalfEven (x / 2 ^ lastPlace x) ≤ 2 ^ k := by
        rw [← roundHalfEven_intCast (2 ^ k)]
        refine roundHalfEven_mono ?_
        rw [div_le_iff₀ hux, ← hpower]
        exact hbelow
      rw [hpower, nearest]
      gcongr
    have hbeyond : 2 ^ Int.log 2 y ≤ nearest y := by
      have hpower : (2 : ℚ) ^ Int.log 2 y = ((2 ^ 52 : ℤ) : ℚ) * 2 ^ lastPlace y := by
        rw [hplace, zpow_sub₀ two_ne_zero]
        push_cast
        rw [mul_div_assoc', eq_div_iff (by positivity)]
        ring
      have hself : (2 : ℚ) ^ Int.log 2 y ≤ y := by
        exact_mod_cast Int.zpow_log_le_self Nat.one_lt_two hy
      have hround : (2 : ℤ) ^ 52 ≤ roundHalfEven (y / 2 ^ lastPlace y) := by
        rw [← roundHalfEven_intCast (2 ^ 52)]
        refine roundHalfEven_mono ?_
        rw [le_div_iff₀ huy, ← hpower]
        exact hself
      rw [hpower, nearest]
      gcongr
    exact habove.trans hbeyond

end Binary64
