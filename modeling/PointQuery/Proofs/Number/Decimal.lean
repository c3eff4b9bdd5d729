import PointQuery.Number.Decimal
import PointQuery.Proofs.Number.Rounding
/-!
# Rounding decimals

The exact value of a decimal, and that `Decimal.toMagnitude` rounds it correctly. Very small and
very large decimals are known by the place of their leading digit, and no power of ten is formed.
-/

namespace PointQuery

/-! ## The value and the leading digit -/

namespace Decimal

/-- The exact value. -/
def value (d : Decimal) : ℚ := d.digits * 10 ^ d.exponent

theorem lt_pow_width (n : Nat) : n < 10 ^ width n :=
  (Nat.length_toDigits_le_iff (by decide) Nat.length_toDigits_pos).mp (Nat.le_refl _)

theorem pow_le_of_width {n k : Nat} (hn : n ≠ 0) (hk : k < width n) : 10 ^ k ≤ n := by
  by_contra hlt
  cases k with
  | zero => exact hn (by omega)
  | succ k =>
      have hle := (Nat.length_toDigits_le_iff (b := 10) (by decide) (Nat.succ_pos k)).mpr
        (Nat.lt_of_not_le hlt)
      exact absurd hle (Nat.not_le.mpr hk)

theorem value_nonneg (d : Decimal) : 0 ≤ d.value :=
  mul_nonneg (Nat.cast_nonneg _) (zpow_nonneg (by norm_num) _)

theorem value_lt (d : Decimal) : d.value < 10 ^ (width d.digits + d.exponent) := by
  have hdigits : (d.digits : ℚ) < 10 ^ width d.digits := by exact_mod_cast lt_pow_width d.digits
  rw [zpow_add₀ (by norm_num), zpow_natCast, value]
  exact mul_lt_mul_of_pos_right hdigits (zpow_pos (by norm_num) _)

theorem le_value {d : Decimal} {k : Nat} (hne : d.digits ≠ 0) (hk : k < width d.digits) :
    (10 : ℚ) ^ (k + d.exponent) ≤ d.value := by
  have hdigits : (10 : ℚ) ^ k ≤ d.digits := by exact_mod_cast pow_le_of_width hne hk
  rw [zpow_add₀ (by norm_num), zpow_natCast, value]
  exact mul_le_mul_of_nonneg_right hdigits (zpow_nonneg (by norm_num) _)

theorem value_eq_div (d : Decimal) : d.value =
    (d.digits * Nat.pow 10 d.exponent.toNat : Nat) / (Nat.pow 10 (-d.exponent).toNat : Nat) := by
  have hexponent : d.exponent = d.exponent.toNat - (-d.exponent).toNat := by omega
  have hpow (n : Nat) : ((Nat.pow 10 n : Nat) : ℚ) = 10 ^ n := by
    rw [Nat.pow_eq, Nat.cast_pow, Nat.cast_ofNat]
  calc d.value
    _ = d.digits * 10 ^ ((d.exponent.toNat : Int) - (-d.exponent).toNat) := by
        rw [value, ← hexponent]
    _ = _ := by
        rw [zpow_sub₀ (by norm_num), zpow_natCast, zpow_natCast, Nat.cast_mul, hpow, hpow,
          mul_div_assoc]

end Decimal

/-! ## Rounding to zero -/

namespace Magnitude

theorem value_zero : zero.value = 0 := by
  rw [value, units, zero, Nat.zero_mul, Nat.cast_zero, zero_div]

/-- A magnitude other than zero is at least one unit. -/
theorem le_value_of_ne_zero {x : Magnitude} (h : x ≠ zero) : 1 / 2 ^ 1074 ≤ x.value := by
  have hunits : 1 ≤ x.units := by
    refine Nat.one_le_iff_ne_zero.mpr fun heq => h (units_injective ?_)
    rw [heq, units, zero, Nat.zero_mul]
  rw [value, div_le_div_iff_of_pos_right (pow_pos two_pos _)]
  exact_mod_cast hunits

/-- Values below half a unit round to zero. -/
theorem isNearest_zero {v : ℚ} (hv : 0 ≤ v) (hsmall : 2 * v < 1 / 2 ^ 1074) :
    zero.IsNearest v := by
  have hunit : (1 : ℚ) / 2 ^ 1074 ≤ 1 :=
    div_le_one_of_le₀ (one_le_pow₀ one_le_two) (pow_nonneg zero_le_two _)
  have hlarge : (2 : ℚ) ^ 1024 = 2 ^ 54 * 2 ^ 970 := by rw [← pow_add]
  have hstep : (1 : ℚ) ≤ 2 ^ 970 := one_le_pow₀ one_le_two
  have hother (y : Magnitude) (hy : y ≠ zero) : 1 / 2 ^ 1074 ≤ y.value := le_value_of_ne_zero hy
  -- from here on the size of a unit does not matter
  generalize (1 : ℚ) / 2 ^ 1074 = unit at hsmall hunit hother
  refine ⟨?_, fun y => ?_, fun _ _ _ => rfl⟩
  · rw [hlarge]
    generalize (2 : ℚ) ^ 970 = half at hstep ⊢
    linarith
  · rw [value_zero, sub_zero, abs_of_nonneg hv]
    by_cases hy : y = zero
    · rw [hy, value_zero, sub_zero, abs_of_nonneg hv]
    · have hle := hother y hy
      rw [abs_sub_comm, abs_of_nonneg (by linarith)]
      linarith

end Magnitude

/-! ## Rounding -/

namespace Decimal

theorem isNearest_zero_of_digits_eq_zero {d : Decimal} (h : d.digits = 0) :
    Magnitude.zero.IsNearest d.value := by
  have hvalue : d.value = 0 := by rw [value, h, Nat.cast_zero, zero_mul]
  rw [hvalue]
  refine Magnitude.isNearest_zero le_rfl ?_
  rw [mul_zero]
  exact one_div_pos.mpr (pow_pos two_pos _)

/-- A decimal of less than `10^-330` is less than half a unit. -/
theorem isNearest_zero_of_top_lt {d : Decimal} (h : width d.digits + d.exponent < -330) :
    Magnitude.zero.IsNearest d.value := by
  have hpow : (2 * 2 ^ 1074 : ℚ) ≤ 10 ^ 331 := by
    exact_mod_cast (by decide +kernel : 2 * 2 ^ 1074 ≤ 10 ^ 331)
  have hunit : 2 * (1 / 10 ^ 331 : ℚ) ≤ 1 / 2 ^ 1074 := by
    rw [mul_one_div, div_le_div_iff₀ (pow_pos (by norm_num) _) (pow_pos two_pos _), one_mul]
    exact hpow
  have hvalue : d.value < 1 / 10 ^ 331 := calc
    d.value < 10 ^ (width d.digits + d.exponent) := d.value_lt
    _ ≤ (10 : ℚ) ^ (-331 : Int) := zpow_le_zpow_right₀ (by norm_num) (by omega)
    _ = 1 / 10 ^ 331 := by
      rw [zpow_neg, one_div]
      rfl
  refine Magnitude.isNearest_zero d.value_nonneg (lt_of_lt_of_le ?_ hunit)
  exact mul_lt_mul_of_pos_left hvalue two_pos

/-- A decimal from `10^310` on is past every magnitude. -/
theorem le_value_of_lt_top {d : Decimal} (hne : d.digits ≠ 0)
    (h : 310 < width d.digits + d.exponent) : 2 ^ 1024 ≤ d.value := by
  have hwidth : 0 < width d.digits := Nat.length_toDigits_pos
  have hpow : (2 ^ 1024 : ℚ) ≤ 10 ^ 310 := by
    exact_mod_cast (by decide +kernel : 2 ^ 1024 ≤ 10 ^ 310)
  calc (2 : ℚ) ^ 1024 ≤ 10 ^ (310 : Int) := hpow
    _ ≤ 10 ^ ((width d.digits - 1 : Nat) + d.exponent) :=
      zpow_le_zpow_right₀ (by norm_num) (by omega)
    _ ≤ d.value := le_value hne (by omega)

/-- **Decimals are rounded correctly**, also where it is seen early that one is too small or too
large. -/
theorem toMagnitude_cases (d : Decimal) :
    (∃ x, d.toMagnitude = some x ∧ x.IsNearest d.value) ∨
      (d.toMagnitude = none ∧ 2 ^ 1024 - 2 ^ 970 ≤ d.value) := by
  have hvalue := d.value_eq_div
  unfold toMagnitude
  dsimp only
  split
  · rename_i hsmall
    refine .inl ⟨.zero, rfl, ?_⟩
    rcases hsmall with hnone | htop
    · exact isNearest_zero_of_digits_eq_zero hnone
    · exact isNearest_zero_of_top_lt htop
  · rename_i hsmall
    obtain ⟨hne, -⟩ := not_or.mp hsmall
    split
    · rename_i hlarge
      refine .inr ⟨rfl, le_trans (sub_le_self _ (pow_nonneg zero_le_two 970)) ?_⟩
      exact le_value_of_lt_top hne hlarge
    · split
      · rename_i hwhole
        rw [Int.toNat_eq_zero.mpr (by omega : -d.exponent ≤ 0)] at hvalue
        rw [hvalue]
        exact Magnitude.nearest_cases Nat.one_pos _
      · rename_i hpart
        have hdigits : d.digits * Nat.pow 10 d.exponent.toNat = d.digits := by
          rw [Int.toNat_eq_zero.mpr (by omega), Nat.pow_eq, Nat.pow_zero, Nat.mul_one]
        rw [hvalue, hdigits]
        exact Magnitude.nearest_cases (Nat.pow_pos (by decide)) _

/-- A decimal reads as a magnitude if and only if its value rounds to it. -/
theorem toMagnitude_eq_some_iff {d : Decimal} {x : Magnitude} :
    d.toMagnitude = some x ↔ x.IsNearest d.value := by
  rcases d.toMagnitude_cases with ⟨y, heq, hy⟩ | ⟨heq, hlarge⟩
  · rw [heq]
    constructor
    · rintro ⟨⟩
      exact hy
    · exact fun h => congrArg some (hy.unique h)
  · rw [heq]
    exact ⟨fun h => (by cases h), fun h => absurd h.inRange (not_lt.mpr hlarge)⟩

end Decimal

end PointQuery
