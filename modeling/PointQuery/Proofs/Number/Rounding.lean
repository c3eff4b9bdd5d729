import Mathlib.Algebra.Order.Field.Basic
import Mathlib.Algebra.Order.Field.Rat
import Mathlib.Data.Nat.Dist
import Mathlib.Tactic.Linarith
import Mathlib.Tactic.NormNum
import Mathlib.Tactic.Ring
import PointQuery.Number.Binary64
/-!
# Correct rounding

`Magnitude.nearest` rounds correctly: it gives the magnitude that no other is nearer to, of two
equally near the one with the even significand, and it gives none from half a step past the largest
magnitude on. There is at most one such magnitude, so this determines what it gives.

Distances are compared in whole numbers: a magnitude is `units` steps of `2^-1074`, the quotient
`num / den` is `num · 2^1074 / den` such steps, and both are taken `den` times.
-/

namespace PointQuery.Magnitude

/-! ## The specification -/

/-- The exact value. -/
def value (x : Magnitude) : ℚ := x.units / 2 ^ 1074

/-- **The magnitude to which a value rounds**: none is nearer, of two equally near it has the even
significand, and the value is less than half a step past the largest magnitude `2^1024 - 2^971`. -/
structure IsNearest (x : Magnitude) (v : ℚ) : Prop where
  inRange : v < 2 ^ 1024 - 2 ^ 970
  nearest : ∀ y : Magnitude, |v - x.value| ≤ |v - y.value|
  even : ∀ y : Magnitude, y ≠ x → |v - x.value| = |v - y.value| → x.significand % 2 = 0

/-! ## Rounding to a whole number -/

section RoundHalfEven

variable {num den k : Nat}

theorem roundHalfEven_cases (num den : Nat) :
    (2 * (num % den) < den ∧ roundHalfEven num den = num / den) ∨
      (den < 2 * (num % den) ∧ roundHalfEven num den = num / den + 1) ∨
      (2 * (num % den) = den ∧ roundHalfEven num den = num / den + num / den % 2) := by
  unfold roundHalfEven
  by_cases hdown : 2 * (num % den) < den
  · exact .inl ⟨hdown, by simp [hdown]⟩
  · by_cases hup : den < 2 * (num % den)
    · exact .inr (.inl ⟨hup, by simp [hdown, hup]⟩)
    · exact .inr (.inr ⟨by omega, by simp [hdown, hup]⟩)

/-- A multiple lies below the floor, at it, one above it, or further above. -/
theorem multiple_cases (k floor den : Nat) :
    k * den + den ≤ floor * den ∨ k = floor ∨ k = floor + 1 ∨ floor * den + 2 * den ≤ k * den := by
  rcases Nat.lt_trichotomy k floor with hlt | heq | hgt
  · have := Nat.mul_le_mul_right den hlt
    rw [Nat.succ_mul] at this
    exact .inl this
  · exact .inr (.inl heq)
  · by_cases hnext : k = floor + 1
    · exact .inr (.inr (.inl hnext))
    · have : (floor + 2) * den ≤ k * den := Nat.mul_le_mul_right den (by omega)
      rw [Nat.add_mul] at this
      exact .inr (.inr (.inr this))

/-- No multiple of `den` is nearer to `num` than the rounded one. -/
theorem dist_roundHalfEven_le (num : Nat) (hden : 0 < den) (k : Nat) :
    Nat.dist num (roundHalfEven num den * den) ≤ Nat.dist num (k * den) := by
  have hfloor : num / den * den + num % den = num := Nat.div_add_mod' num den
  have hrest : num % den < den := Nat.mod_lt num hden
  have hnext : (num / den + 1) * den = num / den * den + den := Nat.succ_mul _ _
  unfold Nat.dist
  rcases roundHalfEven_cases num den with ⟨hside, hround⟩ | ⟨hside, hround⟩ | ⟨hside, hround⟩
  · rcases multiple_cases k (num / den) den with h | rfl | rfl | h <;> rw [hround] <;> omega
  · rcases multiple_cases k (num / den) den with h | rfl | rfl | h <;> rw [hround] <;> omega
  · -- halfway both neighbours are equally near
    have hround' : roundHalfEven num den = num / den ∨
        roundHalfEven num den = num / den + 1 := by omega
    rcases hround' with hround | hround <;>
      rcases multiple_cases k (num / den) den with h | rfl | rfl | h <;> rw [hround] <;> omega

/-- If another multiple is equally near, the rounded one is even. -/
theorem roundHalfEven_even (hden : 0 < den) (hk : k ≠ roundHalfEven num den)
    (hdist : Nat.dist num (roundHalfEven num den * den) = Nat.dist num (k * den)) :
    roundHalfEven num den % 2 = 0 := by
  have hfloor : num / den * den + num % den = num := Nat.div_add_mod' num den
  have hrest : num % den < den := Nat.mod_lt num hden
  have hnext : (num / den + 1) * den = num / den * den + den := Nat.succ_mul _ _
  unfold Nat.dist at hdist
  rcases roundHalfEven_cases num den with ⟨hside, hround⟩ | ⟨hside, hround⟩ | ⟨hside, hround⟩
  · rw [hround] at hk hdist
    rcases multiple_cases k (num / den) den with h | rfl | rfl | h <;> omega
  · rw [hround] at hk hdist
    rcases multiple_cases k (num / den) den with h | rfl | rfl | h <;> omega
  · omega

end RoundHalfEven

/-! ## Magnitudes on a grid -/

section Units

variable {x y : Magnitude}

theorem units_eq (x : Magnitude) : x.units = x.significand * 2 ^ x.shift := rfl

theorem units_lt (x : Magnitude) : x.units < 2 ^ 53 * 2 ^ x.shift :=
  Nat.mul_lt_mul_of_pos_right x.significand_lt (Nat.two_pow_pos x.shift)

theorem le_units (h : x.shift ≠ 0) : 2 ^ 52 * 2 ^ x.shift ≤ x.units :=
  Nat.mul_le_mul_right _ (x.normal.resolve_left h)

/-- Below a shift there are small magnitudes only. -/
theorem units_lt_of_shift_lt {s : Nat} (h : x.shift < s) : x.units < 2 ^ 52 * 2 ^ s := by
  have hstep : 2 ^ 53 * 2 ^ x.shift ≤ 2 ^ 52 * 2 ^ s := by
    rw [← Nat.pow_add, ← Nat.pow_add]
    exact Nat.pow_le_pow_right (by decide) (by omega)
  exact Nat.lt_of_lt_of_le x.units_lt hstep

/-- From a shift on each magnitude is a whole number of its steps. -/
theorem units_eq_mul_of_le_shift {s : Nat} (h : s ≤ x.shift) : ∃ k, x.units = k * 2 ^ s := by
  refine ⟨x.significand * 2 ^ (x.shift - s), ?_⟩
  rw [units_eq, Nat.mul_assoc, ← Nat.pow_add, Nat.sub_add_cancel h]

theorem shift_le_of_units_le (h : x.units ≤ y.units) : x.shift ≤ y.shift := by
  by_contra hlt
  have hbelow : y.units < 2 ^ 52 * 2 ^ x.shift := units_lt_of_shift_lt (by omega)
  have habove : 2 ^ 52 * 2 ^ x.shift ≤ x.units := le_units (by omega)
  omega

theorem units_injective : Function.Injective units := by
  intro x y h
  have hshift : x.shift = y.shift :=
    Nat.le_antisymm (shift_le_of_units_le h.le) (shift_le_of_units_le h.ge)
  have hsignificand : x.significand = y.significand := by
    rw [units_eq, units_eq, hshift] at h
    exact Nat.eq_of_mul_eq_mul_right (Nat.two_pow_pos _) h
  cases x
  cases y
  cases hshift
  cases hsignificand
  rfl

end Units

/-! ## What rounding gives -/

section OfUnits

variable {units den : Nat} {x : Magnitude}

/-- The shift at which `units / den` is rounded. -/
def scale (units den : Nat) : Nat := (units / den).log2 - 52

/-- The quotient in steps of `2^scale`, rounded to a whole number of them. -/
def steps (units den : Nat) : Nat := roundHalfEven units (den * 2 ^ scale units den)

/-- The magnitude nearest to `units / den`, which counts units. -/
def ofUnits (units den : Nat) : Option Magnitude :=
  if steps units den = 2 ^ 53 then ofParts? (2 ^ 52) (scale units den + 1)
  else ofParts? (steps units den) (scale units den)

theorem nearest_eq_ofUnits (num den : Nat) :
    nearest num den = ofUnits (num * Nat.pow 2 1074) den := rfl

theorem of_ofParts? {significand shift : Nat} (h : ofParts? significand shift = some x) :
    x.significand = significand ∧ x.shift = shift := by
  unfold ofParts? at h
  split at h
  · cases h
    exact ⟨rfl, rfl⟩
  · cases h

/-- At its scale the floor of a quotient has at most 53 bits, and 53 unless the scale is zero. -/
theorem floor_bounds (units den : Nat) :
    units / (den * 2 ^ scale units den) < 2 ^ 53 ∧
      (scale units den = 0 ∨ 2 ^ 52 ≤ units / (den * 2 ^ scale units den)) := by
  rw [← Nat.div_div_eq_div_mul]
  unfold scale
  generalize units / den = n
  constructor
  · rw [Nat.div_lt_iff_lt_mul (Nat.two_pow_pos _), ← Nat.pow_add]
    calc n < 2 ^ (n.log2 + 1) := Nat.lt_log2_self
      _ ≤ 2 ^ (53 + (n.log2 - 52)) := Nat.pow_le_pow_right (by decide) (by omega)
  · by_cases hsmall : n.log2 ≤ 52
    · exact .inl (by omega)
    · right
      have hne : n ≠ 0 := by
        rintro rfl
        exact hsmall (by decide)
      have hexponent : 52 + (n.log2 - 52) = n.log2 := by omega
      rw [Nat.le_div_iff_mul_le (Nat.two_pow_pos _), ← Nat.pow_add, hexponent]
      exact Nat.log2_self_le hne

/-- Rounding goes to the floor or one above it. -/
theorem steps_bounds (units den : Nat) :
    steps units den ≤ 2 ^ 53 ∧ (scale units den = 0 ∨ 2 ^ 52 ≤ steps units den) := by
  have hfloor := floor_bounds units den
  unfold steps
  rcases roundHalfEven_cases units (den * 2 ^ scale units den) with h | h | h <;> omega

/-- A magnitude that rounding gives is the whole number of steps. -/
theorem of_ofUnits (h : ofUnits units den = some x) :
    x.units = steps units den * 2 ^ scale units den ∧
      (steps units den % 2 = 0 → x.significand % 2 = 0) := by
  unfold ofUnits at h
  split at h
  · rename_i hcarry
    obtain ⟨hsignificand, hshift⟩ := of_ofParts? h
    have hpow : 2 ^ 52 * 2 ^ (scale units den + 1) = 2 ^ 53 * 2 ^ scale units den := by
      rw [Nat.pow_succ]
      omega
    rw [units_eq, hsignificand, hshift, hcarry]
    exact ⟨hpow, fun _ => by decide⟩
  · obtain ⟨hsignificand, hshift⟩ := of_ofParts? h
    rw [units_eq, hsignificand, hshift]
    exact ⟨rfl, id⟩

/-- What rounding gives is nearest, and even if another is equally near. -/
theorem dist_le_of_ofUnits (hden : 0 < den) (h : ofUnits units den = some x) (y : Magnitude) :
    Nat.dist units (x.units * den) ≤ Nat.dist units (y.units * den) ∧
      (y ≠ x → Nat.dist units (x.units * den) = Nat.dist units (y.units * den) →
        x.significand % 2 = 0) := by
  obtain ⟨hunits, heven⟩ := of_ofUnits h
  have hstep : 0 < den * 2 ^ scale units den := Nat.mul_pos hden (Nat.two_pow_pos _)
  have hgrid (k : Nat) : k * 2 ^ scale units den * den = k * (den * 2 ^ scale units den) := by ring
  have hx : x.units * den =
      roundHalfEven units (den * 2 ^ scale units den) * (den * 2 ^ scale units den) := by
    rw [hunits, hgrid]
    rfl
  rw [hx]
  by_cases hshift : scale units den ≤ y.shift
  · -- `y` is a whole number of steps too
    obtain ⟨k, hk⟩ := units_eq_mul_of_le_shift hshift
    rw [hk, hgrid]
    refine ⟨dist_roundHalfEven_le units hstep k, fun hne hdist => heven ?_⟩
    refine roundHalfEven_even hstep (fun heq => hne (units_injective ?_)) hdist
    rw [hk, heq, hunits]
    rfl
  · -- `y` is below `2^52` steps, and the quotient is not
    have hy : y.units * den < 2 ^ 52 * (den * 2 ^ scale units den) := by
      have hlt := Nat.mul_lt_mul_of_pos_right
        (units_lt_of_shift_lt (x := y) (s := scale units den) (by omega)) hden
      rwa [hgrid] at hlt
    have hfloor := (floor_bounds units den).2.resolve_left (by omega)
    have hquotient := (Nat.le_div_iff_mul_le hstep).mp hfloor
    have hbottom := dist_roundHalfEven_le units hstep (2 ^ 52)
    unfold Nat.dist at hbottom ⊢
    omega

/-! ## Past the largest magnitude -/

/-- Rounding gives nothing if the shift would be too large. -/
theorem ofUnits_eq_none_iff_scale : ofUnits units den = none ↔
    2045 < scale units den ∨ (scale units den = 2045 ∧ steps units den = 2 ^ 53) := by
  have hsteps := steps_bounds units den
  unfold ofUnits ofParts?
  split
  · simp only [Nat.pow_eq, dite_eq_right_iff, reduceCtorEq, imp_false, not_and]
    omega
  · simp only [Nat.pow_eq, dite_eq_right_iff, reduceCtorEq, imp_false, not_and]
    omega

/-- A quotient is rounded up to `2^53` steps from half a step below on. -/
theorem steps_eq_iff (hden : 0 < den) : steps units den = 2 ^ 53 ↔
    (2 ^ 54 - 1) * (den * 2 ^ scale units den) ≤ 2 * units := by
  have hstep : 0 < den * 2 ^ scale units den := Nat.mul_pos hden (Nat.two_pow_pos _)
  have hfloor := (floor_bounds units den).1
  have hround := roundHalfEven_cases units (den * 2 ^ scale units den)
  have hdiv := Nat.div_add_mod' units (den * 2 ^ scale units den)
  have hrest := Nat.mod_lt units hstep
  unfold steps
  generalize den * 2 ^ scale units den = step at *
  by_cases hq : units / step + 1 = 2 ^ 53
  · -- the floor is odd, so halfway is rounded up
    have htop : (2 ^ 54 - 1) * step = 2 * (units / step * step) + step := by
      have htwice : 2 ^ 54 - 1 = 2 * (units / step) + 1 := by omega
      rw [htwice, Nat.add_mul, Nat.mul_assoc, Nat.one_mul]
    have hodd : units / step % 2 = 1 := by omega
    rw [htop, ← hq]
    clear htop hq hfloor
    omega
  · have hbelow : units / step * step ≤ (2 ^ 53 - 2) * step := Nat.mul_le_mul_right step (by omega)
    omega

/-- Rounding gives nothing from halfway between the largest magnitude and the next power of two. -/
theorem ofUnits_eq_none_iff (hden : 0 < den) :
    ofUnits units den = none ↔ (2 ^ 54 - 1) * (den * 2 ^ 2044) ≤ units := by
  have hstep : 0 < den * 2 ^ scale units den := Nat.mul_pos hden (Nat.two_pow_pos _)
  have hfloor := floor_bounds units den
  rw [Nat.div_lt_iff_lt_mul hstep, Nat.le_div_iff_mul_le hstep] at hfloor
  have hpow {s t : Nat} (h : s ≤ t) : den * 2 ^ s ≤ den * 2 ^ t :=
    Nat.mul_le_mul_left den (Nat.pow_le_pow_right (by decide) h)
  have hdouble (s : Nat) : den * 2 ^ (s + 1) = 2 * (den * 2 ^ s) := by ring
  rw [ofUnits_eq_none_iff_scale, steps_eq_iff hden]
  -- a power with this exponent must not be evaluated
  generalize htop : 2044 = top
  rcases Nat.lt_trichotomy (scale units den) (top + 1) with hlt | heq | hgt
  · have hle := hpow (show scale units den ≤ top by omega)
    omega
  · rw [heq, hdouble top] at hfloor ⊢
    omega
  · have hle := hpow (show top + 1 + 1 ≤ scale units den by omega)
    rw [hdouble (top + 1), hdouble top] at hle
    omega

/-! ## Distances as quotients -/

theorem abs_sub_eq_dist (m n : Nat) : |(m : ℚ) - n| = Nat.dist m n := by
  rcases Nat.le_total m n with h | h
  · rw [Nat.dist_eq_sub_of_le h, Nat.cast_sub h, abs_sub_comm, abs_of_nonneg]
    exact sub_nonneg.mpr (Nat.cast_le.mpr h)
  · rw [Nat.dist_eq_sub_of_le_right h, Nat.cast_sub h, abs_of_nonneg]
    exact sub_nonneg.mpr (Nat.cast_le.mpr h)

/-- The distance of a quotient of units from a magnitude. -/
theorem abs_sub_value (hden : 0 < den) (units : Nat) (y : Magnitude) :
    |(units / (den * 2 ^ 1074) : ℚ) - y.value| =
      Nat.dist units (y.units * den) / (den * 2 ^ 1074) := by
  have hden' : (den : ℚ) ≠ 0 := Nat.cast_ne_zero.mpr hden.ne'
  have hpos : (0 : ℚ) < den * 2 ^ 1074 := mul_pos (Nat.cast_pos.mpr hden) (pow_pos two_pos _)
  have hvalue : y.value = (y.units * den : Nat) / (den * 2 ^ 1074) := by
    rw [value, Nat.cast_mul, mul_comm (y.units : ℚ), mul_div_mul_left _ _ hden']
  rw [hvalue, ← sub_div, abs_div, abs_of_pos hpos, abs_sub_eq_dist]

theorem inRange_iff (hden : 0 < den) (units : Nat) :
    (units / (den * 2 ^ 1074) : ℚ) < 2 ^ 1024 - 2 ^ 970 ↔
      ¬ (2 ^ 54 - 1) * (den * 2 ^ 2044) ≤ units := by
  have hpos : (0 : ℚ) < den * 2 ^ 1074 := mul_pos (Nat.cast_pos.mpr hden) (pow_pos two_pos _)
  have hhigh : (2 : ℚ) ^ 1024 * 2 ^ 1074 = 2 ^ 54 * 2 ^ 2044 := by rw [← pow_add, ← pow_add]
  have hlow : (2 : ℚ) ^ 970 * 2 ^ 1074 = 2 ^ 2044 := by rw [← pow_add]
  have hbound : ((2 : ℚ) ^ 1024 - 2 ^ 970) * (den * 2 ^ 1074) =
      ((2 ^ 54 - 1) * (den * 2 ^ 2044) : Nat) := by
    have hcount : ((2 ^ 54 - 1 : Nat) : ℚ) = 2 ^ 54 - 1 := by norm_num
    rw [mul_left_comm, sub_mul, hhigh, hlow, Nat.cast_mul, Nat.cast_mul, Nat.cast_pow, hcount,
      Nat.cast_ofNat]
    generalize (2 : ℚ) ^ 2044 = top
    ring
  rw [div_lt_iff₀ hpos, hbound, Nat.cast_lt, not_le]

end OfUnits

/-! ## The specification determines the magnitude -/

section Unique

variable {v : ℚ} {x y : Magnitude}

theorem value_lt_value : x.value < y.value ↔ x.units < y.units := by
  rw [value, value, div_lt_div_iff_of_pos_right (pow_pos two_pos _), Nat.cast_lt]

/-- Between two magnitudes with even significands there is a third. -/
theorem exists_between_even (hlt : x.units < y.units) (hx : x.significand % 2 = 0)
    (hy : y.significand % 2 = 0) : ∃ z : Magnitude, x.units < z.units ∧ z.units < y.units := by
  have hbound := x.significand_lt
  simp only [Nat.pow_eq] at hbound
  let z : Magnitude := ⟨x.significand + 1, x.shift, by simp only [Nat.pow_eq]; omega, x.shift_le,
    x.normal.imp_right fun h => Nat.le_succ_of_le h⟩
  have hz : z.units = x.units + 2 ^ x.shift := Nat.succ_mul _ _
  refine ⟨z, by rw [hz]; exact Nat.lt_add_of_pos_right (Nat.two_pow_pos _), ?_⟩
  -- `y` is a whole number of the steps of `x`, so at least one step further
  have hle : z.units ≤ y.units := by
    obtain ⟨k, hk⟩ := units_eq_mul_of_le_shift (shift_le_of_units_le hlt.le)
    rw [hk] at hlt ⊢
    exact Nat.mul_le_mul_right _ (Nat.lt_of_mul_lt_mul_right hlt)
  refine Nat.lt_of_le_of_ne hle fun heq => ?_
  have hodd : z.significand % 2 = 0 := by rw [units_injective heq, hy]
  have hsucc : z.significand = x.significand + 1 := rfl
  omega

/-- A value is not equally near to two magnitudes if it rounds to both. -/
theorem IsNearest.not_lt (hx : x.IsNearest v) (hy : y.IsNearest v) : ¬ x.units < y.units := by
  intro hlt
  have hne : y ≠ x := by
    rintro rfl
    exact Nat.lt_irrefl _ hlt
  have hdist : |v - x.value| = |v - y.value| := le_antisymm (hx.nearest y) (hy.nearest x)
  have hxEven := hx.even y hne hdist
  have hyEven := hy.even x hne.symm hdist.symm
  obtain ⟨z, hxz, hzy⟩ := exists_between_even hlt hxEven hyEven
  have hxz' := value_lt_value.mpr hxz
  have hzy' := value_lt_value.mpr hzy
  rcases abs_eq_abs.mp hdist with hsame | hopposite
  · linarith
  · -- the value is halfway between `x` and `y`, and `z` is nearer
    have hpos : 0 < v - x.value := by linarith
    have hz : |v - z.value| < |v - x.value| := by
      rw [abs_of_pos hpos, abs_lt]
      constructor <;> linarith
    exact absurd (hx.nearest z) (not_le.mpr hz)

/-- **A value rounds to one magnitude at most.** -/
theorem IsNearest.unique (hx : x.IsNearest v) (hy : y.IsNearest v) : x = y :=
  units_injective <|
    Nat.le_antisymm (Nat.le_of_not_lt (hy.not_lt hx)) (Nat.le_of_not_lt (hx.not_lt hy))

end Unique

/-! ## Rounding is correct -/

section Correct

variable {den : Nat}

/-- What rounding a quotient of units gives meets the specification. -/
theorem isNearest_of_ofUnits {units : Nat} {x : Magnitude} (hden : 0 < den)
    (h : ofUnits units den = some x) : x.IsNearest (units / (den * 2 ^ 1074)) := by
  have hpos : (0 : ℚ) < den * 2 ^ 1074 := mul_pos (Nat.cast_pos.mpr hden) (pow_pos two_pos _)
  refine ⟨?_, fun y => ?_, fun y hne hdist => ?_⟩
  · rw [inRange_iff hden, ← ofUnits_eq_none_iff hden, h]
    simp
  · rw [abs_sub_value hden, abs_sub_value hden, div_le_div_iff_of_pos_right hpos, Nat.cast_le]
    exact (dist_le_of_ofUnits hden h y).1
  · rw [abs_sub_value hden, abs_sub_value hden, div_left_inj' hpos.ne', Nat.cast_inj] at hdist
    exact (dist_le_of_ofUnits hden h y).2 hne hdist

theorem ofUnits_cases (hden : 0 < den) (units : Nat) :
    (∃ x, ofUnits units den = some x ∧ x.IsNearest (units / (den * 2 ^ 1074))) ∨
      (ofUnits units den = none ∧ 2 ^ 1024 - 2 ^ 970 ≤ (units / (den * 2 ^ 1074) : ℚ)) := by
  cases h : ofUnits units den with
  | some x => exact .inl ⟨x, rfl, isNearest_of_ofUnits hden h⟩
  | none =>
      rw [ofUnits_eq_none_iff hden] at h
      refine .inr ⟨rfl, not_lt.mp ?_⟩
      rw [inRange_iff hden]
      exact not_not_intro h

/-- A quotient in units of `2^-1074`. -/
theorem quotient_eq (num den : Nat) :
    (num / den : ℚ) = (num * Nat.pow 2 1074 : Nat) / (den * 2 ^ 1074) := by
  generalize 1074 = k
  rw [Nat.cast_mul, Nat.pow_eq, Nat.cast_pow, Nat.cast_ofNat,
    mul_div_mul_right _ _ (pow_ne_zero _ two_ne_zero)]

/-- **Rounding is correct**: it gives the nearest magnitude, or none past the largest. -/
theorem nearest_cases (hden : 0 < den) (num : Nat) :
    (∃ x, nearest num den = some x ∧ x.IsNearest (num / den)) ∨
      (nearest num den = none ∧ 2 ^ 1024 - 2 ^ 970 ≤ (num / den : ℚ)) := by
  rw [nearest_eq_ofUnits, quotient_eq]
  exact ofUnits_cases hden _

end Correct

end PointQuery.Magnitude

/-! ## Rounding to a number -/

namespace PointQuery.Binary64

/-- **The number to which a value with a sign rounds**: its nearest magnitude, or infinity from half
a step past the largest magnitude on. The sign is kept, also of zero. -/
inductive Rounds (negative : Bool) (v : ℚ) : Binary64 → Prop
  | finite {x : Magnitude} : x.IsNearest v → Rounds negative v (.finite negative x)
  | overflow : 2 ^ 1024 - 2 ^ 970 ≤ v → Rounds negative v (.infinite negative)

theorem Rounds.unique {negative : Bool} {v : ℚ} {x y : Binary64} (hx : Rounds negative v x)
    (hy : Rounds negative v y) : x = y := by
  cases hx with
  | finite hx =>
      cases hy with
      | finite hy => rw [hx.unique hy]
      | overflow hy => exact absurd hx.inRange (not_lt.mpr hy)
  | overflow hx =>
      cases hy with
      | finite hy => exact absurd hy.inRange (not_lt.mpr hx)
      | overflow hy => rfl

end PointQuery.Binary64
