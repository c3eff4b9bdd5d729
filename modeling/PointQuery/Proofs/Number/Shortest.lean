import PointQuery.Number.Notation
import PointQuery.Proofs.Number.Numeral
/-!
# Plain notation reads back

The shortest decimal of a magnitude rounds to it, positional notation is a numeral with the value of
the decimal, and so every finite number is read back from its plain notation, zeros with their sign.
-/

namespace PointQuery

/-! ## The shortest decimal -/

namespace Magnitude

/-- No magnitude is as large as the halfway point past the largest. -/
theorem units_lt_halfway (x : Magnitude) : ¬ (2 ^ 54 - 1) * (1 * 2 ^ 2044) ≤ x.units := by
  have hsignificand := x.significand_lt
  have hshift := x.shift_le
  generalize htop : 2044 = top
  have hpow : 2 ^ x.shift ≤ 2 ^ (top + 1) := Nat.pow_le_pow_right (by decide) (by omega)
  have hunits : x.units ≤ (2 ^ 53 - 1) * 2 ^ (top + 1) :=
    Nat.mul_le_mul (Nat.le_sub_one_of_lt hsignificand) hpow
  have hpos : 0 < 2 ^ top := Nat.two_pow_pos top
  rw [Nat.pow_succ] at hunits
  omega

theorem value_injective : Function.Injective value := by
  intro x y h
  rw [value, value, div_left_inj' (pow_ne_zero _ two_ne_zero), Nat.cast_inj] at h
  exact units_injective h

/-- A magnitude is nearest to its own value. -/
theorem isNearest_value (x : Magnitude) : x.IsNearest x.value := by
  have hself : |x.value - x.value| = 0 := by rw [sub_self, abs_zero]
  refine ⟨?_, fun y => ?_, fun y hne hdist => ?_⟩
  · have hvalue : x.value = x.units / ((1 : Nat) * 2 ^ 1074) := by
      rw [value, Nat.cast_one, one_mul]
    rw [hvalue, inRange_iff Nat.one_pos]
    exact x.units_lt_halfway
  · rw [hself]
    exact abs_nonneg _
  · rw [hself, eq_comm, abs_eq_zero, sub_eq_zero] at hdist
    exact absurd (value_injective hdist).symm hne

theorem five_pow_mul (k : Nat) : (5 : ℚ) ^ k * 10 ^ (-(k : Int)) = 1 / 2 ^ k := by
  have hten : (10 : ℚ) ^ k = 2 ^ k * 5 ^ k := by
    rw [← mul_pow]
    norm_num
  rw [zpow_neg, zpow_natCast, hten]
  field_simp

theorem value_exactDecimal (x : Magnitude) : x.exactDecimal.value = x.value := by
  have hexponent : (-1074 : Int) = -((1074 : Nat) : Int) := by rw [Nat.cast_ofNat]
  rw [Decimal.value, exactDecimal, value, hexponent]
  generalize 1074 = k
  rw [Nat.cast_mul, Nat.pow_eq, Nat.cast_pow, Nat.cast_ofNat, mul_assoc, five_pow_mul, mul_one_div]

theorem toMagnitude_of_onGrid? {x : Magnitude} {count : Nat} {d : Decimal}
    (h : x.onGrid? count = some d) : d.toMagnitude = some x := by
  have hread : x.readBy d = true := by
    unfold onGrid? at h
    exact List.find?_some h
  unfold readBy at hread
  exact of_decide_eq_true hread

/-- **The shortest decimal of a magnitude reads back as it.** -/
theorem toMagnitude_shortest (x : Magnitude) : x.shortest.toMagnitude = some x := by
  unfold shortest
  split
  · rename_i hzero
    rw [hzero]
    rfl
  · cases hfound : (List.range 18).findSome? x.onGrid? with
    | some d =>
        obtain ⟨count, -, hgrid⟩ := List.exists_of_findSome?_eq_some hfound
        exact toMagnitude_of_onGrid? hgrid
    | none =>
        refine Decimal.toMagnitude_eq_some_iff.mpr ?_
        rw [Option.getD_none, value_exactDecimal]
        exact x.isNearest_value

end Magnitude

/-! ## Positional notation -/

namespace Numeral

theorem digits_digitChars (n : Nat) : Digits (Decimal.digitChars n) :=
  fun _ hc => Nat.isDigit_of_mem_toDigits (by decide) (by decide) hc

theorem natural_digitChars (n : Nat) : natural (Decimal.digitChars n) = n :=
  Nat.ofDigitChars_ten_toDigits

theorem digits_zeros (k : Nat) : Digits (List.replicate k '0') := by
  intro c hc
  rw [List.eq_of_mem_replicate hc]
  decide

theorem natural_zeros (k : Nat) : natural (List.replicate k '0') = 0 := by
  rw [natural, Nat.ofDigitChars_replicate_zero, Nat.mul_zero]

/-- A point before the last places divides by a power of ten. -/
theorem mantissa_pointed {ds : List Char} (hds : Digits ds) (places : Nat) :
    Mantissa (Decimal.pointed ds places) (natural ds / 10 ^ places) := by
  unfold Decimal.pointed
  dsimp only
  have hpadded : Digits (List.replicate (places + 1 - ds.length) '0' ++ ds) :=
    (digits_zeros _).append hds
  have hlength : places < (List.replicate (places + 1 - ds.length) '0' ++ ds).length := by
    rw [List.length_append, List.length_replicate]
    omega
  have hnatural : natural (List.replicate (places + 1 - ds.length) '0' ++ ds) = natural ds := by
    rw [natural_append, natural_zeros, Nat.mul_zero, Nat.zero_add]
  generalize List.replicate (places + 1 - ds.length) '0' ++ ds = padded at *
  have hplaces : (padded.drop (padded.length - places)).length = places := by
    rw [List.length_drop]
    omega
  have hfront : padded.take (padded.length - places) ≠ [] := by
    rw [← List.length_pos_iff, List.length_take]
    omega
  have hvalue : (natural ds / 10 ^ places : ℚ) =
      natural (padded.take (padded.length - places)) +
        natural (padded.drop (padded.length - places)) /
          10 ^ (padded.drop (padded.length - places)).length := by
    rw [← natural_append_div, List.take_append_drop, hnatural, hplaces]
  rw [hvalue]
  exact .pointed (fun c hc => hpadded c (List.mem_of_mem_take hc)) hfront
    fun c hc => hpadded c (List.mem_of_mem_drop hc)

/-- Positional notation is a mantissa with the value of the decimal. -/
theorem mantissa_positional (d : Decimal) : Mantissa d.positional d.value := by
  unfold Decimal.positional
  split
  · rename_i hwhole
    have hexponent : (d.exponent.toNat : Int) = d.exponent := Int.toNat_of_nonneg hwhole
    have hdigits := (digits_digitChars d.digits).append (digits_zeros d.exponent.toNat)
    have hne : Decimal.digitChars d.digits ++ List.replicate d.exponent.toNat '0' ≠ [] :=
      List.append_ne_nil_of_left_ne_nil Nat.toDigits_ne_nil _
    have hvalue : d.value =
        natural (Decimal.digitChars d.digits ++ List.replicate d.exponent.toNat '0') := by
      rw [natural_append, natural_digitChars, natural_zeros, List.length_replicate, Nat.add_zero,
        Decimal.value, ← hexponent, zpow_natCast, Int.toNat_natCast]
      push_cast
      ring
    rw [hvalue]
    exact .whole hdigits hne
  · rename_i hpart
    have hexponent : d.exponent = -((-d.exponent).toNat : Int) := by omega
    have hvalue : d.value =
        natural (Decimal.digitChars d.digits) / 10 ^ (-d.exponent).toNat := by
      rw [natural_digitChars, Decimal.value, div_eq_mul_inv, ← zpow_natCast, ← zpow_neg,
        ← hexponent]
    rw [hvalue]
    exact mantissa_pointed (digits_digitChars d.digits) _

end Numeral

namespace Binary64

theorem toList_toPlain (negative : Bool) (x : Magnitude) :
    (toPlain (.finite negative x)).toList =
      (if negative then ['-'] else []) ++ x.shortest.positional := by
  rw [toPlain, String.toList_ofList]
  rfl

theorem numeral_toPlain (negative : Bool) (x : Magnitude) :
    Numeral (toPlain (.finite negative x)).toList negative x.shortest.value := by
  have hsign : Numeral.Sign (if negative then ['-'] else []) negative := by
    cases negative with
    | false => exact .absent
    | true => exact .minus
  have hnumeral := Numeral.mk hsign (Numeral.mantissa_positional x.shortest) .absent
  rwa [List.append_nil, zpow_zero, mul_one, ← toList_toPlain] at hnumeral

/-- A finite number is written as a numeral whose value rounds to it. -/
theorem exists_numeral_toPlain {x : Binary64} (hx : x.isFinite = true) :
    ∃ negative v, Numeral x.toPlain.toList negative v ∧ Rounds negative v x := by
  cases x with
  | nan => cases hx
  | infinite negative => cases hx
  | finite negative x =>
      have hround := Decimal.toMagnitude_eq_some_iff.mp x.toMagnitude_shortest
      exact ⟨negative, _, numeral_toPlain negative x, .finite hround⟩

/-- **Finite numbers are read back from their plain notation.** -/
theorem parse_toPlain {x : Binary64} (hx : x.isFinite = true) : parse x.toPlain = some x :=
  (parse_eq_some_iff hx).mpr (exists_numeral_toPlain hx)

example : toPlain (ofBits 0x3fb999999999999a) = "0.1" := by decide +kernel

end Binary64

end PointQuery
