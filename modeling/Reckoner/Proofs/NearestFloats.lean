/-
# The float nearest to a ratio

Rounding to a float looks at the number that a ratio stands for and at
nothing else.  The number is measured in units of the last bit of a mantissa
in its binade, and the nearest whole number of units is the mantissa; one
that fills up to `2 ^ 53` is the first of the next binade.  A number that is
a float already is left alone, one past every float becomes infinite, and
one below half of the least float becomes zero.

The last two facts show that the shortcuts in reading a decimal change
nothing: every decimal is read as the float nearest to it.
-/
import Reckoner.Number.Decimal
import Reckoner.Proofs.ExactRatios
import Reckoner.Proofs.FloatFields

namespace Reckoner

namespace Binary

/-! ## Magnitudes -/

theorem den_magnitude_pos (mantissa : ℕ) (exponent : ℤ) :
    0 < (magnitude mantissa exponent).den :=
  Ratio.den_scale_pos two_pos one_pos exponent

@[simp] theorem value_magnitude (mantissa : ℕ) (exponent : ℤ) :
    (magnitude mantissa exponent).value = mantissa * 2 ^ exponent := by
  rw [magnitude, Ratio.value_scale two_pos, Ratio.value_ofNat, Nat.cast_ofNat]

/-! ## The pattern of the nearest float -/

theorem cast_binadeSize : (binadeSize : ℚ) = 2 ^ (52 : ℤ) := by
  rw [binadeSize_eq]
  norm_num

/-- The mantissa that rounding finds is the nearest number of units. -/
theorem isNearest_mantissa {r : Ratio} (proper : 0 < r.den) (u : ℤ) :
    IsNearest (r.value / 2 ^ u) (r.scale 2 (-u)).round := by
  have rounded := Ratio.isNearest_round
    (Ratio.den_scale_pos two_pos proper (-u))
  rw [Ratio.value_scale two_pos, Nat.cast_ofNat, zpow_neg, ← div_eq_mul_inv]
    at rounded
  exact rounded

section Nearest

variable {r : Ratio} {m : ℕ} {u : ℤ} (positive : 0 < r.value)

include positive

theorem unitExponent_eq :
    unitExponent r = max (-1074) (Int.log 2 r.value - 52) := by
  rw [unitExponent, Ratio.log2_eq positive]

/-- A number is below `2 ^ 53` of its units. -/
theorem value_lt_unit : r.value < 2 ^ (unitExponent r + 53) := by
  have bits : Int.log 2 r.value < unitExponent r + 53 := by
    rw [unitExponent_eq positive]
    omega
  exact (Int.lt_zpow_iff_log_lt one_lt_two positive).mpr bits

/-- Unless the unit is the least one, a number is at least `2 ^ 52` of its
units. -/
theorem unit_le_value (normal : -1074 < unitExponent r) :
    2 ^ (unitExponent r + 52) ≤ r.value := by
  have bits : unitExponent r + 52 ≤ Int.log 2 r.value := by
    rw [unitExponent_eq positive] at normal ⊢
    omega
  exact (Int.zpow_le_iff_le_log one_lt_two positive).mpr bits

variable (unit : unitExponent r = u) (near : IsNearest (r.value / 2 ^ u) m)

include unit near

/-- **Rounding is a matter of the number alone.** -/
theorem nearestBits_eq : nearestBits r = min (pattern m u) infinityBits := by
  obtain ⟨num, den⟩ := Ratio.value_pos_iff.mp positive
  rw [nearestBits, if_neg num.ne', unit]
  simp only [(isNearest_mantissa den u).unique near, pattern]

theorem mantissa_le : m ≤ 2 * binadeSize := by
  refine near.le_of_le ?_
  have below := value_lt_unit positive
  rw [unit] at below
  rw [div_le_iff₀ (zpow_pos two_pos u), Nat.cast_mul, cast_binadeSize,
    Nat.cast_ofNat, mul_assoc, ← zpow_add₀ two_ne_zero, ← zpow_one_add₀
    two_ne_zero]
  exact below.le.trans_eq (congrArg _ (by omega))

theorem le_mantissa (normal : -1074 < u) : binadeSize ≤ m := by
  refine near.le_of_ge ?_
  have above := unit_le_value positive (unit ▸ normal)
  rw [unit] at above
  rw [le_div_iff₀ (zpow_pos two_pos u), cast_binadeSize, ← zpow_add₀
    two_ne_zero]
  exact (congrArg _ (by omega)).trans_le above

/-- Short of the last binade, the nearest float stands for the mantissa in
its units. -/
theorem exists_ofFloat_nearest (bounded : u < 971) :
    ∃ mantissa exponent,
      ofFloat (nearest r) = finite false mantissa exponent ∧
        (mantissa : ℚ) * 2 ^ exponent = m * 2 ^ u := by
  have least : -1074 ≤ u := by
    rw [← unit]
    exact le_max_left _ _
  have found {mantissa : ℕ} {exponent : ℤ}
      (canonical : Canonical mantissa exponent)
      (same : pattern m u = pattern mantissa exponent) :
      ofFloat (nearest r) = finite false mantissa exponent := by
    rw [nearest, nearestBits_eq positive unit near, same,
      Nat.min_eq_left canonical.pattern_lt.le]
    exact canonical.ofFloat_pattern
  rcases (mantissa_le positive unit near).lt_or_eq with small | full
  · refine ⟨m, u, found ⟨small, least, bounded.le, ?_⟩ rfl, rfl⟩
    rcases least.eq_or_lt with bottom | normal
    · exact .inl bottom.symm
    · exact .inr (le_mantissa positive unit near normal)
  · -- the mantissa is carried into the next binade
    have carried : pattern m u = pattern binadeSize (u + 1) := by
      simp only [pattern, full, binadeSize_eq]
      omega
    refine ⟨binadeSize, u + 1, found ⟨by decide, ?_, ?_, .inr le_rfl⟩ carried,
      ?_⟩
    · omega
    · omega
    · rw [full, zpow_add_one₀ two_ne_zero]
      push_cast
      ring

end Nearest

/-- Ratios of one number have one nearest float. -/
theorem nearest_congr {r s : Ratio} (proper : 0 < r.den) (proper' : 0 < s.den)
    (same : r.value = s.value) : nearest r = nearest s := by
  refine congrArg (fun bits => Float.ofBits (UInt64.ofNat bits)) ?_
  rcases r.value_nonneg.eq_or_lt with zero | positive
  · have num := (Ratio.value_eq_zero_iff proper).mp zero.symm
    have num' := (Ratio.value_eq_zero_iff proper').mp
      (same.symm.trans zero.symm)
    rw [nearestBits, nearestBits, if_pos num, if_pos num']
  · have unit : unitExponent s = unitExponent r := by
      rw [unitExponent_eq positive, unitExponent_eq (same ▸ positive), same]
    have near := isNearest_mantissa proper (unitExponent r)
    rw [nearestBits_eq positive rfl near,
      nearestBits_eq (same ▸ positive) unit (same ▸ near)]

/-! ## Floats are left alone -/

section Exact

variable {r : Ratio} {mantissa : ℕ} {exponent : ℤ} (positive : 0 < mantissa)
  (same : r.value = mantissa * 2 ^ exponent)

include positive same

theorem value_pos_of_eq : 0 < r.value := by
  rw [same]
  exact mul_pos (Nat.cast_pos.mpr positive) (zpow_pos two_pos exponent)

theorem Canonical.unitExponent_eq (canonical : Canonical mantissa exponent) :
    unitExponent r = exponent := by
  obtain ⟨small, least, -, full⟩ := canonical
  have unit : (0 : ℚ) < 2 ^ exponent := zpow_pos two_pos exponent
  have value := value_pos_of_eq positive same
  have below : Int.log 2 r.value < exponent + 53 := by
    refine (Int.lt_zpow_iff_log_lt one_lt_two value).mp ?_
    have bits : (mantissa : ℚ) < 2 ^ (53 : ℤ) := by
      rw [binadeSize_eq] at small
      norm_num
      exact_mod_cast small
    rw [same, Nat.cast_ofNat, add_comm, zpow_add₀ two_ne_zero]
    exact mul_lt_mul_of_pos_right bits unit
  rw [Binary.unitExponent_eq value]
  rcases full with rfl | normal
  · omega
  · have above : exponent + 52 ≤ Int.log 2 r.value := by
      refine (Int.zpow_le_iff_le_log one_lt_two value).mp ?_
      rw [same, Nat.cast_ofNat, add_comm, zpow_add₀ two_ne_zero,
        ← cast_binadeSize]
      exact mul_le_mul_of_nonneg_right (Nat.cast_le.mpr normal) unit.le
    omega

/-- **A number that is a float is the float nearest to itself.** -/
theorem Canonical.ofFloat_nearest (canonical : Canonical mantissa exponent) :
    ofFloat (nearest r) = finite false mantissa exponent := by
  have unit : (2 : ℚ) ^ exponent ≠ 0 := zpow_ne_zero exponent two_ne_zero
  have near : IsNearest (r.value / 2 ^ exponent) mantissa := by
    rw [same, mul_div_cancel_right₀ _ unit]
    exact .refl mantissa
  rw [nearest, nearestBits_eq (value_pos_of_eq positive same)
    (canonical.unitExponent_eq positive same) near,
    Nat.min_eq_left canonical.pattern_lt.le]
  exact canonical.ofFloat_pattern

end Exact

/-! ## Past the floats -/

section Shortcuts

variable {r : Ratio}

theorem nearestBits_of_large (large : 2 ^ (1024 : ℤ) ≤ r.value) :
    nearestBits r = infinityBits := by
  have positive : 0 < r.value := (zpow_pos two_pos _).trans_le large
  have bits : 1024 ≤ Int.log 2 r.value :=
    (Int.zpow_le_iff_le_log one_lt_two positive).mp large
  have unit := unitExponent_eq positive
  obtain ⟨-, den⟩ := Ratio.value_pos_iff.mp positive
  have near := isNearest_mantissa den (unitExponent r)
  have mantissa := le_mantissa positive rfl near (by omega)
  rw [nearestBits_eq positive rfl near]
  refine Nat.min_eq_right ?_
  simp only [pattern, infinityBits, binadeSize_eq] at mantissa ⊢
  omega

theorem nearestBits_of_tiny (positive : 0 < r.value)
    (tiny : r.value < 2 ^ (-1075 : ℤ)) : nearestBits r = 0 := by
  have bits : Int.log 2 r.value < -1075 :=
    (Int.lt_zpow_iff_log_lt one_lt_two positive).mp tiny
  have unit : unitExponent r = -1074 := by
    rw [unitExponent_eq positive]
    omega
  have least : (0 : ℚ) < 2 ^ (-1074 : ℤ) := zpow_pos two_pos _
  have half : r.value / 2 ^ (-1074 : ℤ) < 1 / 2 := by
    rw [div_lt_iff₀ least, one_div, ← zpow_neg_one, ← zpow_add₀ two_ne_zero]
    exact tiny
  have near : IsNearest (r.value / 2 ^ (-1074 : ℤ)) 0 := by
    refine .of_lt ?_
    rw [Nat.cast_zero, sub_zero, abs_of_pos (div_pos positive least)]
    exact half
  rw [nearestBits_eq positive unit near]
  rfl

end Shortcuts

end Binary

namespace Decimal

theorem den_toRatio_pos (d : Decimal) : 0 < d.toRatio.den :=
  Ratio.den_scale_pos (by decide) one_pos d.scale

@[simp] theorem value_toRatio (d : Decimal) :
    d.toRatio.value = d.digits * 10 ^ d.scale := by
  rw [toRatio, Ratio.value_scale (by decide), Ratio.value_ofNat,
    Nat.cast_ofNat]

/-- Ten is more than three doublings. -/
theorem two_zpow_le {scale : ℤ} (up : 0 ≤ scale) :
    (2 : ℚ) ^ (3 * scale) ≤ 10 ^ scale := by
  rw [zpow_mul]
  exact zpow_left_monoOn₀ up (by norm_num) (by norm_num) (by norm_num)

theorem le_two_zpow {scale : ℤ} (down : scale ≤ 0) :
    (10 : ℚ) ^ scale ≤ 2 ^ (3 * scale) := by
  have up := two_zpow_le (neg_nonneg.mpr down)
  rw [mul_neg, zpow_neg, zpow_neg] at up
  exact (inv_le_inv₀ (zpow_pos two_pos _) (zpow_pos (by norm_num) _)).mp up

/-- **A decimal is read as the float nearest to it.** -/
theorem toFloat_eq_nearest (d : Decimal) :
    d.toFloat = Binary.nearest d.toRatio := by
  rw [toFloat]
  split
  · rename_i zero
    refine Binary.nearest_congr one_pos d.den_toRatio_pos ?_
    rw [value_toRatio, zero, Ratio.value_ofNat, Nat.cast_zero, zero_mul]
  · rename_i nonzero
    have digits : 0 < d.digits := Nat.pos_of_ne_zero nonzero
    have power : (0 : ℚ) < 10 ^ d.scale := zpow_pos (by norm_num) _
    obtain ⟨least, most⟩ := Ratio.log2_bounds digits
    split
    · rename_i large
      obtain ⟨up, large⟩ := large
      have past : 2 ^ (1024 : ℤ) ≤ d.toRatio.value :=
        calc (2 : ℚ) ^ (1024 : ℤ)
            ≤ 2 ^ ((d.digits.log2 : ℤ) + 3 * d.scale) :=
              zpow_le_zpow_right₀ one_le_two large
          _ = 2 ^ d.digits.log2 * 2 ^ (3 * d.scale) := by
              rw [zpow_add₀ two_ne_zero, zpow_natCast]
          _ ≤ d.digits * 10 ^ d.scale := by
              gcongr
              exact two_zpow_le up
          _ = d.toRatio.value := d.value_toRatio.symm
      rw [Binary.nearest, Binary.nearestBits_of_large past]
      rfl
    · split
      · rename_i tiny
        obtain ⟨down, tiny⟩ := tiny
        have below : d.toRatio.value < 2 ^ (-1075 : ℤ) :=
          calc d.toRatio.value = d.digits * 10 ^ d.scale := d.value_toRatio
            _ < 2 ^ (d.digits.log2 + 1) * 10 ^ d.scale := by gcongr
            _ ≤ 2 ^ (d.digits.log2 + 1) * 2 ^ (3 * d.scale) := by
                gcongr
                exact le_two_zpow down.le
            _ = 2 ^ ((d.digits.log2 : ℤ) + 1 + 3 * d.scale) := by
                rw [zpow_add₀ two_ne_zero]
                norm_cast
            _ ≤ 2 ^ (-1075 : ℤ) :=
                zpow_le_zpow_right₀ one_le_two (by omega)
        have positive : 0 < d.toRatio.value := by
          rw [value_toRatio]
          exact mul_pos (Nat.cast_pos.mpr digits) power
        rw [Binary.nearest, Binary.nearestBits_of_tiny positive below]
        rfl
      · rfl

end Decimal

end Reckoner
