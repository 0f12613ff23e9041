/-
# Ratios as rational numbers

A ratio stands for a rational number, and what is computed from a ratio is a
function of that number alone: how the fraction is written makes no
difference.  Scaling multiplies by a power, `floor` and `log2` are the floor
and the logarithm, and `round` is characterised by where it lies: no other
natural number is nearer, and of two equally near ones it is the even one.
-/
import Mathlib
import Reckoner.Number.Binary

namespace Reckoner

/-! ## The nearest natural number -/

/-- `IsNearest q n`: no natural number is nearer to `q` than `n`, and if
there is one equally near, `n` is the even one of the two. -/
structure IsNearest (q : ℚ) (n : ℕ) : Prop where
  close : |q - n| ≤ 1 / 2
  even : |q - n| = 1 / 2 → Even n

namespace IsNearest

variable {q : ℚ} {m n k : ℕ}

theorem refl (n : ℕ) : IsNearest n n where
  close := by norm_num
  even tie := by norm_num at tie

theorem of_lt (closer : |q - n| < 1 / 2) : IsNearest q n where
  close := closer.le
  even tie := absurd tie closer.ne

theorem le_of_le (near : IsNearest q n) (below : q ≤ k) : n ≤ k := by
  have close := (abs_le.mp near.close).1
  have less : (n : ℚ) < (k + 1 : ℕ) := by
    push_cast
    linarith
  exact Nat.lt_succ_iff.mp (Nat.cast_lt.mp less)

theorem le_of_ge (near : IsNearest q n) (above : k ≤ q) : k ≤ n := by
  have close := (abs_le.mp near.close).2
  have less : (k : ℚ) < (n + 1 : ℕ) := by
    push_cast
    linarith
  exact Nat.lt_succ_iff.mp (Nat.cast_lt.mp less)

/-- Two different numbers could only be the ends of a tie. -/
theorem not_lt (near : IsNearest q m) (near' : IsNearest q n) : ¬m < n := by
  intro less
  have low := (abs_le.mp near.close).2
  have high := (abs_le.mp near'.close).1
  have apart : (m : ℚ) + 1 ≤ n := by exact_mod_cast less
  have tie : q - m = 1 / 2 := by linarith
  have tie' : q - n = -(1 / 2) := by linarith
  have next : n = m + 1 := by
    have : (n : ℚ) = (m + 1 : ℕ) := by
      push_cast
      linarith
    exact Nat.cast_injective this
  have even : Even m := near.even (by rw [tie]; norm_num)
  have even' : Even n := near'.even (by rw [tie']; norm_num)
  rw [next] at even'
  exact Nat.not_even_iff_odd.mpr even.add_one even'

theorem unique (near : IsNearest q m) (near' : IsNearest q n) : m = n :=
  le_antisymm (Nat.not_lt.mp (near'.not_lt near))
    (Nat.not_lt.mp (near.not_lt near'))

end IsNearest

namespace Ratio

/-- The rational number that a ratio stands for. -/
def value (r : Ratio) : ℚ := r.num / r.den

@[simp] theorem value_ofNat (n : ℕ) : (ofNat n).value = n := by
  simp [value, ofNat]

theorem value_nonneg (r : Ratio) : 0 ≤ r.value := by
  unfold value
  positivity

theorem value_eq_zero_iff {r : Ratio} (proper : 0 < r.den) :
    r.value = 0 ↔ r.num = 0 := by
  have den : (r.den : ℚ) ≠ 0 := Nat.cast_ne_zero.mpr proper.ne'
  rw [value, div_eq_zero_iff, or_iff_left den, Nat.cast_eq_zero]

theorem value_pos_iff {r : Ratio} : 0 < r.value ↔ 0 < r.num ∧ 0 < r.den := by
  constructor
  · intro positive
    constructor
    · refine Nat.pos_of_ne_zero fun zero => ?_
      simp [value, zero] at positive
    · refine Nat.pos_of_ne_zero fun zero => ?_
      simp [value, zero] at positive
  · rintro ⟨num, den⟩
    exact div_pos (Nat.cast_pos.mpr num) (Nat.cast_pos.mpr den)

/-! ## Scaling -/

section Scale

variable {r : Ratio} {base : ℕ} (positive : 0 < base)

include positive

theorem den_scale_pos (proper : 0 < r.den) (power : ℤ) :
    0 < (r.scale base power).den :=
  Nat.mul_pos proper (Nat.pow_pos positive)

theorem value_scale (r : Ratio) (power : ℤ) :
    (r.scale base power).value = r.value * (base : ℚ) ^ power := by
  have nonzero : (base : ℚ) ≠ 0 := Nat.cast_ne_zero.mpr positive.ne'
  obtain ⟨n, rfl | rfl⟩ := power.eq_nat_or_neg
  · have none : (-(n : ℤ)).toNat = 0 := by omega
    simp [value, scale, none, mul_div_right_comm]
  · have none : (-(n : ℤ)).toNat = 0 := by omega
    simp [value, scale, none, ← div_eq_mul_inv, div_div]

end Scale

/-! ## Rounding -/

theorem floor_eq (r : Ratio) : r.floor = ⌊r.value⌋₊ :=
  (Nat.floor_div_eq_div r.num r.den).symm

theorem value_sub_floor {r : Ratio} (proper : 0 < r.den) :
    r.value - r.floor = r.remainder / r.den := by
  have den : (r.den : ℚ) ≠ 0 := Nat.cast_ne_zero.mpr proper.ne'
  have parts : (r.num : ℚ) = r.den * r.floor + r.remainder := by
    exact_mod_cast r.den_mul_floor_add_remainder.symm
  rw [value, parts]
  field_simp
  ring

/-- **Rounding finds the nearest natural number.** -/
theorem isNearest_round {r : Ratio} (proper : 0 < r.den) :
    IsNearest r.value r.round := by
  have den : (0 : ℚ) < r.den := Nat.cast_pos.mpr proper
  have rest := value_sub_floor proper
  have least : (0 : ℚ) ≤ r.remainder / r.den := by positivity
  have most : (r.remainder : ℚ) / r.den < 1 := by
    rw [div_lt_one den]
    exact_mod_cast r.remainder_lt proper
  unfold round
  split
  · rename_i low
    have half : (r.remainder : ℚ) / r.den < 1 / 2 := by
      rw [div_lt_div_iff₀ den two_pos]
      exact_mod_cast (by omega : r.remainder * 2 < 1 * r.den)
    refine .of_lt ?_
    rw [rest, abs_of_nonneg least]
    exact half
  · split
    · rename_i high
      have half : 1 / 2 < (r.remainder : ℚ) / r.den := by
        rw [div_lt_div_iff₀ two_pos den]
        exact_mod_cast (by omega : 1 * r.den < r.remainder * 2)
      refine .of_lt (abs_lt.mpr ⟨?_, ?_⟩)
      · push_cast
        linarith
      · push_cast
        linarith
    · have half : (r.remainder : ℚ) / r.den = 1 / 2 := by
        rw [div_eq_div_iff den.ne' two_ne_zero]
        exact_mod_cast (by omega : r.remainder * 2 = 1 * r.den)
      rw [half] at rest
      rcases Nat.even_or_odd r.floor with even | odd
      · rw [Nat.even_iff.mp even, Nat.add_zero]
        refine ⟨?_, fun _ => even⟩
        rw [rest]
        norm_num
      · rw [Nat.odd_iff.mp odd]
        refine ⟨?_, fun _ => odd.add_one⟩
        rw [Nat.cast_add, Nat.cast_one, ← sub_sub, rest]
        norm_num

/-! ## Logarithms -/

/-- The number of bits brackets a natural number. -/
theorem log2_bounds {n : ℕ} (positive : 0 < n) :
    (2 : ℚ) ^ n.log2 ≤ n ∧ (n : ℚ) < 2 ^ (n.log2 + 1) := by
  constructor
  · exact_mod_cast Nat.log2_self_le positive.ne'
  · exact_mod_cast (Nat.lt_log2_self : n < 2 ^ (n.log2 + 1))

/-- The difference of the bit lengths brackets the ratio. -/
theorem guess_bounds {r : Ratio} (positive : 0 < r.value) :
    (2 : ℚ) ^ ((r.num.log2 : ℤ) - r.den.log2 - 1) ≤ r.value ∧
      r.value < 2 ^ ((r.num.log2 : ℤ) - r.den.log2 + 1) := by
  obtain ⟨num, den⟩ := value_pos_iff.mp positive
  obtain ⟨num_least, num_most⟩ := log2_bounds num
  obtain ⟨den_least, den_most⟩ := log2_bounds den
  have den_pos : (0 : ℚ) < r.den := Nat.cast_pos.mpr den
  have two : (2 : ℚ) ≠ 0 := two_ne_zero
  constructor
  · have split : (2 : ℚ) ^ ((r.num.log2 : ℤ) - r.den.log2 - 1) =
        2 ^ r.num.log2 / 2 ^ (r.den.log2 + 1) := by
      rw [sub_sub, zpow_sub₀ two]
      norm_cast
    rw [split, value]
    gcongr
  · have split : (2 : ℚ) ^ ((r.num.log2 : ℤ) - r.den.log2 + 1) =
        2 ^ (r.num.log2 + 1) / 2 ^ r.den.log2 := by
      rw [sub_add_eq_add_sub, zpow_sub₀ two]
      norm_cast
    rw [split, value]
    gcongr

/-- `Int.log` is known from the powers around a number. -/
theorem log_eq {q : ℚ} {e : ℤ} (least : (2 : ℚ) ^ e ≤ q)
    (most : q < 2 ^ (e + 1)) : Int.log 2 q = e := by
  have positive : 0 < q := lt_of_lt_of_le (zpow_pos two_pos e) least
  have low := (Int.zpow_le_iff_le_log one_lt_two positive).mp least
  have high := (Int.lt_zpow_iff_log_lt one_lt_two positive).mp most
  omega

/-- **The bit lengths settle the logarithm.** -/
theorem log2_eq {r : Ratio} (positive : 0 < r.value) :
    r.log2 = Int.log 2 r.value := by
  obtain ⟨-, den⟩ := value_pos_iff.mp positive
  obtain ⟨least, most⟩ := guess_bounds positive
  unfold log2
  generalize (r.num.log2 : ℤ) - r.den.log2 = guess at least most
  have scaled : (r.scale 2 (-guess)).den ≤ (r.scale 2 (-guess)).num ↔
      (2 : ℚ) ^ guess ≤ r.value := by
    have den' : (0 : ℚ) < (r.scale 2 (-guess)).den :=
      Nat.cast_pos.mpr (den_scale_pos two_pos den _)
    have power : (0 : ℚ) < 2 ^ guess := zpow_pos two_pos guess
    have moved := value_scale two_pos r (-guess)
    rw [zpow_neg, Nat.cast_ofNat, ← div_eq_mul_inv] at moved
    rw [← Nat.cast_le (α := ℚ), ← one_le_div den', ← value, moved,
      one_le_div power]
  simp only [scaled]
  split
  · rename_i reached
    exact (log_eq reached most).symm
  · rename_i missed
    have below := not_le.mp missed
    rw [← sub_add_cancel guess 1] at below
    exact (log_eq least below).symm

end Ratio

end Reckoner
