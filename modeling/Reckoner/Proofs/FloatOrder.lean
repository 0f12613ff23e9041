/-
# The order of floats

A finite float stands for a number, its mantissa times a power of two with a
sign, and finite floats compare as these numbers do.  The comparison itself
looks at signs, exponents and mantissas, in this order.  That this is right
rests on canonical mantissas: one below a greater exponent is full, so a
smaller exponent cannot be made up for.

Besides the finite floats there are two infinities and NaN.
-/
import Reckoner.Proofs.FloatClasses

namespace Reckoner

namespace Binary

open Float.Model (UnpackedFloat)
open Float.Model.UnpackedFloat

/-! ## The number that a float stands for -/

/-- The number that a finite float stands for; any other counts as zero. -/
def exact (x : Float) : ℚ :=
  match unpacked x with
  | .finite sign m e _ => sign.apply m * 2 ^ e
  | _ => 0

theorem exact_of_zero {x : Float} {sign : Sign}
    (parts : unpacked x = .zero sign) : exact x = 0 := by
  rw [exact, parts]

theorem exact_of_positive {x : Float} {m : ℕ} {e : ℤ} {h : 0 < m}
    (parts : unpacked x = .finite .positive m e h) : exact x = m * 2 ^ e := by
  rw [exact, parts]
  rfl

theorem exact_of_negative {x : Float} {m : ℕ} {e : ℤ} {h : 0 < m}
    (parts : unpacked x = .finite .negative m e h) :
    exact x = -(m * 2 ^ e) := by
  rw [exact, parts]
  show ((-(m : ℤ) : ℤ) : ℚ) * 2 ^ e = _
  rw [Int.cast_neg, neg_mul, Int.cast_natCast]

theorem canonical_of_unpacked {x : Float} {sign : Sign} {m : ℕ} {e : ℤ}
    {h : 0 < m} (parts : unpacked x = .finite sign m e h) :
    Canonical m e := by
  have decoded : ofFloat x = .finite (sign == .negative) m e := by
    rw [ofFloat_eq_ofUnpacked, parts, ofUnpacked]
  exact Canonical.of_ofFloat decoded

/-! ## Comparing -/

/-- The greater exponent decides, since a mantissa below it is not full. -/
theorem Canonical.mul_zpow_lt {m m' : ℕ} {e e' : ℤ} (canonical : Canonical m e)
    (canonical' : Canonical m' e') (less : e < e') :
    (m : ℚ) * 2 ^ e < m' * 2 ^ e' := by
  have full : binadeSize ≤ m' := by
    have := canonical.least
    exact canonical'.full.resolve_left (by omega)
  have small : (m : ℚ) < m' * 2 := by
    have := canonical.small
    exact_mod_cast (by omega : m < m' * 2)
  calc (m : ℚ) * 2 ^ e
      < m' * 2 * 2 ^ e := by gcongr
    _ = m' * 2 ^ (e + 1) := by
        rw [mul_assoc, zpow_add_one₀ two_ne_zero, mul_comm (2 : ℚ)]
    _ ≤ m' * 2 ^ e' := by
        gcongr
        · exact one_le_two
        · exact less

/-- Exponents are compared before mantissas. -/
theorem Canonical.compare_mul_zpow {m m' : ℕ} {e e' : ℤ}
    (canonical : Canonical m e) (canonical' : Canonical m' e') :
    compare ((m : ℚ) * 2 ^ e) (m' * 2 ^ e') =
      (compare e e').then (compare m m') := by
  rcases lt_trichotomy e e' with less | rfl | greater
  · rw [compare_lt_iff_lt.mpr less,
      compare_lt_iff_lt.mpr (canonical.mul_zpow_lt canonical' less)]
    rfl
  · have power : (0 : ℚ) < 2 ^ e := zpow_pos two_pos e
    rw [compare_eq_iff_eq.mpr rfl, Ordering.eq_then]
    rcases lt_trichotomy m m' with less | rfl | greater
    · rw [compare_lt_iff_lt.mpr less, compare_lt_iff_lt]
      gcongr
    · rw [compare_eq_iff_eq.mpr rfl, compare_eq_iff_eq.mpr rfl]
    · rw [compare_gt_iff_gt.mpr greater, compare_gt_iff_gt]
      gcongr
  · rw [compare_gt_iff_gt.mpr greater,
      compare_gt_iff_gt.mpr (canonical'.mul_zpow_lt canonical greater)]
    rfl

/-- How a finite float unpacks, and the number that it stands for. -/
inductive Exact (x : Float) : Prop
  | zero {sign : Sign} (parts : unpacked x = .zero sign) (value : exact x = 0)
  | positive {m : ℕ} {e : ℤ} {h : 0 < m}
      (parts : unpacked x = .finite .positive m e h)
      (canonical : Canonical m e) (value : exact x = m * 2 ^ e)
      (order : 0 < exact x)
  | negative {m : ℕ} {e : ℤ} {h : 0 < m}
      (parts : unpacked x = .finite .negative m e h)
      (canonical : Canonical m e) (value : exact x = -(m * 2 ^ e))
      (order : exact x < 0)

theorem Exact.of_isFinite {x : Float} (number : x.isFinite = true) :
    Exact x := by
  have unpacks : x.isFinite = (unpacked x).isFinite := rfl
  rw [unpacks] at number
  cases parts : unpacked x with
  | notANumber =>
      rw [parts] at number
      cases number
  | infinity sign =>
      rw [parts] at number
      cases number
  | zero sign => exact .zero parts (exact_of_zero parts)
  | finite sign m e h =>
      have magnitude : (0 : ℚ) < m * 2 ^ e :=
        mul_pos (Nat.cast_pos.mpr h) (zpow_pos two_pos e)
      have canonical := canonical_of_unpacked parts
      cases sign with
      | positive =>
          have value := exact_of_positive parts
          exact .positive parts canonical value (value ▸ magnitude)
      | negative =>
          have value := exact_of_negative parts
          exact .negative parts canonical value
            (value ▸ neg_neg_of_pos magnitude)

theorem compare_neg_neg (a b : ℚ) : compare (-a) (-b) = (compare a b).swap := by
  have turned : StrictAnti fun q : ℚ => -q := fun _ _ less => neg_lt_neg less
  rw [← cmp_eq_compare, turned.cmp_map_eq, cmp_eq_compare,
    Std.OrientedOrd.eq_swap]

/-- **Finite floats compare as the numbers that they stand for.** -/
theorem compare_unpacked {x y : Float} (number : x.isFinite = true)
    (number' : y.isFinite = true) :
    (unpacked x).compare (unpacked y) = some (compare (exact x) (exact y)) := by
  -- unless the signs are the same, they decide on both sides
  cases Exact.of_isFinite number with
  | zero parts value =>
      rw [parts, value]
      cases Exact.of_isFinite number' with
      | zero parts' value' =>
          rw [parts', value', compare_eq_iff_eq.mpr rfl]
          rfl
      | positive parts' _ _ order' =>
          rw [parts', compare_lt_iff_lt.mpr order']
          rfl
      | negative parts' _ _ order' =>
          rw [parts', compare_gt_iff_gt.mpr order']
          rfl
  | positive parts canonical value order =>
      rw [parts]
      cases Exact.of_isFinite number' with
      | zero parts' value' =>
          rw [parts', value', compare_gt_iff_gt.mpr order]
          rfl
      | positive parts' canonical' value' _ =>
          rw [parts', value, value', canonical.compare_mul_zpow canonical']
          rfl
      | negative parts' _ _ order' =>
          rw [parts', compare_gt_iff_gt.mpr (order'.trans order)]
          rfl
  | negative parts canonical value order =>
      rw [parts]
      cases Exact.of_isFinite number' with
      | zero parts' value' =>
          rw [parts', value', compare_lt_iff_lt.mpr order]
          rfl
      | positive parts' _ _ order' =>
          rw [parts', compare_lt_iff_lt.mpr (order.trans order')]
          rfl
      | negative parts' canonical' value' _ =>
          rw [parts', value, value', compare_neg_neg,
            canonical.compare_mul_zpow canonical']
          rfl

theorem le_iff_exact {x y : Float} (number : x.isFinite = true)
    (number' : y.isFinite = true) : x ≤ y ↔ exact x ≤ exact y := by
  have compared : x ≤ y ↔
      ((unpacked x).compare (unpacked y)).any (·.isLE) = true := by
    show decide _ = true ↔ _
    rw [decide_eq_true_iff]
    rfl
  rw [compared, compare_unpacked number number', Option.any_some,
    ← Ordering.ne_gt_iff_isLE]
  exact compare_le_iff_le

theorem lt_iff_exact {x y : Float} (number : x.isFinite = true)
    (number' : y.isFinite = true) : x < y ↔ exact x < exact y := by
  have compared : x < y ↔
      ((unpacked x).compare (unpacked y) == some .lt) = true := by
    show decide _ = true ↔ _
    rw [decide_eq_true_iff]
    rfl
  rw [compared, compare_unpacked number number', beq_iff_eq, Option.some_inj,
    compare_lt_iff_lt]

/-- Three floats are not finite. -/
theorem isFinite_or_eq (x : Float) :
    x.isFinite = true ∨ x = infinity ∨ x = -infinity ∨ x = Float.nan := by
  have unpacks : x.isFinite = (unpacked x).isFinite := rfl
  rw [unpacks]
  cases parts : unpacked x with
  | notANumber =>
      rw [eq_packed parts]
      exact .inr (.inr (.inr (by decide +kernel)))
  | infinity sign =>
      rw [eq_packed parts]
      cases sign with
      | positive => exact .inr (.inl (by decide +kernel))
      | negative => exact .inr (.inr (.inl (by decide +kernel)))
  | zero sign => exact .inl rfl
  | finite sign m e h => exact .inl rfl

end Binary

end Reckoner
