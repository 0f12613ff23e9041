/-
# Integers survive the way through a float

A word is shown, stored and passed on as a float, and looked at as a word
again.  Nothing is lost on the way: an integer of at most 53 bits is a float,
and its integer part is the integer.

An integer with at most 53 bits is a mantissa moved down, so it is the float
nearest to itself; a negative one is the negation of a float.
-/
import Reckoner.Proofs.NearestFloats
import Reckoner.Word

namespace Reckoner

namespace Binary

/-! ## Integers below `2 ^ 53` -/

section Integers

variable {n : Nat} (pos : 0 < n)

/-- The mantissa of 53 bits for an integer that has no more. -/
def fullMantissa (n : Nat) : Nat := n * 2 ^ (52 - n.log2)

variable (small : n < 2 ^ 53)

include pos small

theorem log2_le : n.log2 ≤ 52 := by
  have := (Nat.log2_lt pos.ne').mpr small
  omega

theorem fullMantissa_bounds :
    binadeSize ≤ fullMantissa n ∧ fullMantissa n < 2 * binadeSize := by
  have below : 2 ^ n.log2 ≤ n := Nat.log2_self_le pos.ne'
  have above : n < 2 ^ (n.log2 + 1) := Nat.lt_log2_self
  have split : 2 ^ n.log2 * 2 ^ (52 - n.log2) = binadeSize := by
    rw [← Nat.pow_add, Nat.add_sub_cancel' (log2_le pos small)]
    rfl
  constructor
  · rw [← split]
    exact Nat.mul_le_mul_right _ below
  · rw [← split, ← Nat.mul_assoc, ← Nat.pow_succ']
    exact Nat.mul_lt_mul_of_pos_right above (Nat.two_pow_pos _)

theorem canonical_fullMantissa :
    Canonical (fullMantissa n) ((n.log2 : Int) - 52) := by
  have bits := log2_le pos small
  obtain ⟨least, most⟩ := fullMantissa_bounds pos small
  exact ⟨most, by omega, by omega, .inr least⟩

/-- The full mantissa is the integer moved up, and the exponent moves it
down again. -/
theorem fullMantissa_mul_zpow :
    (fullMantissa n : ℚ) * 2 ^ ((n.log2 : Int) - 52) = n := by
  have bits := log2_le pos small
  have moved : ((52 - n.log2 : ℕ) : Int) + ((n.log2 : Int) - 52) = 0 := by
    omega
  rw [fullMantissa, Nat.cast_mul, Nat.cast_pow, Nat.cast_ofNat, mul_assoc,
    ← zpow_natCast, ← zpow_add₀ two_ne_zero, moved, zpow_zero, mul_one]

/-- A small integer is a float: with a full mantissa, exactly. -/
theorem ofFloat_ofNat :
    ofFloat (ofNat n) =
      finite false (fullMantissa n) ((n.log2 : Int) - 52) := by
  obtain ⟨least, -⟩ := fullMantissa_bounds pos small
  refine (canonical_fullMantissa pos small).ofFloat_nearest
    (Nat.lt_of_lt_of_le (by decide) least) ?_
  rw [Ratio.value_ofNat, fullMantissa_mul_zpow pos small]

end Integers

end Binary

namespace Word

open Binary

/-! ## The range of 64 bits -/

section Clamp

variable {i : ℤ}

theorem clamp_of_within (least : -2 ^ 63 ≤ i) (most : i < 2 ^ 63) :
    clamp i = i := by
  have limit : limit = 2 ^ 63 := rfl
  simp only [clamp, limit]
  omega

theorem clamp_of_le (below : i ≤ -2 ^ 63) : clamp i = -2 ^ 63 := by
  have limit : limit = 2 ^ 63 := rfl
  simp only [clamp, limit]
  omega

theorem clamp_of_ge (above : 2 ^ 63 ≤ i) : clamp i = 2 ^ 63 - 1 := by
  have limit : limit = 2 ^ 63 := rfl
  simp only [clamp, limit]
  omega

end Clamp

/-- A word is the integer that it was made of, up to multiples of
`2 ^ 32`. -/
theorem toInt_ofInt_modEq (i : ℤ) :
    (Int32.ofInt i).toInt ≡ i [ZMOD 2 ^ 32] := by
  rw [Int32.toInt_ofInt]
  exact Int.bmod_emod

/-! ## Words as floats -/

theorem floor_fullMantissa {n : Nat} (pos : 0 < n) (small : n < 2 ^ 53) :
    (magnitude (fullMantissa n) ((n.log2 : Int) - 52)).floor = n := by
  rw [Ratio.floor_eq, value_magnitude, fullMantissa_mul_zpow pos small,
    Nat.floor_natCast]

/-- The integer part of the float nearest to a small integer is that
integer. -/
theorem integerPart_ofInt {i : Int} (small : i.natAbs < 2 ^ 53) :
    integerPart (ofFloat (ofInt i)) = i := by
  have within : clamp i = i := clamp_of_within (by omega) (by omega)
  rcases Int.lt_trichotomy i 0 with neg | rfl | pos
  · have size : 0 < i.natAbs := by omega
    have decoded := ofFloat_neg (ofFloat_ofNat size small)
    rw [ofInt, if_pos neg, decoded]
    simp only [Bool.not_false, integerPart, floor_fullMantissa size small]
    rw [show -(i.natAbs : Int) = i by omega, within]
  · decide +kernel
  · have size : 0 < i.natAbs := by omega
    rw [ofInt, if_neg (by omega), ofFloat_ofNat size small]
    simp only [integerPart, floor_fullMantissa size small]
    rw [show (i.natAbs : Int) = i by omega, within]

/-- Small integers with one float are the same. -/
theorem ofInt_inj {i j : Int} (small : i.natAbs < 2 ^ 53)
    (small' : j.natAbs < 2 ^ 53) (same : ofInt i = ofInt j) : i = j := by
  rw [← integerPart_ofInt small, same, integerPart_ofInt small']

/-- **A word survives the way through a float.** -/
theorem truncate_value (w : Word) : truncate w.value = w := by
  have least := w.le_toInt
  have most := w.toInt_lt
  rw [truncate, value, integerPart_ofInt (by omega), Int32.ofInt_toInt]

end Word

end Reckoner
