/-
# Zeros, infinities and NaN

The arithmetic of floats unpacks its operands first: into NaN, an infinity or
a zero with a sign, or a positive mantissa with sign and exponent.  Which of
these a float is decides what some operations do with it, whatever else it
holds.  Nothing is lost by unpacking, so a float is known from its parts; in
particular there are two zeros and no more.

A float that is no positive mantissa is *settled*: it does not change when it
is multiplied by a positive finite factor, its sign included.
-/
import Reckoner.Word
import Reckoner.Proofs.ExactIntegers

namespace Reckoner

namespace Binary

open Float.Model (Format UnpackedFloat)
open Float.Model.UnpackedFloat

/-- The float with the given parts. -/
def packed (parts : UnpackedFloat) : Float := .ofModel (.pack parts)

/-- Unpacking loses nothing, since there is one pattern for NaN only. -/
theorem packed_unpacked (x : Float) : packed (unpacked x) = x := by
  obtain ⟨⟨bits, valid⟩⟩ := x
  have back := @pack_unpack Format.binary64 bits.toBitVec
  have same : pack Format.binary64
      (Float.Model.UnpackedFloat.unpack Format.binary64 bits.toBitVec) =
      bits.toBitVec := by
    by_cases nan : @isNaNBits Format.binary64 bits.toBitVec = true
    · obtain ⟨full, fraction⟩ := of_decide_eq_true nan
      rw [back, if_pos nan]
      exact (valid.eq_packedNaN full fraction).symm
    · rw [back, if_neg nan]
  simp only [packed, unpacked, Float.Model.unpack, Float.Model.pack, same]

theorem mul_eq (x y : Float) :
    x * y = packed (mul Format.binary64 (unpacked x) (unpacked y)) := rfl

theorem eq_packed {x : Float} {parts : UnpackedFloat}
    (parted : unpacked x = parts) : x = packed parts := by
  rw [← parted, packed_unpacked]

/-! ## Zeros -/

/-- What equals zero is a zero of either sign. -/
theorem unpacked_of_beq_zero {x : Float} (zero : (x == 0) = true) :
    ∃ sign, unpacked x = .zero sign := by
  have compared : ((unpacked x).compare (.zero .positive) == some .eq) =
      true := zero
  cases parts : unpacked x with
  | zero sign => exact ⟨sign, rfl⟩
  | notANumber =>
      rw [parts] at compared
      cases compared
  | infinity sign =>
      rw [parts] at compared
      cases sign <;> cases compared
  | finite sign mantissa exponent positive =>
      rw [parts] at compared
      cases sign <;> cases compared

/-- **There are two zeros.** -/
theorem beq_zero_iff {x : Float} : (x == 0) = true ↔ x = 0 ∨ x = -0 := by
  constructor
  · intro zero
    obtain ⟨sign, parts⟩ := unpacked_of_beq_zero zero
    have x_eq := eq_packed parts
    cases sign with
    | positive => exact .inl x_eq
    | negative => exact .inr x_eq
  · rintro (rfl | rfl)
    · rfl
    · rfl

/-! ## Positive mantissas -/

/-- A float that stands for a positive number unpacks to a positive
mantissa. -/
theorem unpacked_of_positive {x : Float} {mantissa : Nat} {exponent : Int}
    (number : ofFloat x = finite false mantissa exponent)
    (positive : 0 < mantissa) :
    ∃ m e h, unpacked x = .finite .positive m e h := by
  rw [ofFloat_eq_ofUnpacked] at number
  cases parts : unpacked x with
  | notANumber =>
      rw [parts] at number
      cases number
  | infinity sign =>
      rw [parts] at number
      cases number
  | zero sign =>
      rw [parts] at number
      obtain ⟨-, rfl, -⟩ := finite.inj number
      cases positive
  | finite sign m e h =>
      rw [parts] at number
      obtain ⟨plus, -, -⟩ := finite.inj number
      cases sign with
      | positive => exact ⟨m, e, h, rfl⟩
      | negative => cases plus

/-- Unless it is settled, a float has a positive mantissa. -/
theorem unpacked_ne_finite {x : Float}
    (settled : Factorial.isSettled x = true) (sign : Sign) (m : Nat)
    (e : Int) (positive : 0 < m) : unpacked x ≠ .finite sign m e positive := by
  intro parts
  rcases Bool.or_eq_true_iff.mp settled with zero | infinite
  · obtain ⟨_, parts'⟩ := unpacked_of_beq_zero zero
    rw [parts] at parts'
    cases parts'
  · have finite : x.isFinite = (unpacked x).isFinite := rfl
    rw [finite, parts] at infinite
    cases infinite

end Binary

/-- **A settled product does not change any more.** -/
theorem Factorial.mul_of_isSettled {x y : Float} (settled : isSettled x = true)
    {m : Nat} {e : Int} {positive : 0 < m}
    (factor : Binary.unpacked y = .finite .positive m e positive) :
    x * y = x := by
  have keeps (sign : Float.Model.UnpackedFloat.Sign) :
      sign * .positive = sign := by
    cases sign <;> rfl
  rw [Binary.mul_eq, factor]
  cases parts : Binary.unpacked x with
  | notANumber => exact (Binary.eq_packed parts).symm
  | infinity sign =>
      refine Eq.trans ?_ (Binary.eq_packed parts).symm
      show Binary.packed (.infinity (sign * .positive)) = _
      rw [keeps]
  | zero sign =>
      refine Eq.trans ?_ (Binary.eq_packed parts).symm
      show Binary.packed (.zero (sign * .positive)) = _
      rw [keeps]
  | finite sign m e positive =>
      exact absurd parts (Binary.unpacked_ne_finite settled sign m e positive)

end Reckoner
