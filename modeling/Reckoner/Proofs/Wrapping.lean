/-
# Cutting to a word

Bitwise operators, remainders, factorials and the printed bases see nothing of
a value but its word.  This module says what that is for every float.

If the integer part of a number has 64 bits, its word is the one integer of 32
bits with the same residue: the part wraps, whatever its sign, and is not
rounded down.  A number past the 64 bits is moved to the end of that range
before, which leaves `-1` above and `0` below; NaN counts as zero.
-/
import Reckoner.Proofs.FloatOrder

namespace Reckoner

/-! ## Integer parts -/

/-- The integer part of a number: what is left when its places are cut off. -/
def towardZero (q : ℚ) : ℤ := if q < 0 then ⌈q⌉ else ⌊q⌋

section TowardZero

variable {q : ℚ} {n : ℤ}

theorem towardZero_of_nonneg (nonneg : 0 ≤ q) : towardZero q = ⌊q⌋ :=
  if_neg (not_lt.mpr nonneg)

theorem towardZero_of_neg (negative : q < 0) : towardZero q = ⌈q⌉ :=
  if_pos negative

theorem le_towardZero (above : n ≤ q) : n ≤ towardZero q := by
  unfold towardZero
  split
  · exact_mod_cast above.trans (Int.le_ceil q)
  · exact Int.le_floor.mpr above

theorem towardZero_le (below : q ≤ n) : towardZero q ≤ n := by
  unfold towardZero
  split
  · exact Int.ceil_le.mpr below
  · exact_mod_cast (Int.floor_le q).trans below

theorem towardZero_lt (below : q < n) (positive : 0 < n) :
    towardZero q < n := by
  unfold towardZero
  split
  · rename_i negative
    have : ⌈q⌉ ≤ 0 := Int.ceil_le.mpr (by exact_mod_cast negative.le)
    omega
  · exact Int.floor_lt.mpr below

end TowardZero

namespace Word

open Binary

/-- The integers of 32 bits leave all residues once. -/
theorem eq_toInt_ofInt_iff {t w : ℤ} :
    (-2 ^ 31 ≤ w ∧ w < 2 ^ 31 ∧ w ≡ t [ZMOD 2 ^ 32]) ↔
      w = (Int32.ofInt t).toInt := by
  have residue := toInt_ofInt_modEq t
  have least := (Int32.ofInt t).le_toInt
  have most := (Int32.ofInt t).toInt_lt
  constructor
  · rintro ⟨least', most', residue'⟩
    have same := residue'.trans residue.symm
    unfold Int.ModEq at same
    omega
  · rintro rfl
    exact ⟨least, most, residue⟩

/-- The integer part of a finite float, moved into the range of 64 bits. -/
theorem integerPart_of_isFinite {x : Float} (number : x.isFinite = true) :
    integerPart (ofFloat x) = clamp (towardZero (exact x)) := by
  have whole (m : ℕ) (e : ℤ) :
      ((magnitude m e).floor : ℤ) = ⌊(m : ℚ) * 2 ^ e⌋ := by
    rw [Ratio.floor_eq, value_magnitude]
    exact Int.natCast_floor_eq_floor (by positivity)
  rw [ofFloat_eq_ofUnpacked]
  cases Exact.of_isFinite number with
  | @zero sign parts value =>
      rw [parts, value, towardZero_of_nonneg le_rfl, Int.floor_zero]
      cases sign with
      | positive => decide +kernel
      | negative => decide +kernel
  | @positive m e _ parts _ value order =>
      rw [parts, towardZero_of_nonneg order.le, value, ← whole]
      rfl
  | @negative m e _ parts _ value order =>
      rw [parts, towardZero_of_neg order, value, Int.ceil_neg, ← whole]
      rfl

theorem truncate_of_isFinite {x : Float} (number : x.isFinite = true) :
    truncate x = Int32.ofInt (clamp (towardZero (exact x))) := by
  rw [truncate, integerPart_of_isFinite number]

/-! ## The ends of the range -/

/-- The float `2 ^ 63`, the least one above every integer of 64 bits. -/
def edge : Float := 9223372036854775808

theorem exact_edge : exact edge = (2 ^ 63 : ℤ) := by
  have parts : unpacked edge = .finite .positive (2 ^ 52) 11 (by decide) := rfl
  rw [exact_of_positive parts]
  norm_num

theorem exact_neg_edge : exact (-edge) = (-2 ^ 63 : ℤ) := by
  have parts : unpacked (-edge) = .finite .negative (2 ^ 52) 11 (by decide) :=
    rfl
  rw [exact_of_negative parts]
  norm_num

section Edge

variable {x : Float}

theorem edge_le_iff : edge ≤ x ↔ x = infinity ∨
    x.isFinite = true ∧ (2 ^ 63 : ℤ) ≤ exact x := by
  rcases isFinite_or_eq x with number | rfl | rfl | rfl
  · have other : x ≠ infinity := by
      rintro rfl
      cases number
    rw [le_iff_exact rfl number, exact_edge, or_iff_right other,
      and_iff_right number]
  · decide +kernel
  · decide +kernel
  · decide +kernel

theorem lt_neg_edge_iff : x < -edge ↔ x = -infinity ∨
    x.isFinite = true ∧ exact x < (-2 ^ 63 : ℤ) := by
  rcases isFinite_or_eq x with number | rfl | rfl | rfl
  · have other : x ≠ -infinity := by
      rintro rfl
      cases number
    rw [lt_iff_exact number rfl, exact_neg_edge, or_iff_right other,
      and_iff_right number]
  · decide +kernel
  · decide +kernel
  · decide +kernel

/-- Between the two ends the integer part has 64 bits. -/
theorem within_or_outside (x : Float) :
    x.isFinite = true ∧ -2 ^ 63 ≤ towardZero (exact x) ∧
        towardZero (exact x) < 2 ^ 63 ∨
      edge ≤ x ∨ x < -edge ∨ x.isNaN = true := by
  rcases isFinite_or_eq x with number | infinite | infinite | rfl
  · by_cases large : (2 ^ 63 : ℤ) ≤ exact x
    · exact .inr (.inl (edge_le_iff.mpr (.inr ⟨number, large⟩)))
    · by_cases small : exact x < (-2 ^ 63 : ℤ)
      · exact .inr (.inr (.inl (lt_neg_edge_iff.mpr (.inr ⟨number, small⟩))))
      · exact .inl ⟨number, le_towardZero (not_lt.mp small),
          towardZero_lt (not_le.mp large) (by norm_num)⟩
  · exact .inr (.inl (edge_le_iff.mpr (.inl infinite)))
  · exact .inr (.inr (.inl (lt_neg_edge_iff.mpr (.inl infinite))))
  · exact .inr (.inr (.inr (by decide +kernel)))

/-- What is above the range is moved to its upper end, whose low bits are all
ones. -/
theorem truncate_of_edge_le (above : edge ≤ x) : truncate x = -1 := by
  rcases edge_le_iff.mp above with rfl | ⟨number, large⟩
  · decide +kernel
  · rw [truncate_of_isFinite number, clamp_of_ge (le_towardZero large)]
    rfl

/-- What is below the range is moved to its lower end, whose low bits are all
zeros. -/
theorem truncate_of_lt_neg_edge (below : x < -edge) : truncate x = 0 := by
  rcases lt_neg_edge_iff.mp below with rfl | ⟨number, small⟩
  · decide +kernel
  · rw [truncate_of_isFinite number, clamp_of_le (towardZero_le small.le)]
    rfl

theorem truncate_of_isNaN (nan : x.isNaN = true) : truncate x = 0 := by
  rw [Float.isNaN_eq_decide_eq_nan, decide_eq_true_iff] at nan
  rw [nan]
  decide +kernel

end Edge

/-- **Cutting to a word wraps the integer part.**  Every pattern is one of the
four kinds; a word is left alone when it is cut again. -/
theorem truncate_wraps (bits : UInt64) :
    let v := Float.ofBits bits
    let t := towardZero (exact v)
    (v.isFinite = true ∧ -2 ^ 63 ≤ t ∧ t < 2 ^ 63 ∨ edge ≤ v ∨ v < -edge ∨
        v.isNaN = true) ∧
      (v.isFinite = true → -2 ^ 63 ≤ t → t < 2 ^ 63 →
        ∀ w : ℤ, -2 ^ 31 ≤ w ∧ w < 2 ^ 31 ∧ w ≡ t [ZMOD 2 ^ 32] ↔
          w = (truncate v).toInt) ∧
      (edge ≤ v → (truncate v).toInt = -1) ∧
      (v < -edge ∨ v.isNaN = true → (truncate v).toInt = 0) ∧
      truncate (truncate v).value = truncate v := by
  intro v t
  refine ⟨within_or_outside v, ?_, ?_, ?_, truncate_value _⟩
  · intro number least most w
    rw [truncate_of_isFinite number, clamp_of_within least most]
    exact eq_toInt_ofInt_iff
  · intro above
    rw [truncate_of_edge_le above]
    rfl
  · rintro (below | nan)
    · rw [truncate_of_lt_neg_edge below]
      rfl
    · rw [truncate_of_isNaN nan]
      rfl

/-- The float `-(2 ^ 32 + 1.5)` comes to `-1`.  Rounded down it would be
`-2`. -/
theorem truncate_wraps_negative :
    (Float.ofBits 0xc1f0000000180000).isFinite = true ∧
      exact (Float.ofBits 0xc1f0000000180000) = -(2 ^ 32 + 3 / 2) ∧
      towardZero (exact (Float.ofBits 0xc1f0000000180000)) = -(2 ^ 32 + 1) ∧
      (truncate (Float.ofBits 0xc1f0000000180000)).toInt = -1 := by
  have value : exact (Float.ofBits 0xc1f0000000180000) =
      -(2 ^ 32 + 3 / 2) := by
    have parts : unpacked (Float.ofBits 0xc1f0000000180000) =
        .finite .negative 0x10000000180000 (-20) (by decide) := rfl
    rw [exact_of_negative parts]
    norm_num
  have whole : towardZero (exact (Float.ofBits 0xc1f0000000180000)) =
      -(2 ^ 32 + 1) := by
    rw [value, towardZero_of_neg (by norm_num), Int.ceil_eq_iff]
    norm_num
  obtain ⟨-, wraps, -⟩ := truncate_wraps 0xc1f0000000180000
  have unique := wraps rfl (by rw [whole]; norm_num) (by rw [whole]; norm_num)
    (-1)
  rw [whole] at unique
  exact ⟨rfl, value, whole, (unique.mp (by decide)).symm⟩

end Word

end Reckoner
