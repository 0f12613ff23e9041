/-
# The fields of a float

A float is a sign, an exponent field and a fraction, and the arithmetic of
floats unpacks the same three fields from its pattern.  A finite float
stands for `± mantissa · 2 ^ exponent`, and which mantissas and exponents
occur is said by `Canonical`: each of these pairs is found in one pattern
for each sign and no other, so a finite float is known from the number it
stands for.  A negation flips the sign bit and nothing else.  That both
readings of a pattern are the same is `ofBits_eq_ofUnpacked`.
-/
import Mathlib
import Reckoner.Number.Binary

namespace Reckoner

namespace Binary

open Float.Model (Format UnpackedFloat)
open Float.Model.UnpackedFloat

/-! ## The fields of a bit pattern -/

section Fields

variable (b : BitVec 64)

theorem toNat_mod_binadeSize :
    b.toNat % binadeSize =
      (@unpackMantissa Format.binary64 b).toNat := by
  rw [unpackMantissa_def, BitVec.extractLsb'_toNat]
  rfl

theorem toNat_div_binadeSize :
    b.toNat / binadeSize % 2048 =
      (@unpackExponent Format.binary64 b).toNat := by
  rw [unpackExponent_def, BitVec.extractLsb'_toNat,
    Nat.shiftRight_eq_div_pow]
  rfl

theorem toNat_div_sign :
    b.toNat / binadeSize / 2048 % 2 =
      (@unpackSign Format.binary64 b).toNat := by
  rw [unpackSign_def, BitVec.extractLsb'_toNat,
    Nat.shiftRight_eq_div_pow, Nat.div_div_eq_div_mul]
  rfl

end Fields

theorem isNaNBits_eq_false {b : BitVec 64}
    (number : b.toNat / binadeSize % 2048 ≠ 2047) :
    @isNaNBits Format.binary64 b = false := by
  refine decide_eq_false ?_
  rintro ⟨full, -⟩
  rw [toNat_div_binadeSize, full] at number
  exact number rfl

/-- A pattern that is no NaN is the pattern of its float. -/
theorem toBits_ofBits {bits : UInt64}
    (number : bits.toNat / binadeSize % 2048 ≠ 2047) :
    (Float.ofBits bits).toBits = bits := by
  have packed := @pack_unpack Format.binary64 bits.toBitVec
  rw [isNaNBits_eq_false number] at packed
  exact congrArg UInt64.ofBitVec packed

/-! ## Parts -/

/-- A float as arithmetic unpacks it. -/
def unpacked (x : Float) : UnpackedFloat := x.toModel.unpack

/-- The number with the given parts. -/
def ofUnpacked : UnpackedFloat → Binary
  | .notANumber => nan
  | .infinity sign => infinite (sign == .negative)
  | .zero sign => finite (sign == .negative) 0 (-1074)
  | .finite sign m e _ => finite (sign == .negative) m e

/-- Reading the fields of a pattern is unpacking it. -/
theorem ofBits_eq_ofUnpacked (b : BitVec 64) :
    ofBits b.toNat =
      ofUnpacked (Float.Model.UnpackedFloat.unpack Format.binary64 b) := by
  have sign (s : BitVec 1) :
      decide (s.toNat = 1) = (Sign.ofBitVec s == .negative) := by
    rcases BitVec.eq_zero_or_eq_one s with rfl | rfl
    · rfl
    · rfl
  rw [ofBits, toNat_mod_binadeSize, toNat_div_binadeSize, toNat_div_sign, sign,
    Float.Model.UnpackedFloat.unpack]
  have full : (@unpackExponent Format.binary64 b).toNat = 2047 ↔
      @unpackExponent Format.binary64 b = -1#_ := BitVec.toNat_inj (y := -1#_)
  have least : (@unpackExponent Format.binary64 b).toNat = 0 ↔
      @unpackExponent Format.binary64 b = 0#_ := BitVec.toNat_inj (y := 0#_)
  have bare : (@unpackMantissa Format.binary64 b).toNat = 0 ↔
      @unpackMantissa Format.binary64 b = 0#_ := BitVec.toNat_inj (y := 0#_)
  have one : (1#1 ++ @unpackMantissa Format.binary64 b).toNat =
      binadeSize + (@unpackMantissa Format.binary64 b).toNat := by
    rw [BitVec.toNat_append]
    exact (Nat.shiftLeft_add_eq_or_of_lt (BitVec.isLt _) 1).symm
  simp only [full, least, bare]
  split
  · split
    · rfl
    · rfl
  · split
    · split
      · rename_i zero
        rw [bare.mpr zero]
        rfl
      · rename_i subnormal _
        simp only [ofUnpacked, least.mpr subnormal]
        rfl
    · simp only [ofUnpacked, one]
      rfl
theorem ofFloat_eq_ofUnpacked (x : Float) :
    ofFloat x = ofUnpacked (unpacked x) :=
  ofBits_eq_ofUnpacked x.toBits.toBitVec

/-- The finite floats are those that stand for a number. -/
theorem isFinite_iff {x : Float} : x.isFinite = true ↔
    ∃ negative mantissa exponent,
      ofFloat x = finite negative mantissa exponent := by
  have unpacks : x.isFinite = (unpacked x).isFinite := rfl
  rw [unpacks, ofFloat_eq_ofUnpacked]
  cases unpacked x with
  | notANumber => simp [isFinite, ofUnpacked]
  | infinity sign => simp [isFinite, ofUnpacked]
  | zero sign => simp [isFinite, ofUnpacked]
  | finite sign m e positive => simp [isFinite, ofUnpacked]

/-! ## Negation -/

/-- The sign bit alone. -/
def signMask : BitVec 64 := 0x8000000000000000#64

section Flip

variable (b : BitVec 64)

theorem unpackMantissa_flip :
    @unpackMantissa Format.binary64 (b ^^^ signMask) =
      @unpackMantissa Format.binary64 b := by
  rw [unpackMantissa_def, unpackMantissa_def, BitVec.extractLsb'_xor]
  exact BitVec.xor_zero

theorem unpackExponent_flip :
    @unpackExponent Format.binary64 (b ^^^ signMask) =
      @unpackExponent Format.binary64 b := by
  rw [unpackExponent_def, unpackExponent_def, BitVec.extractLsb'_xor]
  exact BitVec.xor_zero

theorem unpackSign_flip :
    @unpackSign Format.binary64 (b ^^^ signMask) =
      ~~~@unpackSign Format.binary64 b := by
  rw [unpackSign_def, unpackSign_def, BitVec.extractLsb'_xor]
  exact BitVec.xor_allOnes

theorem unpack_flip :
    Float.Model.UnpackedFloat.unpack Format.binary64 (b ^^^ signMask) =
      (Float.Model.UnpackedFloat.unpack Format.binary64 b).neg := by
  have sign (s : BitVec 1) : Sign.ofBitVec (~~~s) = -Sign.ofBitVec s := by
    rcases BitVec.eq_zero_or_eq_one s with rfl | rfl
    · rfl
    · rfl
  simp only [Float.Model.UnpackedFloat.unpack, unpackMantissa_flip,
    unpackExponent_flip, unpackSign_flip, sign]
  split
  · split
    · rfl
    · rfl
  · split
    · split
      · rfl
      · rfl
    · rfl

end Flip

/-- A negation flips the sign bit. -/
theorem toBits_neg {x : Float}
    (number : x.toBits.toNat / binadeSize % 2048 ≠ 2047) :
    (-x).toBits = ⟨x.toBits.toBitVec ^^^ signMask⟩ := by
  have number' : (x.toBits.toBitVec ^^^ signMask).toNat / binadeSize % 2048 ≠
      2047 := by
    rw [toNat_div_binadeSize, unpackExponent_flip, ← toNat_div_binadeSize]
    exact number
  have packed := @pack_unpack Format.binary64
    (x.toBits.toBitVec ^^^ signMask)
  rw [isNaNBits_eq_false number', unpack_flip] at packed
  exact congrArg UInt64.ofBitVec packed

theorem ofFloat_neg {x : Float} {negative : Bool} {mantissa : Nat}
    {exponent : Int} (h : ofFloat x = finite negative mantissa exponent) :
    ofFloat (-x) = finite (!negative) mantissa exponent := by
  have number : x.toBits.toNat / binadeSize % 2048 ≠ 2047 := by
    intro full
    simp only [ofFloat, ofBits, full, if_true] at h
    split at h
    · cases h
    · cases h
  have flipped : ∀ s : BitVec 1,
      decide ((~~~s).toNat = 1) = !decide (s.toNat = 1) := by
    decide
  simp only [ofFloat, ofBits] at h ⊢
  rw [toBits_neg number]
  simp only [UInt64.toNat] at h number ⊢
  simp only [toNat_div_sign, toNat_div_binadeSize, toNat_mod_binadeSize,
    unpackMantissa_flip, unpackExponent_flip, unpackSign_flip, flipped]
    at h number ⊢
  simp only [if_neg number] at h ⊢
  split at h
  · rename_i subnormal
    obtain ⟨rfl, rfl, rfl⟩ := finite.inj h
    rw [if_pos subnormal]
  · rename_i normal
    obtain ⟨rfl, rfl, rfl⟩ := finite.inj h
    rw [if_neg normal]

/-! ## Mantissa and exponent -/

theorem binadeSize_eq : binadeSize = 4503599627370496 := rfl

/-- What the mantissa and the exponent of a finite float satisfy: the mantissa
has 53 bits unless the exponent is the least one. -/
structure Canonical (mantissa : ℕ) (exponent : ℤ) : Prop where
  small : mantissa < 2 * binadeSize
  least : -1074 ≤ exponent
  most : exponent ≤ 971
  full : exponent = -1074 ∨ binadeSize ≤ mantissa

/-- The bit pattern of `mantissa · 2 ^ exponent`. -/
def pattern (mantissa : ℕ) (exponent : ℤ) : ℕ :=
  (exponent + 1074).toNat * binadeSize + mantissa

/-- The sign in front of a pattern. -/
def signPattern (negative : Bool) : ℕ := if negative then 2 ^ 63 else 0

section Canonical

variable {negative : Bool} {mantissa : ℕ} {exponent : ℤ}

theorem Canonical.pattern_lt (canonical : Canonical mantissa exponent) :
    pattern mantissa exponent < infinityBits := by
  obtain ⟨small, least, most, full⟩ := canonical
  simp only [pattern, infinityBits, binadeSize_eq] at small full ⊢
  omega

/-- The fields of a finite pattern make a canonical pair, and the pattern is
put together from it again. -/
theorem Canonical.of_ofBits {bits : ℕ} (word : bits < 2 ^ 64)
    (decoded : ofBits bits = finite negative mantissa exponent) :
    Canonical mantissa exponent ∧
      bits = signPattern negative + pattern mantissa exponent := by
  rw [ofBits] at decoded
  generalize fraction_eq : bits % binadeSize = fraction at decoded
  generalize field_eq : bits / binadeSize % 2048 = field at decoded
  generalize sign_eq : bits / binadeSize / 2048 % 2 = sign at decoded
  have size := binadeSize_eq
  rw [size] at fraction_eq field_eq sign_eq
  have sign_bit : signPattern (decide (sign = 1)) = sign * 2 ^ 63 := by
    have : sign = 0 ∨ sign = 1 := by omega
    rcases this with rfl | rfl
    · rfl
    · rfl
  split at decoded
  · split at decoded
    · cases decoded
    · cases decoded
  · split at decoded
    · obtain ⟨rfl, rfl, rfl⟩ := finite.inj decoded
      refine ⟨⟨by omega, by omega, by omega, .inl rfl⟩, ?_⟩
      rw [sign_bit, pattern, binadeSize_eq]
      omega
    · obtain ⟨rfl, rfl, rfl⟩ := finite.inj decoded
      refine ⟨⟨by omega, by omega, by omega, .inr (by omega)⟩, ?_⟩
      rw [sign_bit, pattern, binadeSize_eq]
      omega

theorem Canonical.ofBits_pattern (canonical : Canonical mantissa exponent) :
    ofBits (pattern mantissa exponent) = finite false mantissa exponent := by
  obtain ⟨small, least, most, full⟩ := canonical
  have positive : pattern mantissa exponent / binadeSize / 2048 % 2 = 0 := by
    simp only [pattern, binadeSize_eq] at small full ⊢
    omega
  rcases Nat.lt_or_ge mantissa binadeSize with subnormal | normal
  · obtain rfl : exponent = -1074 :=
      full.resolve_right (Nat.not_le.mpr subnormal)
    have bits : pattern mantissa (-1074) = mantissa := by
      simp [pattern]
    rw [bits] at positive ⊢
    rw [ofBits, positive, Nat.mod_eq_of_lt subnormal,
      Nat.div_eq_of_lt subnormal]
    rfl
  · have field : pattern mantissa exponent / binadeSize % 2048 =
        (exponent + 1075).toNat := by
      simp only [pattern, binadeSize_eq] at small normal ⊢
      omega
    have fraction : pattern mantissa exponent % binadeSize =
        mantissa - binadeSize := by
      simp only [pattern, binadeSize_eq] at small normal ⊢
      omega
    rw [ofBits]
    simp only [positive, field, fraction]
    rw [if_neg (by omega), if_neg (by omega), Nat.add_sub_cancel' normal]
    have back : ((exponent + 1075).toNat : ℤ) - 1075 = exponent := by omega
    rw [back]
    rfl

/-- The float with the pattern of a number stands for that number. -/
theorem Canonical.ofFloat_pattern (canonical : Canonical mantissa exponent) :
    ofFloat (Float.ofBits (UInt64.ofNat (pattern mantissa exponent))) =
      finite false mantissa exponent := by
  have below := canonical.pattern_lt
  have word : pattern mantissa exponent < 2 ^ 64 :=
    Nat.lt_trans below (by decide)
  have stored : (UInt64.ofNat (pattern mantissa exponent)).toNat =
      pattern mantissa exponent := UInt64.toNat_ofNat_of_lt' word
  have number : pattern mantissa exponent / binadeSize % 2048 ≠ 2047 := by
    simp only [infinityBits, binadeSize_eq] at below ⊢
    omega
  rw [ofFloat, toBits_ofBits (by rwa [stored]), stored]
  exact canonical.ofBits_pattern

/-- What a finite float stands for is canonical. -/
theorem Canonical.of_ofFloat {x : Float}
    (decoded : ofFloat x = finite negative mantissa exponent) :
    Canonical mantissa exponent :=
  (of_ofBits x.toBits.toNat_lt decoded).1

/-- **A finite float is known from the number it stands for.** -/
theorem eq_of_ofFloat {x y : Float}
    (decoded : ofFloat x = finite negative mantissa exponent)
    (same : ofFloat y = finite negative mantissa exponent) : x = y := by
  have pattern_x := (Canonical.of_ofBits x.toBits.toNat_lt decoded).2
  have pattern_y := (Canonical.of_ofBits y.toBits.toNat_lt same).2
  exact Float.toBits_inj.mp
    (UInt64.toNat_inj.mp (pattern_x.trans pattern_y.symm))

end Canonical

end Binary

end Reckoner
