/-
# Wide literals

A literal in another base may have 64 bits, and a float keeps 53 of them: a
literal with more is rounded to that many first, a tie to the even one.
What is left is looked at as a word.  Within 63 bits it is cut to its low 32
bits; past them it was moved to the end of the range before, whose low 32
bits are those of `-1`.

So a literal wraps exactly if its bits fit into a mantissa and it is below
`2 ^ 63`.  All literals of 53 bits do, and `0x20000000000001` and
`0x8000000000000000` do not.
-/
import Reckoner.Proofs.PrintedWords

namespace Reckoner

namespace Binary

/-! ## Fifty-three bits of an integer -/

/-- `Rounds n rounded`: `rounded` is `n` with only its 53 leading bits, to
the nearest and with a tie to the even mantissa.  Below `2 ^ 53` it is `n`. -/
def Rounds (n rounded : ℕ) : Prop :=
  ∃ mantissa, IsNearest ((n : ℚ) / 2 ^ (n.log2 - 52)) mantissa ∧
    rounded = mantissa * 2 ^ (n.log2 - 52)

namespace Rounds

variable {n rounded : ℕ}

theorem exists_rounded (n : ℕ) : ∃ rounded, Rounds n rounded := by
  have near := isNearest_mantissa (r := .ofNat n) one_pos (n.log2 - 52 : ℕ)
  rw [Ratio.value_ofNat, zpow_natCast] at near
  exact ⟨_, _, near, rfl⟩

theorem unique {rounded' : ℕ} (rounds : Rounds n rounded)
    (rounds' : Rounds n rounded') : rounded = rounded' := by
  obtain ⟨_, near, rfl⟩ := rounds
  obtain ⟨_, near', rfl⟩ := rounds'
  rw [near.unique near']

/-- A number whose bits fit is left alone. -/
theorem eq_of_dvd (rounds : Rounds n rounded)
    (fits : 2 ^ (n.log2 - 52) ∣ n) : rounded = n := by
  obtain ⟨mantissa, near, rfl⟩ := rounds
  obtain ⟨whole, split⟩ := fits
  generalize n.log2 - 52 = k at near split ⊢
  have unit : (2 : ℚ) ^ k ≠ 0 := pow_ne_zero k two_ne_zero
  rw [split, Nat.cast_mul, Nat.cast_pow, Nat.cast_ofNat,
    mul_div_cancel_left₀ _ unit] at near
  rw [near.unique (.refl whole), split, Nat.mul_comm]

theorem eq_of_small (rounds : Rounds n rounded) (small : n < 2 ^ 53) :
    rounded = n := by
  refine rounds.eq_of_dvd ?_
  rcases Nat.eq_zero_or_pos n with rfl | pos
  · exact dvd_zero _
  · rw [Nat.sub_eq_zero_of_le (log2_le pos small)]
    exact one_dvd n

end Rounds

theorem value_ofNat_pos {n : ℕ} (pos : 0 < n) : 0 < (Ratio.ofNat n).value := by
  rw [Ratio.value_ofNat]
  exact Nat.cast_pos.mpr pos

theorem unitExponent_ofNat {n : ℕ} (pos : 0 < n) :
    unitExponent (.ofNat n) = (n.log2 : ℤ) - 52 := by
  obtain ⟨least, most⟩ := Ratio.log2_bounds pos
  have bits : Int.log 2 (n : ℚ) = n.log2 :=
    Ratio.log_eq (by exact_mod_cast least) (by exact_mod_cast most)
  have positive := value_ofNat_pos pos
  rw [unitExponent_eq positive, Ratio.value_ofNat, bits]
  omega

/-- **The integer part of an integer that was rounded to a float.** -/
theorem integerPart_ofNat {n rounded : ℕ} (rounds : Rounds n rounded)
    (wide : n < 2 ^ 64) :
    Word.integerPart (ofFloat (ofNat n)) = Word.clamp rounded := by
  rcases Nat.lt_or_ge n (2 ^ 53) with small | large
  · rw [rounds.eq_of_small small]
    rcases Nat.eq_zero_or_pos n with rfl | pos
    · decide +kernel
    · rw [ofFloat_ofNat pos small, Word.integerPart,
        Word.floor_fullMantissa pos small]
  · have pos : 0 < n := Nat.lt_of_lt_of_le (by decide) large
    have bits : n.log2 < 64 := (Nat.log2_lt pos.ne').mpr wide
    have bits' : 53 ≤ n.log2 := (Nat.le_log2 pos.ne').mpr large
    obtain ⟨mantissa, near, rfl⟩ := rounds
    have unit := unitExponent_ofNat pos
    have moved : (n.log2 : ℤ) - 52 = (n.log2 - 52 : ℕ) := by omega
    rw [moved] at unit
    rw [← zpow_natCast, ← Ratio.value_ofNat n] at near
    obtain ⟨m, e, decoded, same⟩ :=
      exists_ofFloat_nearest (value_ofNat_pos pos) unit near (by omega)
    have whole : (magnitude m e).floor = mantissa * 2 ^ (n.log2 - 52) := by
      rw [zpow_natCast] at same
      rw [Ratio.floor_eq, value_magnitude, same]
      exact_mod_cast Nat.floor_natCast (R := ℚ) _
    rw [ofNat, decoded, Word.integerPart, whole]

end Binary

/-! ## The word of a literal -/

namespace Word

theorem truncate_ofNat {n rounded : ℕ} (rounds : Binary.Rounds n rounded)
    (wide : n < 2 ^ 64) :
    truncate (Binary.ofNat n) = Int32.ofInt (clamp rounded) := by
  rw [truncate, Binary.integerPart_ofNat rounds wide]

end Word

theorem Pattern.mem_hexadecimal (digits : String)
    (nonempty : digits.toList.isEmpty = false)
    (inside : digits.toList.all (Digits.isDigit 16) = true) :
    "0x".toList ++ digits.toList ∈ (Pattern.radix .hexadecimal).language :=
  Pattern.mem_radix.mpr ⟨'x', digits.toList, rfl,
    List.isEmpty_eq_false_iff.mp nonempty, List.all_eq_true.mp inside, rfl⟩

namespace Session

/-- A literal alone shows its word if values are cut to words. -/
theorem runLine_radix (session : Session)
    (cuts : session.context.policy = .truncate) {r : Pattern.Radix}
    {literal : String}
    (matched : literal.toList ∈ (Pattern.radix r).language)
    (wide : Digits.ofList r.base (literal.toList.drop 2) < 2 ^ 64) :
    (session.runLine literal).1 =
      [.value (Word.truncate (Binary.ofNat
        (Digits.ofList r.base (literal.toList.drop 2)))).value] := by
  have readable := tokenize_radix matched wide
  rw [String.ofList_toList] at readable
  rw [session.runLine_number readable]
  simp only [Environment.enter, cuts]

/-- **A literal in another base is rounded to 53 bits and wraps.**  Past
63 bits it does not wrap, but comes to `-1`. -/
theorem runLine_wide_literal (session : Session)
    (cuts : session.context.policy = .truncate) {r : Pattern.Radix}
    {literal : String} {n : ℕ}
    (matched : literal.toList ∈ (Pattern.radix r).language)
    (denoted : Digits.ofList r.base (literal.toList.drop 2) = n)
    (wide : n < 2 ^ 64) :
    ∃ (rounded : ℕ) (w : ℤ), Binary.Rounds n rounded ∧
      (2 ^ (n.log2 - 52) ∣ n → rounded = n) ∧
      -2 ^ 31 ≤ w ∧ w < 2 ^ 31 ∧
      (session.runLine literal).1 = [.value (Binary.ofInt w)] ∧
      (rounded < 2 ^ 63 → w ≡ rounded [ZMOD 2 ^ 32]) ∧
      (2 ^ 63 ≤ rounded → w = -1) := by
  obtain ⟨rounded, rounds⟩ := Binary.Rounds.exists_rounded n
  have shown := session.runLine_radix cuts matched (denoted.symm ▸ wide)
  rw [denoted, Word.truncate_ofNat rounds wide] at shown
  let word : Word := Int32.ofInt (Word.clamp rounded)
  refine ⟨rounded, word.toInt, rounds, rounds.eq_of_dvd, word.le_toInt,
    word.toInt_lt, shown, ?_, ?_⟩
  · intro inside
    have kept : Word.clamp rounded = rounded :=
      Word.clamp_of_within (by omega) (by omega)
    rw [← kept]
    exact Word.toInt_ofInt_modEq _
  · intro outside
    have last : Int32.toInt (Int32.ofInt (2 ^ 63 - 1)) = -1 := rfl
    have moved : Word.clamp rounded = 2 ^ 63 - 1 :=
      Word.clamp_of_ge (by omega)
    rw [← last, ← moved]

theorem runLine_wide_literal_tie :
    let session := ofSettings {}
    session.context.policy = .truncate ∧
      "0x0020000000000003".toList ∈ (Pattern.radix .hexadecimal).language ∧
      Digits.ofList 16 ("0x0020000000000003".toList.drop 2) = 2 ^ 53 + 3 ∧
      (session.runLine "0x0020000000000003").1 =
        [.value (Binary.ofInt 4)] := by
  intro session
  have matched : "0x0020000000000003".toList ∈
      (Pattern.radix .hexadecimal).language :=
    Pattern.mem_hexadecimal "0020000000000003" rfl rfl
  have denoted : Digits.ofList Pattern.Radix.hexadecimal.base
      ("0x0020000000000003".toList.drop 2) = 2 ^ 53 + 3 := rfl
  obtain ⟨rounded, w, rounds, -, least, most, shown, wraps, -⟩ :=
    session.runLine_wide_literal rfl matched denoted (by decide)
  have tie : Binary.Rounds (2 ^ 53 + 3) (2 ^ 53 + 4) := by
    refine ⟨2 ^ 52 + 2, ⟨?_, fun _ => by decide⟩, rfl⟩
    have unit : Nat.log2 (2 ^ 53 + 3) - 52 = 1 := rfl
    rw [unit]
    norm_num
  have word : w = 4 := by
    rw [rounds.unique tie] at wraps
    have residue := wraps (by decide)
    rw [Int.ModEq] at residue
    omega
  exact ⟨rfl, matched, denoted, word ▸ shown⟩

/-- The word of a literal is all that the literal can show. -/
theorem not_modEq_of_runLine {session : Session}
    (cuts : session.context.policy = .truncate) {r : Pattern.Radix}
    {literal : String} {n : ℕ}
    (matched : literal.toList ∈ (Pattern.radix r).language)
    (denoted : Digits.ofList r.base (literal.toList.drop 2) = n)
    (wide : n < 2 ^ 64)
    (differs : ¬(Word.truncate (Binary.ofNat n)).toInt ≡ n [ZMOD 2 ^ 32])
    (w : ℤ) (least : -2 ^ 31 ≤ w) (most : w < 2 ^ 31)
    (shown : (session.runLine literal).1 = [.value (Binary.ofInt w)]) :
    ¬w ≡ n [ZMOD 2 ^ 32] := by
  let word := Word.truncate (Binary.ofNat n)
  have low := word.le_toInt
  have high := word.toInt_lt
  rw [session.runLine_radix cuts matched (denoted.symm ▸ wide), denoted]
    at shown
  have same : Binary.ofInt word.toInt = Binary.ofInt w :=
    Outcome.value.inj (List.cons.inj shown).1
  rw [← Word.ofInt_inj (by omega) (by omega) same]
  exact differs

/-- Two literals do not wrap: the first has 54 bits, the second is past the
63 bits that are cut. -/
theorem wide_literals_unwrapped :
    let session := ofSettings {}
    session.context.policy = .truncate ∧
      ("0x20000000000001".toList ∈ (Pattern.radix .hexadecimal).language ∧
        Digits.ofList 16 ("0x20000000000001".toList.drop 2) = 2 ^ 53 + 1 ∧
        ∀ w : ℤ, -2 ^ 31 ≤ w → w < 2 ^ 31 →
          (session.runLine "0x20000000000001").1 = [.value (Binary.ofInt w)] →
          ¬w ≡ (2 ^ 53 + 1 : ℕ) [ZMOD 2 ^ 32]) ∧
      "0x8000000000000000".toList ∈ (Pattern.radix .hexadecimal).language ∧
        Digits.ofList 16 ("0x8000000000000000".toList.drop 2) = 2 ^ 63 ∧
        ∀ w : ℤ, -2 ^ 31 ≤ w → w < 2 ^ 31 →
          (session.runLine "0x8000000000000000").1 =
            [.value (Binary.ofInt w)] →
          ¬w ≡ (2 ^ 63 : ℕ) [ZMOD 2 ^ 32] := by
  intro session
  have odd : "0x20000000000001".toList ∈
      (Pattern.radix .hexadecimal).language :=
    Pattern.mem_hexadecimal "20000000000001" rfl rfl
  have outside : "0x8000000000000000".toList ∈
      (Pattern.radix .hexadecimal).language :=
    Pattern.mem_hexadecimal "8000000000000000" rfl rfl
  refine ⟨rfl, ⟨odd, rfl, ?_⟩, outside, rfl, ?_⟩
  · exact not_modEq_of_runLine rfl odd rfl (by decide) (by decide +kernel)
  · exact not_modEq_of_runLine rfl outside rfl (by decide) (by decide +kernel)

end Session

end Reckoner
