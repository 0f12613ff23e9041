/-
# Printed digits are read back

The digits of a number, in any base up to sixteen, denote that number.  A
number of units of `10 ^ -places` is written with a point in front of the
last `places` digits, and the literal that this makes denotes the same
number of units: nothing is lost or gained where the digits are filled up
with zeros.
-/
import Mathlib
import Reckoner.Number.Decimal

namespace Reckoner

/-! ## The digits of a number -/

namespace Digits

theorem value?_digitChar {d : Nat} (digit : d < 16) :
    value? d.digitChar = some d := by
  have each : ∀ e ∈ List.range 16, value? e.digitChar = some e := by decide
  exact each d (List.mem_range.mpr digit)

theorem ofList_append (base : Nat) (front digits : List Char) :
    ofList base (front ++ digits) =
      ofList base front * base ^ digits.length + ofList base digits := by
  induction digits using List.reverseRecOn with
  | nil => simp [ofList]
  | append_singleton digits c ih =>
      rw [← List.append_assoc, ofList_concat, ofList_concat, ih,
        List.length_append, List.length_singleton, Nat.pow_succ]
      ring

theorem ofList_replicate_zero (base n : Nat) :
    ofList base (List.replicate n '0') = 0 := by
  induction n with
  | zero => rfl
  | succ n ih =>
      have zero : value? '0' = some 0 := rfl
      rw [List.replicate_succ', ofList_concat, ih, zero]
      rfl

section Base

variable {base : Nat} (least : 1 < base) (most : base ≤ 16)

include least

/-- What holds of the digits of every number if it passes along one more
digit at the end. -/
theorem toDigits_induction {motive : Nat → List Char → Prop}
    (one : ∀ d, d < base → motive d [d.digitChar])
    (more : ∀ n d, d < base → motive n (Nat.toDigits base n) →
      motive (base * n + d) (Nat.toDigits base n ++ [d.digitChar]))
    (n : Nat) : motive n (Nat.toDigits base n) := by
  induction n using Nat.strongRecOn with
  | ind n ih =>
      rcases Nat.lt_or_ge n base with small | large
      · rw [Nat.toDigits_of_lt_base small]
        exact one n small
      · have positive : 0 < base := Nat.zero_lt_of_lt least
        have shorter : n / base < n :=
          Nat.div_lt_self (Nat.lt_of_lt_of_le positive large) least
        have step := more (n / base) (n % base) (Nat.mod_lt n positive)
          (ih _ shorter)
        rw [Nat.div_add_mod] at step
        rw [Nat.toDigits_of_base_le least large]
        exact step

include most

theorem isDigit_toDigits (n : Nat) :
    ∀ c ∈ Nat.toDigits base n, isDigit base c = true := by
  have digit {d : Nat} (small : d < base) :
      isDigit base d.digitChar = true := by
    rw [isDigit, value?_digitChar (Nat.lt_of_lt_of_le small most)]
    exact decide_eq_true small
  refine toDigits_induction least (motive := fun _ digits =>
    ∀ c ∈ digits, isDigit base c = true) ?_ ?_ n
  · intro d small c here
    rw [List.mem_singleton.mp here]
    exact digit small
  · intro n d small ih c among
    rcases List.mem_append.mp among with before | here
    · exact ih c before
    · rw [List.mem_singleton.mp here]
      exact digit small

/-- The digits of a number denote it. -/
theorem ofList_toDigits (n : Nat) : ofList base (Nat.toDigits base n) = n := by
  refine toDigits_induction least (motive := fun n digits =>
    ofList base digits = n) ?_ ?_ n
  · intro d small
    have value := value?_digitChar (Nat.lt_of_lt_of_le small most)
    simp [ofList, value]
  · intro n d small ih
    rw [ofList_concat, ih, value?_digitChar (Nat.lt_of_lt_of_le small most)]
    rfl

end Base

theorem isDigit_toDigits_ten (n : Nat) :
    ∀ c ∈ Nat.toDigits 10 n, isDigit 10 c = true :=
  isDigit_toDigits (by decide) (by decide) n

theorem ofList_toDigits_ten (n : Nat) : ofList 10 (Nat.toDigits 10 n) = n :=
  ofList_toDigits (by decide) (by decide) n

end Digits

/-! ## Digits with a point -/

namespace Decimal

open Digits (isDigit ofList)

/-- Zeros on the left do not change the number. -/
theorem ofList_paddedDigits (width n : Nat) :
    ofList 10 (paddedDigits width n) = n := by
  rw [paddedDigits, Digits.ofList_append, Digits.ofList_replicate_zero,
    Digits.ofList_toDigits_ten, Nat.zero_mul, Nat.zero_add]

theorem isDigit_paddedDigits (width n : Nat) :
    ∀ c ∈ paddedDigits width n, isDigit 10 c = true := by
  intro c among
  rcases List.mem_append.mp among with filled | digit
  · rw [List.eq_of_mem_replicate filled]
    decide
  · exact Digits.isDigit_toDigits_ten n c digit

theorem length_paddedDigits {width n : Nat} (positive : 0 < width)
    (small : n < 10 ^ width) : (paddedDigits width n).length = width := by
  have short : (Nat.toDigits 10 n).length ≤ width :=
    (Nat.length_toDigits_le_iff (by decide) positive).mpr small
  rw [paddedDigits, List.length_append, List.length_replicate]
  exact Nat.sub_add_cancel short

/-- The two forms of a text with a fixed point. -/
theorem fixedPoint_cases (n places : Nat) :
    places = 0 ∧ fixedPoint n places = Nat.toDigits 10 n ∨
      0 < places ∧ fixedPoint n places =
        Nat.toDigits 10 (n / 10 ^ places) ++
          '.' :: paddedDigits places (n % 10 ^ places) := by
  rcases Nat.eq_zero_or_pos places with rfl | positive
  · exact .inl ⟨rfl, rfl⟩
  · exact .inr ⟨positive, if_neg positive.ne'⟩

/-- **A text with a fixed point denotes the number it was made of.** -/
theorem ofLiteral_fixedPoint (n places : Nat) :
    ofLiteral (fixedPoint n places) = ⟨n, -places⟩ := by
  rcases fixedPoint_cases n places with ⟨rfl, text⟩ | ⟨positive, text⟩
  · have whole := Digits.isDigit_toDigits_ten n
    have digits := List.takeWhile_eq_self_iff.mpr whole
    have tail := List.dropWhile_eq_nil_iff.mpr whole
    rw [text, ofLiteral]
    simp only [digits, tail, Digits.ofList_toDigits_ten]
    rfl
  · have point : isDigit 10 '.' = false := rfl
    have fraction := isDigit_paddedDigits places (n % 10 ^ places)
    have digits := List.takeWhile_eq_self_iff.mpr fraction
    have tail := List.dropWhile_eq_nil_iff.mpr fraction
    have length := length_paddedDigits positive
      (Nat.mod_lt n (Nat.pow_pos (by decide)))
    rw [text, ofLiteral]
    have whole := Digits.isDigit_toDigits_ten (n / 10 ^ places)
    simp only [List.takeWhile_append_of_pos whole,
      List.dropWhile_append_of_pos whole, List.takeWhile_cons,
      List.dropWhile_cons, point, if_neg Bool.false_ne_true, List.append_nil,
      digits, tail, length, Digits.ofList_append, ofList_paddedDigits,
      Digits.ofList_toDigits_ten, exponent]
    rw [Nat.div_add_mod', Int.zero_sub]

end Decimal

end Reckoner
