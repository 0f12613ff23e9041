/-
# A factorial multiplies by every factor

The factorial leaves its product off as soon as it is settled.  That only
spares work.  A zero, an infinity or NaN stays what it is under a positive
finite factor, the sign of a zero included, and every factor is an integer
of two or more that a float holds exactly.  So the result is the product
with all of the factors, one after the other, in the order from the greatest
down; and once the product is settled, it is the result.  There is one NaN
only, so no result is told from another by the bits of its NaN.

A product is taken over the integers first and over the words that stand
for them then.
-/
import Reckoner.Proofs.FloatClasses

namespace Reckoner

namespace Factorial

/-! ## Integers as factors -/

/-- The product of `value` with `n`, `n - 1`, … down to `2`. -/
def product (value : Float) (n : Nat) : Float :=
  (List.range' 2 (n - 1)).reverse.foldl (fun x i => x * Binary.ofNat i) value

theorem product_succ (value : Float) (n : Nat) :
    product value (n + 2) = product (value * Binary.ofNat (n + 2)) (n + 1) := by
  have range : List.range' 2 (n + 1) = List.range' 2 n ++ [n + 2] := by
    rw [List.range'_1_concat, Nat.add_comm]
  show (List.range' 2 (n + 1)).reverse.foldl _ value = _
  rw [range, List.reverse_append]
  rfl

theorem descending_of_isSettled {value : Float}
    (settled : isSettled value = true) (n : Nat) :
    descending value n = value := by
  unfold descending
  split
  · rw [if_pos settled]
  · rfl

/-- A product with a small factor is settled as before. -/
theorem mul_ofNat_of_isSettled {value : Float}
    (settled : isSettled value = true) {n : Nat} (pos : 0 < n)
    (small : n < 2 ^ 53) : value * Binary.ofNat n = value := by
  obtain ⟨least, -⟩ := Binary.fullMantissa_bounds pos small
  obtain ⟨m, e, positive, factor⟩ := Binary.unpacked_of_positive
    (Binary.ofFloat_ofNat pos small) (Nat.lt_of_lt_of_le (by decide) least)
  exact mul_of_isSettled settled factor

/-- **Leaving a settled product off changes nothing.** -/
theorem descending_eq_product (value : Float) {n : Nat} (small : n < 2 ^ 53) :
    descending value n = product value n := by
  -- one round multiplies the value, so the induction is for every value
  induction n generalizing value with
  | zero => rfl
  | succ n ih =>
      cases n with
      | zero => rfl
      | succ n =>
          have later := fun x => ih x (Nat.lt_of_succ_lt small)
          rw [product_succ, descending]
          split
          · rename_i settled
            rw [mul_ofNat_of_isSettled settled (Nat.succ_pos _) small,
              ← later, descending_of_isSettled settled]
          · exact later _

end Factorial

theorem factorial_eq_product (value : Float) (start : Word) :
    factorial value start =
      Factorial.product value (start.toInt.toNat - 1) := by
  have most := start.toInt_lt
  exact Factorial.descending_eq_product value (by omega)

/-! ## Words as factors -/

/-- Below a word that is not the least there is the word before it. -/
theorem Word.toInt_sub_one {w : Word} (above : 0 < w.toInt) :
    (w - 1).toInt = w.toInt - 1 := by
  have most := w.toInt_lt
  rw [Int32.toInt_sub]
  exact Int.bmod_eq_of_le (by simp; omega) (by simp; omega)

/-- The float of a word that is no less than zero. -/
theorem Word.value_eq_ofNat {w : Word} (least : 0 ≤ w.toInt) :
    w.value = Binary.ofNat w.toInt.toNat := by
  rw [value, Binary.ofInt, if_neg (by omega)]
  congr 1
  omega

namespace Factorial

/-- The words below `start`, one after the other, down to two. -/
def factors (start : Word) : List Word :=
  if above : 2 < start.toInt then (start - 1) :: factors (start - 1) else []
termination_by start.toInt.toNat
decreasing_by
  rw [Word.toInt_sub_one (by omega)]
  omega

/-- The product of `value` with one word after the other, whatever comes of
it in between. -/
def running (value : Float) (words : List Word) : Float :=
  words.foldl (fun product i => product * i.value) value

theorem factors_of_le {start : Word} (small : start.toInt ≤ 2) :
    factors start = [] := by
  rw [factors, dif_neg (by omega)]

theorem factors_of_lt {start : Word} (above : 2 < start.toInt) :
    factors start = (start - 1) :: factors (start - 1) := by
  rw [factors, dif_pos above]

/-- What holds of starts without factors holds of all if it passes from the
word before a start to the start. -/
@[elab_as_elim]
theorem factors_induction {motive : Word → Prop}
    (bare : ∀ start : Word, start.toInt ≤ 2 → motive start)
    (further : ∀ start : Word, 2 < start.toInt →
      (start - 1).toInt = start.toInt - 1 → motive (start - 1) → motive start)
    (start : Word) : motive start := by
  induction start using factors.induct with
  | case1 start above ih =>
      exact further start above (Word.toInt_sub_one (by omega)) ih
  | case2 start small => exact bare start (by omega)

/-- The factors are the words from two up to the start, the start left
out. -/
theorem mem_factors {start i : Word} :
    i ∈ factors start ↔ 2 ≤ i.toInt ∧ i.toInt < start.toInt := by
  induction start using factors_induction with
  | bare start small =>
      rw [factors_of_le small]
      simp only [List.not_mem_nil, false_iff]
      omega
  | further start above before ih =>
      rw [factors_of_lt above, List.mem_cons, ih, before, ← Int32.toInt_inj,
        before]
      omega

/-- A product with words is the one with the integers they stand for. -/
theorem running_factors (value : Float) (start : Word) :
    running value (factors start) =
      product value (start.toInt.toNat - 1) := by
  induction start using factors_induction generalizing value with
  | bare start small =>
      have last : start.toInt.toNat - 1 = 0 ∨ start.toInt.toNat - 1 = 1 := by
        omega
      rw [factors_of_le small]
      rcases last with last | last <;> rw [last] <;> rfl
  | further start above before ih =>
      obtain ⟨n, start_eq⟩ : ∃ n : Nat, start.toInt = n + 3 :=
        ⟨start.toInt.toNat - 3, by omega⟩
      have next : (start - 1).toInt.toNat = n + 2 := by omega
      have last : start.toInt.toNat - 1 = n + 2 := by omega
      rw [factors_of_lt above, last, product_succ]
      show running (value * (start - 1).value) (factors (start - 1)) = _
      rw [ih, Word.value_eq_ofNat (by omega), next]
      rfl

/-! ## The early exit -/

/-- What is settled: a zero of either sign, an infinity or NaN. -/
theorem isSettled_iff {x : Float} :
    isSettled x = true ↔ x = 0 ∨ x = -0 ∨ x.isFinite = false := by
  rw [isSettled, Bool.or_eq_true, Binary.beq_zero_iff, or_assoc,
    Bool.not_eq_true']

/-- A word above zero leaves a settled product as it is. -/
theorem mul_value_of_isSettled {x : Float} (settled : isSettled x = true)
    {w : Word} (above : 0 < w.toInt) : x * w.value = x := by
  have most := w.toInt_lt
  rw [Word.value_eq_ofNat (by omega)]
  exact mul_ofNat_of_isSettled settled (by omega) (by omega)

/-- And so do any number of them. -/
theorem running_of_isSettled {x : Float} (settled : isSettled x = true)
    {words : List Word} (above : ∀ w ∈ words, 0 < w.toInt) :
    running x words = x := by
  induction words with
  | nil => rfl
  | cons w words ih =>
      have here := mul_value_of_isSettled settled (above w List.mem_cons_self)
      show running (x * w.value) words = x
      rw [here]
      exact ih fun w' later => above w' (List.mem_cons_of_mem _ later)

end Factorial

/-- **The early exit changes nothing.**  The factorial is the product with
all of its factors, whatever comes of it in between.  And where it comes to
a zero of either sign, to an infinity or to NaN, after however many of the
factors, that is the result already. -/
theorem factorial_eq_running (value : Float) (start : Word) :
    factorial value start =
        Factorial.running value (Factorial.factors start) ∧
      ∀ done x, done <+: Factorial.factors start →
        Factorial.running value done = x →
        (x = 0 ∨ x = -0 ∨ x.isFinite = false) → factorial value start = x := by
  have all : factorial value start =
      Factorial.running value (Factorial.factors start) := by
    rw [Factorial.running_factors, factorial_eq_product]
  refine ⟨all, ?_⟩
  -- the factors that are left do not change a settled product
  rintro done x ⟨left, split⟩ came settled
  have above : ∀ w ∈ left, 0 < w.toInt := by
    intro w mem
    have factor : w ∈ Factorial.factors start :=
      split ▸ List.mem_append_right _ mem
    have := Factorial.mem_factors.mp factor
    omega
  calc factorial value start
    _ = Factorial.running value (done ++ left) := by rw [all, split]
    _ = Factorial.running x left := by
        rw [Factorial.running, List.foldl_append, ← came]
        rfl
    _ = x := Factorial.running_of_isSettled
        (Factorial.isSettled_iff.mpr settled) above

/-- From `2 ^ 1023` on, one of the 198 factors already leads to infinity. -/
theorem factorial_eq_running_overflow :
    [199] <+: Factorial.factors 200 ∧
      Factorial.running (Float.ofBits 0x7fe0000000000000) [199] = 1 / 0 ∧
      factorial (Float.ofBits 0x7fe0000000000000) 200 = 1 / 0 := by
  have first : [199] <+: Factorial.factors 200 := by
    rw [Factorial.factors_of_lt (by decide), List.cons_prefix_cons]
    exact ⟨by decide, List.nil_prefix⟩
  have came : Factorial.running (Float.ofBits 0x7fe0000000000000) [199] =
      1 / 0 := by
    decide +kernel
  obtain ⟨-, stays⟩ :=
    factorial_eq_running (Float.ofBits 0x7fe0000000000000) 200
  exact ⟨first, came, stays [199] _ first came (.inr (.inr rfl))⟩

end Reckoner
