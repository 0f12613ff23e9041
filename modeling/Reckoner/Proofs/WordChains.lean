/-
# Bitwise chains compute on words

The bitwise operators are defined on signed words, and a running value is a
float that is looked at as a word again for every operation.  Seen from
outside nothing of that shows.  A chain of numbers with bitwise operators
between them is a fold over plain 32-bit words: every number is cut to its
word once, `&`, `bor` and `xor` are those of the bits, and a shift multiplies
or divides the unsigned word by a power of two.  Only the last word is read
as a signed number.

Since a word survives the way through a float, the running value and its word
stay in step for chains of any length, and the fraction policy, which decides
about a value that no operator follows, has no say.
-/
import Reckoner.Proofs.ExactIntegers
import Reckoner.Proofs.NumberChains

namespace Reckoner

namespace Word

/-- The low 32 bits of the integer part of a number. -/
def bits (v : Float) : BitVec 32 := (truncate v).toBitVec

/-- Bits read as a signed number. -/
def signed (b : BitVec 32) : Float := Binary.ofInt b.toInt

theorem value_eq_signed (w : Word) : w.value = signed w.toBitVec := rfl

theorem truncate_signed (b : BitVec 32) :
    truncate (signed b) = Int32.ofBitVec b :=
  truncate_value (Int32.ofBitVec b)

/-- An amount that a shift accepts is the same read unsigned. -/
theorem toNat_of_isShift {amount : Word} (shifts : isShift amount = true) :
    amount.toUInt32.toNat = amount.toInt.toNat ∧ amount.toInt.toNat < 32 := by
  simp only [isShift, Bool.and_eq_true, decide_eq_true_eq] at shifts
  have signed : amount.toInt =
      if 2 * amount.toUInt32.toNat < 2 ^ 32 then (amount.toUInt32.toNat : Int)
      else (amount.toUInt32.toNat : Int) - (2 ^ 32 : Nat) :=
    BitVec.toInt_eq_toNat_cond amount.toBitVec
  have size : amount.toUInt32.toNat < 2 ^ 32 := amount.toUInt32.toNat_lt
  split at signed
  · omega
  · omega

end Word

namespace BinaryOperator

/-- The bitwise operators on 32 bits.  A shift multiplies or divides the
unsigned left word by a power of two and drops what does not fit; the right
word is the signed exponent, and outside `0 … 31` nothing is left.  The other
operators are not about words. -/
def onBits : BinaryOperator → BitVec 32 → BitVec 32 → BitVec 32
  | shiftLeft, w, amount =>
    if 0 ≤ amount.toInt ∧ amount.toInt < 32 then
      BitVec.ofNat 32 (w.toNat * 2 ^ amount.toInt.toNat % 2 ^ 32)
    else 0
  | shiftRight, w, amount =>
    if 0 ≤ amount.toInt ∧ amount.toInt < 32 then
      BitVec.ofNat 32 (w.toNat / 2 ^ amount.toInt.toNat)
    else 0
  | bitAnd, w, other => w &&& other
  | bitOr, w, other => w ||| other
  | bitXor, w, other => w ^^^ other
  | _, w, _ => w

section Shifts

variable (w amount : Word)

/-- A shift is settled where it keeps any bit. -/
theorem toBitVec_of_isShift {shifted : Word} {b : BitVec 32}
    (same : Word.isShift amount = true → shifted.toBitVec = b) :
    (if Word.isShift amount then shifted else 0).toBitVec =
      if 0 ≤ amount.toBitVec.toInt ∧ amount.toBitVec.toInt < 32 then b
      else 0 := by
  have accepts : Word.isShift amount = true ↔
      0 ≤ amount.toBitVec.toInt ∧ amount.toBitVec.toInt < 32 := by
    rw [Int32.toInt_toBitVec]
    simp [Word.isShift]
  by_cases shifts : Word.isShift amount = true
  · rw [if_pos shifts, if_pos (accepts.mp shifts)]
    exact same shifts
  · rw [if_neg shifts, if_neg (mt accepts.mpr shifts)]
    rfl

theorem toBitVec_shiftLeft :
    (Word.shiftLeft w amount).toBitVec =
      shiftLeft.onBits w.toBitVec amount.toBitVec := by
  refine toBitVec_of_isShift amount fun shifts => ?_
  obtain ⟨unsigned, small⟩ := Word.toNat_of_isShift shifts
  apply BitVec.eq_of_toNat_eq
  calc (w.toUInt32 <<< amount.toUInt32).toNat
      = w.toUInt32.toNat * 2 ^ amount.toInt.toNat % 2 ^ 32 := by
        rw [UInt32.toNat_shiftLeft, unsigned, Nat.mod_eq_of_lt small,
          Nat.shiftLeft_eq]
    _ = (w.toUInt32.toNat * 2 ^ amount.toInt.toNat % 2 ^ 32) % 2 ^ 32 :=
        (Nat.mod_mod _ _).symm

theorem toBitVec_shiftRight :
    (Word.shiftRight w amount).toBitVec =
      shiftRight.onBits w.toBitVec amount.toBitVec := by
  refine toBitVec_of_isShift amount fun shifts => ?_
  obtain ⟨unsigned, small⟩ := Word.toNat_of_isShift shifts
  have fits : w.toUInt32.toNat / 2 ^ amount.toInt.toNat < 2 ^ 32 :=
    Nat.lt_of_le_of_lt (Nat.div_le_self _ _) w.toUInt32.toNat_lt
  apply BitVec.eq_of_toNat_eq
  calc (w.toUInt32 >>> amount.toUInt32).toNat
      = w.toUInt32.toNat / 2 ^ amount.toInt.toNat := by
        rw [UInt32.toNat_shiftRight, unsigned, Nat.mod_eq_of_lt small,
          Nat.shiftRight_eq_div_pow]
    _ = w.toUInt32.toNat / 2 ^ amount.toInt.toNat % 2 ^ 32 :=
        (Nat.mod_eq_of_lt fits).symm

end Shifts

/-- A bitwise operation on floats is the one on their bits. -/
theorem apply_bitwise {op : BinaryOperator} (bitwise : op.level = .bitwise)
    (left right : Float) :
    op.apply left right =
      .ok (Word.signed (op.onBits (Word.bits left) (Word.bits right))) := by
  cases op with
  | shiftLeft =>
      simp only [apply, onWords, Word.value_eq_signed, toBitVec_shiftLeft]
      rfl
  | shiftRight =>
      simp only [apply, onWords, Word.value_eq_signed, toBitVec_shiftRight]
      rfl
  | bitAnd | bitOr | bitXor => rfl
  | add | subtract | multiply | divide | modulo => cases bitwise

end BinaryOperator

/-- Folds bitwise operators over the bits of a chain of numbers. -/
def foldBits (start : BitVec 32) (rest : List (BinaryOperator × Float)) :
    BitVec 32 :=
  rest.foldl (fun w link => link.1.onBits w (Word.bits link.2)) start

namespace Environment

variable (env : Environment)

/-- Once the running value is a word, it stays in step with its bits. -/
theorem foldlM_of_signed {rest : List (BinaryOperator × Float)}
    (bitwise : ∀ link ∈ rest, link.1.level = .bitwise) (w : BitVec 32) :
    rest.foldlM (env.operate .bitwise) (Word.signed w) =
      .ok (Word.signed (foldBits w rest)) := by
  induction rest generalizing w with
  | nil => rfl
  | cons link rest ih =>
      obtain ⟨here, later⟩ := List.forall_mem_cons.mp bitwise
      have step : env.operate .bitwise (Word.signed w) link =
          .ok (Word.signed (link.1.onBits w (Word.bits link.2))) := by
        rw [operate, BinaryOperator.apply_bitwise here, Word.bits,
          Word.truncate_signed]
        rfl
      rw [List.foldlM_cons, step]
      exact ih later _

/-- Whatever the first operand is, the first operation makes it a word. -/
theorem foldlM_bitwise {rest : List (BinaryOperator × Float)}
    (bitwise : ∀ link ∈ rest, link.1.level = .bitwise) (some_link : rest ≠ [])
    (v : Float) :
    rest.foldlM (env.operate .bitwise) v =
      .ok (Word.signed (foldBits (Word.bits v) rest)) := by
  cases rest with
  | nil => exact absurd rfl some_link
  | cons link rest =>
      obtain ⟨here, later⟩ := List.forall_mem_cons.mp bitwise
      rw [List.foldlM_cons, operate, BinaryOperator.apply_bitwise here]
      exact env.foldlM_of_signed later _

/-- The policy does not change the bits of a value. -/
theorem bits_enter (l : Level) (v : Float) :
    Word.bits (env.enter l v) = Word.bits v := by
  cases l with
  | bitwise =>
      unfold enter
      cases env.policy with
      | truncate => exact congrArg Int32.toBitVec (Word.truncate_value _)
      | preserve => rfl
  | _ => rfl

end Environment

namespace Context

/-- **A bitwise chain computes on words.**  Under either policy its value is
the signed reading of the operators folded from the left over the bits of its
numbers.  The whole chain is read and nothing else changes. -/
theorem evaluate_bitwise_chain (context : Context)
    {rest : List (BinaryOperator × Float)}
    (bitwise : ∀ link ∈ rest, link.1.level = .bitwise) (some_link : rest ≠ [])
    {behind : Cursor} (ends : behind.current.endsStatement = true)
    {first : Float} {lookahead : Lookahead} {s : Cursor}
    (begins : lookahead.start s = Cursor.chain first rest behind) :
    let evaluation := context.evaluate lookahead s
    evaluation.result =
        .ok (Word.signed (foldBits (Word.bits first) rest)) ∧
      evaluation.rest = behind ∧ evaluation.context = context := by
  intro evaluation
  obtain ⟨folded, unchanged, read⟩ :=
    context.evaluate_chain bitwise ends begins
  have result : evaluation.result =
      .ok (Word.signed (foldBits (Word.bits first) rest)) := by
    rw [folded, context.foldlM_bitwise bitwise some_link,
      context.bits_enter .bitwise]
  exact ⟨result, read _ result, unchanged⟩

theorem evaluate_bitwise_chain_overflowing :
    let rest : List (BinaryOperator × Float) :=
      [(.shiftRight, 28), (.bitAnd, 4294967302), (.bitXor, 0 / 0),
        (.shiftLeft, 30)]
    let s := Cursor.chain (-1.5) rest [.finish]
    let context := withHistory (.ofCapacity 0)
    let preserving := { context with policy := .preserve }
    (context.evaluate .positioned s).result = .ok (-2147483648) ∧
      (preserving.evaluate .positioned s).result = .ok (-2147483648) := by
  intro rest s context preserving
  have value : Word.signed (foldBits (Word.bits (-1.5)) rest) =
      -2147483648 := by
    decide +kernel
  have of_context (context : Context) :
      (context.evaluate .positioned s).result = .ok (-2147483648) := by
    obtain ⟨result, -⟩ := @evaluate_bitwise_chain context rest (by decide)
      nofun [.finish] rfl (-1.5) .positioned s rfl
    rw [result, value]
  exact ⟨of_context context, of_context preserving⟩

end Context

end Reckoner
