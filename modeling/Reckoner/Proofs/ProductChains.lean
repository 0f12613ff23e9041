/-
# Division and remainder are guarded

A chain of products, quotients and remainders can fail in two ways only, and
what decides is the operand on the right as the bitwise level hands it over:
`/` fails on a zero of either sign, `%` on a value whose word is zero.  The
first operation that is so obstructed gives the error, and without one the
chain has a value.  What stands on the left, however large it has become or
whether it is a number at all, obstructs nothing.

A remainder is exact.  The words of both operands are divided as integers,
the remainder is smaller than the divisor and has the sign of the dividend,
and its value is that integer.  Nothing wraps, not even where the quotient
does not fit into a word.
-/
import Reckoner.Proofs.FloatClasses
import Reckoner.Proofs.NumberChains

namespace Reckoner

namespace Word

/-- A remainder of the division of `dividend` by `divisor`: smaller than the
divisor, and zero or of the sign of the dividend. -/
structure IsRemainder (dividend divisor r : Int) : Prop where
  whole : ∃ q, dividend = q * divisor + r
  small : |r| < |divisor|
  sign : r = 0 ∨ r.sign = dividend.sign

theorem isRemainder_tmod {dividend divisor : Int} (nonzero : divisor ≠ 0) :
    IsRemainder dividend divisor (dividend.tmod divisor) where
  whole := by
    refine ⟨dividend.tdiv divisor, ?_⟩
    have whole := Int.tmod_add_mul_tdiv dividend divisor
    rw [Int.mul_comm] at whole
    omega
  small := by
    have size := Int.natAbs_tmod dividend divisor
    have less : dividend.natAbs % divisor.natAbs < divisor.natAbs :=
      Nat.mod_lt _ (Int.natAbs_pos.mpr nonzero)
    rw [Int.abs_eq_natAbs, Int.abs_eq_natAbs]
    omega
  sign := by
    have sign := Int.sign_tmod dividend divisor
    split at sign
    · exact .inl (Int.sign_eq_zero_iff_zero.mp sign)
    · exact .inr sign

/-- The remainder of two words is the one of their integers. -/
theorem exists_remainder (dividend : Word) {divisor : Word}
    (nonzero : divisor ≠ 0) :
    ∃ r, IsRemainder dividend.toInt divisor.toInt r ∧
      (remainder dividend divisor).map value = some (Binary.ofInt r) := by
  have nonzero' : divisor.toInt ≠ 0 := by
    intro zero
    exact nonzero (Int32.toInt_inj.mp zero)
  have exact_r := @isRemainder_tmod dividend.toInt divisor.toInt nonzero'
  refine ⟨_, exact_r, ?_⟩
  have small := exact_r.small
  rw [Int.abs_eq_natAbs, Int.abs_eq_natAbs] at small
  have least := divisor.le_toInt
  have most := divisor.toInt_lt
  rw [remainder, if_neg nonzero, Option.map_some, value,
    Int32.toInt_ofInt_of_le (by omega) (by omega)]

end Word

namespace BinaryOperator

/-- Why an operation at the product level cannot be done. -/
def obstacle? : BinaryOperator → Float → Option EvalError
  | divide, right =>
    if right = 0 ∨ right = -0 then some .divideByZero else none
  | modulo, right =>
    if Word.truncate right = 0 then some .moduloByZero else none
  | _, _ => none

/-- What an operation at the product level makes of its operands if nothing
obstructs it. -/
inductive Yields : BinaryOperator → Float → Float → Float → Prop
  | multiply {left right : Float} : Yields multiply left right (left * right)
  | divide {left right : Float} : Yields divide left right (left / right)
  | modulo {left right : Float} {r : Int}
      (remainder : Word.IsRemainder (Word.truncate left).toInt
        (Word.truncate right).toInt r) :
      Yields modulo left right (Binary.ofInt r)

/-- An operation is obstructed or yields a value. -/
theorem apply_product {op : BinaryOperator} (product : op.level = .product)
    (left right : Float) :
    (∃ error, op.obstacle? right = some error ∧
        op.apply left right = .error error) ∨
      op.obstacle? right = none ∧
        ∃ x, op.apply left right = .ok x ∧ op.Yields left right x := by
  cases op with
  | multiply => exact .inr ⟨rfl, _, rfl, .multiply⟩
  | divide =>
      by_cases zero : right = 0 ∨ right = -0
      · exact .inl ⟨_, if_pos zero, if_pos (Binary.beq_zero_iff.mpr zero)⟩
      · exact .inr ⟨if_neg zero, _,
          if_neg (mt Binary.beq_zero_iff.mp zero), .divide⟩
  | modulo =>
      by_cases zero : Word.truncate right = 0
      · refine .inl ⟨_, if_pos zero, ?_⟩
        rw [apply, zero]
        rfl
      · obtain ⟨r, exact_r, is_r⟩ :=
          Word.exists_remainder (Word.truncate left) zero
        refine .inr ⟨if_neg zero, _, ?_, .modulo exact_r⟩
        obtain ⟨word, same, value⟩ := Option.map_eq_some_iff.mp is_r
        rw [apply, same, ← value]
  | add | subtract | shiftLeft | shiftRight | bitAnd | bitOr | bitXor =>
      cases product

end BinaryOperator

namespace Environment

variable (env : Environment)

/-- The first thing that obstructs a chain. -/
def obstacle? (rest : List (BinaryOperator × Float)) : Option EvalError :=
  rest.findSome? fun link => link.1.obstacle? (env.enter .bitwise link.2)

/-- A chain whose operations all yield a value, and where it ends. -/
inductive Runs : Float → List (BinaryOperator × Float) → Float → Prop
  | done {x : Float} : Runs x [] x
  | step {x y z : Float} {op : BinaryOperator} {v : Float}
      {rest : List (BinaryOperator × Float)}
      (yields : op.Yields x (env.enter .bitwise v) y) (goes_on : Runs y rest z) :
      Runs x ((op, v) :: rest) z

/-- A chain is obstructed or runs to its end. -/
theorem foldlM_product {rest : List (BinaryOperator × Float)}
    (product : ∀ link ∈ rest, link.1.level = .product) (left : Float) :
    (∃ error, env.obstacle? rest = some error ∧
        rest.foldlM (env.operate .product) left = .error error) ∨
      env.obstacle? rest = none ∧
        ∃ x, rest.foldlM (env.operate .product) left = .ok x ∧
          env.Runs left rest x := by
  induction rest generalizing left with
  | nil => exact .inr ⟨rfl, left, rfl, .done⟩
  | cons link rest ih =>
      obtain ⟨op, v⟩ := link
      obtain ⟨here, later⟩ := List.forall_mem_cons.mp product
      have folded : List.foldlM (env.operate .product) left ((op, v) :: rest) =
          op.apply left (env.enter .bitwise v) >>=
            rest.foldlM (env.operate .product) :=
        List.foldlM_cons
      have first : env.obstacle? ((op, v) :: rest) =
          (op.obstacle? (env.enter .bitwise v)).or (env.obstacle? rest) :=
        List.findSome?_cons.trans (by cases op.obstacle? _ <;> rfl)
      rw [folded, first]
      rcases BinaryOperator.apply_product here left (env.enter .bitwise v) with
        ⟨error, obstructed, failed⟩ | ⟨free, y, applied, yields⟩
      · rw [obstructed, failed]
        exact .inl ⟨error, rfl, rfl⟩
      · rw [free, applied]
        rcases ih later y with failed | ⟨free, z, folds, runs⟩
        · exact .inl failed
        · exact .inr ⟨free, z, folds, .step yields runs⟩

end Environment

namespace Context

/-- **Division and remainder are guarded and exact.**  A chain fails exactly
if something obstructs it, with the first obstacle as its error.  If nothing
does, it has a value, reached by operations that each yield theirs. -/
theorem evaluate_product_chain (context : Context)
    {rest : List (BinaryOperator × Float)}
    (product : ∀ link ∈ rest, link.1.level = .product)
    {behind : Cursor} (ends : behind.current.endsStatement = true)
    {first : Float} {lookahead : Lookahead} {s : Cursor}
    (begins : lookahead.start s = Cursor.chain first rest behind) :
    let evaluation := context.evaluate lookahead s
    (∀ error, evaluation.result = .error error ↔
        context.obstacle? rest = some error) ∧
      (context.obstacle? rest = none →
        ∃ x, evaluation.result = .ok x ∧ evaluation.rest = behind ∧
          context.Runs (context.enter .bitwise first) rest x) := by
  intro evaluation
  obtain ⟨folded, -, read⟩ := context.evaluate_chain product ends begins
  have result : evaluation.result = rest.foldlM (context.operate .product)
      (context.enter .bitwise first) := folded
  rcases context.foldlM_product product (context.enter .bitwise first) with
    ⟨cause, obstructed, failed⟩ | ⟨free, x, folds, runs⟩
  · rw [result, failed, obstructed]
    refine ⟨fun error => ?_, nofun⟩
    rw [Except.error.injEq, Option.some.injEq]
  · rw [result, folds, free]
    refine ⟨fun error => ⟨nofun, nofun⟩, fun _ => ?_⟩
    exact ⟨x, rfl, read x (folded.trans folds), runs⟩

/-- The least word by minus one, and a half that is a zero under one policy
only. -/
theorem evaluate_product_chain_half :
    let rest : List (BinaryOperator × Float) :=
      [(.modulo, -1), (.multiply, 7), (.divide, 0.5)]
    let s := Cursor.chain (-2147483648) rest [.finish]
    let context := withHistory (.ofCapacity 0)
    let preserving := { context with policy := .preserve }
    (context.evaluate .positioned s).result = .error .divideByZero ∧
      ∃ x, (preserving.evaluate .positioned s).result = .ok x ∧
        preserving.Runs (-2147483648) rest x := by
  intro rest s context preserving
  have obstructed : context.obstacle? rest = some .divideByZero := by
    decide +kernel
  have free : preserving.obstacle? rest = none := by decide +kernel
  have of_context (context : Context) := @evaluate_product_chain context rest
    (by decide) [.finish] rfl (-2147483648) .positioned s rfl
  obtain ⟨fails, -⟩ := of_context context
  obtain ⟨-, succeeds⟩ := of_context preserving
  obtain ⟨x, result, -, runs⟩ := succeeds free
  exact ⟨(fails .divideByZero).mpr obstructed, x, result, runs⟩

end Context

end Reckoner
