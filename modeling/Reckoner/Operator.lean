/-
# Operators

The binary operators, grouped into three levels that bind more and more
tightly, and the operators of one primary.  Bitwise operators bind more
tightly than products, and all binary operators group from the left.
-/
import Reckoner.Error
import Reckoner.Word

namespace Reckoner

/-- The levels of binary operators, the loosest first. -/
inductive Level where
  | sum
  | product
  | bitwise
deriving DecidableEq, Repr

/-- The binary operators. -/
inductive BinaryOperator where
  | add
  | subtract
  | multiply
  | divide
  | modulo
  | shiftLeft
  | shiftRight
  | bitAnd
  | bitOr
  | bitXor
deriving DecidableEq, Repr

/-- The operator that a token stands for at a level. -/
def Level.operator? : Level → Token → Option BinaryOperator
  | .sum, .plus => some .add
  | .sum, .minus => some .subtract
  | .product, .times => some .multiply
  | .product, .divide => some .divide
  | .product, .modulo => some .modulo
  | .bitwise, .shiftLeft => some .shiftLeft
  | .bitwise, .shiftRight => some .shiftRight
  | .bitwise, .bitAnd => some .bitAnd
  | .bitwise, .bitOr => some .bitOr
  | .bitwise, .bitXor => some .bitXor
  | _, _ => none

namespace BinaryOperator

/-- An operation on the words of two values. -/
def onWords (f : Word → Word → Word) (left right : Float) : Float :=
  (f (Word.truncate left) (Word.truncate right)).value

/-- The value of an operation.  A division by a zero of either sign fails,
and so does a remainder by a value whose word is zero. -/
def apply : BinaryOperator → Float → Float → Except EvalError Float
  | add, left, right => .ok (left + right)
  | subtract, left, right => .ok (left - right)
  | multiply, left, right => .ok (left * right)
  | divide, left, right =>
    if right == 0 then .error .divideByZero else .ok (left / right)
  | modulo, left, right =>
    match Word.remainder (Word.truncate left) (Word.truncate right) with
    | some word => .ok word.value
    | none => .error .moduloByZero
  | shiftLeft, left, right => .ok (onWords Word.shiftLeft left right)
  | shiftRight, left, right => .ok (onWords Word.shiftRight left right)
  | bitAnd, left, right => .ok (onWords (· &&& ·) left right)
  | bitOr, left, right => .ok (onWords (· ||| ·) left right)
  | bitXor, left, right => .ok (onWords (· ^^^ ·) left right)

end BinaryOperator

/-- The operators that stand in front of a primary or between two of
them. -/
inductive UnaryOperator where
  | complement
  | literal
  | power
  | negate
deriving DecidableEq, Repr

/-- The operator of one primary that a token stands for. -/
def UnaryOperator.ofToken? : Token → Option UnaryOperator
  | .complement => some .complement
  | .literal => some .literal
  | .power => some .power
  | .negate => some .negate
  | _ => none

/-- A value on its way through the operators of one primary, with the word
that a factorial would start from. -/
structure Operand where
  value : Float
  start : Word
deriving DecidableEq, Repr

namespace Operand

/-- A first primary. -/
def ofPrimary (value : Float) : Operand := ⟨value, Word.truncate value⟩

/-- Applies an operator with the primary that follows it.  All but the power
put the primary in the place of the value; only the complement changes the
start of a factorial. -/
def apply (operand : Operand) (primary : Float) : UnaryOperator → Operand
  | .complement =>
    let word := ~~~ Word.truncate primary
    ⟨word.value, word⟩
  | .literal => { operand with value := primary }
  | .power => { operand with value := operand.value.pow primary }
  | .negate => { operand with value := -primary }

end Operand

end Reckoner
