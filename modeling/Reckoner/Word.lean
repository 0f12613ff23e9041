/-
# The 32-bit view of a value

Bitwise operators, the remainder and the printed bases look at a value as a
signed 32-bit word.  `truncate` drops the fraction and keeps the low 32 bits
of the integer part; `value` goes back and is exact.

The factorial needs both views.  Its operand keeps its fraction: `5.5!` is
`5.5 · 4 · 3 · 2`.  Which integers follow is decided by a word, the 32-bit
view of the operand.
-/
import Reckoner.Number.Binary

namespace Reckoner

/-- A signed 32-bit integer in two's complement. -/
abbrev Word := Int32

namespace Word

/-- The number of non-negative integers of 64 bits, `2 ^ 63`. -/
def limit : Int := (Nat.pow 2 63 : Nat)

/-- An integer moved to the nearest end of the 64-bit range if it lies
outside. -/
def clamp (i : Int) : Int := max (-limit) (min i (limit - 1))

/-- The integer part of a number, toward zero and within 64 bits.  NaN has
none and counts as zero. -/
def integerPart : Binary → Int
  | .nan => 0
  | .infinite true => -limit
  | .infinite false => limit - 1
  | .finite true mantissa exponent =>
    clamp (-((Binary.magnitude mantissa exponent).floor : Int))
  | .finite false mantissa exponent =>
    clamp ((Binary.magnitude mantissa exponent).floor : Int)

/-- The word whose bits are the low 32 bits of the integer part. -/
def truncate (value : Float) : Word :=
  Int32.ofInt (integerPart (Binary.ofFloat value))

/-- The value of a word. -/
def value (w : Word) : Float := Binary.ofInt w.toInt

/-- Says whether a shift by `amount` can keep any bit. -/
def isShift (amount : Word) : Bool := 0 ≤ amount.toInt && amount.toInt < 32

/-- The bits of `w` moved left; an amount outside `0 … 31` clears all of
them. -/
def shiftLeft (w amount : Word) : Word :=
  if isShift amount then (w.toUInt32 <<< amount.toUInt32).toInt32 else 0

/-- The bits of `w` moved right, zeros following from the left even for a
negative word; an amount outside `0 … 31` clears all bits. -/
def shiftRight (w amount : Word) : Word :=
  if isShift amount then (w.toUInt32 >>> amount.toUInt32).toInt32 else 0

/-- The remainder of a division toward zero, with the sign of the dividend.
There is none by zero, and the least word by minus one leaves zero. -/
def remainder (dividend divisor : Word) : Option Word :=
  if divisor = 0 then none
  else some (Int32.ofInt (dividend.toInt.tmod divisor.toInt))

/-- The word read as an unsigned number. -/
def unsigned (w : Word) : Nat := w.toUInt32.toNat

end Word

/-! ## The factorial of a float -/

namespace Factorial

/-- Says whether a further positive factor leaves a product as it is: zero,
an infinity and NaN do not change any more. -/
def isSettled (product : Float) : Bool := product == 0 || !product.isFinite

/-- The product of `value` and `n`, `n - 1`, … down to `2`, ended early once
it is settled. -/
def descending (value : Float) : Nat → Float
  | n + 2 =>
    if isSettled value then value
    else descending (value * Binary.ofNat (n + 2)) (n + 1)
  | _ => value

end Factorial

/-- The factorial of `value`: its product with every integer below `start`
down to `2`.  A start of two or less leaves the value alone, so the
factorial of zero is zero. -/
def factorial (value : Float) (start : Word) : Float :=
  Factorial.descending value (start.toInt.toNat - 1)

end Reckoner
