/-
# Binary floats as exact numbers

A float is 64 bits; this module says which number they stand for and finds
the float nearest to a ratio.  Both directions work on natural numbers alone,
so every conversion of the calculator (decimal literals, wide literals,
words, printed digits) rests on one rounding rule: nearest, a tie to the even
mantissa.

A finite float is `± mantissa · 2 ^ exponent` with `mantissa < 2 ^ 53` and
`exponent ≥ -1074`.  With the least exponent that leaves the mantissa below
`2 ^ 53`, its bit pattern is `(exponent + 1074) · 2 ^ 52 + mantissa`; the
formula covers normal and subnormal floats, and a mantissa that rounds up to
`2 ^ 53` carries into the exponent as it should.

Cube roots are rounded by the same rule.  The operand is scaled by a power of
eight until its integer root has more bits than a mantissa; whether that root
is exact then decides every rounding.
-/
namespace Reckoner

/-! ## Quotients of natural numbers

Exact non-negative numbers on which all conversions between decimal and
binary are done.  A ratio can be scaled by any power of a base and rounded
to a natural number, down or to the nearest. -/

/-- The number `num / den`; the divisor is positive wherever one is made. -/
structure Ratio where
  num : Nat
  den : Nat
deriving DecidableEq, Repr

namespace Ratio

/-- A natural number as a ratio. -/
def ofNat (n : Nat) : Ratio := ⟨n, 1⟩

/-- The ratio times `base ^ power`; a negative power multiplies the
divisor. -/
def scale (r : Ratio) (base : Nat) (power : Int) : Ratio :=
  ⟨r.num * Nat.pow base power.toNat, r.den * Nat.pow base (-power).toNat⟩

/-- The largest natural number that is not above the ratio. -/
def floor (r : Ratio) : Nat := r.num / r.den

/-- What is left above the floor, in parts of the divisor. -/
def remainder (r : Ratio) : Nat := r.num % r.den

/-- The nearest natural number, a tie to the even one. -/
def round (r : Ratio) : Nat :=
  if 2 * r.remainder < r.den then r.floor
  else if r.den < 2 * r.remainder then r.floor + 1
  else r.floor + r.floor % 2

/-- The largest `e` for which `2 ^ e` is not above a positive ratio.  The bit
lengths settle it up to one. -/
def log2 (r : Ratio) : Int :=
  let guess : Int := (r.num.log2 : Int) - (r.den.log2 : Int)
  let scaled := r.scale 2 (-guess)
  if scaled.den ≤ scaled.num then guess else guess - 1

theorem remainder_lt (r : Ratio) (h : 0 < r.den) : r.remainder < r.den :=
  Nat.mod_lt _ h

/-- Floor and remainder give the ratio back. -/
theorem den_mul_floor_add_remainder (r : Ratio) :
    r.den * r.floor + r.remainder = r.num :=
  Nat.div_add_mod r.num r.den

end Ratio

/-! ## Floats -/

/-- The number that a float stands for. -/
inductive Binary where
  | nan
  | infinite (negative : Bool)
  | finite (negative : Bool) (mantissa : Nat) (exponent : Int)
deriving DecidableEq, Repr

namespace Binary

/-- The number of floats in a binade, `2 ^ 52`. -/
def binadeSize : Nat := Nat.pow 2 52

/-- Reads the sign, exponent and fraction fields of a bit pattern. -/
def ofBits (bits : Nat) : Binary :=
  let fraction : Nat := bits % binadeSize
  let field : Nat := bits / binadeSize % 2048
  let negative := decide (bits / binadeSize / 2048 % 2 = 1)
  if field = 2047 then
    if fraction = 0 then infinite negative else nan
  else if field = 0 then finite negative fraction (-1074)
  else finite negative (binadeSize + fraction) ((field : Int) - 1075)

/-- The number that `value` stands for. -/
def ofFloat (value : Float) : Binary := ofBits value.toBits.toNat

/-- The magnitude `mantissa · 2 ^ exponent` as a ratio. -/
def magnitude (mantissa : Nat) (exponent : Int) : Ratio :=
  (Ratio.ofNat mantissa).scale 2 exponent

/-! ## The nearest float -/

/-- The bit pattern of positive infinity. -/
def infinityBits : Nat := 2047 * binadeSize

/-- Positive infinity. -/
def infinity : Float := Float.ofBits (UInt64.ofNat infinityBits)

/-- The exponent of the last mantissa bit of the floats around a positive
ratio. -/
def unitExponent (r : Ratio) : Int := max (-1074) (r.log2 - 52)

/-- The bit pattern of the float nearest to a ratio; a ratio past the largest
float gives infinity. -/
def nearestBits (r : Ratio) : Nat :=
  if r.num = 0 then 0
  else
    let unit := unitExponent r
    let mantissa := (r.scale 2 (-unit)).round
    min ((unit + 1074).toNat * binadeSize + mantissa) infinityBits

/-- The float nearest to a ratio. -/
def nearest (r : Ratio) : Float :=
  Float.ofBits (UInt64.ofNat (nearestBits r))

/-- The float nearest to a natural number. -/
def ofNat (n : Nat) : Float := nearest (Ratio.ofNat n)

/-- The float nearest to an integer; zero is positive. -/
def ofInt (i : Int) : Float :=
  if i < 0 then -(ofNat i.natAbs) else ofNat i.natAbs

end Binary

/-! ## Cube roots -/

/-- The cube of a natural number. -/
def cube (n : Nat) : Nat := n * n * n

/-- The largest natural number whose cube is at most `n`.  Each step turns
the root of `n / 8` into one more bit. -/
def floorCubeRoot (n : Nat) : Nat :=
  if h : n = 0 then 0
  else
    let root := 2 * floorCubeRoot (n / 8)
    if cube (root + 1) ≤ n then root + 1 else root
termination_by n
decreasing_by exact Nat.div_lt_self (Nat.pos_of_ne_zero h) (by decide)

namespace Binary

/-- The float nearest to the cube root of `mantissa · 2 ^ exponent`.

With `unit` as chosen here the scaled operand is at least `2 ^ 171`, so its
root has at least 58 bits.  A remainder cannot move the root past a point
half way between two floats; it only shows on which side the root lies,
which the added odd half stands for. -/
def cubeRootOfFinite (mantissa : Nat) (exponent : Int) : Float :=
  let unit := (exponent - 171) / 3
  let scaled := (magnitude mantissa (exponent - 3 * unit)).floor
  let root := floorCubeRoot scaled
  let halves := if cube root = scaled then 2 * root else 2 * root + 1
  nearest (magnitude halves (unit - 1))

/-- The cube root of a float; it has the sign of its operand. -/
def cubeRoot (value : Float) : Float :=
  match ofFloat value with
  | finite negative mantissa exponent =>
    if mantissa = 0 then value
    else if negative then -(cubeRootOfFinite mantissa exponent)
    else cubeRootOfFinite mantissa exponent
  | _ => value

end Binary

end Reckoner
