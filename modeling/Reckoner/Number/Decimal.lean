/-
# Decimal numbers and their text

A decimal is a natural number times a power of ten.  This module reads one
from the text of a literal (digits, an optional fraction, an optional
exponent) and gives the float nearest to it.

It also writes floats in decimal, in two ways.  The shortest form has the
fewest digits that read back as the same float, and among those the digits
nearest to its exact value.  The fixed form rounds the exact value to a number
of places.  Neither uses an exponent: the point stands where it belongs.
"Reads back" is `Decimal.toFloat`, the same rounding that reads literals, so
the shortest form is right by construction.
-/
import Reckoner.Number.Binary

namespace Reckoner

/-! ## Digits in a base

Which characters are digits of a base up to sixteen, and which number a
run of them denotes.  Letters count in either case. -/

namespace Digits

/-- The worth of a digit character; other characters have none. -/
def value? (c : Char) : Option Nat :=
  if '0' ≤ c ∧ c ≤ '9' then some (c.toNat - '0'.toNat)
  else if 'a' ≤ c ∧ c ≤ 'f' then some (c.toNat - 'a'.toNat + 10)
  else if 'A' ≤ c ∧ c ≤ 'F' then some (c.toNat - 'A'.toNat + 10)
  else none

/-- Says whether `c` is a digit of `base`. -/
def isDigit (base : Nat) (c : Char) : Bool :=
  match value? c with
  | some v => v < base
  | none => false

/-- The number denoted by `digits` in `base`, most significant first. -/
def ofList (base : Nat) (digits : List Char) : Nat :=
  digits.foldl (fun n c => base * n + (value? c).getD 0) 0

/-- A digit at the end counts once and moves all others one place up. -/
theorem ofList_concat (base : Nat) (digits : List Char) (c : Char) :
    ofList base (digits ++ [c]) =
      base * ofList base digits + (value? c).getD 0 := by
  simp [ofList]

end Digits

/-! ## Decimals -/

/-- The number `digits · 10 ^ scale`. -/
structure Decimal where
  digits : Nat
  scale : Int
deriving DecidableEq, Repr

namespace Decimal

/-- The value as a ratio. -/
def toRatio (d : Decimal) : Ratio :=
  (Ratio.ofNat d.digits).scale 10 d.scale

/-- The float nearest to a decimal.

A power of ten with a huge exponent is never computed: `digits` is at
least `2 ^ digits.log2` and ten lies between eight and sixteen, so
`digits.log2 + 3 · scale` already shows when the value is past every float
or below half of the least one. -/
def toFloat (d : Decimal) : Float :=
  let size := (d.digits.log2 : Int) + 3 * d.scale
  if d.digits = 0 then Binary.ofNat 0
  else if 0 ≤ d.scale ∧ 1024 ≤ size then Binary.infinity
  else if d.scale < 0 ∧ size < -1075 then Binary.ofNat 0
  else Binary.nearest d.toRatio

/-! ## Reading a literal -/

/-- The size of a written exponent.  Past `65535` further digits count for
nothing: the value is zero or infinite by then. -/
def exponentSize (digits : List Char) : Nat :=
  digits.foldl
    (fun n c => if n < 65536 then 10 * n + (Digits.value? c).getD 0 else n) 0

/-- The exponent written after the digits, zero if there is none. -/
def exponent : List Char → Int
  | _ :: '-' :: digits => -(exponentSize digits : Int)
  | _ :: '+' :: digits => exponentSize digits
  | _ :: digits => exponentSize digits
  | [] => 0

/-- The decimal written as a literal such as `42`, `3.14`, `.5` or
`2.1e-10`. -/
def ofLiteral (text : List Char) : Decimal :=
  let whole := text.takeWhile (Digits.isDigit 10)
  let tail := text.dropWhile (Digits.isDigit 10)
  match tail with
  | '.' :: rest =>
    let fraction := rest.takeWhile (Digits.isDigit 10)
    let tail := rest.dropWhile (Digits.isDigit 10)
    ⟨Digits.ofList 10 (whole ++ fraction), exponent tail - fraction.length⟩
  | _ => ⟨Digits.ofList 10 whole, exponent tail⟩

end Decimal

/-! ## Floats as text -/

namespace Decimal

/-- The digits of `n`, filled up with zeros on the left to `width`. -/
def paddedDigits (width n : Nat) : List Char :=
  let digits := Nat.toDigits 10 n
  List.replicate (width - digits.length) '0' ++ digits

/-- The text of `n / 10 ^ places` with exactly `places` places. -/
def fixedPoint (n places : Nat) : List Char :=
  let unit := Nat.pow 10 places
  if places = 0 then Nat.toDigits 10 n
  else
    Nat.toDigits 10 (n / unit) ++ '.' :: paddedDigits places (n % unit)

/-- The text of a decimal with no more places than its scale asks for. -/
def toText (d : Decimal) : List Char :=
  fixedPoint d.toRatio.num (-d.scale).toNat

/-! ## The fewest digits that read back -/

/-- The number of digits of a positive ratio before the point; zero or less
for ratios below one.  Every positive float is above one in units of
`10 ^ -324`. -/
def wholeDigits (r : Ratio) : Int :=
  ((Nat.toDigits 10 (r.scale 10 324).floor).length : Int) - 324

/-- The value of `n` units of size `10 ^ unit`; ten units are one unit of
the next size. -/
def ofUnits (n : Nat) (unit : Int) : Decimal :=
  if n = 10 then ⟨1, unit + 1⟩ else ⟨n, unit⟩

/-- The two neighbours of a ratio among the multiples of `10 ^ unit`, the
nearer one first; of two equally near ones the upper. -/
def neighbours (r : Ratio) (unit : Int) : List Decimal :=
  let scaled := r.scale 10 (-unit)
  let below := ofUnits scaled.floor unit
  let above := ofUnits (scaled.floor + 1) unit
  if 2 * scaled.remainder < scaled.den then [below, above]
  else [above, below]

/-- Says whether a text reads as `target`, bit for bit. -/
def readsAs (target : Float) (text : List Char) : Bool :=
  (ofLiteral text).toFloat.toBits == target.toBits

/-- The shortest text that reads back as the float nearest to a positive
ratio.  Seventeen digits are always enough. -/
def shortest (r : Ratio) : Option (List Char) :=
  let size := wholeDigits r
  (List.range 17).findSome? fun (n : Nat) =>
    ((neighbours r (size - (n + 1 : Nat))).map toText).find?
      (readsAs (Binary.nearest r))

end Decimal

namespace Binary

/-- A minus sign in front of negative values. -/
def signed (negative : Bool) (text : List Char) : String :=
  String.ofList (if negative then '-' :: text else text)

/-- The exact magnitude with `places` places, a tie to the even digit.  A
float has no digit past place 1074, so the rest is zeros. -/
def roundedTo (places mantissa : Nat) (exponent : Int) : List Char :=
  let kept := min places 1074
  let scaled := (magnitude mantissa exponent).scale 10 kept
  Decimal.fixedPoint scaled.round kept ++ List.replicate (places - kept) '0'

/-- The magnitude in its shortest form; zero is written `0`. -/
def shortestText (mantissa : Nat) (exponent : Int) : List Char :=
  if mantissa = 0 then ['0']
  else
    (Decimal.shortest (magnitude mantissa exponent)).getD
      (roundedTo (-exponent).toNat mantissa exponent)

/-- The shortest text of a number. -/
def toText : Binary → String
  | nan => "NaN"
  | infinite negative => signed negative ['i', 'n', 'f']
  | finite negative mantissa exponent =>
    signed negative (shortestText mantissa exponent)

/-- The text of a number with `places` decimal places. -/
def toFixed (places : Nat) : Binary → String
  | finite negative mantissa exponent =>
    signed negative (roundedTo places mantissa exponent)
  | value => value.toText

end Binary

end Reckoner
