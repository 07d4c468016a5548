/-!
# Double-precision numbers by their bits

A `Binary64` is a 64-bit word read as an IEEE double: one sign bit, eleven
exponent bits and fifty-two fraction bits. A finite one denotes exactly
`± significand * 2 ^ scale`, and all questions about its value are answered on
these integers, never by machine arithmetic.
-/

namespace TypeTrace

/-- A double-precision number, given by its bits. -/
structure Binary64 where
  bits : UInt64
  deriving DecidableEq, Repr, Inhabited

namespace Binary64

/-- Is the sign bit set? -/
def isNegative (x : Binary64) : Bool := Nat.pow 2 63 ≤ x.bits.toNat

/-- The eleven exponent bits. -/
def exponentField (x : Binary64) : Nat := x.bits.toNat / Nat.pow 2 52 % Nat.pow 2 11

/-- The fifty-two fraction bits. -/
def fractionField (x : Binary64) : Nat := x.bits.toNat % Nat.pow 2 52

/-- Neither infinite nor a NaN. -/
def isFinite (x : Binary64) : Bool := x.exponentField != 2047

def isNaN (x : Binary64) : Bool := x.exponentField == 2047 && x.fractionField != 0

/-- The integer significand of a finite number: the leading one is written out
unless the number is subnormal. -/
def significand (x : Binary64) : Nat :=
  if x.exponentField = 0 then x.fractionField else Nat.pow 2 52 + x.fractionField

/-- The power of two that the significand of a finite number is multiplied by. -/
def scale (x : Binary64) : Int := (max x.exponentField 1 : Nat) - 1075

/-- The number `significand * 2 ^ scale` as a natural number, if it is one. -/
def magnitude? (x : Binary64) : Option Nat :=
  match x.scale with
  | .ofNat k => some (x.significand * Nat.pow 2 k)
  | .negSucc k =>
    let unit := Nat.pow 2 (k + 1)
    if x.significand % unit = 0 then some (x.significand / unit) else none

/-- The integer that the number denotes; none for fractions, infinities and NaN. -/
def toInt? (x : Binary64) : Option Int :=
  if x.isFinite then
    x.magnitude?.map fun n => if x.isNegative then -(n : Int) else n
  else none

/-- Is the number one of the two zeros? -/
def isZero (x : Binary64) : Bool := x.exponentField == 0 && x.fractionField == 0

/-- Numeric equality: the two zeros are equal and a NaN equals nothing. -/
def sameValue (x y : Binary64) : Bool :=
  !x.isNaN && !y.isNaN && (x == y || (x.isZero && y.isZero))

/-- The bits of a machine number. -/
def ofFloat (x : Float) : Binary64 := ⟨x.toBits⟩

end Binary64

end TypeTrace
