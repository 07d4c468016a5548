import TypeTrace.Decimal.Binary64
import TypeTrace.Text.Numeral

/-!
# Reading decimals as doubles

Two rules. `toBinary64?` is that of JSON numbers: the digits that fit into 64
bits are rounded once to a double, which is then multiplied or divided by the
power of ten, each step rounded, and a result past the largest double is
refused. `nearest` rounds the exact value once.
-/

namespace TypeTrace.Decimal

/-- The double nearest to `10 ^ k`, for `k ≤ 308`. -/
def powerOfTen (k : Nat) : Float := Float.ofScientific 1 false k

/-- Divides by `10 ^ k`, at most 308 places at a time. -/
def scaleDown (x : Float) (k : Nat) : Float :=
  if k ≤ 308 then x / powerOfTen k
  else if x == 0.0 then x
  else scaleDown (x / powerOfTen 308) (k - 308)
termination_by k

/-- The double read for `± significand * 10 ^ exponent`; none past the range. -/
def toBinary64? (negative : Bool) (significand : UInt64) (exponent : Int) : Option Binary64 :=
  let x := significand.toFloat
  let scaled := match exponent with
    | .negSucc k => some (scaleDown x (k + 1))
    | .ofNat k =>
      if k ≤ 308 then
        let y := x * powerOfTen k
        if y.isInf then none else some y
      else if x == 0.0 then some x
      else none
  scaled.map fun y => .ofFloat (if negative then -y else y)

/-- The double nearest to `± significand * 10 ^ exponent`. Values far outside the
range are decided by their size alone. -/
def nearest (negative : Bool) (significand : Nat) (exponent : Int) : Binary64 :=
  let size := (Text.Numeral.digits significand).length + exponent
  let x :=
    if significand = 0 ∨ size < -400 then 0.0
    else if 400 < size then 1.0 / 0.0
    else match exponent with
      | .ofNat k => Float.ofScientific significand false k
      | .negSucc k => Float.ofScientific significand true (k + 1)
  .ofFloat (if negative then -x else x)

end TypeTrace.Decimal
