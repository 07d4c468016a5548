import TypeTrace.Decimal.Binary64
import TypeTrace.Text.Numeral

/-!
# Shortest decimal text of a double

The digits of a finite non-zero double are those of the shortest decimal number
that rounds back to it, and of several such numbers those of the nearest; the
larger one wins a tie. The search runs over the grids of the multiples of
`10 ^ k`, from coarse to fine, and on each grid looks at the two neighbours of
the value. If a grid has a point that rounds back then one of these two does, so
the first grid with a hit has the fewest digits.

`Binary64.display` writes the digits: without an exponent from `1e-4` up to
below `1e16`, and then always with a point.
-/

namespace TypeTrace.Decimal

open TypeTrace.Text

/-- A positive decimal number `digits * 10 ^ exponent`. -/
structure Positive where
  digits : Nat
  exponent : Int
  deriving DecidableEq, Repr

/-- A double as a fraction over one denominator, together with the two ends of
the interval of the numbers that round to it. -/
structure Rounding where
  value : Nat
  low : Nat
  high : Nat
  denominator : Nat
  /-- Do the two ends round to the double as well? -/
  closed : Bool

/-- The interval around a finite double. All numbers are in quarters of the unit
in the last place; the lower half of the interval is halved where the next
smaller double is closer than the next larger one. -/
def Rounding.of (x : Binary64) : Rounding :=
  let m := x.significand
  let lowGap := if x.fractionField = 0 ∧ 1 < x.exponentField then 1 else 2
  let q := x.scale - 2
  let up := Nat.pow 2 q.toNat
  { value := 4 * m * up
    low := (4 * m - lowGap) * up
    high := (4 * m + 2) * up
    denominator := Nat.pow 2 (-q).toNat
    closed := m % 2 = 0 }

/-- Does the point `d` of a grid lie in the interval? Its unit is given as a
fraction `num / den` of the interval's own unit. -/
def Rounding.holds (r : Rounding) (num den d : Nat) : Bool :=
  let p := d * num
  if r.closed then r.low * den ≤ p && p ≤ r.high * den
  else r.low * den < p && p < r.high * den

/-- The nearest point of the grid of multiples of `10 ^ k` that rounds to the
double, if one does. -/
def Rounding.gridPoint? (r : Rounding) (k : Int) : Option Nat :=
  let num := r.denominator * Nat.pow 10 k.toNat
  let den := Nat.pow 10 (-k).toNat
  let below := r.value * den / num
  let above := below + 1
  match r.holds num den below && below != 0, r.holds num den above with
  | true, true =>
    if r.value * den - below * num < above * num - r.value * den then some below else some above
  | true, false => some below
  | false, true => some above
  | false, false => none

/-- Tries the grids of `10 ^ k`, `10 ^ (k - 1)`, … until one has a hit. -/
def Rounding.search (r : Rounding) : (fuel : Nat) → (k : Int) → Positive
  | 0, _ => ⟨0, 0⟩
  | fuel + 1, k =>
    match r.gridPoint? k with
    | some d => ⟨d, k⟩
    | none => r.search fuel (k - 1)

/-- The digits of a finite non-zero double. The first grid is coarser than the
value and the grids of seventeen digits always have a hit, so the search ends. -/
def shortest (x : Binary64) : Positive :=
  let r := Rounding.of x
  let k : Int := (Numeral.digits r.value).length - (Numeral.digits r.denominator).length
  r.search 24 (k + 1)

/-- Drops the zeros at the end of a row of digits. -/
def dropTrailingZeros (ds : List Char) : List Char :=
  (ds.reverse.dropWhile (· == '0')).reverse

/-- The text of `0.ds * 10 ^ point` for a row `ds` of digits without zeros at its
ends. -/
def layout (ds : List Char) (point : Int) : List Char :=
  if -4 < point ∧ point ≤ 16 then
    if point ≤ 0 then '0' :: '.' :: List.replicate (-point).toNat '0' ++ ds
    else if ds.length ≤ point.toNat then
      ds ++ List.replicate (point.toNat - ds.length) '0' ++ ['.', '0']
    else ds.take point.toNat ++ '.' :: ds.drop point.toNat
  else
    let fraction := match ds.drop 1 with
      | [] => []
      | rest => '.' :: rest
    ds.take 1 ++ fraction ++ 'e' :: (Numeral.ofInt (point - 1)).toList

end TypeTrace.Decimal

namespace TypeTrace

/-- The decimal text of a double. -/
def Binary64.display (x : Binary64) : String :=
  if x.isNaN then "NaN"
  else
    let sign := if x.isNegative then "-" else ""
    if !x.isFinite then sign ++ "inf"
    else if x.significand = 0 then sign ++ "0.0"
    else
      let p := Decimal.shortest x
      let all := Text.Numeral.digits p.digits
      sign ++ String.ofList
        (Decimal.layout (Decimal.dropTrailingZeros all) (all.length + p.exponent))

end TypeTrace
