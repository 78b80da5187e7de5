import UtilityCss.Decimal.Binary64
import UtilityCss.Decimal.Digits

/-!
# Shortest Decimals

The decimal with the fewest digits that reads back as a given double.

A decimal reads back as a double exactly when it lies between the midpoints to
the two neighbouring doubles, midpoints included when the significand is even.
For one digit, two digits and so on, the two points of that decimal grid around
the value are tested; the first grid with a hit gives the digits, and of two
hits the nearer one. Seventeen digits always suffice.

How the digits are laid out is a decision of the format and is kept apart in
one record.

## Main definitions

* `Decimal.shortest`: Digits and the position of the point.
* `Decimal.Layout`: Where positional notation is used.
* `Decimal.layOut`: Digits as text.
-/

namespace UtilityCss

namespace Decimal

/-- Digits `d₁d₂…` standing for `0.d₁d₂… * 10 ^ point`. -/
structure Digits where
  /-- The digits, the first one not zero. -/
  digits : List Char
  /-- The position of the point, counted from before the first digit. -/
  point : Int
deriving DecidableEq, Repr

/-- The decimal `k * 10 ^ exponent` as a quotient. -/
def gridPoint (k : Nat) (exponent : Int) : Nat × Nat :=
  if 0 ≤ exponent then (k * Nat.pow 10 exponent.toNat, 1)
  else (k, Nat.pow 10 (-exponent).toNat)

/-- The decimal `k * 10 ^ exponent` reads back as the double of a magnitude. -/
def readsBack (magnitude k : Nat) (exponent : Int) : Bool :=
  let (num, den) := gridPoint k exponent
  -- Twice the decimal, in the denominator of the doubles times `den`.
  let twice := 2 * num * Binary64.unit
  let low := (Binary64.units (magnitude - 1) + Binary64.units magnitude) * den
  let high := (Binary64.units magnitude + Binary64.units (magnitude + 1)) * den
  if magnitude % 2 = 0 then low ≤ twice && twice ≤ high
  else low < twice && twice < high

/-- The position of the point of a magnitude: the least `p` with the value
    below `10 ^ p`. -/
def pointOf (magnitude : Nat) : Int :=
  let v := Binary64.units magnitude
  if Binary64.unit ≤ v then ((digitsOf (v / Binary64.unit)).length : Int)
  else
    -- The value is below one: `unit / v` shows how many zeros follow the point.
    let zeros := (digitsOf ((Binary64.unit - 1) / v)).length - 1
    if Binary64.unit ≤ v * Nat.pow 10 zeros then 1 - (zeros : Int)
    else -(zeros : Int)

/-- The point of a decimal grid nearest to the value of a magnitude, among
    those that read back. The grid has the step `10 ^ exponent`. -/
def gridHit? (magnitude : Nat) (exponent : Int) : Option Nat :=
  let v := Binary64.units magnitude
  -- The quotient of the value by the step.
  let (num, den) :=
    if 0 ≤ exponent then (v, Binary64.unit * Nat.pow 10 exponent.toNat)
    else (v * Nat.pow 10 (-exponent).toNat, Binary64.unit)
  let below := num / den
  match readsBack magnitude below exponent && 0 < below,
      readsBack magnitude (below + 1) exponent with
  | true, true =>
    let r := 2 * (num % den)
    some (if r < den then below
      else if den < r then below + 1
      else below + below % 2)
  | true, false => some below
  | false, true => some (below + 1)
  | false, false => none

/-- The first grid with a hit, from `count` digits on, with `fuel` more grids
    to try. -/
def shortestFrom (magnitude : Nat) (point : Int) : Nat → Nat → Nat × Int
  | 0, count => (Binary64.units magnitude, count)
  | fuel + 1, count =>
    match gridHit? magnitude (point - count) with
    | some k => (k, point - count)
    | none => shortestFrom magnitude point fuel (count + 1)

/-- The shortest digits of a positive magnitude. -/
def shortest (magnitude : Nat) : Digits :=
  let (k, exponent) := shortestFrom magnitude (pointOf magnitude) 17 1
  let digits := digitsOf k
  -- A hit that carries into a power of ten brings zeros along.
  ⟨(digits.reverse.dropWhile (· = '0')).reverse, exponent + digits.length⟩

/-- Where positional notation is used. -/
structure Layout where
  /-- The greatest position of the point written positionally. -/
  highestPoint : Int
  /-- The position at and below which numbers are written with an exponent. -/
  lowestPoint : Int

/-- Digits as text: positional where the layout says so, always with a point;
    elsewhere one digit before the point, and `e` with a plain exponent. -/
def layOut (layout : Layout) (d : Digits) : List Char :=
  let n : Int := d.digits.length
  if 0 < d.point && d.point ≤ layout.highestPoint then
    if n ≤ d.point then
      d.digits ++ List.replicate (d.point - n).toNat '0' ++ ['.', '0']
    else d.digits.take d.point.toNat ++ '.' :: d.digits.drop d.point.toNat
  else if layout.lowestPoint < d.point && d.point ≤ 0 then
    '0' :: '.' :: (List.replicate (-d.point).toNat '0' ++ d.digits)
  else
    let exponent := (toString (d.point - 1)).toList
    match d.digits with
    | [] => []
    | [c] => c :: 'e' :: exponent
    | c :: cs => c :: '.' :: (cs ++ 'e' :: exponent)

end Decimal

end UtilityCss
