import UtilityCss.Text.Cut
import UtilityCss.Decimal.Binary64
import UtilityCss.Decimal.Fixed

/-!
# Value Transforms

Values computed from a key that no scale holds.

A fraction such as `1/2` becomes a percentage, a number becomes a grid of that
many columns or a span over them. The numbers are natural numbers below
`2 ^ 32` and may carry a plus sign; what is written is the number itself, so
`+3` and `03` give what `3` gives.

A percentage is the double nearest to the quotient, written with six places
and then without superfluous zeros.

## Main definitions

* `Transform`: The ways to compute a value.
* `Transform.valueFor?`: The value of a key.
-/

namespace UtilityCss

/-- How a value is computed from a key that no scale holds. -/
inductive Transform where
  /-- Not at all. -/
  | none
  /-- `1/2` gives `50%`. -/
  | fraction
  /-- `3` gives a grid of three equal columns. -/
  | gridRepeat
  /-- `2` gives a span of two. -/
  | span
deriving DecidableEq, Repr, Inhabited

namespace Transform

/-- A natural number below `2 ^ 32`. -/
def number? (cs : List Char) : Option Nat := Decimal.unsigned? (Nat.pow 2 32) cs

/-- A number from 1 to 99. -/
def count? (cs : List Char) : Option Nat :=
  (number? cs).filter fun n => 1 ≤ n && n ≤ 99

/-- The percentage `100 * num / den`: the nearest double with six places,
    without superfluous zeros. -/
def percent (num den : Nat) : List Char :=
  let magnitude := Binary64.magnitudeOfRatio (num * 100) den
  Decimal.dropFractionZeros (Decimal.fixed 6 (Binary64.units magnitude) Binary64.unit)

/-- A fraction: two numbers around the first slash, the second not zero. -/
def fraction? (cs : List Char) : Option (Nat × Nat) :=
  match Text.cutFirst '/' cs with
  | Option.none => Option.none
  | some (num, den) =>
    match number? num, number? den with
    | some n, some d => if d = 0 then Option.none else some (n, d)
    | _, _ => Option.none

/-- The value of a key, if the transform gives one. -/
def valueFor? (t : Transform) (key : String) : Option String :=
  match t with
  | .none => Option.none
  | .fraction =>
    (fraction? key.toList).map fun (n, d) => String.ofList (percent n d ++ ['%'])
  | .gridRepeat => (count? key.toList).map fun n => s!"repeat({n}, minmax(0, 1fr))"
  | .span => (count? key.toList).map fun n => s!"span {n} / span {n}"

end Transform

end UtilityCss
