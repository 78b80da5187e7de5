import UtilityCss.Decimal.Rounding

/-!
# Doubles

Floating-point numbers of 64 bits, as exact data.

The program reads widths as doubles to order breakpoints, computes percentages
as doubles, and keeps decimal numbers of a configuration as doubles before it
prints them. What is observable is which double a decimal or a quotient rounds
to and how doubles compare; both are integer questions, and they are answered
here without the machine's own arithmetic, which proofs could not look into.

A double is a sign and a *magnitude*: the number that the 63 bits below the
sign bit spell. Magnitudes of non-negative doubles ascend with their values,
infinity follows the largest finite one and the not-a-numbers follow infinity,
so the total order of doubles is the order of `orderKey`.

A finite magnitude stands for `units` steps of `2 ^ -1074`, the distance of
the smallest doubles.

## Main definitions

* `Binary64`: A double.
* `Binary64.units`: The value of a finite magnitude, in steps of `2 ^ -1074`.
* `Binary64.magnitudeOfRatio`: The magnitude nearest to a quotient.
* `Binary64.orderKey`: The position in the total order.
* `Binary64.scale`: A double times a natural number.
-/

namespace UtilityCss

/-- A floating-point number of 64 bits. -/
structure Binary64 where
  /-- The sign bit. -/
  negative : Bool
  /-- The number that the other bits spell. -/
  magnitude : Nat
deriving DecidableEq, Repr, Inhabited

namespace Binary64

/-- One more than the number of stored significand bits patterns: the step of
    magnitudes between two powers of two. -/
def binade : Nat := Nat.pow 2 52

/-- The magnitude of infinity. -/
def infinityMagnitude : Nat := 2047 * binade

/-- The magnitude of the not-a-number that reading and arithmetic give. -/
def nanMagnitude : Nat := infinityMagnitude + Nat.pow 2 51

/-- The double is not a number. -/
def isNaN (x : Binary64) : Bool := infinityMagnitude < x.magnitude

/-- The double is an infinity. -/
def isInfinite (x : Binary64) : Bool := x.magnitude = infinityMagnitude

/-- The double is a number and not an infinity. -/
def isFinite (x : Binary64) : Bool := x.magnitude < infinityMagnitude

/-- The largest finite double. -/
def maxFinite : Binary64 := ⟨false, infinityMagnitude - 1⟩

/-- How many steps of `2 ^ -1074` make one. -/
def unit : Nat := Nat.pow 2 1074

/-- The value of a magnitude in steps of `2 ^ -1074`. The magnitude of infinity
    gets the power of two after the largest finite value, which is what
    rounding compares with. -/
def units (magnitude : Nat) : Nat :=
  if magnitude < binade then magnitude
  else (binade + magnitude % binade) * Nat.pow 2 (magnitude / binade - 1)

/-- The magnitude nearest to `num / den`, ties to the even one. A quotient past
    the largest finite double rounds to infinity.

    The quotient in steps of `2 ^ -1074` is cut to 53 bits: with `e` bits cut
    off, the rounded significand `m` and the exponent together spell
    `e * 2 ^ 52 + m`, also when rounding carries into the next power of two. -/
def magnitudeOfRatio (num den : Nat) : Nat :=
  let e := (num * unit / den).log2 + 1 - 53
  min (e * binade + Decimal.roundHalfEven (num * unit) (den * Nat.pow 2 e)) infinityMagnitude

/-- The position in the total order of doubles: negative ones below the others,
    and the farther down the greater their magnitude. -/
def orderKey (x : Binary64) : Int :=
  if x.negative then -(x.magnitude : Int) - 1 else x.magnitude

/-- A double times a natural number, rounded to nearest. Infinities and
    not-a-numbers stay. -/
def scale (k : Nat) (x : Binary64) : Binary64 :=
  if x.isFinite then ⟨x.negative, magnitudeOfRatio (units x.magnitude * k) unit⟩ else x

end Binary64

end UtilityCss
