import UtilityCss.Decimal.Rounding
import UtilityCss.Decimal.Digits

/-!
# Fixed Places

A quotient written with a fixed number of decimal places.

The quotient is rounded once, to the nearest multiple of the last place, a tie
going to the even one; the digits are then those of an integer.

## Main definitions

* `Decimal.fixed`: A quotient with a number of places.
* `Decimal.dropFractionZeros`: The text without superfluous zeros at the end.
-/

namespace UtilityCss

namespace Decimal

/-- `num / den` with `places` decimal places, the nearest such number, ties to
    even. There is no point when there are no places. -/
def fixed (places num den : Nat) : List Char :=
  let scaled := roundHalfEven (num * Nat.pow 10 places) den
  let whole := digitsOf (scaled / Nat.pow 10 places)
  if places = 0 then whole
  else whole ++ '.' :: padLeft places (digitsOf (scaled % Nat.pow 10 places))

/-- The text without zeros at its end, and then without a point at its end. -/
def dropFractionZeros (cs : List Char) : List Char :=
  let cs := (cs.reverse.dropWhile (· = '0')).reverse
  (cs.reverse.dropWhile (· = '.')).reverse

end Decimal

end UtilityCss
