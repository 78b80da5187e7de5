/-!
# Decimal Digits

Natural numbers and their decimal digits.

## Main definitions

* `digitValue`: The number a digit stands for.
* `valueOfDigits`: The number a list of digits spells.
* `digitsOf`: The digits of a number.
* `padLeft`: Digits filled up with leading zeros.
* `unsigned?`: A number below a bound, with an optional plus sign.
-/

namespace UtilityCss

namespace Decimal

/-- The number a decimal digit stands for. -/
def digitValue (c : Char) : Nat := c.toNat - '0'.toNat

/-- The number a list of decimal digits spells. -/
def valueOfDigits (cs : List Char) : Nat :=
  cs.foldl (fun n c => n * 10 + digitValue c) 0

/-- The decimal digits of a number. -/
def digitsOf (n : Nat) : List Char := Nat.toDigits 10 n

/-- Digits filled up with leading zeros to a width. -/
def padLeft (width : Nat) (cs : List Char) : List Char :=
  List.replicate (width - cs.length) '0' ++ cs

/-- The number that decimal digits with an optional plus sign spell, if it is
    below `bound`. -/
def unsigned? (bound : Nat) (cs : List Char) : Option Nat :=
  let digits := match cs with
    | '+' :: rest => rest
    | _ => cs
  if digits.isEmpty || !digits.all Char.isDigit then none
  else
    let n := valueOfDigits digits
    if n < bound then some n else none

end Decimal

end UtilityCss
