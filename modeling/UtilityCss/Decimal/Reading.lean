import UtilityCss.Decimal.Binary64
import UtilityCss.Decimal.Digits

/-!
# Reading Doubles

The double that a decimal text stands for.

A decimal is an optional sign, digits with at most one point and at least one
digit, and an optional exponent; the words `inf`, `infinity` and `nan` are
read in any letter case. The value is the double nearest to the exact decimal.

Exponents can be huge, so the power of ten is only computed where the decimal
can be near a double: past `10 ^ 310` it is infinite and below `10 ^ -330` it
is zero whatever its digits are.

## Main definitions

* `Decimal.Unsigned`: Digits and a power of ten.
* `Decimal.Unsigned.magnitude`: The nearest magnitude.
* `Decimal.readUnsigned?`: A decimal without sign.
* `Decimal.readDouble?`: A signed decimal or a named value.
-/

namespace UtilityCss

namespace Decimal

/-- The number `digits * 10 ^ exponent`. -/
structure Unsigned where
  /-- The digits, as a number. -/
  digits : Nat
  /-- The power of ten. -/
  exponent : Int
deriving DecidableEq, Repr

/-- The magnitude of the double nearest to a decimal. -/
def Unsigned.magnitude (d : Unsigned) : Nat :=
  if d.digits = 0 then 0
  else
    let top := d.exponent + (digitsOf d.digits).length
    if 310 < top then Binary64.infinityMagnitude
    else if top < -330 then 0
    else if 0 ≤ d.exponent then
      Binary64.magnitudeOfRatio (d.digits * Nat.pow 10 d.exponent.toNat) 1
    else Binary64.magnitudeOfRatio d.digits (Nat.pow 10 (-d.exponent).toNat)

/-- An exponent: an optional sign and at least one digit. -/
def readExponent? (cs : List Char) : Option Int :=
  let (negative, digits) := match cs with
    | '-' :: rest => (true, rest)
    | '+' :: rest => (false, rest)
    | _ => (false, cs)
  if digits.isEmpty || !digits.all Char.isDigit then none
  else
    let n := valueOfDigits digits
    some (if negative then -(n : Int) else n)

/-- A decimal without sign: digits with at most one point and at least one
    digit, then perhaps `e` or `E` and an exponent. -/
def readUnsigned? (cs : List Char) : Option Unsigned :=
  let whole := cs.takeWhile Char.isDigit
  let rest := cs.dropWhile Char.isDigit
  let (fraction, rest) := match rest with
    | '.' :: rest => (rest.takeWhile Char.isDigit, rest.dropWhile Char.isDigit)
    | _ => ([], rest)
  if whole.isEmpty && fraction.isEmpty then none
  else
    let digits := valueOfDigits (whole ++ fraction)
    match rest with
    | [] => some ⟨digits, -(fraction.length : Int)⟩
    | c :: rest =>
      if c = 'e' ∨ c = 'E' then
        (readExponent? rest).map fun e => ⟨digits, e - fraction.length⟩
      else none

/-- The magnitude of a decimal without sign, or of a named value. -/
def readMagnitude? (cs : List Char) : Option Nat :=
  match readUnsigned? cs with
  | some d => some d.magnitude
  | none =>
    let word := String.ofList (cs.map Char.toLower)
    if word = "inf" ∨ word = "infinity" then some Binary64.infinityMagnitude
    else if word = "nan" then some Binary64.nanMagnitude
    else none

/-- The double that a text stands for: an optional sign, then a decimal or a
    named value. -/
def readDouble? (cs : List Char) : Option Binary64 :=
  match cs with
  | '-' :: rest => (readMagnitude? rest).map fun m => ⟨true, m⟩
  | '+' :: rest => (readMagnitude? rest).map fun m => ⟨false, m⟩
  | _ => (readMagnitude? cs).map fun m => ⟨false, m⟩

end Decimal

end UtilityCss
