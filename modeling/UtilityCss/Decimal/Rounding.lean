/-!
# Rounding a Quotient

The quotient of two natural numbers, rounded to the nearest integer, a tie
going to the even neighbour.

Every number the program prints or compares passes through this one function:
reading a decimal as a double, dividing for a percentage, writing a fixed
number of places. Correct rounding is therefore one fact about integers.

## Main definitions

* `roundHalfEven`: The integer nearest to a quotient, ties to even.

## Theorems

* `roundHalfEven_le`: The result is at most half a unit above the quotient.
* `le_roundHalfEven`: The result is at most half a unit below the quotient.
* `roundHalfEven_tie`: A tie goes to the even neighbour.
-/

namespace UtilityCss

namespace Decimal

/-- The integer nearest to `num / den`; halfway between two of them, the even
    one. -/
def roundHalfEven (num den : Nat) : Nat :=
  let q := num / den
  let r := num % den
  if 2 * r < den then q
  else if den < 2 * r then q + 1
  else q + q % 2

/-- The result is at most half a unit above the quotient. -/
theorem roundHalfEven_le (num den : Nat) (h : 0 < den) :
    2 * (roundHalfEven num den * den) ≤ 2 * num + den := by
  have hdiv := Nat.div_add_mod num den
  have hlt := Nat.mod_lt num h
  have hpar : num / den % 2 ≤ 1 := by omega
  rw [roundHalfEven]
  generalize hq : num / den = q at hdiv hpar
  generalize hr : num % den = r at hdiv hlt
  have hcomm : den * q = q * den := Nat.mul_comm den q
  split
  · omega
  · split
    · rw [Nat.add_mul, Nat.one_mul]
      omega
    · rw [Nat.add_mul]
      have : q % 2 * den ≤ 1 * den := Nat.mul_le_mul_right den hpar
      omega

/-- The result is at most half a unit below the quotient. -/
theorem le_roundHalfEven (num den : Nat) (h : 0 < den) :
    2 * num ≤ 2 * (roundHalfEven num den * den) + den := by
  have hdiv := Nat.div_add_mod num den
  have hlt := Nat.mod_lt num h
  rw [roundHalfEven]
  generalize hq : num / den = q at hdiv
  generalize hr : num % den = r at hdiv hlt
  have hcomm : den * q = q * den := Nat.mul_comm den q
  split
  · omega
  · split
    · rw [Nat.add_mul, Nat.one_mul]
      omega
    · rw [Nat.add_mul]
      omega

/-- A tie goes to the even neighbour. -/
theorem roundHalfEven_tie (num den : Nat) (h : 2 * (num % den) = den) :
    roundHalfEven num den % 2 = 0 := by
  rw [roundHalfEven]
  simp only [h, Nat.lt_irrefl, if_false]
  omega

end Decimal

end UtilityCss
