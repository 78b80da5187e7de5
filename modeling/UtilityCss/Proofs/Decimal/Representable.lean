import Mathlib.Algebra.Group.Nat.Defs
import UtilityCss.Decimal.Binary64

/-!
# Representable Numbers Are Not Rounded

A double that is read off a quotient equal to a double is that double.

Rounding cuts the quotient to 53 bits and spells significand and exponent as one
number. For the value of a double this undoes what `units` did: the bits that are cut
off are the zeros that the exponent stands for, so nothing is rounded, and the carry
into the next power of two never happens.

## Theorems

* `roundHalfEven_mul`: A quotient that is a whole number is not rounded.
* `exists_units_eq`: The value of a magnitude as significand and exponent.
* `magnitudeOfRatio_units`: The magnitude of the value of a magnitude.
* `scale_one`: A double times one is itself.
-/

namespace UtilityCss

namespace Decimal

theorem roundHalfEven_mul (k : Nat) {den : Nat} (h : 0 < den) :
    roundHalfEven (k * den) den = k := by
  rw [roundHalfEven, Nat.mul_div_cancel _ h, Nat.mul_mod_left, Nat.mul_zero, if_pos h]

end Decimal

namespace Binary64

theorem unit_pos : 0 < unit := by
  unfold unit
  apply Nat.pow_pos
  exact Nat.zero_lt_two

theorem binade_eq : binade = 2 ^ 52 := rfl

-- A value is a significand times a power of two, and the significand and the exponent
-- together spell the magnitude.
theorem exists_units_eq (m : Nat) :
    ∃ significand e, units m = significand * 2 ^ e ∧ e * binade + significand = m ∧
      (units m).log2 + 1 - 53 = e := by
  unfold units
  by_cases hsmall : m < binade
  · -- Below the first power of two the magnitude is the value.
    refine ⟨m, 0, ?_, ?_, ?_⟩
    · rw [if_pos hsmall, Nat.pow_zero, Nat.mul_one]
    · rw [Nat.zero_mul, Nat.zero_add]
    · rw [if_pos hsmall]
      rcases Nat.eq_zero_or_pos m with rfl | hpos
      · decide
      · have hlog : m.log2 < 52 := (Nat.log2_lt (Nat.ne_of_gt hpos)).2 hsmall
        omega
  -- From there on the significand has a bit more than the magnitude spells.
  · have hpos : 0 < binade := Nat.two_pow_pos 52
    have hlow : m % binade < binade := Nat.mod_lt _ hpos
    have hhigh : 1 ≤ m / binade := (Nat.one_le_div_iff hpos).2 (Nat.le_of_not_lt hsmall)
    have hsplit : binade * (m / binade) + m % binade = m := Nat.div_add_mod m binade
    obtain ⟨e, he⟩ := Nat.exists_eq_add_of_le' hhigh
    have hvalue : m / binade - 1 = e := by omega
    rw [if_neg hsmall, hvalue, Nat.pow_eq]
    refine ⟨binade + m % binade, e, rfl, ?_, ?_⟩
    · rw [he] at hsplit
      rw [← Nat.add_assoc, ← Nat.succ_mul, Nat.mul_comm]
      exact hsplit
    · -- The significand has 53 bits, so the exponent is what is cut off.
      have hlog : ((binade + m % binade) * 2 ^ e).log2 = 52 + e := by
        have hne : (binade + m % binade) * 2 ^ e ≠ 0 :=
          Nat.mul_ne_zero (by omega) (Nat.ne_of_gt (Nat.two_pow_pos e))
        rw [binade_eq] at hlow hne ⊢
        rw [Nat.log2_eq_iff hne, Nat.add_right_comm, Nat.pow_add, Nat.pow_add 2 (52 + 1)]
        constructor
        · exact Nat.mul_le_mul_right _ (Nat.le_add_right _ _)
        · exact Nat.mul_lt_mul_of_pos_right (by omega) (Nat.two_pow_pos e)
      rw [hlog]
      omega

/-- The magnitude nearest to the value of a finite magnitude is that magnitude. -/
theorem magnitudeOfRatio_units {m : Nat} (h : m < infinityMagnitude) :
    magnitudeOfRatio (units m) unit = m := by
  rcases exists_units_eq m with ⟨significand, e, hunits, hspell, hcut⟩
  have hden : 0 < unit * 2 ^ e := Nat.mul_pos unit_pos (Nat.two_pow_pos e)
  have hnum : significand * 2 ^ e * unit = significand * (unit * 2 ^ e) := by
    rw [Nat.mul_assoc, Nat.mul_comm (2 ^ e)]
  unfold magnitudeOfRatio
  rw [Nat.mul_div_cancel _ unit_pos, hcut]
  simp only [Nat.pow_eq]
  rw [hunits, hnum, Decimal.roundHalfEven_mul _ hden, hspell]
  exact Nat.min_eq_left (Nat.le_of_lt h)

/-- A double times one is itself. -/
theorem scale_one (x : Binary64) : x.scale 1 = x := by
  unfold scale
  split
  · next hfinite =>
      rw [Nat.mul_one, magnitudeOfRatio_units (of_decide_eq_true hfinite)]
  · rfl

end Binary64

end UtilityCss
