import Mathlib.Tactic.Ring
import Mathlib.Order.Monotone.Basic
import UtilityCss.Proofs.Decimal.Representable

/-!
# Rounded Quotients

Rounding keeps the order of quotients, and keeps near them.

Two integers that rounding gives in the wrong order would have to be neighbours, and both
quotients the tie between them. A tie is rounded to the even one of two neighbours, whichever
way it is written as a quotient, so both would be even, and neighbours are not.

For doubles there is one more thing to see: with the quotient grows the number of bits that are
cut off, and where that number changes, all magnitudes of the one length are below all those of
the other. What is left of a quotient from which bits are cut off has 53 bits, so the double is
off by half a unit in the last of them.

## Main definitions

* `cutBits`, `significand`: How many bits of a quotient are cut off, and what is left.

## Theorems

* `roundHalfEven_mono`: Rounding to integers is monotone.
* `magnitudeOfRatio_mono`: So is rounding to doubles.
* `units_mono`: Values ascend with magnitudes.
* `units_spelled`: The value of a significand and an exponent.
* `units_magnitudeOfRatio_le`, `le_units_magnitudeOfRatio`: How far a double is off.
-/

namespace UtilityCss

namespace Decimal

theorem two_mul_mod_of_tie {a b k : Nat} (h : 2 * a = (2 * k + 1) * b) : 2 * (a % b) = b := by
  have hsplit : (2 * k + 1) * b = 2 * (k * b) + b := by ring
  have ha : a = b / 2 + b * k := by
    rw [Nat.mul_comm b k]
    omega
  rw [ha, Nat.add_mul_mod_self_left]
  rcases Nat.eq_zero_or_pos b with rfl | hb
  · rfl
  · rw [Nat.mod_eq_of_lt (Nat.div_lt_self hb Nat.one_lt_two)]
    omega

/-- Of two quotients the greater one is never rounded to less. -/
theorem roundHalfEven_mono {a b c d : Nat} (hb : 0 < b) (hd : 0 < d) (h : a * d ≤ c * b) :
    roundHalfEven a b ≤ roundHalfEven c d := by
  have hx := roundHalfEven_le a b hb
  have hy := le_roundHalfEven c d hd
  have hxeven := roundHalfEven_tie a b
  have hyeven := roundHalfEven_tie c d
  generalize roundHalfEven a b = x at hx hxeven ⊢
  generalize roundHalfEven c d = y at hy hyeven ⊢
  by_contra hlt
  -- Over the common denominator everything between the two results is equal.
  have hbelow : 2 * (x * (b * d)) ≤ 2 * (a * d) + b * d := by
    calc 2 * (x * (b * d)) = 2 * (x * b) * d := by ring
      _ ≤ (2 * a + b) * d := Nat.mul_le_mul_right d hx
      _ = 2 * (a * d) + b * d := by ring
  have habove : 2 * (c * b) ≤ 2 * (y * (b * d)) + b * d := by
    calc 2 * (c * b) = 2 * c * b := by ring
      _ ≤ (2 * (y * d) + d) * b := Nat.mul_le_mul_right b hy
      _ = 2 * (y * (b * d)) + b * d := by ring
  have hstep : y * (b * d) + b * d ≤ x * (b * d) := by
    rw [← Nat.succ_mul]
    exact Nat.mul_le_mul_right _ (Nat.lt_of_not_le hlt)
  have hpos : 0 < b * d := Nat.mul_pos hb hd
  have hxy : x = y + 1 := by
    refine Nat.eq_of_mul_eq_mul_right hpos ?_
    rw [Nat.succ_mul]
    omega
  have ha : 2 * a = (2 * y + 1) * b := by
    refine Nat.eq_of_mul_eq_mul_right hd ?_
    calc 2 * a * d = 2 * (a * d) := by ring
      _ = 2 * (y * (b * d)) + b * d := by omega
      _ = (2 * y + 1) * b * d := by ring
  have hc : 2 * c = (2 * y + 1) * d := by
    refine Nat.eq_of_mul_eq_mul_right hb ?_
    calc 2 * c * b = 2 * (c * b) := by ring
      _ = 2 * (y * (b * d)) + b * d := by omega
      _ = (2 * y + 1) * d * b := by ring
  have hxe := hxeven (two_mul_mod_of_tie ha)
  have hye := hyeven (two_mul_mod_of_tie hc)
  omega

theorem roundHalfEven_one (k : Nat) : roundHalfEven k 1 = k := by
  have h := roundHalfEven_mul k Nat.one_pos
  rwa [Nat.mul_one] at h

theorem roundHalfEven_le_of_le {num den k : Nat} (hden : 0 < den) (h : num ≤ k * den) :
    roundHalfEven num den ≤ k := by
  rw [← roundHalfEven_one k]
  exact roundHalfEven_mono hden Nat.one_pos (by rwa [Nat.mul_one])

theorem le_roundHalfEven_of_le {num den k : Nat} (hden : 0 < den) (h : k * den ≤ num) :
    k ≤ roundHalfEven num den := by
  rw [← roundHalfEven_one k]
  exact roundHalfEven_mono Nat.one_pos hden (by rwa [Nat.mul_one])

end Decimal

namespace Binary64

open Decimal

/-- How many bits of a quotient are cut off. -/
def cutBits (num den : Nat) : Nat := (num * unit / den).log2 + 1 - 53

/-- The bits of a quotient that are left, rounded. -/
def significand (num den : Nat) : Nat :=
  roundHalfEven (num * unit) (den * 2 ^ cutBits num den)

theorem magnitudeOfRatio_eq (num den : Nat) :
    magnitudeOfRatio num den =
      min (cutBits num den * binade + significand num den) infinityMagnitude := rfl

section

variable {num den : Nat} (hden : 0 < den)

include hden

theorem cut_pos : 0 < den * 2 ^ cutBits num den :=
  Nat.mul_pos hden (Nat.two_pow_pos _)

/-- What is left has 53 bits at most, or has been rounded up to the next power of two. -/
theorem significand_le : significand num den ≤ 2 ^ 53 := by
  refine roundHalfEven_le_of_le (cut_pos hden) ?_
  have hlog : num * unit / den < 2 ^ (53 + cutBits num den) :=
    Nat.lt_of_lt_of_le Nat.lt_log2_self
      (Nat.pow_le_pow_right Nat.two_pos (by unfold cutBits; omega))
  calc num * unit ≤ 2 ^ (53 + cutBits num den) * den :=
        Nat.le_of_lt ((Nat.div_lt_iff_lt_mul hden).1 hlog)
    _ = 2 ^ 53 * (den * 2 ^ cutBits num den) := by ring

/-- If bits are cut off, the quotient has 53 bits more than they are. -/
theorem cut_le (hcut : 0 < cutBits num den) :
    2 ^ 52 * (den * 2 ^ cutBits num den) ≤ num * unit := by
  have hne : num * unit / den ≠ 0 := by
    intro hzero
    rw [cutBits, hzero] at hcut
    exact absurd hcut (by decide)
  have hlog : 2 ^ (52 + cutBits num den) ≤ num * unit / den :=
    Nat.le_trans (Nat.pow_le_pow_right Nat.two_pos (by unfold cutBits at hcut ⊢; omega))
      (Nat.log2_self_le hne)
  calc 2 ^ 52 * (den * 2 ^ cutBits num den) = 2 ^ (52 + cutBits num den) * den := by ring
    _ ≤ num * unit := (Nat.le_div_iff_mul_le hden).1 hlog

theorem le_significand (hcut : 0 < cutBits num den) : 2 ^ 52 ≤ significand num den :=
  le_roundHalfEven_of_le (cut_pos hden) (cut_le hden hcut)

end

theorem log2_mono {m n : Nat} (h : m ≤ n) : m.log2 ≤ n.log2 := by
  rcases Nat.eq_zero_or_pos m with rfl | hm
  · exact Nat.zero_le _
  · have hn : n ≠ 0 := Nat.ne_of_gt (Nat.lt_of_lt_of_le hm h)
    exact (Nat.le_log2 hn).2 (Nat.le_trans (Nat.log2_self_le (Nat.ne_of_gt hm)) h)

section

variable {a b c d : Nat} (hb : 0 < b) (hd : 0 < d) (h : a * d ≤ c * b)

include hb hd h

theorem cutBits_mono : cutBits a b ≤ cutBits c d := by
  have hquotient : a * unit / b ≤ c * unit / d := by
    rw [Nat.le_div_iff_mul_le hd]
    refine Nat.le_of_mul_le_mul_right ?_ hb
    calc a * unit / b * d * b = a * unit / b * b * d := by ring
      _ ≤ a * unit * d := Nat.mul_le_mul_right d (Nat.div_mul_le_self _ _)
      _ = a * d * unit := by ring
      _ ≤ c * b * unit := Nat.mul_le_mul_right unit h
      _ = c * unit * b := by ring
  have hlog := log2_mono hquotient
  unfold cutBits
  omega

/-- Of two quotients the greater one is never rounded to a smaller double. -/
theorem magnitudeOfRatio_mono : magnitudeOfRatio a b ≤ magnitudeOfRatio c d := by
  rw [magnitudeOfRatio_eq, magnitudeOfRatio_eq]
  refine min_le_min_right _ ?_
  have hcut := cutBits_mono hb hd h
  rcases Nat.eq_or_lt_of_le hcut with heq | hlt
  · -- As many bits are cut off both.
    rw [heq]
    refine Nat.add_le_add_left (roundHalfEven_mono (cut_pos hb) (cut_pos hd) ?_) _
    rw [heq]
    calc a * unit * (d * 2 ^ cutBits c d) = a * d * (unit * 2 ^ cutBits c d) := by ring
      _ ≤ c * b * (unit * 2 ^ cutBits c d) := Nat.mul_le_mul_right _ h
      _ = c * unit * (b * 2 ^ cutBits c d) := by ring
  · -- All magnitudes with fewer bits cut off are below those with more.
    have hupper : significand a b ≤ 2 ^ 53 := significand_le hb
    have hlower : 2 ^ 52 ≤ significand c d :=
      le_significand hd (Nat.lt_of_le_of_lt (Nat.zero_le _) hlt)
    rw [binade_eq]
    omega

end

theorem binade_pos : 0 < binade := Nat.two_pow_pos 52

theorem two_pow_le_unit {k : Nat} (h : k ≤ 1074) : 2 ^ k ≤ unit := by
  unfold unit
  apply Nat.pow_le_pow_right
  · exact Nat.two_pos
  · exact h

theorem unit_le_two_pow {k : Nat} (h : 1074 ≤ k) : unit ≤ 2 ^ k := by
  unfold unit
  apply Nat.pow_le_pow_right
  · exact Nat.two_pos
  · exact h

/-- Below the first power of two the magnitude is the value. -/
theorem units_small {m : Nat} (h : m < binade) : units m = m := if_pos h

/-- Above it a magnitude is an exponent and the bits behind the first one. -/
theorem units_large (e : Nat) {r : Nat} (hr : r < binade) :
    units ((e + 1) * binade + r) = (binade + r) * 2 ^ e := by
  have hdiv : ((e + 1) * binade + r) / binade = e + 1 := by
    rw [Nat.add_comm, Nat.add_mul_div_right _ _ binade_pos, Nat.div_eq_of_lt hr, Nat.zero_add]
  have hmod : ((e + 1) * binade + r) % binade = r := by
    rw [Nat.add_comm, Nat.add_mul_mod_self_right, Nat.mod_eq_of_lt hr]
  have hlarge : ¬ (e + 1) * binade + r < binade := by
    rw [Nat.succ_mul]
    omega
  rw [units, if_neg hlarge, hdiv, hmod]
  rfl

/-- Values ascend with magnitudes. -/
theorem units_mono : Monotone units := by
  refine monotone_nat_of_le_succ fun m => ?_
  have hr := Nat.mod_lt m binade_pos
  have hsplit := Nat.div_add_mod' m binade
  generalize m % binade = r at hr hsplit
  generalize m / binade = k at hsplit
  -- The next magnitude is in the same binade, or it is the first one of the next.
  have hnext : r + 1 < binade ∨ r + 1 = binade := Nat.lt_or_eq_of_le hr
  rcases k with _ | e
  · rw [Nat.zero_mul, Nat.zero_add] at hsplit
    subst hsplit
    rw [units_small hr]
    rcases hnext with hnext | hnext
    · rw [units_small hnext]
      exact Nat.le_succ r
    · have hpower := units_large 0 binade_pos
      rw [Nat.zero_add, Nat.one_mul, Nat.add_zero, Nat.pow_zero, Nat.mul_one] at hpower
      rw [hnext, hpower]
      exact Nat.le_of_lt hr
  · subst hsplit
    rw [units_large e hr]
    rcases hnext with hnext | hnext
    · rw [Nat.add_assoc, units_large e hnext]
      exact Nat.mul_le_mul_right _ (by omega)
    · -- The bits behind the first one are used up, and the exponent grows.
      have hpower := units_large (e + 1) binade_pos
      rw [Nat.add_zero, Nat.add_zero, Nat.pow_succ', ← Nat.mul_assoc] at hpower
      rw [Nat.add_assoc, hnext, ← Nat.succ_mul, hpower]
      exact Nat.mul_le_mul_right _ (by omega)

/-! ### Distance -/

/-- Significand and exponent together spell the magnitude of their value, also if the
    significand has been rounded up to a power of two. -/
theorem units_spelled {e m : Nat} (hlow : e = 0 ∨ 2 ^ 52 ≤ m) (hhigh : m ≤ 2 ^ 53) :
    units (e * binade + m) = m * 2 ^ e := by
  have hbinade := binade_eq
  rcases Nat.lt_or_ge m binade with hsmall | hlarge
  · have he : e = 0 := hlow.resolve_right (by omega)
    rw [he, Nat.zero_mul, Nat.zero_add, units_small hsmall, Nat.pow_zero, Nat.mul_one]
  -- A significand that has been rounded up to a power of two spells the next exponent.
  · rcases Nat.lt_or_ge (m - binade) binade with hrest | hpower
    · have hspell : e * binade + m = (e + 1) * binade + (m - binade) := by
        rw [Nat.succ_mul]
        omega
      rw [hspell, units_large e hrest, Nat.add_sub_cancel' hlarge]
    · have hm : m = 2 * binade := by omega
      have hspell : e * binade + m = (e + 1 + 1) * binade + 0 := by
        rw [hm]
        ring
      rw [hspell, units_large (e + 1) binade_pos, hm, Nat.add_zero, Nat.pow_succ', ← Nat.mul_assoc,
        Nat.mul_comm binade]

section

variable {num den : Nat} (hden : 0 < den) (hcut : 0 < cutBits num den)
  (hfinite : cutBits num den < 2045)

include hden hcut hfinite

theorem units_magnitudeOfRatio :
    units (magnitudeOfRatio num den) = significand num den * 2 ^ cutBits num den := by
  have hhigh : significand num den ≤ 2 ^ 53 := significand_le hden
  have hlow := le_significand hden hcut
  rw [magnitudeOfRatio_eq, Nat.min_eq_left, units_spelled (Or.inr hlow) hhigh]
  rw [infinityMagnitude, binade_eq]
  omega

/-- A double is at most a part in `2 ^ 53` above the quotient that is rounded to it. -/
theorem units_magnitudeOfRatio_le :
    2 ^ 53 * (units (magnitudeOfRatio num den) * den) ≤ 2 ^ 53 * (num * unit) + num * unit := by
  have hround : 2 * (significand num den * (den * 2 ^ cutBits num den)) ≤
      2 * (num * unit) + den * 2 ^ cutBits num den := roundHalfEven_le _ _ (cut_pos hden)
  have hle := cut_le hden hcut
  rw [units_magnitudeOfRatio hden hcut hfinite]
  calc 2 ^ 53 * (significand num den * 2 ^ cutBits num den * den)
      = 2 ^ 52 * (2 * (significand num den * (den * 2 ^ cutBits num den))) := by ring
    _ ≤ 2 ^ 52 * (2 * (num * unit) + den * 2 ^ cutBits num den) := Nat.mul_le_mul_left _ hround
    _ = 2 ^ 53 * (num * unit) + 2 ^ 52 * (den * 2 ^ cutBits num den) := by ring
    _ ≤ 2 ^ 53 * (num * unit) + num * unit := Nat.add_le_add_left hle _

/-- It is no more below it. -/
theorem le_units_magnitudeOfRatio :
    2 ^ 53 * (num * unit) ≤ 2 ^ 53 * (units (magnitudeOfRatio num den) * den) + num * unit := by
  have hround : 2 * (num * unit) ≤ 2 * (significand num den * (den * 2 ^ cutBits num den)) +
      den * 2 ^ cutBits num den := le_roundHalfEven _ _ (cut_pos hden)
  have hle := cut_le hden hcut
  rw [units_magnitudeOfRatio hden hcut hfinite]
  calc 2 ^ 53 * (num * unit) = 2 ^ 52 * (2 * (num * unit)) := by ring
    _ ≤ 2 ^ 52 * (2 * (significand num den * (den * 2 ^ cutBits num den)) +
          den * 2 ^ cutBits num den) := Nat.mul_le_mul_left _ hround
    _ = 2 ^ 53 * (significand num den * 2 ^ cutBits num den * den) +
          2 ^ 52 * (den * 2 ^ cutBits num den) := by ring
    _ ≤ 2 ^ 53 * (significand num den * 2 ^ cutBits num den * den) + num * unit :=
        Nat.add_le_add_left hle _

end

end Binary64

end UtilityCss
