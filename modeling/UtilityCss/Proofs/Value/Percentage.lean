import Mathlib.Algebra.Order.Field.Rat
import Mathlib.Data.List.DropRight
import Mathlib.Tactic.FieldSimp
import Mathlib.Tactic.GCongr
import Mathlib.Tactic.Linarith
import Mathlib.Tactic.Positivity
import Mathlib.Tactic.Zify
import UtilityCss.Proofs.Decimal.Monotone
import UtilityCss.Proofs.Value.Numeral
import UtilityCss.Value.Transform

/-!
# Percentages

The percentages that fractions such as `1/2` are computed to.

A percentage is rounded twice, to a double and then to six places, and printed with the zeros at
its end taken off. Both roundings are monotone, so the number of millionths that is printed is
monotone in the fraction, whatever numbers it is written with. Of two equal fractions each is at
most the other, and so they have the same millionths and the same text.

Taking off zeros is done to the whole text and could reach into the whole part of the number. It
does not, since the point stands in between, and the point is only taken off when no place is
left behind it. What is printed is a numeral, and its value is the number of millionths.

The two roundings are also near. A double has 53 bits, and the quotient of two numbers below
`2 ^ 32` is so far from the smallest doubles that it has all of them.

## Main definitions

* `Decimal.keptPlaces`: The places that are not superfluous.
* `Transform.ofMillionths`: A number of millionths as a percentage.
* `Transform.percentage`: The percentage of a quotient.
* `Transform.IsShort`: A percentage with nothing superfluous in it.
* `Transform.IsFraction`: A key that is a fraction.
* `Transform.WritesPercentages`: What becomes of fractions.

## Theorems

* `Decimal.dropFractionZeros_point`: Zeros are dropped behind the point only.
* `Transform.value_ofMillionths`, `Transform.text_ofMillionths`: Percentages and their text.
* `Transform.percentage_div`: Equal fractions have one percentage.
* `Transform.percentage_mono`: Percentages are monotone.
* `Transform.abs_millionths_sub_le`: They are near.
* `Transform.writesPercentages`: What becomes of every key.
-/

namespace UtilityCss

namespace Decimal

/-! ### Digits -/

theorem valueOfDigits_eq (cs : List Char) : valueOfDigits cs = Nat.ofDigitChars 10 cs 0 := by
  rw [valueOfDigits, Nat.ofDigitChars_eq_foldl]
  exact congrArg (cs.foldl · 0) (funext fun n => funext fun c => by rw [Nat.mul_comm]; rfl)

theorem valueOfDigits_append (cs ds : List Char) :
    valueOfDigits (cs ++ ds) = 10 ^ ds.length * valueOfDigits cs + valueOfDigits ds := by
  rw [valueOfDigits_eq, valueOfDigits_eq, valueOfDigits_eq, Nat.ofDigitChars_append,
    Nat.ofDigitChars_eq_ofDigitChars_zero]

theorem valueOfDigits_replicate (k : Nat) : valueOfDigits (List.replicate k '0') = 0 := by
  rw [valueOfDigits_eq, Nat.ofDigitChars_replicate_zero, Nat.mul_zero]

theorem valueOfDigits_digitsOf (n : Nat) : valueOfDigits (digitsOf n) = n := by
  rw [valueOfDigits_eq, digitsOf, Nat.ofDigitChars_ten_toDigits]

theorem isDigit_of_mem_digitsOf {n : Nat} {c : Char} (h : c ∈ digitsOf n) : c.isDigit = true :=
  Nat.isDigit_of_mem_toDigits (by decide) (by decide) h

section

variable {width n : Nat}

theorem isDigit_of_mem_padLeft {c : Char} (h : c ∈ padLeft width (digitsOf n)) :
    c.isDigit = true := by
  rcases List.mem_append.1 h with h | h
  · rw [List.eq_of_mem_replicate h]
    decide
  · exact isDigit_of_mem_digitsOf h

theorem valueOfDigits_padLeft : valueOfDigits (padLeft width (digitsOf n)) = n := by
  rw [padLeft, valueOfDigits_append, valueOfDigits_replicate, valueOfDigits_digitsOf, Nat.mul_zero,
    Nat.zero_add]

/-- Padded to a width that they fit in, digits have that width. -/
theorem length_padLeft (hwidth : 0 < width) (hn : n < 10 ^ width) :
    (padLeft width (digitsOf n)).length = width := by
  have hlength : (digitsOf n).length ≤ width := (Nat.length_toDigits_le_iff (by decide) hwidth).2 hn
  rw [padLeft, List.length_append, List.length_replicate, Nat.sub_add_cancel hlength]

end

/-! ### Superfluous zeros -/

/-- The places that are left without zeros at the end, if any are left. -/
def keptPlaces (places : List Char) : Option (List Char) :=
  if places.rdropWhile (· = '0') = [] then none else some (places.rdropWhile (· = '0'))

theorem getD_keptPlaces (places : List Char) :
    (keptPlaces places).getD [] = places.rdropWhile (· = '0') := by
  unfold keptPlaces
  split
  · next h => exact h.symm
  · rfl

/-- Only zeros are not kept. -/
theorem exists_append_keptPlaces (places : List Char) :
    ∃ k, places = (keptPlaces places).getD [] ++ List.replicate k '0' := by
  refine ⟨(places.rtakeWhile (· = '0')).length, ?_⟩
  have hzeros : places.rtakeWhile (· = '0') =
      List.replicate (places.rtakeWhile (· = '0')).length '0' :=
    List.eq_replicate_iff.2 ⟨rfl, fun c hc =>
      of_decide_eq_true (List.mem_rtakeWhile_imp (p := (· = '0')) hc)⟩
  rw [getD_keptPlaces, ← hzeros, List.rdropWhile_append_rtakeWhile]

/-- What is kept is not empty and does not end in a zero. -/
theorem keptPlaces_eq_some {places kept : List Char} (h : keptPlaces places = some kept) :
    kept ≠ [] ∧ kept <+: places ∧ ∀ c, kept.getLast? = some c → c ≠ '0' := by
  rw [keptPlaces, Option.ite_none_left_eq_some] at h
  rcases h with ⟨hne, hkept⟩
  rw [Option.some.injEq] at hkept
  subst hkept
  refine ⟨hne, List.rdropWhile_prefix _ _, fun c hc hzero => ?_⟩
  have hlast := List.rdropWhile_last_not (· = '0') places hne
  rw [List.getLast?_eq_some_getLast hne, Option.some.injEq] at hc
  rw [hc, hzero] at hlast
  exact hlast (by decide)

/-- A zero that is not kept takes a factor of ten out of both the digits and the places. -/
theorem valueOfDigits_keptPlaces (whole places : List Char) :
    (valueOfDigits (whole ++ (keptPlaces places).getD []) : ℚ) /
        10 ^ ((keptPlaces places).getD []).length =
      valueOfDigits (whole ++ places) / 10 ^ places.length := by
  rcases exists_append_keptPlaces places with ⟨k, hplaces⟩
  generalize (keptPlaces places).getD [] = kept at hplaces ⊢
  subst hplaces
  have hvalue : valueOfDigits (whole ++ (kept ++ List.replicate k '0')) =
      10 ^ k * valueOfDigits (whole ++ kept) := by
    rw [← List.append_assoc, valueOfDigits_append, valueOfDigits_replicate,
      List.length_replicate, Nat.add_zero]
  have hpower : (10 : ℚ) ^ k ≠ 0 := pow_ne_zero k (by norm_num)
  rw [hvalue, List.length_append, List.length_replicate, pow_add, Nat.cast_mul, Nat.cast_pow,
    Nat.cast_ofNat, mul_comm ((10 : ℚ) ^ k), mul_div_mul_right _ _ hpower]

theorem rdropWhile_append {p : Char → Bool} (cs ds : List Char) :
    (cs ++ ds).rdropWhile p =
      if ds.rdropWhile p = [] then cs.rdropWhile p else cs ++ ds.rdropWhile p := by
  simp only [List.rdropWhile, List.reverse_append, List.dropWhile_append, List.isEmpty_iff,
    List.reverse_eq_nil_iff]
  split
  · rfl
  · rw [List.reverse_append, List.reverse_reverse]

theorem rdropWhile_point {cs : List Char} (h : ∀ c ∈ cs, c.isDigit = true) :
    cs.rdropWhile (· = '.') = cs := by
  refine List.rdropWhile_eq_self_iff.2 fun hne hlast => ?_
  have hdigit := h _ (List.getLast_mem hne)
  rw [of_decide_eq_true hlast] at hdigit
  exact absurd hdigit (by decide)

/-- Zeros are dropped behind the point only, and the point is dropped if it comes last. -/
theorem dropFractionZeros_point {whole places : List Char}
    (hwhole : ∀ c ∈ whole, c.isDigit = true) (hplaces : ∀ c ∈ places, c.isDigit = true) :
    dropFractionZeros (whole ++ '.' :: places) = Numeral.point whole (keptPlaces places) := by
  have hdrop : dropFractionZeros (whole ++ '.' :: places) =
      ((whole ++ ['.'] ++ places).rdropWhile (· = '0')).rdropWhile (· = '.') := by
    rw [List.append_assoc]
    rfl
  have hkept : ∀ c ∈ places.rdropWhile (· = '0'), c.isDigit = true := fun c hc =>
    hplaces c ((List.rdropWhile_prefix _ places).subset hc)
  rw [hdrop, rdropWhile_append, keptPlaces]
  split
  · -- The zeros of the whole part stand behind no point.
    rw [List.rdropWhile_concat, if_neg (by decide), List.rdropWhile_concat, if_pos (by decide),
      rdropWhile_point hwhole]
    rfl
  · next hne =>
      rw [rdropWhile_append, rdropWhile_point hkept, if_neg hne, List.append_assoc]
      rfl

end Decimal

namespace Transform

open Decimal

/-! ### Numerals of percentages -/

/-- The percentage of a number of millionths. -/
def ofMillionths (s : Nat) : Numeral where
  sign := .none
  whole := digitsOf (s / 10 ^ 6)
  fraction := keptPlaces (padLeft 6 (digitsOf (s % 10 ^ 6)))
  unit := ['%']
  isDigit_digits := by
    intro c hc
    rcases List.mem_append.1 hc with hc | hc
    · exact isDigit_of_mem_digitsOf hc
    · rw [getD_keptPlaces] at hc
      exact isDigit_of_mem_padLeft ((List.rdropWhile_prefix _ _).subset hc)
  digits_ne_nil := List.append_ne_nil_of_left_ne_nil Nat.toDigits_ne_nil _
  unit_listed := Or.inr (by decide)

theorem value_ofMillionths (s : Nat) : (ofMillionths s).value = s / 10 ^ 6 := by
  have hlow : s % 10 ^ 6 < 10 ^ 6 := Nat.mod_lt s (by decide)
  have hlength := length_padLeft (by decide) hlow
  have hvalue : valueOfDigits (digitsOf (s / 10 ^ 6) ++ padLeft 6 (digitsOf (s % 10 ^ 6))) = s := by
    rw [valueOfDigits_append, hlength, valueOfDigits_digitsOf, valueOfDigits_padLeft]
    exact Nat.div_add_mod s (10 ^ 6)
  have hkept := valueOfDigits_keptPlaces (digitsOf (s / 10 ^ 6)) (padLeft 6 (digitsOf (s % 10 ^ 6)))
  rw [hvalue, hlength] at hkept
  exact (one_mul _).trans hkept

/-- The text of a percentage is a number of six places without superfluous zeros. -/
theorem text_ofMillionths (s : Nat) :
    (ofMillionths s).text = dropFractionZeros (digitsOf (s / 10 ^ 6) ++
      '.' :: padLeft 6 (digitsOf (s % 10 ^ 6))) ++ ['%'] := by
  rw [dropFractionZeros_point (fun _ hc => isDigit_of_mem_digitsOf hc)
    (fun _ hc => isDigit_of_mem_padLeft hc)]
  rfl

/-- A percentage as it is written: no sign, at most six places, none of them superfluous, and
    no point without places. -/
structure IsShort (n : Numeral) : Prop where
  /-- There is no sign. -/
  sign : n.sign = .none
  /-- The number is a percentage. -/
  unit : n.unit = ['%']
  /-- There are digits in front of the point. -/
  whole : n.whole ≠ []
  /-- There are one to six places behind the point, if there is a point. -/
  places : ∀ f, n.fraction = some f → 0 < f.length ∧ f.length ≤ 6
  /-- The last place is not zero. -/
  last : ∀ f c, n.fraction = some f → f.getLast? = some c → c ≠ '0'

theorem isShort_ofMillionths (s : Nat) : IsShort (ofMillionths s) where
  sign := rfl
  unit := rfl
  whole := Nat.toDigits_ne_nil
  places := by
    intro f hf
    rcases keptPlaces_eq_some hf with ⟨hne, hprefix, -⟩
    have hlength := length_padLeft (by decide) (Nat.mod_lt s (by decide : 0 < 10 ^ 6))
    exact ⟨List.length_pos_iff.2 hne, hlength ▸ hprefix.length_le⟩
  last := by
    intro f c hf hc
    exact (keptPlaces_eq_some hf).2.2 c hc

/-! ### Rounding -/

/-- The percentage of a quotient in millionths, rounded to a double and then to an integer. -/
def millionths (num den : Nat) : Nat :=
  roundHalfEven (Binary64.units (Binary64.magnitudeOfRatio (num * 100) den) * 10 ^ 6) Binary64.unit

theorem text_millionths (num den : Nat) :
    (ofMillionths (millionths num den)).text = percent num den ++ ['%'] := by
  rw [text_ofMillionths]
  rfl

theorem millionths_mono {n d n' d' : Nat} (hd : 0 < d) (hd' : 0 < d') (h : n * d' ≤ n' * d) :
    millionths n d ≤ millionths n' d' := by
  have hratio : n * 100 * d' ≤ n' * 100 * d := by
    calc n * 100 * d' = 100 * (n * d') := by ring
      _ ≤ 100 * (n' * d) := Nat.mul_le_mul_left 100 h
      _ = n' * 100 * d := by ring
  refine roundHalfEven_mono Binary64.unit_pos Binary64.unit_pos (Nat.mul_le_mul_right _ ?_)
  exact Nat.mul_le_mul_right _ (Binary64.units_mono (Binary64.magnitudeOfRatio_mono hd hd' hratio))

/-- The percentage of a rational number, with nought for a negative one. -/
def percentage (q : ℚ) : Numeral := ofMillionths (millionths q.num.toNat q.den)

/-- A fraction has the percentage of its value, reduced or not. -/
theorem percentage_div (n : Nat) {d : Nat} (hd : 0 < d) :
    percentage (n / d) = ofMillionths (millionths n d) := by
  have hcross : ((n : ℚ) / d).num.toNat * d = n * ((n : ℚ) / d).den := by
    have hnum : 0 ≤ ((n : ℚ) / d).num := Rat.num_nonneg.2 (by positivity)
    have hden : (((n : ℚ) / d).den : ℚ) ≠ 0 := Nat.cast_ne_zero.2 (Rat.den_nz _)
    have hd' : (d : ℚ) ≠ 0 := Nat.cast_ne_zero.2 (Nat.ne_of_gt hd)
    have heq := (div_eq_div_iff hden hd').1 (Rat.num_div_den ((n : ℚ) / d))
    have hint : ((n : ℚ) / d).num * d = n * ((n : ℚ) / d).den := by exact_mod_cast heq
    zify
    rw [Int.toNat_of_nonneg hnum]
    exact hint
  exact congrArg ofMillionths (Nat.le_antisymm
    (millionths_mono (Rat.den_pos _) hd (Nat.le_of_eq hcross))
    (millionths_mono hd (Rat.den_pos _) (Nat.le_of_eq hcross.symm)))

/-- The greater a fraction, the greater its percentage. -/
theorem percentage_mono : Monotone fun q => (percentage q).value := by
  intro q r hqr
  have hcross : q.num.toNat * r.den ≤ r.num.toNat * q.den := by
    have hle := (Rat.le_iff q r).1 hqr
    rcases le_total q.num 0 with hneg | hpos
    · rw [Int.toNat_of_nonpos hneg, Nat.zero_mul]
      exact Nat.zero_le _
    · have hr : 0 ≤ r.num := Rat.num_nonneg.2 ((Rat.num_nonneg.1 hpos).trans hqr)
      zify
      rw [Int.toNat_of_nonneg hpos, Int.toNat_of_nonneg hr]
      exact hle
  have hmono := millionths_mono (Rat.den_pos q) (Rat.den_pos r) hcross
  show (percentage q).value ≤ (percentage r).value
  rw [percentage, percentage, value_ofMillionths, value_ofMillionths]
  gcongr

/-! ### Distance -/

theorem abs_roundHalfEven_sub_le (num : Nat) {den : Nat} (hden : 0 < den) :
    |(roundHalfEven num den : ℚ) - num / den| ≤ 1 / 2 := by
  have hpos : (0 : ℚ) < den := Nat.cast_pos.2 hden
  have habove : (2 : ℚ) * (roundHalfEven num den * den) ≤ 2 * num + den := by
    exact_mod_cast roundHalfEven_le num den hden
  have hbelow : (2 : ℚ) * num ≤ 2 * (roundHalfEven num den * den) + den := by
    exact_mod_cast le_roundHalfEven num den hden
  have hquotient : (num : ℚ) / den * den = num := div_mul_cancel₀ _ hpos.ne'
  rw [abs_sub_le_iff]
  constructor
  · refine le_of_mul_le_mul_right ?_ hpos
    linarith
  · refine le_of_mul_le_mul_right ?_ hpos
    linarith

theorem abs_units_sub_le {num den : Nat} (hden : 0 < den) (hcut : 0 < Binary64.cutBits num den)
    (hfinite : Binary64.cutBits num den < 2045) :
    |(Binary64.units (Binary64.magnitudeOfRatio num den) : ℚ) / Binary64.unit - num / den| ≤
      num / den / 2 ^ 53 := by
  have hunit : (0 : ℚ) < Binary64.unit := Nat.cast_pos.2 Binary64.unit_pos
  have hpos : (0 : ℚ) < den := Nat.cast_pos.2 hden
  have habove := Binary64.units_magnitudeOfRatio_le hden hcut hfinite
  have hbelow := Binary64.le_units_magnitudeOfRatio hden hcut hfinite
  -- Both bounds are about whole numbers; they are divided by the unit and the denominator
  -- here.
  generalize Binary64.units (Binary64.magnitudeOfRatio num den) = value at habove hbelow ⊢
  generalize Binary64.unit = unit at hunit habove hbelow ⊢
  have habove' : (2 : ℚ) ^ 53 * (value * den) ≤ 2 ^ 53 * (num * unit) + num * unit := by
    exact_mod_cast habove
  have hbelow' : (2 : ℚ) ^ 53 * (num * unit) ≤ 2 ^ 53 * (value * den) + num * unit := by
    exact_mod_cast hbelow
  have hscale : (0 : ℚ) < 2 ^ 53 * (unit * den) := by positivity
  have hvalue : (value : ℚ) / unit * (2 ^ 53 * (unit * den)) = 2 ^ 53 * (value * den) := by
    field_simp
  have hratio : (num : ℚ) / den * (2 ^ 53 * (unit * den)) = 2 ^ 53 * (num * unit) := by
    field_simp
  have hbound : (num : ℚ) / den / 2 ^ 53 * (2 ^ 53 * (unit * den)) = num * unit := by
    field_simp
  rw [abs_sub_le_iff]
  constructor
  · refine le_of_mul_le_mul_right ?_ hscale
    rw [sub_mul, hvalue, hratio, hbound]
    linarith
  · refine le_of_mul_le_mul_right ?_ hscale
    rw [sub_mul, hvalue, hratio, hbound]
    linarith

-- A quotient of numbers below `2 ^ 32` is far from the smallest and the greatest doubles.
theorem cutBits_percent {n d : Nat} (hn : 0 < n) (hn' : n < 2 ^ 32) (hd : 0 < d)
    (hd' : d < 2 ^ 32) :
    0 < Binary64.cutBits (n * 100) d ∧ Binary64.cutBits (n * 100) d < 2045 := by
  have hunit : 2 ^ 85 ≤ Binary64.unit := Binary64.two_pow_le_unit (by decide)
  have hlow : 2 ^ 53 ≤ n * 100 * Binary64.unit / d := by
    rw [Nat.le_div_iff_mul_le hd]
    calc 2 ^ 53 * d ≤ 2 ^ 53 * 2 ^ 32 := Nat.mul_le_mul_left _ (Nat.le_of_lt hd')
      _ ≤ Binary64.unit := hunit
      _ ≤ n * 100 * Binary64.unit := Nat.le_mul_of_pos_left _ (by omega)
  -- The exponent is kept as a variable, or the power would be computed.
  rcases (⟨1074, rfl⟩ : ∃ u, u = 1074) with ⟨u, hu⟩
  have hhigh : n * 100 * Binary64.unit / d < 2 ^ (39 + u) := by
    calc n * 100 * Binary64.unit / d ≤ n * 100 * Binary64.unit := Nat.div_le_self _ _
      _ < 2 ^ 39 * Binary64.unit := Nat.mul_lt_mul_of_pos_right (by omega) Binary64.unit_pos
      _ ≤ 2 ^ 39 * 2 ^ u := Nat.mul_le_mul_left _ (Binary64.unit_le_two_pow (Nat.le_of_eq hu.symm))
      _ = 2 ^ (39 + u) := (Nat.pow_add 2 39 u).symm
  have hne : n * 100 * Binary64.unit / d ≠ 0 :=
    Nat.ne_of_gt (Nat.lt_of_lt_of_le (Nat.two_pow_pos 53) hlow)
  have hlog := (Nat.le_log2 hne).2 hlow
  have hlog' := (Nat.log2_lt hne).2 hhigh
  unfold Binary64.cutBits
  omega

theorem millionths_zero {d : Nat} (hd : 0 < d) : millionths 0 d = 0 := by
  have hcut : Binary64.cutBits 0 d = 0 := by
    rw [Binary64.cutBits, Nat.zero_mul, Nat.zero_div]
    decide
  have hmagnitude : Binary64.magnitudeOfRatio 0 d = 0 := by
    have hsignificand : Binary64.significand 0 d = 0 :=
      Nat.le_zero.1 (roundHalfEven_le_of_le (Binary64.cut_pos hd) (by rw [Nat.zero_mul, Nat.zero_mul]))
    rw [Binary64.magnitudeOfRatio_eq, hcut, hsignificand, Nat.zero_mul, Nat.zero_add,
      Nat.zero_min]
  rw [millionths, Nat.zero_mul, hmagnitude, Binary64.units_small Binary64.binade_pos, Nat.zero_mul]
  exact Nat.le_zero.1 (roundHalfEven_le_of_le Binary64.unit_pos (Nat.zero_le _))

/-- The percentage of a fraction is off by half a millionth, and by a part in `2 ^ 53` where the
    double is. -/
theorem abs_millionths_sub_le {n d : Nat} (hn : n < 2 ^ 32) (hd : 0 < d) (hd' : d < 2 ^ 32) :
    |(millionths n d : ℚ) / 10 ^ 6 - 100 * ((n : ℚ) / d)| ≤
      1 / (2 * 10 ^ 6) + 100 * ((n : ℚ) / d) / 2 ^ 53 := by
  rcases Nat.eq_zero_or_pos n with rfl | hpos
  · rw [millionths_zero hd]
    norm_num
  · rcases cutBits_percent hpos hn hd hd' with ⟨hcut, hfinite⟩
    have hdouble := abs_units_sub_le hd hcut hfinite
    have hplaces := abs_roundHalfEven_sub_le
      (Binary64.units (Binary64.magnitudeOfRatio (n * 100) d) * 10 ^ 6) Binary64.unit_pos
    unfold millionths
    generalize Binary64.units (Binary64.magnitudeOfRatio (n * 100) d) = value at hdouble hplaces ⊢
    generalize roundHalfEven (value * 10 ^ 6) Binary64.unit = rounded at hplaces ⊢
    generalize Binary64.unit = unit at hdouble hplaces
    rw [Nat.cast_mul, Nat.cast_ofNat] at hdouble
    rw [Nat.cast_mul, Nat.cast_pow, Nat.cast_ofNat] at hplaces
    -- Rounding to millionths and rounding to a double each have their share of the
    -- distance.
    have hscaled : (rounded : ℚ) / 10 ^ 6 - 100 * (n / d) =
        (rounded - value * 10 ^ 6 / unit) / 10 ^ 6 + (value / unit - n * 100 / d) := by ring
    rw [hscaled]
    calc _ ≤ |(rounded - (value : ℚ) * 10 ^ 6 / unit) / 10 ^ 6| +
          |(value : ℚ) / unit - n * 100 / d| := abs_add_le _ _
      _ ≤ 1 / 2 / 10 ^ 6 + n * 100 / d / 2 ^ 53 := by
          rw [abs_div, abs_of_pos (by norm_num : (0 : ℚ) < 10 ^ 6)]
          gcongr
      _ = 1 / (2 * 10 ^ 6) + 100 * (n / d) / 2 ^ 53 := by ring

/-! ### Keys -/

/-- The text is a natural number below `2 ^ 32` in decimal digits, after a plus sign or not. -/
def IsNumber (cs : List Char) (n : Nat) : Prop :=
  ∃ digits, (cs = digits ∨ cs = '+' :: digits) ∧ digits ≠ [] ∧ (∀ c ∈ digits, c.isDigit = true) ∧
    valueOfDigits digits = n ∧ n < 2 ^ 32

/-- The key is a fraction: two numbers around its first slash, the second one not zero. -/
def IsFraction (key : String) (n d : Nat) : Prop :=
  ∃ before after, key.toList = before ++ '/' :: after ∧ '/' ∉ before ∧ IsNumber before n ∧
    IsNumber after d ∧ d ≠ 0

theorem number?_eq_some_iff {cs : List Char} {n : Nat} :
    number? cs = some n ↔ IsNumber cs n := by
  -- A plus sign may stand in front, and what follows is read in the same way.
  have hdigits : ∀ {digits : List Char},
      (if (digits.isEmpty || !digits.all Char.isDigit) = true then Option.none
        else if valueOfDigits digits < Nat.pow 2 32 then some (valueOfDigits digits)
        else Option.none) = some n ↔
      digits ≠ [] ∧ (∀ c ∈ digits, c.isDigit = true) ∧ valueOfDigits digits = n ∧ n < 2 ^ 32 := by
    intro digits
    rw [Option.ite_none_left_eq_some, Option.ite_none_right_eq_some, Option.some.injEq,
      Bool.or_eq_true, not_or, List.isEmpty_iff, Bool.not_eq_true', Bool.not_eq_false,
      List.all_eq_true, and_assoc]
    refine and_congr_right fun _ => and_congr_right fun _ => ?_
    constructor
    · rintro ⟨hlt, rfl⟩
      exact ⟨rfl, hlt⟩
    · rintro ⟨rfl, hlt⟩
      exact ⟨hlt, rfl⟩
  unfold number? unsigned?
  split
  · next rest =>
      rw [hdigits]
      constructor
      · exact fun h => ⟨rest, Or.inr rfl, h⟩
      · rintro ⟨digits, heq | heq, hne, hall, hvalue⟩
        · exact absurd (hall '+' (heq ▸ List.mem_cons_self)) (by decide)
        · rw [(List.cons.inj heq).2]
          exact ⟨hne, hall, hvalue⟩
  · next hplus =>
      rw [hdigits]
      constructor
      · exact fun h => ⟨cs, Or.inl rfl, h⟩
      · rintro ⟨digits, heq | heq, h⟩
        · rw [heq]
          exact h
        · exact absurd heq (hplus digits)

theorem fraction?_eq_some_iff {key : String} {n d : Nat} :
    fraction? key.toList = some (n, d) ↔ IsFraction key n d := by
  unfold fraction? IsFraction
  simp only [← number?_eq_some_iff]
  constructor
  · intro h
    rcases hcut : Text.cutFirst '/' key.toList with _ | ⟨before, after⟩
    · simp only [hcut, reduceCtorEq] at h
    · rcases Text.eq_of_cutFirst hcut with ⟨hkey, hslash⟩
      refine ⟨before, after, hkey, hslash, ?_⟩
      -- Both sides of the slash have to be numbers.
      rcases hn : number? before with _ | n' <;> rcases hd : number? after with _ | d'
      all_goals simp only [hcut, hn, hd, reduceCtorEq] at h
      rw [Option.ite_none_left_eq_some, Option.some.injEq, Prod.mk.injEq] at h
      rcases h with ⟨hne, rfl, rfl⟩
      exact ⟨rfl, rfl, hne⟩
  · rintro ⟨before, after, hkey, hslash, hn, hd, hne⟩
    rw [hkey, Text.cutFirst_append hslash]
    simp only [hn, hd, if_neg hne]

theorem IsNumber.lt {cs : List Char} {n : Nat} (h : IsNumber cs n) : n < 2 ^ 32 := by
  rcases h with ⟨-, -, -, -, -, hlt⟩
  exact hlt

/-- The percentages that fractions are computed to. -/
structure WritesPercentages : Prop where
  /-- There is a value exactly for the keys that are fractions. -/
  accepted : ∀ key,
    (valueFor? .fraction key).isSome = true ↔ ∃ n d, IsFraction key n d
  /-- The value is the text of a percentage that depends on the quotient only. -/
  written : ∀ key n d, IsFraction key n d →
    valueFor? .fraction key = some (String.ofList (percentage ((n : ℚ) / d)).text)
  /-- A percentage has no sign, at most six places and nothing superfluous. -/
  short : ∀ q, IsShort (percentage q)
  /-- Percentages are monotone in the quotient. -/
  monotone : Monotone fun q => (percentage q).value
  /-- A percentage is the quotient times a hundred, up to the two roundings. -/
  near : ∀ key n d, IsFraction key n d →
    |(percentage ((n : ℚ) / d)).value - 100 * ((n : ℚ) / d)| ≤
      1 / (2 * 10 ^ 6) + 100 * ((n : ℚ) / d) / 2 ^ 53

/-- Which keys are fractions, and how their percentages are written. -/
theorem writesPercentages : WritesPercentages where
  accepted := by
    intro key
    rw [valueFor?, Option.isSome_map, Option.isSome_iff_exists]
    simp only [Prod.exists, fraction?_eq_some_iff]
  written := by
    intro key n d h
    have hd : d ≠ 0 := by
      rcases h with ⟨-, -, -, -, -, -, hd⟩
      exact hd
    rw [percentage_div n (Nat.pos_of_ne_zero hd), text_millionths]
    rw [valueFor?, fraction?_eq_some_iff.2 h]
    rfl
  short := fun q => isShort_ofMillionths _
  monotone := percentage_mono
  near := by
    rintro key n d ⟨before, after, -, -, hn, hd, hne⟩
    have hpos := Nat.pos_of_ne_zero hne
    -- The text is written for the millionths, so it is as near as they are.
    rw [percentage_div n hpos, value_ofMillionths]
    exact abs_millionths_sub_le hn.lt hpos hd.lt

end Transform

end UtilityCss
