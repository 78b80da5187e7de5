import Mathlib.Tactic.Ring
import UtilityCss.Proofs.Resolution.Longest
import UtilityCss.Proofs.Value.Numeral

/-!
# Opposite Numbers

Which numbers in brackets can be negated, and what comes out.

A value is negated as a text. A minus sign in front is dropped, a zero stays as it is, and
in front of anything else that starts with a digit or a point a minus sign is put. No
arithmetic is done, so the result has all the digits, and its unit is that of the value.

A value with a plus sign falls between these cases: it starts neither with a minus sign nor
as a number does. The validation of bracketed values takes both signs, so such a value is
accepted and has no opposite (`not_opposes_plus`). It is the only one: a number that passes
the validation can be negated exactly if it has no plus sign (`opposes_iff`).

Whether a text is a zero is asked by looking past zeros and points for the start of a unit.
For a numeral that is the question whether all its digits are zeros, because no unit starts
with a digit or a point.

## Main definitions

* `Numeral.opposite`: The numeral of the opposite value.
* `Numeral.Opposes`: A text of the opposite value in the same unit.

## Theorems

* `value_opposite`: The opposite has the opposite value.
* `isZero_iff`: A text is taken for a zero exactly if the numeral is one.
* `negateChars?_text`: A numeral is negated to its opposite, unless it has a plus sign.
* `exists_ofReading?_iff`: When a utility takes what stands between brackets.
* `opposes_iff`: When a number in brackets can be negated, and what comes out.
* `not_opposes_plus`: A number with a plus sign is accepted and cannot be negated.
-/

namespace UtilityCss

namespace Numeral

variable {n : Numeral}

/-- The numeral of the opposite value. -/
def opposite (n : Numeral) : Numeral :=
  { n with sign := if n.sign = .minus ∨ n.value = 0 then .none else .minus }

/-- The text is that of a numeral with the opposite value in the same unit. -/
def Opposes (n : Numeral) (w : String) : Prop :=
  ∃ m : Numeral, m.text = w.toList ∧ m.unit = n.unit ∧ m.value = -n.value

/-- The character is one that a zero is made of. -/
def isNought (c : Char) : Bool := c = '0' || c = '.'

/-! ### Characters -/

theorem figures_ne_nil (n : Numeral) : n.figures ≠ [] := by
  have hne := n.digits_ne_nil
  unfold figures point
  cases hfraction : n.fraction with
  | none =>
      rw [hfraction, Option.getD_none, List.append_nil] at hne
      exact hne
  | some fraction => exact List.append_ne_nil_of_right_ne_nil _ (List.cons_ne_nil _ _)

theorem of_mem_figures {c : Char} (hc : c ∈ n.figures) :
    c.isDigit = true ∨ c = '.' :=
  (mem_point hc).imp_left (n.isDigit_digits c)

theorem mem_figures_of_mem_digits {c : Char} (hc : c ∈ n.digits) : c ∈ n.figures := by
  unfold digits at hc
  unfold figures point
  cases hfraction : n.fraction with
  | none => simpa [hfraction] using hc
  | some fraction =>
      rw [hfraction, Option.getD_some, List.mem_append] at hc
      simp only [List.mem_append, List.mem_cons]
      exact hc.imp_right Or.inr

theorem of_mem_unit {c : Char} (hc : c ∈ n.unit) : c.isAlpha = true ∨ c = '%' := by
  have hunits : ArbitraryValue.lengthUnits.all
      (fun u => u.toList.all fun c => c.isLower || c = '%') = true := by decide +kernel
  rcases n.unit_listed with hnil | hunit
  · rw [hnil] at hc
    exact absurd hc List.not_mem_nil
  · have hall := List.all_eq_true.1 hunits _ hunit
    rw [String.toList_ofList] at hall
    have hchar := List.all_eq_true.1 hall c.toLower (List.mem_map_of_mem hc)
    simp only [Bool.or_eq_true, decide_eq_true_eq] at hchar
    -- A unit is listed in lower case, so the character is a letter or the percent sign.
    rcases hchar with hlower | hpercent
    · rcases ArbitraryValue.toLower_eq_self_or c with hself | ⟨halpha, -⟩
      · rw [hself] at hlower
        exact Or.inl (Bool.or_eq_true_iff.2 (Or.inr hlower))
      · exact Or.inl halpha
    · exact Or.inr (ArbitraryValue.eq_of_toLower hpercent (by decide))

/-! ### Zeros -/

theorem digitValue_eq_zero_iff {c : Char} (h : c.isDigit = true) :
    Decimal.digitValue c = 0 ↔ c = '0' := by
  have hdigits : ∀ k < 10, Decimal.digitValue (Char.ofNat (48 + k)) = 0 ↔
      Char.ofNat (48 + k) = '0' := by decide
  rcases ArbitraryValue.exists_eq_of_isDigit h with ⟨k, hk, rfl⟩
  exact hdigits k hk

theorem valueOfDigits_eq_zero_iff {cs : List Char} (h : ∀ c ∈ cs, c.isDigit = true) :
    Decimal.valueOfDigits cs = 0 ↔ ∀ c ∈ cs, c = '0' := by
  -- A number that has become positive stays so.
  have hfold : ∀ (cs : List Char) (k : Nat), (∀ c ∈ cs, c.isDigit = true) →
      (cs.foldl (fun n c => n * 10 + Decimal.digitValue c) k = 0 ↔
        k = 0 ∧ ∀ c ∈ cs, c = '0') := by
    intro cs
    induction cs with
    | nil =>
        intro k _
        simp only [List.foldl_nil, List.not_mem_nil, false_implies, implies_true, and_true]
    | cons c cs ih =>
        intro k hcs
        rcases List.forall_mem_cons.1 hcs with ⟨hc, hrest⟩
        rw [List.foldl_cons, ih _ hrest, List.forall_mem_cons, ← digitValue_eq_zero_iff hc]
        constructor
        · rintro ⟨hsum, hzeros⟩
          exact ⟨by omega, by omega, hzeros⟩
        · rintro ⟨hk, hdigit, hzeros⟩
          exact ⟨by omega, hzeros⟩
  rw [Decimal.valueOfDigits, hfold cs 0 h]
  exact and_iff_right rfl

theorem factor_ne_zero (sign : Sign) : sign.factor ≠ 0 := by
  cases sign
  · exact one_ne_zero
  · exact one_ne_zero
  · exact neg_ne_zero.2 one_ne_zero

theorem value_eq_zero_iff : n.value = 0 ↔ ∀ c ∈ n.digits, c = '0' := by
  have hpower : ((10 : ℚ) ^ (n.fraction.getD []).length) ≠ 0 := pow_ne_zero _ (by norm_num)
  have hdigits : Decimal.valueOfDigits n.digits = 0 ↔ ∀ c ∈ n.digits, c = '0' :=
    valueOfDigits_eq_zero_iff n.isDigit_digits
  rw [← hdigits, value, mul_eq_zero,
    or_iff_right (factor_ne_zero n.sign), div_eq_zero_iff, or_iff_left hpower, Nat.cast_eq_zero]

theorem startsNumber_figures (n : Numeral) (rest : List Char) :
    Value.startsNumber (n.figures ++ rest) = true := by
  rcases hfigures : n.figures with _ | ⟨c, cs⟩
  · exact absurd hfigures n.figures_ne_nil
  · have hc : c ∈ n.figures := by
      rw [hfigures]
      exact List.mem_cons_self
    rw [List.cons_append, Value.startsNumber, Bool.or_eq_true, decide_eq_true_eq]
    exact of_mem_figures hc

theorem isNought_iff {c : Char} : isNought c = true ↔ c = '0' ∨ c = '.' := by
  rw [isNought, Bool.or_eq_true, decide_eq_true_eq, decide_eq_true_eq]

-- No unit starts with a character that a zero is made of.
theorem startsUnit_dropWhile_unit (n : Numeral) :
    Value.startsUnit (n.unit.dropWhile isNought) = true := by
  rcases hunit : n.unit with _ | ⟨c, cs⟩
  · rfl
  · have hc : c.isAlpha = true ∨ c = '%' := by
      refine of_mem_unit (n := n) ?_
      rw [hunit]
      exact List.mem_cons_self
    have hnot : ¬isNought c = true := by
      rw [isNought_iff]
      rintro (rfl | rfl)
      · exact absurd hc (by decide)
      · exact absurd hc (by decide)
    rw [List.dropWhile_cons_of_neg hnot, Value.startsUnit, Bool.or_eq_true, decide_eq_true_eq]
    exact hc

-- A digit that is no zero is what a reader past zeros and points finds, and it starts no unit.
theorem startsUnit_dropWhile_figures {d : Char} {cs : List Char}
    (h : n.figures.dropWhile isNought = d :: cs) (rest : List Char) :
    Value.startsUnit (d :: (cs ++ rest)) = false := by
  have hmem : d ∈ n.figures := by
    refine (List.dropWhile_sublist isNought).subset ?_
    rw [h]
    exact List.mem_cons_self
  have hnot : isNought d = false := by
    have hhead := List.head?_dropWhile_not isNought n.figures
    rw [h] at hhead
    simpa using hhead
  -- A figure is a digit or the point, and a point would have been passed.
  have hdigit : d.isDigit = true := by
    refine (of_mem_figures hmem).resolve_right fun hpoint => ?_
    rw [isNought_iff.2 (Or.inr hpoint)] at hnot
    exact absurd hnot.symm Bool.false_ne_true
  have hdigits : ∀ k < 10, (Char.ofNat (48 + k)).isAlpha = false ∧
      Char.ofNat (48 + k) ≠ '%' := by decide
  rcases ArbitraryValue.exists_eq_of_isDigit hdigit with ⟨k, hk, rfl⟩
  rw [Value.startsUnit, (hdigits k hk).1, decide_eq_false (hdigits k hk).2]
  rfl

/-- A text is taken for a zero exactly if the numeral is one. -/
theorem isZero_iff : Value.isZero (n.figures ++ n.unit) = true ↔ n.value = 0 := by
  have hzero : Value.isZero (n.figures ++ n.unit)
      = Value.startsUnit ((n.figures ++ n.unit).dropWhile isNought) := by
    rw [Value.isZero, startsNumber_figures, Bool.true_and]
    rfl
  rw [hzero, value_eq_zero_iff, List.dropWhile_append]
  rcases hrest : n.figures.dropWhile isNought with _ | ⟨d, rest⟩
  · rw [List.isEmpty_nil, if_pos rfl]
    refine iff_of_true (startsUnit_dropWhile_unit n) fun c hc => ?_
    have hchar := List.dropWhile_eq_nil_iff.1 hrest c (mem_figures_of_mem_digits hc)
    refine (isNought_iff.1 hchar).resolve_right ?_
    rintro rfl
    exact absurd (n.isDigit_digits _ hc) (by decide)
  · rw [List.isEmpty_cons, if_neg Bool.false_ne_true, List.cons_append,
      startsUnit_dropWhile_figures hrest]
    refine iff_of_false Bool.false_ne_true fun hzeros => ?_
    -- With zeros only, nothing would be left of the figures.
    have hnil : n.figures.dropWhile isNought = [] := by
      refine List.dropWhile_eq_nil_iff.2 fun c hc => isNought_iff.2 ?_
      exact (mem_point hc).imp_left (hzeros c)
    rw [hrest] at hnil
    exact absurd hnil (List.cons_ne_nil d rest)

/-! ### Negation -/

theorem negateChars?_minus (cs : List Char) : Value.negateChars? ('-' :: cs) = some cs := by
  have hzero : Value.isZero ('-' :: cs) = false := rfl
  rw [Value.negateChars?.eq_def, hzero, if_neg Bool.false_ne_true]
  rfl

theorem negateChars?_of_startsNumber {cs : List Char} (hstarts : Value.startsNumber cs = true) :
    Value.negateChars? cs = some (if Value.isZero cs then cs else '-' :: cs) := by
  rw [Value.negateChars?.eq_def]
  by_cases hzero : Value.isZero cs = true
  · rw [if_pos hzero, if_pos hzero]
  · rw [if_neg hzero, if_neg hzero]
    split
    · exact absurd hstarts Bool.false_ne_true
    · rw [if_pos hstarts]

theorem negateChars?_plus {cs : List Char} (h : '(' ∉ cs) :
    Value.negateChars? ('+' :: cs) = none := by
  have hzero : Value.isZero ('+' :: cs) = false := rfl
  have hstarts : Value.startsNumber ('+' :: cs) = false := rfl
  have hcall : ('+' :: cs).contains '(' = false := by
    rw [List.contains_eq_mem, decide_eq_false_iff_not, List.mem_cons, not_or]
    exact ⟨by decide, h⟩
  rw [Value.negateChars?.eq_def, hzero, if_neg Bool.false_ne_true]
  simp only [hstarts, hcall, Bool.false_eq_true, if_false]
  rfl

theorem parenthesis_not_mem (n : Numeral) : '(' ∉ n.figures ++ n.unit := by
  intro hmem
  rcases List.mem_append.1 hmem with hmem | hmem
  · exact absurd (of_mem_figures hmem) (by decide)
  · exact absurd (of_mem_unit hmem) (by decide)

theorem sign_opposite (n : Numeral) :
    n.opposite.sign = if n.sign = .minus ∨ n.value = 0 then .none else .minus := rfl

theorem sign_opposite_ne (n : Numeral) : n.opposite.sign ≠ .plus := by
  rw [sign_opposite]
  split
  · simp only [ne_eq, reduceCtorEq, not_false_eq_true]
  · simp only [ne_eq, reduceCtorEq, not_false_eq_true]

theorem text_opposite (n : Numeral) :
    n.opposite.text = n.opposite.sign.text ++ (n.figures ++ n.unit) := rfl

/-- The opposite has the opposite value. -/
theorem value_opposite (hsign : n.sign ≠ .plus) : n.opposite.value = -n.value := by
  -- Zero has no minus sign put in front of it, but it is its own opposite.
  by_cases hzero : n.value = 0
  · have hdigits : n.opposite.value = 0 :=
      value_eq_zero_iff.2 fun c hc => value_eq_zero_iff.1 hzero c hc
    rw [hdigits, hzero, neg_zero]
  · have hvalue : n.opposite.value = n.opposite.sign.factor
        * (Decimal.valueOfDigits n.digits / 10 ^ (n.fraction.getD []).length) := rfl
    rw [hvalue, sign_opposite]
    simp only [hzero, or_false]
    rw [value]
    cases hn : n.sign with
    | none =>
        rw [if_neg (by simp only [reduceCtorEq, not_false_eq_true])]
        simp only [Sign.factor]
        ring
    | plus => exact absurd hn hsign
    | minus =>
        rw [if_pos rfl]
        simp only [Sign.factor]
        ring

/-- A numeral without plus sign is negated to its opposite, and no numeral with one is. -/
theorem negateChars?_text (n : Numeral) :
    Value.negateChars? n.text = if n.sign = .plus then none else some n.opposite.text := by
  rw [text_opposite, sign_opposite, text]
  cases hn : n.sign with
  | plus =>
      rw [if_pos rfl]
      exact negateChars?_plus n.parenthesis_not_mem
  | minus =>
      -- The sign is taken off, be the numeral a zero or not.
      rw [if_neg (by simp only [reduceCtorEq, not_false_eq_true]), if_pos (Or.inl rfl)]
      exact negateChars?_minus _
  | none =>
      rw [if_neg (by simp only [reduceCtorEq, not_false_eq_true]), Sign.text, List.nil_append,
        negateChars?_of_startsNumber (startsNumber_figures n n.unit)]
      simp only [isZero_iff, reduceCtorEq, false_or]
      split
      · rfl
      · rfl

/-- A numeral has an opposite exactly if it has no plus sign, and the opposite is a numeral
    of the opposite value, which has an opposite in turn. -/
theorem opposes_of_negate? (n : Numeral) {v w : String} (hv : n.text = v.toList)
    (h : Value.negate? v = some w) :
    n.Opposes w ∧ (n.value = 0 → n.sign = .none → w = v) ∧
      ∃ v', Value.negate? w = some v' ∧
        ∃ m : Numeral, m.text = v'.toList ∧ m.unit = n.unit ∧ m.value = n.value := by
  rw [Value.negate?, ← hv, negateChars?_text] at h
  split at h
  · simp only [Option.map_none, reduceCtorEq] at h
  · next hsign =>
      rw [Option.map_some, Option.some.injEq] at h
      subst h
      have hvalue := value_opposite hsign
      refine ⟨⟨n.opposite, String.toList_ofList.symm, rfl, hvalue⟩, fun hzero hnone => ?_, ?_⟩
      · rw [← String.toList_inj, String.toList_ofList, ← hv, text_opposite, sign_opposite,
          if_pos (Or.inr hzero), text, hnone]
      -- The opposite has no plus sign either, so it has an opposite in turn.
      · refine ⟨String.ofList n.opposite.opposite.text, ?_, n.opposite.opposite,
          String.toList_ofList.symm, rfl, ?_⟩
        · rw [Value.negate?, String.toList_ofList, negateChars?_text, if_neg n.sign_opposite_ne,
            Option.map_some]
        · rw [value_opposite n.sign_opposite_ne, hvalue, neg_neg]

theorem isSome_negate?_iff (n : Numeral) {v : String} (hv : n.text = v.toList) :
    (Value.negate? v).isSome = true ↔ n.sign ≠ .plus := by
  rw [Value.negate?, Option.isSome_map, ← hv, negateChars?_text]
  split
  · next hsign => simp only [hsign, Option.isSome_none, Bool.false_eq_true, ne_eq,
      not_true_eq_false]
  · next hsign => simp only [hsign, Option.isSome_some, ne_eq, not_false_eq_true]

/-! ### Utilities -/

/-- A utility that can be negated takes what stands between brackets if one of its targets
    accepts it and it can have the sign. -/
theorem exists_ofReading?_iff {theme : Theme} {g : Grammar} {r : Token.Reading}
    {found : Ranked Utility} {inner key : String} (negative : Bool)
    (hfound : g.utility? r.stem = some found) (hnegatable : found.item.negatable = true)
    (hvalue : r.value = some key) (hkey : key.toList = '[' :: (inner.toList ++ [']'])) :
    (∃ resolution, Resolution.ofReading? theme g negative r = some resolution) ↔
      ∃ v, ArbitraryValue.parse? inner = some v ∧
        (∃ t ∈ found.item.targets, t.accepts.admits v = true) ∧
        ∃ w, Resolution.signed? negative v.value = some w := by
  have hne : some key ≠ some defaultKey := by
    intro heq
    rw [Option.some.inj heq] at hkey
    exact absurd (List.cons.inj hkey).1 (by decide)
  have hsign : (negative && !found.item.negatable) = false := by
    rw [hnegatable, Bool.not_true, Bool.and_false]
  -- The key is in brackets, so the axes of the theme are not looked at.
  have hreading : Resolution.ofReading? theme g negative r
      = (Resolution.ofBracketed? found.item.targets negative inner).map fun declarations =>
        ⟨declarations, .utilities, found.rank⟩ := by
    rw [Resolution.ofReading?, hfound, hvalue,
      Resolution.keyOf?_eq_some_iff.2 ⟨hne, Option.getD_some⟩]
    simp only [hsign, Bool.false_eq_true, if_false, Resolution.ofKey?,
      Resolution.bracketed?_eq_some_iff.2 hkey]
  rw [hreading]
  constructor
  · rintro ⟨resolution, hresolution⟩
    rcases Option.map_eq_some_iff.1 hresolution with ⟨declarations, hdeclarations, -⟩
    rcases Resolution.ofBracketed?_eq_some_iff.1 hdeclarations with ⟨v, t, w, hv, ht, hw, -⟩
    have haccepts := List.find?_some (p := fun t : Target => t.accepts.admits v) ht
    exact ⟨v, hv, ⟨t, List.mem_of_find?_eq_some ht, haccepts⟩, w, hw⟩
  · rintro ⟨v, hv, ⟨t, ht, haccepts⟩, w, hw⟩
    have hfind : (found.item.targets.find? fun t => t.accepts.admits v).isSome = true :=
      List.find?_isSome.2 ⟨t, ht, haccepts⟩
    rcases Option.isSome_iff_exists.1 hfind with ⟨first, hfirst⟩
    have hbracketed : Resolution.ofBracketed? found.item.targets negative inner
        = some (first.declarations w) :=
      Resolution.ofBracketed?_eq_some_iff.2 ⟨v, first, w, hv, hfirst, hw, rfl⟩
    rw [hbracketed]
    exact ⟨_, rfl⟩

/-- A value in brackets that passes for a number is a numeral. It can be negated exactly if
    it has no plus sign. What comes out is a numeral of the opposite value in the same unit,
    a zero without sign stays as it is, and negating again gives the value back. A utility
    that can be negated and takes the number takes its negative exactly if it has no plus
    sign. -/
theorem opposes_iff {raw : String} {v : ArbitraryValue}
    (h : ArbitraryValue.parse? raw = some v) (hhint : ':' ∉ raw.toList)
    (hkind : v.kind = .length ∨ v.kind = .number) :
    (∃ n : Numeral, n.text = v.value.toList) ∧
      ∀ n : Numeral, n.text = v.value.toList →
        ((Resolution.signed? true v.value).isSome = true ↔ n.sign ≠ .plus) ∧
        (∀ w, Resolution.signed? true v.value = some w →
          n.Opposes w ∧ (n.value = 0 → n.sign = .none → w = v.value) ∧
            ∃ v', Resolution.signed? true w = some v' ∧
              ∃ m : Numeral, m.text = v'.toList ∧ m.unit = n.unit ∧ m.value = n.value) ∧
        ∀ (theme : Theme) (g : Grammar) (r : Token.Reading) (found : Ranked Utility)
          (key : String), g.utility? r.stem = some found → found.item.negatable = true →
          r.value = some key → key.toList = '[' :: (raw.toList ++ [']']) →
          (∃ resolution, Resolution.ofReading? theme g false r = some resolution) →
            ((∃ resolution, Resolution.ofReading? theme g true r = some resolution) ↔
              n.sign ≠ .plus) := by
  refine ⟨ArbitraryValue.exists_numeral_of_parse? h hhint hkind, fun n hn => ?_⟩
  refine ⟨isSome_negate?_iff n hn, fun w hw => opposes_of_negate? n hn hw, ?_⟩
  intro theme g r found key hfound hnegatable hvalue hkey hpositive
  -- The targets are asked about the value as it stands, so the sign is all that is left.
  rcases (exists_ofReading?_iff false hfound hnegatable hvalue hkey).1 hpositive
    with ⟨v', hv', htarget, -⟩
  rw [h, Option.some.injEq] at hv'
  subst hv'
  rw [exists_ofReading?_iff true hfound hnegatable hvalue hkey, ← isSome_negate?_iff n hn,
    Option.isSome_iff_exists]
  constructor
  · rintro ⟨other, hother, -, hw⟩
    rw [h, Option.some.injEq] at hother
    rw [hother]
    exact hw
  · exact fun hw => ⟨v, h, htarget, hw⟩

/-- One and a half of a unit in capitals, with a minus sign. -/
def backwards : Numeral where
  sign := .minus
  whole := ['1']
  fraction := some ['5', '0']
  unit := ['R', 'E', 'M']
  isDigit_digits := List.all_eq_true.1 (by decide)
  digits_ne_nil := by decide
  unit_listed := Or.inr (by decide +kernel)

/-- A margin of that size, and its opposite. -/
theorem opposes_iff_backwards :
    ArbitraryValue.parse? "_-1.50REM" = some ⟨"-1.50REM", .length⟩ ∧
      ':' ∉ "_-1.50REM".toList ∧ backwards.text = "-1.50REM".toList ∧
      Resolution.signed? true "-1.50REM" = some "1.50REM" ∧ backwards.Opposes "1.50REM" ∧
      (∃ resolution, Resolution.ofReading? Theme.default Grammar.default false
        ⟨"mt", some "[_-1.50REM]"⟩ = some resolution) ∧
      ∃ resolution, Resolution.ofReading? Theme.default Grammar.default true
        ⟨"mt", some "[_-1.50REM]"⟩ = some resolution := by
  have hparse : ArbitraryValue.parse? "_-1.50REM" = some ⟨"-1.50REM", .length⟩ := by
    decide +kernel
  have hhint : ':' ∉ "_-1.50REM".toList := by decide +kernel
  have htext : backwards.text = "-1.50REM".toList := by decide +kernel
  have hsigned : Resolution.signed? true "-1.50REM" = some "1.50REM" := by decide +kernel
  have hpositive : ∃ resolution, Resolution.ofReading? Theme.default Grammar.default false
      ⟨"mt", some "[_-1.50REM]"⟩ = some resolution :=
    Option.isSome_iff_exists.1 (by decide +kernel)
  have hutility : (Grammar.default.utility? "mt").map (fun found => found.item.negatable)
      = some true := by
    decide +kernel
  -- The utility can be negated, so the negative reading follows from the other one.
  rcases Option.map_eq_some_iff.1 hutility with ⟨found, hfound, hnegatable⟩
  rcases (opposes_iff hparse hhint (Or.inl rfl)).2 backwards htext with ⟨-, hopposes, hutilities⟩
  refine ⟨hparse, hhint, htext, hsigned, (hopposes _ hsigned).1, hpositive, ?_⟩
  exact (hutilities Theme.default Grammar.default _ found _ hfound hnegatable rfl
    (by decide +kernel) hpositive).2 (by decide)

/-- Five pixels with a plus sign are accepted as a length, and a margin takes them. They have
    no opposite, and the negated margin does not resolve. -/
theorem not_opposes_plus :
    ArbitraryValue.parse? "+5px" = some ⟨"+5px", .length⟩ ∧
      (∃ n : Numeral, n.text = "+5px".toList ∧ n.sign = .plus) ∧
      Resolution.signed? true "+5px" = none ∧
      (Rule.ofToken? Theme.default Grammar.default "mt-[+5px]").isSome = true ∧
      Rule.ofToken? Theme.default Grammar.default "-mt-[+5px]" = none := by
  refine ⟨by decide +kernel, ⟨⟨.plus, ['5'], none, ['p', 'x'], List.all_eq_true.1 (by decide),
    by decide, Or.inr (by decide +kernel)⟩, by decide +kernel, rfl⟩, by decide +kernel, ?_, ?_⟩
  · decide +kernel
  · decide +kernel

end Numeral

end UtilityCss
