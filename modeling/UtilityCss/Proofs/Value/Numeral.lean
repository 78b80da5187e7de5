import Mathlib.Algebra.Field.Rat
import Mathlib.Data.List.TakeWhile
import UtilityCss.Proofs.Value.Calls

/-!
# Numbers in Brackets

What a bracketed value that passes for a number is made of.

The kind of a value is told from its text in lower case: a sign is taken off, then
everything up to the first character that is neither digit nor point, and that part must be
read as a double. A reader of doubles knows more than digits, such as exponents and the word
`inf`, but none of that gets through the cut. So a value of a number's kind is a numeral: a
sign, digits with at most one point in them, and a listed unit in any letter case or none.

A numeral stands for an exact rational number. No double comes into it, so what is said
about the value of a numeral holds for as many digits as there are.

## Main definitions

* `Sign`: The sign in front of a number.
* `Numeral`: A sign, digits with or without a point, and a unit.
* `Numeral.text`: The spelling of a numeral.
* `Numeral.value`: The number that a numeral stands for.
* `Numeral.IsFigures`: Digits, with at most one point among them.

## Theorems

* `isFigures_of_readDouble?`: Digits and points that a double can be read from.
* `exists_of_cutNumber?`: What is cut off a text as its number.
* `exists_numeral_of_parse?`: A value that passes for a number is a numeral.
-/

namespace UtilityCss

/-- The sign in front of a number. -/
inductive Sign where
  /-- There is none. -/
  | none
  /-- A plus sign. -/
  | plus
  /-- A minus sign. -/
  | minus
deriving DecidableEq, Repr

namespace Sign

/-- The characters of a sign. -/
def text : Sign → List Char
  | none => []
  | plus => ['+']
  | minus => ['-']

/-- What a sign multiplies a number by. -/
def factor : Sign → ℚ
  | minus => -1
  | _ => 1

end Sign

/-- A number in decimal digits with a unit. -/
structure Numeral where
  /-- The sign. -/
  sign : Sign
  /-- The digits in front of the point. -/
  whole : List Char
  /-- The digits behind the point, if there is a point. -/
  fraction : Option (List Char)
  /-- The unit, empty for a bare number. -/
  unit : List Char
  /-- Digits are digits. -/
  isDigit_digits : ∀ c ∈ whole ++ fraction.getD [], c.isDigit = true
  /-- There is at least one. -/
  digits_ne_nil : whole ++ fraction.getD [] ≠ []
  /-- A unit is a listed one, in any letter case. -/
  unit_listed : unit = [] ∨ String.ofList (unit.map Char.toLower) ∈ ArbitraryValue.lengthUnits

namespace Numeral

/-- All digits, without the point. -/
def digits (n : Numeral) : List Char := n.whole ++ n.fraction.getD []

/-- Digits with the point between them, if there is one. -/
def point (whole : List Char) : Option (List Char) → List Char
  | none => whole
  | some fraction => whole ++ '.' :: fraction

/-- The digits of a numeral with their point. -/
def figures (n : Numeral) : List Char := point n.whole n.fraction

/-- The spelling of a numeral. -/
def text (n : Numeral) : List Char := n.sign.text ++ (n.figures ++ n.unit)

/-- The number that a numeral stands for, in its unit. -/
def value (n : Numeral) : ℚ :=
  n.sign.factor * (Decimal.valueOfDigits n.digits / 10 ^ (n.fraction.getD []).length)

end Numeral

/-- The text is digits, with at most one point among them. -/
def Numeral.IsFigures (cs : List Char) : Prop :=
  ∃ whole fraction, cs = point whole fraction ∧
    (∀ c ∈ whole ++ fraction.getD [], c.isDigit = true) ∧ whole ++ fraction.getD [] ≠ []

theorem Numeral.mem_point {whole : List Char} {fraction : Option (List Char)} {c : Char}
    (hc : c ∈ point whole fraction) : c ∈ whole ++ fraction.getD [] ∨ c = '.' := by
  cases fraction with
  | none => exact Or.inl (List.mem_append_left _ hc)
  | some fraction =>
      rcases List.mem_append.1 hc with hc | hc
      · exact Or.inl (List.mem_append_left _ hc)
      · rcases List.mem_cons.1 hc with rfl | hc
        · exact Or.inr rfl
        · exact Or.inl (List.mem_append_right _ hc)

namespace ArbitraryValue

/-! ### Letter case -/

-- Only capitals are changed, and there are 26 of them.
theorem toLower_eq_self_or (c : Char) :
    c.toLower = c ∨ c.isAlpha = true ∧ c.toLower.isLower = true := by
  by_cases hupper : c.isUpper = true
  · have hcapitals : ∀ n < 26, (Char.ofNat (65 + n)).isAlpha = true ∧
        (Char.ofNat (65 + n)).toLower.isLower = true := by decide
    have hbounds : 'A'.val ≤ c.val ∧ c.val ≤ 'Z'.val := of_decide_eq_true hupper
    have hlo : 65 ≤ c.toNat := UInt32.le_iff_toNat_le.1 hbounds.1
    have hhi : c.toNat ≤ 90 := UInt32.le_iff_toNat_le.1 hbounds.2
    -- A capital is one of the 26, so a closed check will do.
    have hc : c = Char.ofNat (65 + (c.toNat - 65)) := by
      rw [Nat.add_sub_cancel' hlo, Char.ofNat_toNat]
    rw [hc]
    exact Or.inr (hcapitals _ (by omega))
  · refine Or.inl ?_
    unfold Char.toLower
    split
    · next h => exact absurd (decide_eq_true h) hupper
    · rfl

theorem eq_of_toLower {c d : Char} (h : c.toLower = d) (hd : d.isLower = false) : c = d := by
  rcases toLower_eq_self_or c with hself | ⟨-, hlower⟩
  · exact hself.symm.trans h
  · rw [h, hd] at hlower
    exact absurd hlower Bool.false_ne_true

theorem eq_of_map_toLower {cs ds : List Char} (h : cs.map Char.toLower = ds)
    (hds : ∀ d ∈ ds, d.isLower = false) : cs = ds := by
  subst h
  refine (List.map_congr_left fun c hc => ?_).trans (List.map_id _) |>.symm
  exact (eq_of_toLower rfl (hds _ (List.mem_map_of_mem hc))).symm

/-! ### Digits and points -/

-- What stands behind the digits of a text without anything but digits and points is a point.
theorem dropWhile_isDigit {cs : List Char} (h : ∀ c ∈ cs, c.isDigit = true ∨ c = '.') :
    cs.dropWhile Char.isDigit = [] ∨ ∃ rest, cs.dropWhile Char.isDigit = '.' :: rest ∧
      ∀ c ∈ rest, c.isDigit = true ∨ c = '.' := by
  induction cs with
  | nil => exact Or.inl rfl
  | cons c cs ih =>
      rcases List.forall_mem_cons.1 h with ⟨hc, hcs⟩
      by_cases hdigit : c.isDigit = true
      · rw [List.dropWhile_cons_of_pos hdigit]
        exact ih hcs
      · rw [List.dropWhile_cons_of_neg hdigit]
        exact Or.inr ⟨cs, by rw [hc.resolve_left hdigit], hcs⟩

theorem isFigures_of_readUnsigned? {cs : List Char}
    (hparts : ∀ c ∈ cs, c.isDigit = true ∨ c = '.')
    (h : (Decimal.readUnsigned? cs).isSome = true) : Numeral.IsFigures cs := by
  have hwhole : ∀ c ∈ cs.takeWhile Char.isDigit, c.isDigit = true :=
    fun c hc => List.mem_takeWhile_imp hc
  have hsplit := List.takeWhile_append_dropWhile (p := Char.isDigit) (l := cs)
  unfold Decimal.readUnsigned? at h
  rcases dropWhile_isDigit hparts with hrest | ⟨rest, hrest, hlater⟩
  · -- There is no point.
    rw [hrest, List.append_nil] at hsplit
    refine ⟨cs.takeWhile Char.isDigit, none, hsplit.symm, ?_, ?_⟩
    · rw [Option.getD_none, List.append_nil]
      exact hwhole
    · rw [Option.getD_none, List.append_nil]
      intro hnil
      simp [hrest, hnil] at h
  · rw [hrest] at hsplit
    refine ⟨cs.takeWhile Char.isDigit, some (rest.takeWhile Char.isDigit), ?_, ?_, ?_⟩
    · -- A second point would be left over, and it is no exponent.
      rcases dropWhile_isDigit hlater with hend | ⟨more, hend, -⟩
      · have hfraction := List.takeWhile_append_dropWhile (p := Char.isDigit) (l := rest)
        rw [hend, List.append_nil] at hfraction
        rw [Numeral.point, hfraction, hsplit]
      · simp [hrest, hend] at h
    · intro c hc
      rcases List.mem_append.1 hc with hc | hc
      · exact hwhole c hc
      · exact List.mem_takeWhile_imp hc
    · intro hnil
      rcases List.append_eq_nil_iff.1 hnil with ⟨hnowhole, hnofraction⟩
      rw [Option.getD_some] at hnofraction
      simp [hrest, hnowhole, hnofraction] at h

/-- Of digits and points a double can be read only if there is a digit and at most one
    point. -/
theorem isFigures_of_readDouble? {cs : List Char}
    (hparts : ∀ c ∈ cs, c.isDigit = true ∨ c = '.')
    (h : (Decimal.readDouble? cs).isSome = true) : Numeral.IsFigures cs := by
  refine isFigures_of_readUnsigned? hparts ?_
  -- No sign is among the characters, and none of the words for special values.
  have hlower : cs.map Char.toLower = cs := by
    refine (List.map_congr_left fun c hc => ?_).trans (List.map_id _)
    rcases hparts c hc with hdigit | rfl
    · exact toLower_of_isDigit hdigit
    · rfl
  have hword : ∀ word : String, String.ofList (cs.map Char.toLower) = word →
      word.toList.head? ≠ some 'i' ∧ word.toList.head? ≠ some 'n' := by
    rintro word rfl
    rw [hlower, String.toList_ofList]
    exact ⟨fun hhead => absurd (hparts _ (List.mem_of_head? hhead)) (by decide),
      fun hhead => absurd (hparts _ (List.mem_of_head? hhead)) (by decide)⟩
  have hmagnitude : (Decimal.readMagnitude? cs).isSome = true := by
    unfold Decimal.readDouble? at h
    split at h
    · exact absurd (hparts '-' List.mem_cons_self) (by decide)
    · exact absurd (hparts '+' List.mem_cons_self) (by decide)
    · simpa only [Option.isSome_map] using h
  unfold Decimal.readMagnitude? at hmagnitude
  split at hmagnitude
  · next d hd =>
      rw [hd]
      rfl
  · simp only at hmagnitude
    split at hmagnitude
    · next hinf =>
        rcases hinf with hinf | hinf
        · exact absurd (by decide) (hword _ hinf).1
        · exact absurd (by decide) (hword _ hinf).1
    · split at hmagnitude
      · next hnan => exact absurd (by decide) (hword _ hnan).2
      · exact absurd hmagnitude Bool.false_ne_true

/-! ### Numbers with a unit -/

/-- What is cut off a text as its number is a sign and figures, and nothing is lost. -/
theorem exists_of_cutNumber? {cs number rest : List Char}
    (h : cutNumber? cs = some (number, rest)) :
    ∃ (sign : Sign) (figures : List Char), cs = sign.text ++ (figures ++ rest) ∧
      Numeral.IsFigures figures := by
  -- The body is cut in the same way whatever the sign is.
  have hbody : ∀ {sign body : List Char},
      (if (Decimal.readDouble? (body.takeWhile fun c => c.isDigit || c = '.')).isSome then
        some (sign ++ body.takeWhile (fun c => c.isDigit || c = '.'),
          body.dropWhile fun c => c.isDigit || c = '.')
      else none) = some (number, rest) →
      ∃ figures, body = figures ++ rest ∧ Numeral.IsFigures figures := by
    intro sign body hcut
    rw [Option.ite_none_right_eq_some] at hcut
    rcases hcut with ⟨hread, hpair⟩
    have hparts : ∀ c ∈ body.takeWhile (fun c => c.isDigit || c = '.'),
        c.isDigit = true ∨ c = '.' := by
      intro c hc
      simpa only [Bool.or_eq_true, decide_eq_true_eq] using List.mem_takeWhile_imp hc
    have hsplit := List.takeWhile_append_dropWhile (p := fun c => c.isDigit || c = '.') (l := body)
    rw [(Prod.mk.inj (Option.some.inj hpair)).2] at hsplit
    exact ⟨_, hsplit.symm, isFigures_of_readDouble? hparts hread⟩
  unfold cutNumber? at h
  split at h
  next sign body hsign =>
  rcases hbody h with ⟨figures, hfigures, hdigits⟩
  split at hsign
  · exact ⟨.minus, figures, by rw [← hfigures, ← (Prod.mk.inj hsign).2]; rfl, hdigits⟩
  · exact ⟨.plus, figures, by rw [← hfigures, ← (Prod.mk.inj hsign).2]; rfl, hdigits⟩
  · exact ⟨.none, figures, by rw [← hfigures, ← (Prod.mk.inj hsign).2]; rfl, hdigits⟩

-- Colours and calls are told first, and what is left is cut.
theorem exists_of_classifyLower {cs : List Char}
    (h : classifyLower cs = .length ∨ classifyLower cs = .number) :
    ∃ number rest, cutNumber? cs = some (number, rest) ∧
      (rest = [] ∨ String.ofList rest ∈ lengthUnits) := by
  have hkind : ∃ kind, classifyLower cs = kind ∧ (kind = .length ∨ kind = .number) := ⟨_, rfl, h⟩
  rcases hkind with ⟨kind, hclass, hkind⟩
  unfold classifyLower at hclass
  simp only at hclass
  split at hclass
  · subst hclass
    simp only [reduceCtorEq, or_self] at hkind
  · split at hclass
    · subst hclass
      simp only [reduceCtorEq, or_self] at hkind
    · split at hclass
      · next number hnumber => exact ⟨number, [], hnumber, Or.inl rfl⟩
      -- With something behind the number only a unit of length makes it a length.
      · next number rest _ hnumber =>
          by_cases hunit : lengthUnits.contains (String.ofList rest) = true
          · exact ⟨number, rest, hnumber, Or.inr (List.contains_iff_mem.1 hunit)⟩
          · rw [if_neg hunit] at hclass
            subst hclass
            simp only [reduceCtorEq, or_self] at hkind
      · subst hclass
        simp only [reduceCtorEq, or_self] at hkind

theorem isLower_eq_false_of_isDigit {c : Char} (h : c.isDigit = true) : c.isLower = false := by
  have hdigits : ∀ n < 10, (Char.ofNat (48 + n)).isLower = false := by decide
  rcases exists_eq_of_isDigit h with ⟨n, hn, rfl⟩
  exact hdigits n hn

/-- A value that passes for a number without being called one is a numeral. -/
theorem exists_numeral_of_parse? {raw : String} {v : ArbitraryValue} (h : parse? raw = some v)
    (hhint : ':' ∉ raw.toList) (hkind : v.kind = .length ∨ v.kind = .number) :
    ∃ n : Numeral, n.text = v.value.toList := by
  have hcut : Text.cutFirst ':' raw.toList = none := by
    rw [Option.eq_none_iff_forall_ne_some]
    rintro ⟨hint, body⟩ hsome
    rw [(Text.eq_of_cutFirst hsome).1] at hhint
    exact hhint (List.mem_append_right _ List.mem_cons_self)
  simp only [parse?, hcut, ofBody?, Option.ite_none_right_eq_some, Option.some.injEq,
    Option.getD_none] at h
  rcases h with ⟨-, rfl⟩
  rw [String.toList_ofList]
  rcases exists_of_classifyLower hkind with ⟨number, rest, hnumber, hunit⟩
  rcases exists_of_cutNumber? hnumber with
    ⟨sign, _, hlower, whole, fraction, rfl, hdigits, hne⟩
  -- Only the unit can have letters in it, and so only the unit depends on their case.
  rcases List.map_eq_append_iff.1 hlower with ⟨front, back, hspaced, hsign, hback⟩
  rcases List.map_eq_append_iff.1 hback with ⟨middle, unit, rfl, hmiddle, hrest⟩
  have hfront : front = sign.text := by
    refine eq_of_map_toLower hsign fun d hd => ?_
    have hall : sign.text.all (fun d => !d.isLower) = true := by cases sign <;> decide
    have hlower := List.all_eq_true.1 hall d hd
    rwa [Bool.not_eq_true'] at hlower
  have hfigures : middle = Numeral.point whole fraction := by
    refine eq_of_map_toLower hmiddle fun c hc => ?_
    rcases Numeral.mem_point hc with hc | rfl
    · exact isLower_eq_false_of_isDigit (hdigits c hc)
    · rfl
  refine ⟨⟨sign, whole, fraction, unit, hdigits, hne, ?_⟩, ?_⟩
  · rw [hrest]
    exact hunit.imp_left fun hnil => List.map_eq_nil_iff.1 (hrest.trans hnil)
  · rw [hspaced, hfront, hfigures]
    rfl

end ArbitraryValue

end UtilityCss
