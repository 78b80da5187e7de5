import Mathlib.Data.List.Infix
import UtilityCss.Proofs.Decimal.Representable
import UtilityCss.Theme.Screen

/-!
# Widths in Pixels

Which width a text stands for.

A width is read by taking a unit off its end, then reading what is left, then
multiplying. `IsMeasure` and `IsWidth` say what comes out of this without the order
of the trials: a text has the unit that it ends in, a `rem` is no `em`, and a text
with none of them is a number of pixels. A number of pixels is the width itself,
because a double times one is that double, so it is only `rem` and `em` that are
multiplied and rounded.

## Main definitions

* `Screen.IsMeasure`: A number and the pixels in its unit.
* `Screen.IsWidth`: The width that a text stands for.

## Theorems

* `isMeasure_iff`: Taking the unit off gives number and unit.
* `isWidth_iff`: Every text stands for one width, and that is what it is ordered by.
-/

namespace UtilityCss

namespace Screen

/-- The text is a number with a unit of so many pixels. Without a unit it counts
    pixels. -/
inductive IsMeasure : List Char → List Char → Nat → Prop where
  /-- Pixels. -/
  | px (number : List Char) : IsMeasure (number ++ ['p', 'x']) number 1
  /-- The size of the root's letters. -/
  | rem (number : List Char) : IsMeasure (number ++ ['r', 'e', 'm']) number 16
  /-- The size of letters. -/
  | em (number : List Char) (hrem : number.getLast? ≠ some 'r') :
    IsMeasure (number ++ ['e', 'm']) number 16
  /-- No unit. -/
  | bare (number : List Char) (hpx : ¬['p', 'x'] <:+ number) (hem : ¬['e', 'm'] <:+ number) :
    IsMeasure number number 1

/-- The text stands for the width: a number of pixels, or a number times the pixels of
    its unit, rounded to a double. What holds no number stands for the largest finite
    double. Blanks around the text and around its number do not count. -/
inductive IsWidth (text : String) : Binary64 → Prop where
  /-- Pixels. -/
  | pixels {number : List Char} {x : Binary64}
    (hmeasure : IsMeasure (Text.trimBlank text.toList) number 1)
    (hread : Decimal.readDouble? (Text.trimBlank number) = some x) : IsWidth text x
  /-- Units of sixteen pixels. -/
  | letters {number : List Char} {x : Binary64}
    (hmeasure : IsMeasure (Text.trimBlank text.toList) number 16)
    (hread : Decimal.readDouble? (Text.trimBlank number) = some x) : IsWidth text (x.scale 16)
  /-- No number. -/
  | unread {number : List Char} {factor : Nat}
    (hmeasure : IsMeasure (Text.trimBlank text.toList) number factor)
    (hread : Decimal.readDouble? (Text.trimBlank number) = none) :
    IsWidth text Binary64.maxFinite

theorem cutUnit_px (number : List Char) : cutUnit (number ++ ['p', 'x']) = (number, 1) := by
  have hpx : Text.dropLastWord? ['p', 'x'] (number ++ ['p', 'x']) = some number :=
    Text.dropLastWord?_eq_some_iff.2 rfl
  rw [cutUnit, hpx]

-- A text that ends in another letter has not the unit.
theorem dropLastWord?_of_getLast?_ne {word cs : List Char} (hword : word ≠ [])
    (h : cs.getLast? ≠ word.getLast?) : Text.dropLastWord? word cs = none := by
  rw [Option.eq_none_iff_forall_ne_some]
  intro rest hrest
  rw [Text.dropLastWord?_eq_some_iff.1 hrest, List.getLast?_append_of_ne_nil _ hword] at h
  exact h rfl

theorem cutUnit_rem (number : List Char) :
    cutUnit (number ++ ['r', 'e', 'm']) = (number, 16) := by
  have hpx : Text.dropLastWord? ['p', 'x'] (number ++ ['r', 'e', 'm']) = none := by
    refine dropLastWord?_of_getLast?_ne (List.cons_ne_nil _ _) ?_
    rw [List.getLast?_append_of_ne_nil _ (List.cons_ne_nil _ _)]
    decide
  have hrem : Text.dropLastWord? ['r', 'e', 'm'] (number ++ ['r', 'e', 'm']) = some number :=
    Text.dropLastWord?_eq_some_iff.2 rfl
  rw [cutUnit, hpx, hrem]

theorem cutUnit_em {number : List Char} (h : number.getLast? ≠ some 'r') :
    cutUnit (number ++ ['e', 'm']) = (number, 16) := by
  have hpx : Text.dropLastWord? ['p', 'x'] (number ++ ['e', 'm']) = none := by
    refine dropLastWord?_of_getLast?_ne (List.cons_ne_nil _ _) ?_
    rw [List.getLast?_append_of_ne_nil _ (List.cons_ne_nil _ _)]
    decide
  have hrem : Text.dropLastWord? ['r', 'e', 'm'] (number ++ ['e', 'm']) = none := by
    rw [Option.eq_none_iff_forall_ne_some]
    intro rest hrest
    -- The text in front of `em` would end in the letter that it does not end in.
    have heq : number ++ ['e', 'm'] = (rest ++ ['r']) ++ ['e', 'm'] := by
      rw [Text.dropLastWord?_eq_some_iff.1 hrest, List.append_assoc]
      rfl
    rw [List.append_cancel_right heq, List.getLast?_concat] at h
    exact h rfl
  have hem : Text.dropLastWord? ['e', 'm'] (number ++ ['e', 'm']) = some number :=
    Text.dropLastWord?_eq_some_iff.2 rfl
  rw [cutUnit, hpx, hrem, hem]

/-- Taking the unit off a text gives its number and unit. -/
theorem isMeasure_iff {cs number : List Char} {factor : Nat} :
    IsMeasure cs number factor ↔ cutUnit cs = (number, factor) := by
  constructor
  · intro h
    cases h with
    | px => exact cutUnit_px number
    | rem => exact cutUnit_rem number
    | em _ hrem => exact cutUnit_em hrem
    | bare _ hpx hem =>
        have hnone : ∀ word : List Char, ¬word <:+ cs → Text.dropLastWord? word cs = none := by
          intro word hword
          rw [Option.eq_none_iff_forall_ne_some]
          intro rest hrest
          exact hword ⟨rest, (Text.dropLastWord?_eq_some_iff.1 hrest).symm⟩
        have hrem : ¬['r', 'e', 'm'] <:+ cs := fun hsuffix =>
          hem ((List.suffix_cons 'r' ['e', 'm']).trans hsuffix)
        rw [cutUnit, hnone _ hpx, hnone _ hrem, hnone _ hem]
  · intro h
    have hsuffix : ∀ {word : List Char}, Text.dropLastWord? word cs = none → ¬word <:+ cs := by
      rintro word hnone ⟨rest, rfl⟩
      rw [Text.dropLastWord?_eq_some_iff.2 rfl] at hnone
      simp only [reduceCtorEq] at hnone
    unfold cutUnit at h
    split at h
    · next rest hrest =>
        rw [Prod.mk.injEq] at h
        rw [← h.1, ← h.2, Text.dropLastWord?_eq_some_iff.1 hrest]
        exact IsMeasure.px rest
    · next hpx =>
      split at h
      · next rest hrest =>
          rw [Prod.mk.injEq] at h
          rw [← h.1, ← h.2, Text.dropLastWord?_eq_some_iff.1 hrest]
          exact IsMeasure.rem rest
      · next hrem =>
        split at h
        · next rest hrest =>
            rw [Prod.mk.injEq] at h
            rw [Text.dropLastWord?_eq_some_iff.1 hrest] at hrem
            rw [← h.1, ← h.2, Text.dropLastWord?_eq_some_iff.1 hrest]
            refine IsMeasure.em rest fun hlast => ?_
            -- Otherwise the longer unit would have been taken off before.
            rcases List.getLast?_eq_some_iff.1 hlast with ⟨front, rfl⟩
            rw [List.append_assoc, List.singleton_append,
              Text.dropLastWord?_eq_some_iff.2 rfl] at hrem
            simp only [reduceCtorEq] at hrem
        · next hem =>
            rw [Prod.mk.injEq] at h
            rw [← h.1, ← h.2]
            exact IsMeasure.bare cs (hsuffix hpx) (hsuffix hem)

theorem factor_eq_of_isMeasure {cs number : List Char} {factor : Nat}
    (h : IsMeasure cs number factor) : factor = 1 ∨ factor = 16 := by
  cases h with
  | px | bare => exact Or.inl rfl
  | rem | em => exact Or.inr rfl

theorem pixels_eq {text : String} {number : List Char} {factor : Nat}
    (h : IsMeasure (Text.trimBlank text.toList) number factor) :
    pixels text =
      ((Decimal.readDouble? (Text.trimBlank number)).map (Binary64.scale factor)).getD
        Binary64.maxFinite := by
  rw [pixels, pixels?, isMeasure_iff.1 h]

/-- Every text stands for one width, and that is what it is ordered by. -/
theorem isWidth_iff {text : String} {x : Binary64} : IsWidth text x ↔ pixels text = x := by
  constructor
  · intro h
    cases h with
    | pixels hmeasure hread =>
        rw [pixels_eq hmeasure, hread, Option.map_some, Option.getD_some, Binary64.scale_one]
    | letters hmeasure hread =>
        rw [pixels_eq hmeasure, hread, Option.map_some, Option.getD_some]
    | unread hmeasure hread => rw [pixels_eq hmeasure, hread, Option.map_none, Option.getD_none]
  · rintro rfl
    rcases hcut : cutUnit (Text.trimBlank text.toList) with ⟨number, factor⟩
    have hmeasure := isMeasure_iff.2 hcut
    rw [pixels_eq hmeasure]
    -- What is in front of the unit is a number or is not, and the unit has one of two
    -- factors.
    rcases hread : Decimal.readDouble? (Text.trimBlank number) with _ | x
    · exact IsWidth.unread hmeasure hread
    · rw [Option.map_some, Option.getD_some]
      rcases factor_eq_of_isMeasure hmeasure with rfl | rfl
      · rw [Binary64.scale_one]
        exact IsWidth.pixels hmeasure hread
      · exact IsWidth.letters hmeasure hread

-- A `rem` is sixteen pixels, and what is no number comes after every finite width.
example : pixels "40rem" = pixels " 640 px" ∧ pixels "wide" = Binary64.maxFinite := by
  decide +kernel

end Screen

end UtilityCss
