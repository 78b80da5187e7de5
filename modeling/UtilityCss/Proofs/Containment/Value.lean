import UtilityCss.Plugin.Checking
import UtilityCss.Proofs.Text.Contained
import UtilityCss.Proofs.Value.Bracketed
import UtilityCss.Value.Negation

/-!
# Contained Values

The checks and computations that values go through before they are written.

Texts come into a stylesheet from many sides, and each side has a check of its
own: values of a theme are looked at by one, values of a plugin by another, and a
bracketed value by a third. What all of them come to is that the value is
contained. The computations on values, which are the opposite and the transforms,
keep it so, because what they write themselves is digits and a few fixed words.

A property is checked more strictly. Its form is given here as a text is put
together, from hyphens, a first letter and words, while the check takes a text
apart.

## Main definitions

* `PluginName.IsNameForm`, `PluginName.IsPropertyForm`: The forms of names.
* `Declaration.IsContained`: A declaration that stays inside its block.

## Theorems

* `isPropertyForm_of_isProperty`: A checked property has the form of one.
* `Scale.isValue_iff`, `PluginName.isValue_iff`: The checks of values.
* `isContained_of_isValue`: Checked values are contained.
* `isContained_of_parse?`: Bracketed values are contained.
* `isContained_of_negate?`: The opposite of a contained value is contained.
* `isContained_of_valueFor?`: Computed values are contained.
-/

namespace UtilityCss

open Text (IsContained)

namespace Scale

theorem isValue_iff {value : String} :
    isValue value = true ↔ value ≠ "" ∧ IsContained value := by
  simp only [isValue, IsContained, Text.not_mem_blockMarks_iff, Bool.and_eq_true,
    decide_eq_true_eq, Bool.not_eq_true', List.any_eq_false, Bool.or_eq_true, not_or, and_assoc,
    ne_eq]

theorem isContained_of_isValue {value : String} (h : isValue value = true) :
    IsContained value := (isValue_iff.1 h).2

end Scale

namespace PluginName

/-- The character can stand in a word of a name. -/
def isWordChar (c : Char) : Bool := c.isLower || c.isDigit

/-- The form of a name: a lower-case letter, lower-case letters and digits, and
    further words of these behind a hyphen each. -/
def IsNameForm (cs : List Char) : Prop :=
  ∃ (first : Char) (rest : List Char) (words : List (List Char)),
    first.isLower = true ∧ rest.all isWordChar = true ∧
      (∀ w ∈ words, w ≠ [] ∧ w.all isWordChar = true) ∧
      cs = first :: rest ++ words.flatMap ('-' :: ·)

/-- The form of a property: a name behind at most two hyphens. -/
def IsPropertyForm (cs : List Char) : Prop :=
  ∃ hyphens name, hyphens ≤ 2 ∧ IsNameForm name ∧ cs = List.replicate hyphens '-' ++ name

-- Pieces joined by a separator: the first one, and the others behind a
-- separator each.
theorem joinWith_cons (sep : Char) (piece : List Char) (pieces : List (List Char)) :
    Text.joinWith sep (piece :: pieces) = piece ++ pieces.flatMap (sep :: ·) := by
  induction pieces generalizing piece with
  | nil => simp only [Text.joinWith, List.flatMap_nil, List.append_nil]
  | cons next pieces ih =>
      rw [Text.joinWith, ih, List.flatMap_cons, List.cons_append]
      exact List.cons_ne_nil _ _

theorem ne_nil_of_isWord {w : List Char} (h : isWord w = true) :
    w ≠ [] ∧ w.all isWordChar = true := by
  simp only [isWord, Bool.and_eq_true, Bool.not_eq_true', List.isEmpty_eq_false_iff] at h
  exact h

theorem isNameForm_of_isName {cs : List Char} (h : isName cs = true) : IsNameForm cs := by
  simp only [isName, Bool.and_eq_true] at h
  rcases h with ⟨hstart, hwords⟩
  have hjoin := Text.joinWith_cutAll '-' cs
  rcases hcut : Text.cutAll '-' cs with _ | ⟨word, words⟩
  · exact absurd hcut (Text.cutAll_ne_nil _ _)
  · rw [hcut, joinWith_cons] at hjoin
    rw [hcut] at hwords
    have hword : ∀ w ∈ word :: words, w ≠ [] ∧ w.all isWordChar = true :=
      fun w hw => ne_nil_of_isWord (List.all_eq_true.1 hwords w hw)
    rcases word with _ | ⟨first, rest⟩
    · exact absurd rfl (hword [] List.mem_cons_self).1
    · have hall := (hword _ List.mem_cons_self).2
      rw [List.all_cons, Bool.and_eq_true] at hall
      -- The text starts with its first word, so the letter that was checked is there.
      rw [← hjoin] at hstart
      exact ⟨first, rest, words, hstart, hall.2,
        fun w hw => hword w (List.mem_cons_of_mem _ hw), hjoin.symm⟩

/-- A checked property has the form of one. -/
theorem isPropertyForm_of_isProperty {cs : List Char} (h : isProperty cs = true) :
    IsPropertyForm cs := by
  rw [isProperty.eq_def] at h
  -- Two hyphens, one or none are taken off before the name is checked.
  split at h
  · exact ⟨2, _, Nat.le_refl _, isNameForm_of_isName h, rfl⟩
  · exact ⟨1, _, by decide, isNameForm_of_isName h, rfl⟩
  · exact ⟨0, _, Nat.zero_le _, isNameForm_of_isName h, rfl⟩

/-- The check of plugins is that of scales with two demands more. -/
theorem isValue_iff {value : String} :
    isValue value = true ↔
      Scale.isValue value = true ∧ Text.isBlankText value = false ∧ '\n' ∉ value.toList := by
  have hempty : Text.isBlankText value = false → value ≠ "" := by
    rintro h rfl
    exact absurd h (by decide)
  simp only [isValue, Scale.isValue, Bool.and_eq_true, Bool.not_eq_true',
    List.any_eq_false, Bool.or_eq_true, decide_eq_true_eq, not_or, ne_eq]
  constructor
  · rintro ⟨hblank, hmarks⟩
    exact ⟨⟨hempty hblank, fun c hc => (hmarks c hc).1⟩, hblank, fun hmem => (hmarks _ hmem).2 rfl⟩
  · rintro ⟨⟨-, hmarks⟩, hblank, hbreak⟩
    exact ⟨hblank, fun c hc => ⟨hmarks c hc, fun heq => hbreak (heq ▸ hc)⟩⟩

theorem isContained_of_isValue {value : String} (h : isValue value = true) :
    IsContained value :=
  Scale.isContained_of_isValue (isValue_iff.1 h).1

end PluginName

/-- A declaration that stays inside its block: its property passes the check of
    properties, and its value is contained. -/
structure Declaration.IsContained (d : Declaration) : Prop where
  property : PluginName.isProperty d.property.toList = true
  value : Text.IsContained d.value

instance (d : Declaration) : Decidable d.IsContained :=
  decidable_of_iff
    (PluginName.isProperty d.property.toList = true ∧ Text.IsContained d.value)
    ⟨fun h => ⟨h.1, h.2⟩, fun h => ⟨h.property, h.value⟩⟩

namespace ArbitraryValue

theorem isContained_of_parse? {raw : String} {v : ArbitraryValue}
    (h : parse? raw = some v) : IsContained v.value := by
  rcases parse?_eq_some h with ⟨hint, body, -, -, -, hvalue, hsafe⟩
  simp only [isSafe, Bool.and_eq_true] at hsafe
  rcases hsafe with ⟨⟨-, hallowed⟩, -⟩
  intro c hc hmark
  rw [hvalue] at hc
  -- Whatever ends a block is among the characters that split.
  refine not_mem_splitters_of_isAllowed (List.all_eq_true.1 hallowed c hc) ?_
  have hmarks : Text.blockMarks.all splitters.contains = true := by decide
  exact List.elem_iff.1 (List.all_eq_true.1 hmarks c hmark)

end ArbitraryValue

namespace Value

/-- The opposite of a contained value is contained: it is the value with or
    without a sign, or the value in a product. -/
theorem isContained_of_negate? {value opposite : String} (h : negate? value = some opposite)
    (hvalue : IsContained value) : IsContained opposite := by
  unfold negate? at h
  rcases Option.map_eq_some_iff.1 h with ⟨cs, hcs, rfl⟩
  intro c hc
  rw [String.toList_ofList] at hc
  simp only [negateChars?] at hcs
  -- A zero stays, a leading hyphen goes, a number gets one, and a calculation is
  -- multiplied; nothing else has an opposite.
  by_cases hzero : isZero value.toList = true
  · rw [if_pos hzero] at hcs
    rw [← Option.some.inj hcs] at hc
    exact hvalue c hc
  · rw [if_neg hzero] at hcs
    split at hcs
    · next rest hrest =>
        rw [← Option.some.inj hcs] at hc
        exact hvalue c (hrest ▸ List.mem_cons_of_mem _ hc)
    · split at hcs
      · rw [← Option.some.inj hcs] at hc
        rcases List.mem_cons.1 hc with rfl | hc
        · decide
        · exact hvalue c hc
      · split at hcs
        · have happ : "calc(".toList ++ value.toList ++ " * -1)".toList = cs :=
            Option.some.inj hcs
          rw [← happ, ← String.toList_append, ← String.toList_append] at hc
          have hcalc : IsContained "calc(" := by decide
          have hproduct : IsContained " * -1)" := by decide
          exact Text.isContained_append (Text.isContained_append hcalc hvalue) hproduct c hc
        · exact absurd hcs.symm (Option.some_ne_none cs)

end Value

namespace Transform

theorem mem_percent {num den : Nat} {c : Char} (h : c ∈ percent num den) :
    c.isDigit = true ∨ c = '.' := by
  have hdigits : ∀ {n : Nat} {c : Char}, c ∈ Decimal.digitsOf n → c.isDigit = true :=
    fun hc => Nat.isDigit_of_mem_toDigits (by decide) (by decide) hc
  have hdrop : ∀ {cs : List Char}, c ∈ Decimal.dropFractionZeros cs → c ∈ cs := by
    intro cs hc
    have hpoint := (List.dropWhile_sublist _).subset (List.mem_reverse.1 hc)
    have hzero := (List.dropWhile_sublist _).subset (List.mem_reverse.1 (List.mem_reverse.1 hpoint))
    exact List.mem_reverse.1 hzero
  -- Dropping zeros writes nothing new, so look at the number with all its places.
  have hfixed := hdrop h
  rw [Decimal.fixed, if_neg (by decide)] at hfixed
  simp only [List.mem_append, List.mem_cons, Decimal.padLeft, List.mem_replicate] at hfixed
  rcases hfixed with hwhole | hpoint | ⟨-, rfl⟩ | hplaces
  · exact Or.inl (hdigits hwhole)
  · exact Or.inr hpoint
  · exact Or.inl (by decide)
  · exact Or.inl (hdigits hplaces)

/-- Computed values are contained: around the numbers stand fixed words. -/
theorem isContained_of_valueFor? {t : Transform} {key value : String}
    (h : t.valueFor? key = some value) : IsContained value := by
  cases t with
  | none => exact absurd h.symm (Option.some_ne_none value)
  | fraction =>
      rcases Option.map_eq_some_iff.1 h with ⟨⟨num, den⟩, -, rfl⟩
      intro c hc
      rw [String.toList_ofList] at hc
      -- A percentage is written with digits, points and signs.
      rcases List.mem_append.1 hc with hc | hc
      · rcases mem_percent hc with hdigit | rfl
        · exact Text.not_mem_blockMarks_of_isDigit hdigit
        · decide
      · rw [List.mem_singleton.1 hc]
        decide
  | gridRepeat =>
      rcases Option.map_eq_some_iff.1 h with ⟨n, -, rfl⟩
      have hn := Text.isContained_toString n
      refine Text.isContained_append (Text.isContained_append ?_ hn) ?_ <;> decide
  | span =>
      rcases Option.map_eq_some_iff.1 h with ⟨n, -, rfl⟩
      have hn := Text.isContained_toString n
      have hspan : IsContained "span " := by decide
      have hslash : IsContained " / span " := by decide
      exact Text.isContained_append (Text.isContained_append
        (Text.isContained_append hspan hn) hslash) hn

end Transform

end UtilityCss
