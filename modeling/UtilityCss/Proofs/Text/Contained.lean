/-!
# Contained Text

Text that stays inside the block that it is written into.

A block of a stylesheet ends at a brace, and what stands in it ends at a
semicolon, so a text that holds none of the three cannot end anything but itself.
Whoever writes such texts between braces gets a stylesheet that is split where
the writer meant it to be.

## Main definitions

* `Text.blockMarks`: The characters that end a block or something in it.
* `Text.IsContained`: The text holds none of them.

## Theorems

* `not_mem_of_all_not`: What a finite list lacks is known by looking through it.
* `not_mem_blockMarks_iff`: The characters that end nothing.
* `isContained_append`: Contained texts one after the other.
* `isContained_toString`: The digits of a number are contained.
-/

namespace UtilityCss

namespace Text

-- A list of characters can be looked through, while those with the property are
-- too many to be decided one by one.
theorem not_mem_of_all_not {p : Char → Bool} {cs : List Char}
    (hnone : cs.all (fun c => !p c) = true) {c : Char} (h : p c = true) : c ∉ cs := by
  intro hc
  have hnot := List.all_eq_true.1 hnone c hc
  rw [h] at hnot
  exact absurd hnot (by decide)

/-- The characters that end a block or something in it. -/
def blockMarks : List Char := ['{', '}', ';']

/-- The text holds no brace and no semicolon. -/
def IsContained (s : String) : Prop := ∀ c ∈ s.toList, c ∉ blockMarks

instance (s : String) : Decidable (IsContained s) :=
  List.decidableBAll (fun c => c ∉ blockMarks) s.toList

theorem not_mem_blockMarks_iff {c : Char} :
    c ∉ blockMarks ↔ c ≠ '{' ∧ c ≠ '}' ∧ c ≠ ';' := by
  simp only [blockMarks, List.mem_cons, List.not_mem_nil, or_false, not_or, ne_eq]

theorem isContained_append {s t : String} (hs : IsContained s) (ht : IsContained t) :
    IsContained (s ++ t) := by
  intro c hc
  rw [String.toList_append] at hc
  rcases List.mem_append.1 hc with hc | hc
  · exact hs c hc
  · exact ht c hc

theorem not_mem_blockMarks_of_isDigit {c : Char} (h : c.isDigit = true) : c ∉ blockMarks :=
  not_mem_of_all_not (by decide) h

theorem isContained_toString (n : Nat) : IsContained (toString n) := by
  intro c hc
  have hdigits : c ∈ Nat.toDigits 10 n := by
    simpa only [Nat.toString_eq_repr, Nat.toList_repr] using hc
  exact not_mem_blockMarks_of_isDigit
    (Nat.isDigit_of_mem_toDigits (by decide) (by decide) hdigits)

end Text

end UtilityCss
