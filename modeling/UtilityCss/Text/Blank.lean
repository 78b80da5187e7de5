/-!
# Blank Characters

The white space of Unicode, and trimming by it.

Three places ask what is blank: the ends of a bracketed value and of a width
are trimmed, an empty configuration is one of blanks only, and a run of
class-token characters ends at a blank. All three mean the property
`White_Space`, which has 25 code points; the classes of `Char` in core know
the six ASCII ones at most.

Everything is defined on lists of characters, with a thin layer on `String`
above it, so that statements about ends and pieces are statements about
lists.

## Main definitions

* `isBlank`: The character has the property `White_Space`.
* `trimBlank`: A list of characters without its outer blanks.
* `isBlankText`: The text has no character but blanks.

## Theorems

* `isBlank_of_isWhitespace`: The blanks that core knows are blanks.
* `head?_dropBlank`: What is left after dropping blanks starts with none.
-/

namespace UtilityCss

namespace Text

/-- The code points with the property `White_Space`, as inclusive ranges. -/
def blankRanges : List (Nat × Nat) :=
  [(0x9, 0xD), (0x20, 0x20), (0x85, 0x85), (0xA0, 0xA0), (0x1680, 0x1680),
   (0x2000, 0x200A), (0x2028, 0x2029), (0x202F, 0x202F), (0x205F, 0x205F),
   (0x3000, 0x3000)]

/-- The character has the property `White_Space`. -/
def isBlank (c : Char) : Bool :=
  blankRanges.any fun r => r.1 ≤ c.toNat && c.toNat ≤ r.2

/-- The characters from the first one that is not blank. -/
def dropBlank (cs : List Char) : List Char :=
  cs.dropWhile isBlank

/-- The characters without the blanks at either end. -/
def trimBlank (cs : List Char) : List Char :=
  (dropBlank (dropBlank cs).reverse).reverse

/-- A text without the blanks at either end. -/
def trim (s : String) : String :=
  String.ofList (trimBlank s.toList)

/-- The text has no character but blanks. -/
def isBlankText (s : String) : Bool :=
  s.toList.all isBlank

/-- The blanks that core knows are blanks. -/
theorem isBlank_of_isWhitespace {c : Char} (h : c.isWhitespace = true) :
    isBlank c = true := by
  simp only [Char.isWhitespace, Bool.or_eq_true, decide_eq_true_eq] at h
  rcases h with ((h | h) | h) | h <;> subst h <;> decide

/-- What is left after dropping blanks starts with none. -/
theorem head?_dropBlank (cs : List Char) (c : Char)
    (h : (dropBlank cs).head? = some c) : isBlank c = false := by
  induction cs with
  | nil => simp only [dropBlank, List.dropWhile_nil, List.head?_nil, reduceCtorEq] at h
  | cons a as ih =>
    rw [dropBlank, List.dropWhile_cons] at h
    split at h
    · exact ih h
    · next ha =>
      simp only [List.head?_cons, Option.some.injEq] at h
      subst h
      simpa only [Bool.not_eq_true] using ha

end Text

end UtilityCss
