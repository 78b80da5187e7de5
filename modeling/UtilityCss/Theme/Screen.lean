import UtilityCss.Theme.Scale
import UtilityCss.Text.Blank
import UtilityCss.Text.Cut
import UtilityCss.Decimal.Reading

/-!
# Screens

The breakpoints of a theme, ranked by their least width.

A screen is an entry of the axis `screens`. Widths are compared in pixels, a
`rem` or `em` being sixteen of them, as doubles in their total order. A width
that is no number counts as the largest finite double. Screens of one width
are ordered by name.

## Main definitions

* `Screen`: A breakpoint with its rank.
* `Screen.pixels`: A width in pixels.
* `Screen.ranked`: The breakpoints of a scale, narrowest first.
-/

namespace UtilityCss

/-- A breakpoint. -/
structure Screen where
  /-- Its name. -/
  name : String
  /-- Its least width, as written. -/
  minWidth : String
  /-- Its position from 1, narrowest first. -/
  rank : Nat
deriving DecidableEq, Repr, Inhabited

namespace Screen

/-- The number and the pixels per unit of a width without outer blanks. -/
def cutUnit (cs : List Char) : List Char × Nat :=
  match Text.dropLastWord? ['p', 'x'] cs with
  | some number => (number, 1)
  | none =>
    match Text.dropLastWord? ['r', 'e', 'm'] cs with
    | some number => (number, 16)
    | none =>
      match Text.dropLastWord? ['e', 'm'] cs with
      | some number => (number, 16)
      | none => (cs, 1)

/-- A width in pixels, if it is a number with a known unit or none. -/
def pixels? (width : String) : Option Binary64 :=
  let (number, factor) := cutUnit (Text.trimBlank width.toList)
  (Decimal.readDouble? (Text.trimBlank number)).map (Binary64.scale factor)

/-- The width by which a screen is ordered. -/
def pixels (width : String) : Binary64 := (pixels? width).getD Binary64.maxFinite

/-- The order of the entries of the axis: by width, then by name. -/
def precedes (a b : String × String) : Bool :=
  let x := (pixels a.2).orderKey
  let y := (pixels b.2).orderKey
  x < y || (x = y && a.1 ≤ b.1)

/-- Entries in order as screens, ranked from `rank` on. -/
def rankFrom (rank : Nat) : List (String × String) → List Screen
  | [] => []
  | (name, width) :: rest => ⟨name, width, rank⟩ :: rankFrom (rank + 1) rest

/-- The breakpoints of a scale, narrowest first. -/
def ranked (scale : Scale) : List Screen :=
  rankFrom 1 (scale.entries.mergeSort precedes)

theorem ranked_empty : ranked SortedMap.empty = [] := by
  rw [ranked, SortedMap.empty, List.mergeSort_nil, rankFrom]

end Screen

end UtilityCss
