import UtilityCss.Text.Cut

/-!
# Negated Values

The opposite of a CSS value.

A number with or without a unit gets a minus sign or loses it, a function is
multiplied by -1, and zero is its own opposite. A keyword has no opposite.

## Main definitions

* `Value.isZero`: The value is a zero with or without a unit.
* `Value.negate?`: The opposite of a value.

## Theorems

* `Value.negate?_eq_none_iff`: What has no opposite.
-/

namespace UtilityCss

namespace Value

/-- The text starts as a number does. -/
def startsNumber : List Char → Bool
  | [] => false
  | c :: _ => c.isDigit || c = '.'

/-- The first character, if there is one, belongs to a unit. -/
def startsUnit : List Char → Bool
  | [] => true
  | c :: _ => c.isAlpha || c = '%'

/-- The value is a zero with or without a unit: `0`, `0px`, `0.0rem`. -/
def isZero (cs : List Char) : Bool :=
  startsNumber cs && startsUnit (cs.dropWhile fun c => c = '0' || c = '.')

/-- The opposite of a value, as characters. -/
def negateChars? (cs : List Char) : Option (List Char) :=
  if isZero cs then some cs
  else match cs with
    | '-' :: rest => some rest
    | _ =>
      if startsNumber cs then some ('-' :: cs)
      else if cs.contains '(' then some ("calc(".toList ++ cs ++ " * -1)".toList)
      else none

/-- The opposite of a value: `1rem` gives `-1rem`, `-2px` gives `2px`, zero
    gives itself, and a function is wrapped in a product. -/
def negate? (value : String) : Option String :=
  (negateChars? value.toList).map String.ofList

/-- A value has no opposite when it is not empty of sign, number and call: a
    keyword. -/
theorem negate?_eq_none_iff (value : String) :
    negate? value = none ↔
      startsNumber value.toList = false ∧ value.toList.head? ≠ some '-' ∧
        value.toList.contains '(' = false := by
  simp only [negate?, Option.map_eq_none_iff, negateChars?]
  generalize value.toList = cs
  by_cases hz : isZero cs
  · have hs : startsNumber cs = true := by
      simp only [isZero, Bool.and_eq_true] at hz
      exact hz.1
    rw [if_pos hz, hs]
    simp only [reduceCtorEq, Bool.true_eq_false, false_and]
  · rw [if_neg hz]
    split
    · simp only [List.head?_cons, reduceCtorEq, ne_eq, not_true_eq_false, and_false,
        false_and]
    · next hne =>
      have hd : cs.head? ≠ some '-' := by
        cases cs with
        | nil => simp
        | cons c rest =>
          simp only [List.head?_cons, ne_eq, Option.some.injEq]
          intro hc
          exact hne rest (by rw [hc])
      cases hs : startsNumber cs <;> cases hp : cs.contains '(' <;>
        simp only [hd, if_true, if_false, Bool.false_eq_true, reduceCtorEq, ne_eq,
          not_false_eq_true, and_true, and_false]

end Value

end UtilityCss
