import Mathlib.Data.List.Basic
import UtilityCss.Text.Slice

/-!
# Positions in Texts

Byte positions and lists of characters.

A text that is taken apart in place is told by positions, and what is proved about texts is said
of lists of characters. The two meet in `slice_width`: the number of bytes of the characters that
have been passed is a position, and between two such numbers is what has been passed on the way
from the one to the other. So a walk never asks for a slice that is not there as long as it
remembers nothing but positions that it has been at.

## Main definitions

* `width`: The number of bytes of a list of characters.

## Theorems

* `slice_width`, `sliceFrom_width`, `sliceTo_width`: The text between the ends of its parts.
* `positionOf?_eq`: The first character of a class ends the others.
-/

namespace UtilityCss

/-- A step that succeeds hands on what it comes to. -/
theorem ok_bind {ε α β : Type} (a : α) (f : α → Except ε β) : (Except.ok a >>= f) = f a := rfl

namespace Text

/-- The number of bytes of a list of characters. -/
def width : List Char → Nat
  | [] => 0
  | c :: cs => c.utf8Size + width cs

@[simp]
theorem width_nil : width [] = 0 := rfl

@[simp]
theorem width_cons (c : Char) (cs : List Char) : width (c :: cs) = c.utf8Size + width cs := rfl

@[simp]
theorem width_append (cs ds : List Char) : width (cs ++ ds) = width cs + width ds := by
  induction cs with
  | nil => rw [List.nil_append, width_nil, Nat.zero_add]
  | cons c cs ih => rw [List.cons_append, width_cons, width_cons, ih, Nat.add_assoc]

theorem width_eq_zero_iff {cs : List Char} : width cs = 0 ↔ cs = [] := by
  cases cs with
  | nil => simp only [width_nil]
  | cons c cs =>
      have hpos := c.utf8Size_pos
      simp only [width_cons, reduceCtorEq, iff_false]
      omega

theorem utf8ByteSize_ofList (cs : List Char) : (String.ofList cs).utf8ByteSize = width cs := by
  induction cs with
  | nil => rfl
  | cons c cs ih =>
      rw [String.ofList_cons, String.utf8ByteSize_append, String.utf8ByteSize_singleton, ih,
        width_cons]

theorem utf8ByteSize_eq_width (s : String) : s.utf8ByteSize = width s.toList := by
  rw [← utf8ByteSize_ofList, String.ofList_toList]

section

variable {s : String} {front middle back : List Char}

/-- Between the ends of two parts is what stands between them. -/
theorem slice_width (h : s.toList = front ++ (middle ++ back)) :
    slice s (width front) (width (front ++ middle)) = .ok (String.ofList middle) := by
  have hs : s = String.ofList front ++ String.ofList middle ++ String.ofList back := by
    rw [← String.ofList_toList (s := s), h, String.ofList_append, String.ofList_append,
      String.append_assoc]
  rw [← utf8ByteSize_ofList, ← utf8ByteSize_ofList, String.ofList_append, hs, slice_append]

theorem sliceFrom_width (h : s.toList = front ++ back) :
    sliceFrom s (width front) = .ok (String.ofList back) := by
  rw [sliceFrom, utf8ByteSize_eq_width, h]
  exact slice_width (by rw [h, List.append_nil])

theorem sliceTo_width (h : s.toList = front ++ back) :
    sliceTo s (width front) = .ok (String.ofList front) := by
  have hfront : s.toList = [] ++ (front ++ back) := h
  exact slice_width hfront

end

/-- The first character of a class stands behind those that are not in it. -/
theorem positionOf?_eq (p : Char → Bool) (s : String) :
    positionOf? p s = if s.toList.any p then some (width (s.toList.takeWhile fun c => !p c))
      else none := by
  have hfrom : ∀ (i : Nat) (cs : List Char),
      ((positionedFrom i cs).find? fun place => p place.2).map Prod.fst
        = if cs.any p then some (i + width (cs.takeWhile fun c => !p c)) else none := by
    intro i cs
    induction cs generalizing i with
    | nil => rfl
    | cons c cs ih =>
        rw [positionedFrom, List.find?_cons, List.takeWhile_cons, List.any_cons]
        by_cases hc : p c = true
        · simp only [hc, Bool.true_or, if_true, Option.map_some, Bool.not_true,
            Bool.false_eq_true, if_false, width_nil, Nat.add_zero]
        · rw [Bool.not_eq_true] at hc
          simp only [hc, Bool.false_or, Bool.not_false, if_true, width_cons, ih, Nat.add_assoc]
  rw [positionOf?, positioned, hfrom, Nat.zero_add]

end Text

end UtilityCss
