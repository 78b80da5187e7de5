import UtilityCss.Text.Cut

/-!
# Slices of Text

Taking texts apart in place, by byte positions.

A walk over a text gives each character together with the position of its first byte. What
is remembered of the walk is plain numbers, and a number computed from a position need not be
one: the byte after a character is the next position only if the character is a single byte.
There is no text between numbers that are no positions, or that lie the wrong way round or
behind the end. A cut there is a fault, and so is counting down from zero. A fault ends
everything; there is nothing to go on with.

## Main definitions

* `Fault`: What can be wrong with a step.
* `slice`: The text between two byte positions.
* `oneLess`: A count lowered by one.
* `positioned`: The characters of a text with their positions.
* `positionOf?`, `positionOfWord?`: Where a character of a class, or a word, is first.

## Theorems

* `exists_slice_iff`: Where a text can be cut.
* `slice_append`: A text is cut between its parts.
-/

namespace UtilityCss

namespace Text

/-- What can be wrong with a step on positions and counts. -/
inductive Fault where
  /-- A slice starts or ends behind the text. -/
  | outside
  /-- A slice starts or ends within a character. -/
  | withinCharacter
  /-- A slice ends before it starts. -/
  | reversed
  /-- A count falls below zero. -/
  | belowZero
deriving DecidableEq, Repr

/-- The text from one byte position up to another. -/
def slice (s : String) (start stop : Nat) : Except Fault String :=
  if s.utf8ByteSize < start ∨ s.utf8ByteSize < stop then .error .outside
  else if hends : String.Pos.Raw.IsValid s ⟨start⟩ ∧ String.Pos.Raw.IsValid s ⟨stop⟩ then
    if h : s.pos ⟨start⟩ hends.1 ≤ s.pos ⟨stop⟩ hends.2 then
      .ok (s.slice (s.pos ⟨start⟩ hends.1) (s.pos ⟨stop⟩ hends.2) h).copy
    else .error .reversed
  else .error .withinCharacter

/-- The text from a byte position on. -/
def sliceFrom (s : String) (start : Nat) : Except Fault String := slice s start s.utf8ByteSize

/-- The text up to a byte position. -/
def sliceTo (s : String) (stop : Nat) : Except Fault String := slice s 0 stop

/-- The number before a number. -/
def oneLess : Nat → Except Fault Nat
  | 0 => .error .belowZero
  | n + 1 => .ok n

/-- Characters with their byte positions, the first of which is given. -/
def positionedFrom : Nat → List Char → List (Nat × Char)
  | _, [] => []
  | i, c :: cs => (i, c) :: positionedFrom (i + c.utf8Size) cs

/-- The characters of a text with their byte positions. -/
def positioned (s : String) : List (Nat × Char) := positionedFrom 0 s.toList

/-- The position of the first character of a class. -/
def positionOf? (p : Char → Bool) (s : String) : Option Nat :=
  ((positioned s).find? fun place => p place.2).map Prod.fst

/-- Where a word is first, in a text that starts at a position. -/
def positionOfWordFrom? (word : List Char) : Nat → List Char → Option Nat
  | i, [] => if word.isEmpty then some i else none
  | i, c :: cs =>
    if (dropWord? word (c :: cs)).isSome then some i
    else positionOfWordFrom? word (i + c.utf8Size) cs

/-- The position where a word is first. -/
def positionOfWord? (word s : String) : Option Nat :=
  positionOfWordFrom? word.toList 0 s.toList

/-- A text can be cut between two positions in order, each the start of a character or the end of
    the text, and nowhere else. -/
theorem exists_slice_iff {s : String} {start stop : Nat} :
    (∃ t, slice s start stop = .ok t) ↔
      start ≤ stop ∧ stop ≤ s.utf8ByteSize ∧
        String.Pos.Raw.IsValid s ⟨start⟩ ∧ String.Pos.Raw.IsValid s ⟨stop⟩ := by
  unfold slice
  constructor
  · rintro ⟨t, h⟩
    split at h
    · exact absurd h (by simp only [reduceCtorEq, not_false_eq_true])
    · split at h
      · next hends =>
        split at h
        · next hle => exact ⟨hle, hends.2.le_utf8ByteSize, hends⟩
        · exact absurd h (by simp only [reduceCtorEq, not_false_eq_true])
      · exact absurd h (by simp only [reduceCtorEq, not_false_eq_true])
  · rintro ⟨hle, hstop, hends⟩
    rw [if_neg (by omega), dif_pos hends]
    exact ⟨_, dif_pos hle⟩

theorem toByteArray_of_slice {s t : String} {start stop : Nat} (h : slice s start stop = .ok t) :
    t.toByteArray = s.toByteArray.extract start stop := by
  unfold slice at h
  split at h
  · exact absurd h (by simp only [reduceCtorEq, not_false_eq_true])
  · split at h
    · split at h
      · rw [← Except.ok.inj h, String.toByteArray_copy_slice]
        rfl
      · exact absurd h (by simp only [reduceCtorEq, not_false_eq_true])
    · exact absurd h (by simp only [reduceCtorEq, not_false_eq_true])

/-- A text is cut between its parts. -/
theorem slice_append (front middle back : String) :
    slice (front ++ middle ++ back) front.utf8ByteSize (front ++ middle).utf8ByteSize
      = .ok middle := by
  have hends : String.Pos.Raw.IsValid (front ++ middle ++ back) ⟨front.utf8ByteSize⟩ ∧
      String.Pos.Raw.IsValid (front ++ middle ++ back) ⟨(front ++ middle).utf8ByteSize⟩ :=
    ⟨String.Pos.Raw.isValid_iff_exists_append.2 ⟨front, _, String.append_assoc, rfl⟩,
      String.Pos.Raw.isValid_iff_exists_append.2 ⟨_, back, rfl, rfl⟩⟩
  have hle : front.utf8ByteSize ≤ (front ++ middle).utf8ByteSize := by
    rw [String.utf8ByteSize_append]
    exact Nat.le_add_right _ _
  have hbytes : (front ++ middle ++ back).toByteArray.extract front.utf8ByteSize
      (front ++ middle).utf8ByteSize = middle.toByteArray := by
    rw [String.append_assoc, String.toByteArray_append, String.toByteArray_append,
      String.utf8ByteSize_append, ← String.size_toByteArray, ← String.size_toByteArray,
      ← Nat.add_zero front.toByteArray.size, Nat.add_assoc, ByteArray.extract_append_size_add,
      Nat.zero_add, ByteArray.extract_append_eq_left rfl]
  rcases exists_slice_iff.2 ⟨hle, hends.2.le_utf8ByteSize, hends⟩ with ⟨t, ht⟩
  rw [ht, String.toByteArray_inj.1 ((toByteArray_of_slice ht).trans hbytes)]

end Text

end UtilityCss
