import UtilityCss.Yaml.Scalar

/-!
# Scalars in Quotes

A text that is read back as it was written.

In double quotes most characters stand for themselves. A quote ends the scalar, a backslash
starts an escape, and the end of a line becomes a space; any other character is kept. So a text
without these three is read back from between two quotes, and the cursor stands behind the
second one.

Spaces are not read one by one: they are gathered in a gap that is closed by the next word or by
the quote. On one line, closing a gap gives back the spaces as they were.

## Main definitions

* `Yaml.isLiteral`: A character stands for itself in double quotes.

## Theorems

* `Yaml.quotedFrom?_append`: Reading on from inside a scalar.
* `Yaml.readQuoted?_append`: What stands in quotes is read back.
-/

namespace UtilityCss

namespace Yaml

/-- The character stands for itself in double quotes. -/
def isLiteral (c : Char) : Bool := !isBreak c && c ≠ '"' && c ≠ '\\'

theorem isLiteral_iff {c : Char} :
    isLiteral c = true ↔ isBreak c = false ∧ c ≠ '"' ∧ c ≠ '\\' := by
  rw [isLiteral, Bool.and_eq_true, Bool.and_eq_true, Bool.not_eq_true', decide_eq_true_eq,
    decide_eq_true_eq, and_assoc]

namespace Cursor

@[simp] theorem next_next (cur : Cursor) (m n : Nat) :
    (cur.next m).next n = cur.next (m + n) := by
  rw [next, next, next, List.drop_drop, Nat.add_assoc, Nat.add_assoc]

/-- No marker stands behind the start of a line. -/
theorem atMarker_eq_false {cur : Cursor} (h : 0 < cur.column) : cur.atMarker = false := by
  rw [atMarker, decide_eq_false (Nat.ne_of_gt h), Bool.false_and]

end Cursor

/-- The text of a gap that may be open. -/
def gapText (gap? : Option Gap) : List Char := (gap?.map Gap.text).getD []

/-- A gap that may be open has no end of a line in it. -/
def IsOnLine (gap? : Option Gap) : Prop := ∀ gap ∈ gap?, gap.crossed = false

theorem isOnLine_none : IsOnLine none := fun _ h => absurd h (Option.not_mem_none _)

/-- One space more is one character more of text. -/
theorem IsOnLine.addSpace {gap? : Option Gap} (h : IsOnLine gap?) (c : Char) :
    IsOnLine (some ((gap?.getD Gap.start).addSpace c)) ∧
      gapText (some ((gap?.getD Gap.start).addSpace c)) = gapText gap? ++ [c] := by
  have hstart : (gap?.getD Gap.start).crossed = false ∧
      (gap?.getD Gap.start).text = gapText gap? := by
    cases gap? with
    | none => exact ⟨rfl, rfl⟩
    | some gap => exact ⟨h gap rfl, rfl⟩
  rcases hgap : gap?.getD Gap.start with ⟨spaces, crossed, first, later⟩
  rw [hgap] at hstart
  rcases hstart with ⟨rfl, htext⟩
  rw [← htext]
  refine ⟨fun gap hmem => ?_, rfl⟩
  cases hmem
  rfl

/-- Reading on from inside a scalar. A gap that is open becomes text, and so does everything up to
    the quote. -/
theorem quotedFrom?_append {cs more : List Char} (h : ∀ c ∈ cs, isLiteral c = true) {cur : Cursor}
    (hrest : cur.rest = cs ++ '"' :: more) (hcolumn : 0 < cur.column) {gap? : Option Gap}
    (hgap : IsOnLine gap?) (fuel : Nat) (back : List Char) :
    quotedFrom? '"' (cs.length + (fuel + 1)) cur back gap?
      = some ⟨back.reverse ++ gapText gap? ++ cs, cur.next (cs.length + 1), false⟩ := by
  -- What has been read stays at the back, with the gap that is open behind it.
  induction cs generalizing cur gap? back with
  | nil =>
      have hmarker : (gap?.isSome && cur.atMarker) = false := by
        rw [Cursor.atMarker_eq_false hcolumn, Bool.and_false]
      have hquote : isGap '"' = false := by decide
      have hbreak : isBreak '"' = false := by decide
      rw [List.length_nil, Nat.zero_add, quotedFrom?, hrest]
      simp only [List.nil_append, hquote, hbreak, hmarker, Bool.false_eq_true, if_false, if_true,
        List.reverse_append, List.reverse_reverse, List.append_nil]
      rfl
  | cons c cs ih =>
      rcases List.forall_mem_cons.1 h with ⟨hc, hcs⟩
      rcases isLiteral_iff.1 hc with ⟨hbreak, hquote, hslash⟩
      have hnext : (cur.next 1).rest = cs ++ '"' :: more := by
        rw [Cursor.next, hrest]
        rfl
      have hcursor : (cur.next 1).next (cs.length + 1) = cur.next (cs.length + 1 + 1) := by
        rw [Cursor.next_next, Nat.add_comm]
      have hmarker : (gap?.isSome && cur.atMarker) = false := by
        rw [Cursor.atMarker_eq_false hcolumn, Bool.and_false]
      rw [List.length_cons, Nat.add_right_comm, quotedFrom?, hrest]
      dsimp only [List.cons_append]
      by_cases hspace : isGap c = true
      · -- The gap goes on.
        rcases hgap.addSpace c with ⟨hmore, htext⟩
        rw [if_pos hspace, ih hcs hnext (Nat.succ_pos _) hmore, htext, hcursor]
        simp only [List.append_assoc, List.singleton_append]
      · -- The gap ends, and a word goes on.
        rw [if_neg hspace, hbreak, if_neg Bool.false_ne_true, hmarker, if_neg Bool.false_ne_true,
          if_neg hquote, decide_eq_false hslash, Bool.and_false, if_neg Bool.false_ne_true,
          ih hcs hnext (Nat.succ_pos _) isOnLine_none, hcursor]
        simp only [List.reverse_cons, List.reverse_append, List.reverse_reverse, gapText,
          Option.map_none, Option.getD_none, List.append_nil, List.append_assoc,
          List.singleton_append]

/-- What stands in quotes is read back. -/
theorem readQuoted?_append {cs more : List Char} (h : ∀ c ∈ cs, isLiteral c = true) {cur : Cursor}
    (hrest : cur.rest = '"' :: (cs ++ '"' :: more)) :
    readQuoted? '"' cur = some ⟨cs, cur.next (cs.length + 2), false⟩ := by
  have hnext : (cur.next 1).rest = cs ++ '"' :: more := by
    rw [Cursor.next, hrest]
    rfl
  have hfuel : cur.rest.length + 1 = cs.length + (more.length + 2 + 1) := by
    rw [hrest, List.length_cons, List.length_append, List.length_cons]
    omega
  rw [readQuoted?, hfuel, quotedFrom?_append h hnext (Nat.succ_pos _) isOnLine_none,
    Cursor.next_next, Nat.add_comm 1]
  rfl

end Yaml

end UtilityCss
