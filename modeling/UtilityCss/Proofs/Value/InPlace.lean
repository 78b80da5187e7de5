import Mathlib.Data.List.TakeWhile
import UtilityCss.Proofs.Text.Slice
import UtilityCss.Value.InPlace

/-!
# Cutting Values in Place

Every cut that checking a bracketed value asks for can be made.

The check of the calls takes every character for a single byte, when it steps behind a character
that cannot be part of a name. So it is right for texts of such characters (`callsInPlace_eq`) and
for no others: in `é(` the name would start within the `é`. All allowed characters are single
bytes, and a value is checked for them before its calls are looked at. If the two checks changed
places, the second one would end the build on text that is merely no value.

Cutting a number needs no such care. What is passed there is a sign and the characters of a number,
and the position behind them is where the walk has stopped.

## Theorems

* `callsInPlace_eq`: The calls of a text of single bytes are checked in place.
* `cutNumberInPlace_eq`: A number is cut in place, whatever text it is in.
* `parseInPlace_eq`: So a value is read in place, whatever text stands between the brackets.
-/

namespace UtilityCss

namespace ArbitraryValue

/-! ### Calls -/

/-- An allowed character is a single byte. -/
theorem utf8Size_of_isAllowed {c : Char} (h : isAllowed c = true) : c.utf8Size = 1 := by
  rw [Char.utf8Size_eq_one_iff]
  rcases Bool.or_eq_true_iff.1 h with halphanum | hmark
  · rcases Bool.or_eq_true_iff.1 halphanum with halpha | hdigit
    · rcases Bool.or_eq_true_iff.1 halpha with hupper | hlower
      · exact UInt32.le_trans (of_decide_eq_true hupper : _ ∧ _).2 (by decide)
      · exact UInt32.le_trans (of_decide_eq_true (Bool.and_eq_true_iff.1 hlower).2) (by decide)
    · exact UInt32.le_trans (of_decide_eq_true (Bool.and_eq_true_iff.1 hdigit).2) (by decide)
  · have hbytes : ([' ', '#', '.', '%', '-', '+', '*', '/', '(', ')', ','].all
        fun d => decide (d.val ≤ 127)) = true := by decide
    exact of_decide_eq_true (List.all_eq_true.1 hbytes c (List.contains_iff_mem.1 hmark))

theorem callsAllowed_cons (depth : Nat) (run : List Char) (c : Char) (cs : List Char) :
    callsAllowed depth run (c :: cs) =
      if c = '(' then isCallable (calledName run.reverse) && callsAllowed (depth + 1) [] cs
      else if c = ')' then if depth = 0 then false else callsAllowed (depth - 1) [] cs
      else if isNameChar c then callsAllowed depth (c :: run) cs
      else callsAllowed depth [] cs := by
  cases depth <;> rfl

/-- What the check finds behind a part of the value that ends where a name can start, and the
    characters of that name. -/
theorem callsInPlace_eq {value : String} {done run rest : List Char}
    (hvalue : value.toList = done ++ (run.reverse ++ rest)) (hbytes : ∀ c ∈ rest, c.utf8Size = 1)
    (depth : Nat) :
    callsInPlace value depth (Text.width done)
        (Text.positionedFrom (Text.width (done ++ run.reverse)) rest)
      = .ok (callsAllowed depth run rest) := by
  induction rest generalizing done run depth with
  | nil => rfl
  | cons c rest ih =>
      rcases List.forall_mem_cons.1 hbytes with ⟨hbyte, hrest⟩
      -- Behind the character a new name can start: it is one byte.
      have hstep (depth : Nat) : callsInPlace value depth (Text.width (done ++ run.reverse) + 1)
          (Text.positionedFrom (Text.width (done ++ run.reverse) + c.utf8Size) rest)
            = .ok (callsAllowed depth [] rest) := by
        have hnext : Text.width (done ++ run.reverse) + 1
            = Text.width (done ++ run.reverse ++ [c]) := by
          rw [Text.width_append (done ++ run.reverse), Text.width_cons, hbyte, Text.width_nil]
        have hdone : value.toList
            = done ++ run.reverse ++ [c] ++ (([] : List Char).reverse ++ rest) := by
          rw [hvalue, List.reverse_nil, List.nil_append, List.append_assoc, List.append_assoc,
            List.singleton_append]
        have hcalls := ih hdone hrest depth
        rw [List.reverse_nil, List.append_nil, ← hnext] at hcalls
        rw [hbyte, hcalls]
      rw [Text.positionedFrom, callsInPlace, callsAllowed_cons]
      by_cases hopens : c = '('
      · rw [if_pos hopens, if_pos hopens, Text.slice_width hvalue, hstep, ok_bind,
          String.toList_ofList]
        by_cases hcallable : isCallable (calledName run.reverse) = true
        · rw [if_pos hcallable, hcallable, Bool.true_and]
        · rw [if_neg hcallable, eq_false_of_ne_true hcallable, Bool.false_and]
          rfl
      · rw [if_neg hopens, if_neg hopens]
        by_cases hcloses : c = ')'
        · rw [if_pos hcloses, if_pos hcloses]
          cases depth with
          | zero => rfl
          | succ depth => exact hstep depth
        · rw [if_neg hcloses, if_neg hcloses]
          by_cases hname : isNameChar c = true
          · have hposition : Text.width (done ++ run.reverse) + c.utf8Size
                = Text.width (done ++ (c :: run).reverse) := by
              rw [List.reverse_cons, ← List.append_assoc, Text.width_append (done ++ run.reverse)]
              rfl
            have hdone : value.toList = done ++ ((c :: run).reverse ++ rest) := by
              rw [hvalue, List.reverse_cons, List.append_assoc, List.singleton_append]
            rw [if_pos hname, if_pos hname, hposition, ih hdone hrest]
          · rw [if_neg hname, if_neg hname, hstep]

-- Without the check of the characters there would be a fault.
example : callsInPlace "é(" 0 0 (Text.positioned "é(") = .error .withinCharacter := by decide

/-! ### Numbers -/

section

variable {value : String} {sign body : List Char} (hvalue : value.toList = sign ++ body)
  (hsign : signWidth value = Text.width sign)
include hvalue hsign

/-- The number ends where the walk has stopped, or at the end of the value. -/
theorem numberEnd_eq :
    numberEnd value = .ok (Text.width (sign ++ body.takeWhile isNumberPart)) := by
  rw [numberEnd, hsign, Text.sliceFrom_width hvalue, ok_bind, Text.positionOf?_eq,
    String.toList_ofList]
  simp only [Bool.not_not]
  by_cases hrest : body.any (fun c => !isNumberPart c) = true
  · rw [if_pos hrest, Text.width_append, Nat.add_comm]
    rfl
  · have hall : body.takeWhile isNumberPart = body := by
      refine List.takeWhile_eq_self_iff.2 fun c hc => ?_
      by_contra hno
      exact hrest (List.any_eq_true.2 ⟨c, hc, by rw [eq_false_of_ne_true hno, Bool.not_false]⟩)
    rw [if_neg hrest, hall, ← hvalue, ← Text.utf8ByteSize_eq_width]
    rfl

/-- A number is cut in place, given its sign and the text behind it. -/
theorem cutNumberInPlace_of_sign :
    cutNumberInPlace value
      = .ok (if (Decimal.readDouble? (body.takeWhile isNumberPart)).isSome then
          some (String.ofList (sign ++ body.takeWhile isNumberPart),
            String.ofList (body.dropWhile isNumberPart))
        else none) := by
  have hsplit : value.toList
      = sign ++ body.takeWhile isNumberPart ++ body.dropWhile isNumberPart := by
    rw [hvalue, List.append_assoc, List.takeWhile_append_dropWhile]
  rw [cutNumberInPlace, numberEnd_eq hvalue hsign, ok_bind, Text.sliceTo_width hsplit, ok_bind,
    hsign, Text.sliceFrom_width String.toList_ofList, ok_bind, Text.sliceFrom_width hsplit,
    String.toList_ofList]
  by_cases hnumber : (Decimal.readDouble? (body.takeWhile isNumberPart)).isSome = true
  -- The empty text is no number, so the test for it changes nothing.
  · have hne : (String.ofList (body.takeWhile isNumberPart)).isEmpty = false := by
      rw [← Bool.not_eq_true, String.isEmpty_iff, String.ofList_eq_empty_iff]
      intro hnil
      rw [hnil] at hnumber
      exact absurd hnumber (by decide)
    rw [if_pos hnumber, hne, Option.isNone_eq_false_iff.2 hnumber]
    rfl
  · rw [if_neg hnumber, Option.isNone_iff_eq_none.2 (Option.not_isSome_iff_eq_none.1 hnumber),
      Bool.or_true]
    rfl

end

/-- What stands before a number is its sign, or nothing. -/
theorem exists_cutNumber?_eq (value : String) : ∃ sign body, value.toList = sign ++ body ∧
    signWidth value = Text.width sign ∧
    cutNumber? value.toList
      = if (Decimal.readDouble? (body.takeWhile isNumberPart)).isSome then
          some (sign ++ body.takeWhile isNumberPart, body.dropWhile isNumberPart)
        else none := by
  have hwidth : signWidth value
      = if value.toList.head? = some '-' ∨ value.toList.head? = some '+' then 1 else 0 := rfl
  rw [hwidth]
  cases value.toList with
  | nil => exact ⟨[], [], rfl, rfl, rfl⟩
  | cons c rest =>
      -- The sign is a minus, a plus or nothing.
      by_cases hminus : c = '-'
      · subst hminus
        exact ⟨['-'], rest, rfl, rfl, rfl⟩
      · by_cases hplus : c = '+'
        · subst hplus
          exact ⟨['+'], rest, rfl, rfl, rfl⟩
        · refine ⟨[], c :: rest, rfl, if_neg ?_, ?_⟩
          · simp only [List.head?_cons, Option.some.injEq, hminus, hplus, or_self,
              not_false_eq_true]
          · unfold cutNumber?
            split
            next sign body heq =>
            split at heq
            · next h => exact absurd (List.cons.inj h).1 hminus
            · next h => exact absurd (List.cons.inj h).1 hplus
            · rcases Prod.mk.inj heq with ⟨rfl, rfl⟩
              rfl

theorem cutNumberInPlace_eq (value : String) :
    cutNumberInPlace value = .ok ((cutNumber? value.toList).map fun (number, rest) =>
      (String.ofList number, String.ofList rest)) := by
  rcases exists_cutNumber?_eq value with ⟨sign, body, hvalue, hsign, hcut⟩
  rw [cutNumberInPlace_of_sign hvalue hsign, hcut]
  split <;> rfl

/-! ### Values -/

/-- The kind of a value is told in place. -/
theorem classifyLowerInPlace_eq (value : String) :
    classifyLowerInPlace value = .ok (classifyLower value.toList) := by
  unfold classifyLowerInPlace classifyLower
  simp only [String.toList_inj]
  split
  · rfl
  · split
    · rfl
    · rw [cutNumberInPlace_eq]
      -- What differs is how the end of the value is told: by an empty text here, and by an
      -- empty list there.
      rcases cutNumber? value.toList with _ | ⟨number, rest⟩
      · rfl
      · rw [Option.map_some, ok_bind]
        cases rest with
        | nil => rfl
        | cons c rest =>
            have hne : String.ofList (c :: rest) ≠ "" := by
              rw [ne_eq, String.ofList_eq_empty_iff]
              exact List.cons_ne_nil c rest
            dsimp only
            rw [if_neg hne]
            rfl

/-- A value is safe if all checks that are made in place pass. -/
theorem isSafe_eq (cs : List Char) :
    isSafe cs = (!((String.ofList cs).isEmpty || maxBytes < (String.ofList cs).utf8ByteSize
      || !cs.all isAllowed) && callsAllowed 0 [] cs) := by
  have hempty : (String.ofList cs).isEmpty = cs.isEmpty := by
    rw [Bool.eq_iff_iff, String.isEmpty_iff, String.ofList_eq_empty_iff, List.isEmpty_iff]
  rw [isSafe, hempty, Bool.not_or, Bool.not_or, Bool.not_not, ← decide_not]
  simp only [Nat.not_lt]

theorem ofBodyInPlace_eq (pinned : Option ArbitraryKind) (body : List Char) :
    ofBodyInPlace pinned body = .ok (ofBody? pinned body) := by
  unfold ofBodyInPlace ofBody?
  dsimp only
  rw [isSafe_eq, String.toList_ofList]
  split
  · next hfails =>
      rw [hfails]
      rfl
  · next hpasses =>
      have hallowed : ∀ c ∈ spaced body, isAllowed c = true := by
        rw [Bool.or_eq_true, not_or, Bool.not_eq_true', Bool.not_eq_false] at hpasses
        exact List.all_eq_true.1 hpasses.2
      -- The whole value is still to be walked over, and all of it is single bytes.
      have hcalls : callsInPlace (String.ofList (spaced body)) 0 0
          (Text.positioned (String.ofList (spaced body)))
            = .ok (callsAllowed 0 [] (spaced body)) := by
        have hwhole : (String.ofList (spaced body)).toList
            = [] ++ (([] : List Char).reverse ++ spaced body) := String.toList_ofList
        rw [Text.positioned, String.toList_ofList]
        exact callsInPlace_eq hwhole (fun c hc => utf8Size_of_isAllowed (hallowed c hc)) 0
      rw [hcalls, ok_bind, eq_false_of_ne_true hpasses, Bool.not_false, Bool.true_and]
      by_cases hsafe : callsAllowed 0 [] (spaced body) = true
      · rw [if_pos hsafe, if_pos hsafe]
        cases pinned with
        | some kind => rfl
        | none =>
            rw [classifyLowerInPlace_eq, String.toList_ofList]
            rfl
      · rw [if_neg hsafe, if_neg hsafe]
        rfl

/-- A bracketed value is read in place, whatever text stands between the brackets. -/
theorem parseInPlace_eq (raw : String) : parseInPlace raw = .ok (parse? raw) := by
  unfold parseInPlace parse?
  rcases Text.cutFirst ':' raw.toList with _ | ⟨hint, body⟩
  · exact ofBodyInPlace_eq none raw.toList
  · rcases hkind : hintKind? (String.ofList hint) with _ | kind
    · simp only [hkind]
      rfl
    · simp only [hkind]
      exact ofBodyInPlace_eq (some kind) body

end ArbitraryValue

end UtilityCss
