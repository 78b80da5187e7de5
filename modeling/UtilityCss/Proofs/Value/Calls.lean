import UtilityCss.Proofs.Value.Bracketed
import Mathlib.Data.List.DropRight

/-!
# What a Bracketed Value Can Call

Which functions a bracketed value can call when it has passed the checks.

A reader of the stylesheet takes for the name of a function whatever word ends
at the opening parenthesis, and the digits in that word are part of it. Digits
and hyphens in front of the name are not, since a name starts with a letter: in
`1px-max(2px)` a reader finds `px-max`, in `-2-max(2px)` it finds `max`.

The check reads another word. Its run of name characters has letters and hyphens
only, and a digit starts it anew. What is looked up is thus the part of the name
behind its last digit: for `atan2(1,2)` that is the empty text, which is taken
for a parenthesis without a function. So the list of functions holds exactly for
the names without digits, and a name with digits is judged by its end.

The check goes on from character to character, so its run is compared with what
stands before the current place: `run` is the longest end of the text read so
far that has name characters only, which is what one step preserves.

## Main definitions

* `isWordChar`: A character of a name or a number.
* `calledBehind`: The name that a reader takes for the called function.

## Theorems

* `exists_of_callsAllowed_cons`: What one step of the check does to its run.
* `isCallable_of_callsAllowed`: The check looks up the run of name characters at
  each parenthesis.
* `calledName_eq_calledBehind`: The two readings agree on names without digits.
* `isDigit_eq_false_of_isCallable`: No listed name has a digit.
* `parse?_callable_iff`: What a value calls is listed exactly if its name has no
  digit, and the part behind the last digit is always listed.
* `parse?_calls_unlisted`: A function that is not listed can be called.
-/

namespace UtilityCss

namespace ArbitraryValue

/-- The character can be part of a name or a number. -/
def isWordChar (c : Char) : Bool := c.isAlphanum || c = '-'

/-- The name of the function that is called at a parenthesis, given the text
    before it: the word that ends there, from its first letter on. -/
def calledBehind (before : List Char) : List Char :=
  (before.rtakeWhile isWordChar).dropWhile fun c => c.isDigit || c = '-'

theorem isWordChar_eq (c : Char) : isWordChar c = (isNameChar c || c.isDigit) := by
  simp only [isWordChar, isNameChar, Char.isAlphanum]
  exact Bool.or_right_comm _ _ _

-- There are ten digits, so what holds for each of them is seen at a glance.
theorem exists_eq_of_isDigit {c : Char} (h : c.isDigit = true) :
    ∃ n < 10, c = Char.ofNat (48 + n) := by
  simp only [Char.isDigit, Bool.and_eq_true, decide_eq_true_eq, ge_iff_le,
    UInt32.le_iff_toNat_le] at h
  have hlo : 48 ≤ c.toNat := h.1
  have hhi : c.toNat ≤ 57 := h.2
  refine ⟨c.toNat - 48, by omega, ?_⟩
  rw [Nat.add_sub_cancel' hlo, Char.ofNat_toNat]

theorem isNameChar_eq_false_of_isDigit {c : Char} (h : c.isDigit = true) :
    isNameChar c = false := by
  have hdigits : ∀ n < 10, isNameChar (Char.ofNat (48 + n)) = false := by decide
  rcases exists_eq_of_isDigit h with ⟨n, hn, rfl⟩
  exact hdigits n hn

theorem toLower_of_isDigit {c : Char} (h : c.isDigit = true) : c.toLower = c := by
  have hdigits : ∀ n < 10, (Char.ofNat (48 + n)).toLower = Char.ofNat (48 + n) := by decide
  rcases exists_eq_of_isDigit h with ⟨n, hn, rfl⟩
  exact hdigits n hn

/-! ### What is looked up -/

-- A parenthesis, and every other character that is no part of a name, empties
-- the run.
theorem exists_of_callsAllowed_cons {depth : Nat} {run cs : List Char} {c : Char}
    (h : callsAllowed depth run (c :: cs) = true) :
    ∃ depth', callsAllowed depth' (if isNameChar c then c :: run else []) cs = true := by
  simp only [callsAllowed] at h
  by_cases hopens : c = '('
  · simp only [hopens, if_true, Bool.and_eq_true] at h
    exact ⟨depth + 1, by rw [hopens]; exact h.2⟩
  · rw [if_neg hopens] at h
    by_cases hcloses : c = ')'
    · rw [if_pos hcloses] at h
      cases depth with
      | zero => exact absurd h Bool.false_ne_true
      | succ depth => exact ⟨depth, by rw [hcloses]; exact h⟩
    · rw [if_neg hcloses] at h
      by_cases hname : isNameChar c = true
      · rw [if_pos hname] at h
        exact ⟨depth, by rw [if_pos hname]; exact h⟩
      · rw [if_neg hname] at h
        exact ⟨depth, by rw [if_neg hname]; exact h⟩

/-- At each parenthesis the check looks up the name characters in front of it. -/
theorem isCallable_of_callsAllowed {depth : Nat} {run read before after : List Char}
    (hrun : run.reverse = read.rtakeWhile isNameChar)
    (h : callsAllowed depth run (before ++ '(' :: after) = true) :
    isCallable (calledName ((read ++ before).rtakeWhile isNameChar)) = true := by
  -- The run stays the end of what has been read, which grows by one character.
  induction before generalizing depth run read with
  | nil =>
      simp only [List.nil_append, callsAllowed, if_true, Bool.and_eq_true] at h
      rw [List.append_nil, ← hrun]
      exact h.1
  | cons c before ih =>
      rcases exists_of_callsAllowed_cons h with ⟨depth', hnext⟩
      rw [List.append_cons read c before]
      refine ih ?_ hnext
      rw [List.rtakeWhile_concat]
      by_cases hname : isNameChar c = true
      · rw [if_pos hname, if_pos hname, List.reverse_cons, hrun]
      · rw [if_neg hname, if_neg hname, List.reverse_nil]

/-! ### What is called -/

section

variable {before : List Char}

-- The word is cut at its first letter: digits and hyphens, then the name.
theorem exists_lead_calledBehind (before : List Char) :
    ∃ front lead, before = front ++ lead ++ calledBehind before ∧
      front.rtakeWhile isNameChar = [] ∧ (∀ c ∈ lead, c.isDigit = true ∨ c = '-') := by
  refine ⟨before.rdropWhile isWordChar,
    (before.rtakeWhile isWordChar).takeWhile fun c => c.isDigit || c = '-', ?_, ?_, ?_⟩
  · rw [calledBehind, List.append_assoc, List.takeWhile_append_dropWhile,
      List.rdropWhile_append_rtakeWhile]
  · refine List.rtakeWhile_eq_nil_iff.2 fun hne hlast => ?_
    -- The word would be longer if the text before it ended in a name character.
    refine List.rdropWhile_last_not isWordChar before hne ?_
    rw [isWordChar_eq, hlast, Bool.true_or]
  · intro c hc
    have hlead := List.mem_takeWhile_imp hc
    simpa only [Bool.or_eq_true, decide_eq_true_eq] using hlead

theorem rtakeWhile_append_of_forall {p : Char → Bool} {front back : List Char}
    (h : ∀ c ∈ back, p c = true) : (front ++ back).rtakeWhile p = front.rtakeWhile p ++ back := by
  induction back using List.reverseRecOn with
  | nil => rw [List.append_nil, List.append_nil]
  | append_singleton back c ih =>
      have hc : p c = true := h c (List.mem_append_right _ List.mem_cons_self)
      have hback := ih fun x hx => h x (List.mem_append_left _ hx)
      rw [← List.append_assoc, List.rtakeWhile_concat_pos p _ c hc, hback, List.append_assoc]

-- Of the digits and hyphens in front of a name, the run keeps hyphens only.
theorem forall_eq_dash_of_mem_rtakeWhile {front lead : List Char}
    (hfront : front.rtakeWhile isNameChar = []) (hlead : ∀ c ∈ lead, c.isDigit = true ∨ c = '-') :
    ∀ c ∈ (front ++ lead).rtakeWhile isNameChar, c = '-' := by
  induction lead using List.reverseRecOn with
  | nil =>
      rw [List.append_nil, hfront]
      exact fun c hc => absurd hc List.not_mem_nil
  | append_singleton lead c ih =>
      have hinit := ih fun x hx => hlead x (List.mem_append_left _ hx)
      rw [← List.append_assoc, List.rtakeWhile_concat]
      rcases hlead c (List.mem_append_right _ List.mem_cons_self) with hdigit | rfl
      · rw [isNameChar_eq_false_of_isDigit hdigit]
        exact fun x hx => absurd hx List.not_mem_nil
      · rw [if_pos (by decide)]
        intro x hx
        rcases List.mem_append.1 hx with hx | hx
        · exact hinit x hx
        · exact List.mem_singleton.1 hx

theorem isWordChar_of_mem_calledBehind {c : Char} (hc : c ∈ calledBehind before) :
    isWordChar c = true :=
  List.mem_rtakeWhile_imp ((List.dropWhile_sublist _).subset hc)

theorem head_calledBehind {c : Char} {name : List Char} (h : calledBehind before = c :: name) :
    c.isDigit = false ∧ c ≠ '-' := by
  have hhead := List.head?_dropWhile_not (fun c => c.isDigit || c = '-')
    (before.rtakeWhile isWordChar)
  rw [← calledBehind, h] at hhead
  simpa using hhead

/-- The check looks up the name that a reader finds, if no digit is in it. -/
theorem calledName_eq_calledBehind (h : ∀ c ∈ calledBehind before, c.isDigit = false) :
    calledName (before.rtakeWhile isNameChar) = calledBehind before := by
  rcases exists_lead_calledBehind before with ⟨front, lead, hbefore, hfront, hlead⟩
  have hname : ∀ c ∈ calledBehind before, isNameChar c = true := by
    intro c hc
    have hword := isWordChar_of_mem_calledBehind hc
    rwa [isWordChar_eq, h c hc, Bool.or_false] at hword
  have hsplit : before.rtakeWhile isNameChar
      = (front ++ lead).rtakeWhile isNameChar ++ calledBehind before := by
    conv_lhs => rw [hbefore]
    exact rtakeWhile_append_of_forall hname
  -- What the check drops in front is the hyphens, and the name starts behind them.
  rw [hsplit, calledName, List.dropWhile_append_of_pos]
  · cases hcalled : calledBehind before with
    | nil => rfl
    | cons c name =>
        refine List.dropWhile_cons_of_neg ?_
        have hletter : isNameChar c = true := hname c (by rw [hcalled]; exact List.mem_cons_self)
        intro hsign
        simp only [List.contains_eq_mem, List.mem_cons, List.not_mem_nil, or_false,
          decide_eq_true_eq] at hsign
        rcases hsign with rfl | rfl | rfl | rfl | rfl
        · exact (head_calledBehind hcalled).2 rfl
        all_goals exact absurd hletter (by decide)
  · intro c hc
    rw [forall_eq_dash_of_mem_rtakeWhile hfront hlead c hc]
    decide

end

-- Lower case is of letters only, and the listed names are letters and hyphens.
theorem isDigit_eq_false_of_isCallable {name : List Char} (h : isCallable name = true) :
    ∀ c ∈ name, c.isDigit = false := by
  have hlisted : functions.all (fun f => f.toList.all fun c => !c.isDigit) = true := by decide
  intro c hc
  simp only [isCallable, Bool.or_eq_true, List.isEmpty_iff, List.contains_eq_mem,
    decide_eq_true_eq] at h
  rcases h with rfl | hmem
  · exact absurd hc List.not_mem_nil
  · have hlower := List.all_eq_true.1 hlisted _ hmem
    rw [String.toList_ofList] at hlower
    have hnot := List.all_eq_true.1 hlower c.toLower (List.mem_map_of_mem hc)
    by_contra hdigit
    rw [Bool.not_eq_false] at hdigit
    rw [toLower_of_isDigit hdigit, hdigit] at hnot
    exact absurd hnot Bool.false_ne_true

/-- What a value calls at a parenthesis is listed, in any letter case, exactly
    if there is no digit in its name. The part of the name behind its last digit
    is listed in any case, or empty. -/
theorem parse?_callable_iff {raw : String} {v : ArbitraryValue} {before after : List Char}
    (h : parse? raw = some v) (hcall : v.value.toList = before ++ '(' :: after) :
    isCallable (calledName (before.rtakeWhile isNameChar)) = true ∧
      (isCallable (calledBehind before) = true ↔
        ∀ c ∈ calledBehind before, c.isDigit = false) := by
  rcases exists_body_of_parse? h with ⟨hint, body, -, -, hvalue, hsafe⟩
  simp only [isSafe, Bool.and_eq_true] at hsafe
  rcases hsafe with ⟨-, hcalls⟩
  rw [← hvalue, hcall] at hcalls
  have hnone : ([] : List Char).reverse = ([] : List Char).rtakeWhile isNameChar := by
    rw [List.rtakeWhile_nil, List.reverse_nil]
  -- What the check looks up is the run before the parenthesis, which the digits do not end.
  have hlooked : isCallable (calledName (before.rtakeWhile isNameChar)) = true :=
    isCallable_of_callsAllowed hnone hcalls
  refine ⟨hlooked, isDigit_eq_false_of_isCallable, fun hdigits => ?_⟩
  rw [← calledName_eq_calledBehind hdigits]
  exact hlooked

/-- A nested call, with a number and a hyphen right before its name. -/
theorem parse?_callable_iff_nested :
    let before := "min(1px,2-Max".toList
    parse? "length:_min(1px,2-Max(3px,4px))" = some ⟨"min(1px,2-Max(3px,4px))", .length⟩ ∧
      "min(1px,2-Max(3px,4px))".toList = before ++ '(' :: "3px,4px))".toList ∧
      calledBehind before = "Max".toList ∧
      isCallable (calledName (before.rtakeWhile isNameChar)) = true ∧
      (isCallable (calledBehind before) = true ↔
        ∀ c ∈ calledBehind before, c.isDigit = false) := by
  have hparse : parse? "length:_min(1px,2-Max(3px,4px))"
      = some ⟨"min(1px,2-Max(3px,4px))", .length⟩ := by decide +kernel
  have hcall : "min(1px,2-Max(3px,4px))".toList
      = "min(1px,2-Max".toList ++ '(' :: "3px,4px))".toList := by decide +kernel
  exact ⟨hparse, hcall, by decide +kernel, parse?_callable_iff hparse hcall⟩

/-- A function that is not listed can be called, since its name ends in a digit. -/
theorem parse?_calls_unlisted :
    ∃ v before after, parse? "atan2(1,2)" = some v ∧
      v.value.toList = before ++ '(' :: after ∧
      calledBehind before = "atan2".toList ∧ isCallable (calledBehind before) = false := by
  refine ⟨⟨"atan2(1,2)", .other⟩, "atan2".toList, "1,2)".toList, ?_, ?_, ?_, ?_⟩
  · decide +kernel
  · decide +kernel
  · decide +kernel
  · decide +kernel

end ArbitraryValue

end UtilityCss
