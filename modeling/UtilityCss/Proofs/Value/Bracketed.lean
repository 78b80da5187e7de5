import UtilityCss.Proofs.Text.Contained
import UtilityCss.Proofs.Text.Nesting
import UtilityCss.Value.Arbitrary
import Mathlib.Data.List.TakeWhile

/-!
# What a Bracketed Value Can Do to a Stylesheet

What the checks on a bracketed value leave for a reader of the stylesheet.

A value stands in the stylesheet as it is, so it must not move the places where
a reader splits the text around it. Three things could: a character that ends or
opens something, a parenthesis without its partner, and a comment, which starts
and ends with a pair of characters. The checks take care of the first two. They
look at one character at a time, and both characters of a pair are allowed, so
the third is left to whoever writes the token: the value holds a comment
delimiter exactly when the text between the brackets does.

Nothing on the way from the brackets to the value makes or breaks such a pair. A
hint ends in a colon and has neither character, an underscore becomes a space,
and only blanks are trimmed.

## Main definitions

* `splitters`: The characters that a reader of stylesheets splits at.

## Theorems

* `exists_body_of_parse?`: The value is the spaced body, and it passed the checks.
* `parse?_eq_some`: What is cut off in front of the body is no part of a delimiter.
* `not_mem_splitters_of_isAllowed`: No allowed character splits.
* `depthAfter_of_callsAllowed`: Allowed calls have balanced parentheses.
* `infix_spaced_iff`: Spacing a text neither makes nor breaks a word.
* `parse?_comment_iff`: A value splits nothing but by the comment delimiters
  that stand between its brackets.
* `parse?_opens_comment`: A comment delimiter between brackets is accepted.
-/

namespace UtilityCss

namespace ArbitraryValue

/-- The characters that a reader of stylesheets splits at, wherever in a value
    it meets them. -/
def splitters : List Char := ['{', '}', ';', ':', '@', '"', '\'', '\\', '\n']

theorem not_mem_splitters_of_isAllowed {c : Char} (h : isAllowed c = true) :
    c ∉ splitters :=
  Text.not_mem_of_all_not (by decide) h

theorem depthAfter_of_callsAllowed {depth : Nat} {run cs : List Char}
    (h : callsAllowed depth run cs = true) : Text.depthAfter '(' ')' depth cs = some 0 := by
  induction cs generalizing depth run with
  | nil =>
      simp only [callsAllowed, decide_eq_true_eq] at h
      rw [h]
      rfl
  | cons c cs ih =>
      simp only [callsAllowed] at h
      by_cases hopens : c = '('
      · simp only [if_pos hopens, Bool.and_eq_true] at h
        simp only [Text.depthAfter, if_pos hopens]
        exact ih h.2
      · by_cases hcloses : c = ')'
        · simp only [if_neg hopens, if_pos hcloses] at h
          simp only [Text.depthAfter, if_neg hopens, if_pos hcloses]
          cases depth with
          | zero => exact absurd h Bool.false_ne_true
          | succ depth => exact ih h
        · simp only [if_neg hopens, if_neg hcloses] at h
          simp only [Text.depthAfter, if_neg hopens, if_neg hcloses]
          -- A name character only lengthens the run, which the depth ignores.
          by_cases hname : isNameChar c = true
          · rw [if_pos hname] at h
            exact ih h
          · rw [if_neg hname] at h
            exact ih h

section

variable {word : List Char}

-- A word does not begin in a text that lacks its first character.
theorem infix_append_iff_of_not_mem {a : Char} {skipped : List Char} (h : a ∉ skipped)
    (cs : List Char) : (a :: word) <:+: skipped ++ cs ↔ (a :: word) <:+: cs := by
  induction skipped with
  | nil => rfl
  | cons c skipped ih =>
      simp only [List.mem_cons, not_or] at h
      rw [List.cons_append, List.infix_cons_iff, ih h.2]
      constructor
      · rintro (hstart | hinfix)
        · exact absurd (List.cons_prefix_cons.1 hstart).1 h.1
        · exact hinfix
      · exact Or.inr

theorem infix_dropBlank_iff (h : ∀ c ∈ word, Text.isBlank c = false) (cs : List Char) :
    word <:+: Text.dropBlank cs ↔ word <:+: cs := by
  cases word with
  | nil => exact iff_of_true List.nil_infix List.nil_infix
  | cons a word =>
      -- What is dropped is blank, so the word does not begin there.
      have hnot : a ∉ cs.takeWhile Text.isBlank := by
        intro ha
        have hblank := List.mem_takeWhile_imp ha
        rw [h a List.mem_cons_self] at hblank
        exact absurd hblank Bool.false_ne_true
      rw [← infix_append_iff_of_not_mem hnot, Text.dropBlank, List.takeWhile_append_dropWhile]

-- Trimming blanks neither makes nor breaks a word without blanks. The end is
-- trimmed as the front of the reversed text.
theorem infix_trimBlank_iff (h : ∀ c ∈ word, Text.isBlank c = false) (cs : List Char) :
    word <:+: Text.trimBlank cs ↔ word <:+: cs := by
  have hreverse : ∀ c ∈ word.reverse, Text.isBlank c = false := by
    intro c hc
    exact h c (List.mem_reverse.1 hc)
  calc word <:+: Text.trimBlank cs
      ↔ word.reverse <:+: Text.dropBlank (Text.dropBlank cs).reverse := by
        rw [Text.trimBlank, ← List.reverse_infix, List.reverse_reverse]
    _ ↔ word.reverse <:+: (Text.dropBlank cs).reverse := infix_dropBlank_iff hreverse _
    _ ↔ word <:+: Text.dropBlank cs := List.reverse_infix
    _ ↔ word <:+: cs := infix_dropBlank_iff h cs

theorem infix_map_iff {f : Char → Char} (h : ∀ c ∈ word, ∀ x, f x = c ↔ x = c)
    (cs : List Char) : word <:+: cs.map f ↔ word <:+: cs := by
  constructor
  -- A word found in the replaced text was there before, in the same place.
  · rintro ⟨before, after, hcs⟩
    rcases List.map_eq_append_iff.1 hcs.symm with ⟨front, back, rfl, hfront, -⟩
    rcases List.map_eq_append_iff.1 hfront with ⟨before', word', rfl, -, hword⟩
    have hself : word'.map f = word' := by
      refine (List.map_congr_left fun c hc => ?_).trans word'.map_id
      have hc' : f c ∈ word := hword ▸ List.mem_map_of_mem hc
      exact ((h (f c) hc' c).1 rfl).symm
    exact ⟨before', back, by rw [← hword, hself]⟩
  · rintro ⟨before, after, rfl⟩
    have hself : word.map f = word :=
      (List.map_congr_left fun c hc => (h c hc c).2 rfl).trans word.map_id
    exact ⟨before.map f, after.map f, by rw [List.map_append, List.map_append, hself]⟩

/-- Spacing a text neither makes nor breaks a word without blanks and
    underscores. -/
theorem infix_spaced_iff (h : ∀ c ∈ word, Text.isBlank c = false ∧ c ≠ '_') (cs : List Char) :
    word <:+: spaced cs ↔ word <:+: cs := by
  rw [spaced, infix_trimBlank_iff fun c hc => (h c hc).1]
  refine infix_map_iff (fun c hc x => ?_) cs
  have hblank : c ≠ ' ' := by
    rintro rfl
    exact absurd (h _ hc).1 (by decide)
  -- The replacement writes spaces, and there are none in the word.
  by_cases hx : x = '_'
  · rw [if_pos hx]
    exact iff_of_false hblank.symm fun heq => (h c hc).2 (heq.symm.trans hx)
  · rw [if_neg hx]

end

-- A character that spacing keeps has been allowed.
theorem isAllowed_of_mem_body {body : List Char} (h : isSafe (spaced body) = true) {c : Char}
    (hkept : Text.isBlank c = false ∧ c ≠ '_') (hc : c ∈ body) : isAllowed c = true := by
  simp only [isSafe, Bool.and_eq_true] at h
  rcases h with ⟨⟨-, hallowed⟩, -⟩
  rcases List.append_of_mem hc with ⟨before, after, heq⟩
  have hinfix : [c] <:+: body := ⟨before, after, by rw [heq, List.append_assoc]; rfl⟩
  have hspaced := (infix_spaced_iff (List.forall_mem_singleton.2 hkept) body).2 hinfix
  exact List.all_eq_true.1 hallowed c (hspaced.subset List.mem_cons_self)

theorem hint_mem_of_hintKind? {hint : String} {kind : ArbitraryKind}
    (h : hintKind? hint = some kind) :
    hint ∈ ["color", "length", "percentage", "number", "any"] := by
  simp only [hintKind?] at h
  simp only [List.mem_cons, List.not_mem_nil, or_false]
  by_contra hnot
  simp only [not_or] at hnot
  rcases hnot with ⟨hcolor, hlength, hpercentage, hnumber, hany⟩
  rw [if_neg hcolor, if_neg (not_or.2 ⟨hlength, hpercentage⟩), if_neg hnumber, if_neg hany] at h
  exact absurd h.symm (Option.some_ne_none kind)

/-- The value is the spaced body behind the hint, if there is one, and it passed
    the checks. A hint is a word with a colon. -/
theorem exists_body_of_parse? {raw : String} {v : ArbitraryValue} (h : parse? raw = some v) :
    ∃ hint body, raw.toList = hint ++ body ∧ (∀ c ∈ hint, c.isLower = true ∨ c = ':') ∧
      v.value.toList = spaced body ∧ isSafe (spaced body) = true := by
  have hbody : ∀ {pinned body}, ofBody? pinned body = some v →
      v.value.toList = spaced body ∧ isSafe (spaced body) = true := by
    intro pinned body hof
    unfold ofBody? at hof
    simp only [Option.ite_none_right_eq_some, Option.some.injEq] at hof
    rcases hof with ⟨hsafe, rfl⟩
    exact ⟨String.toList_ofList, hsafe⟩
  unfold parse? at h
  rcases hcut : Text.cutFirst ':' raw.toList with _ | ⟨hint, body⟩
  · rw [hcut] at h
    exact ⟨[], raw.toList, rfl, fun c hc => absurd hc List.not_mem_nil, hbody h⟩
  · simp only [hcut] at h
    rcases hkind : hintKind? (String.ofList hint) with _ | kind
    · rw [hkind] at h
      exact absurd h.symm (Option.some_ne_none v)
    · simp only [hkind] at h
      have hwords := hint_mem_of_hintKind? hkind
      -- A hint is one of the words that name a kind.
      have hlower : ∀ word ∈ ["color", "length", "percentage", "number", "any"],
          word.toList.all Char.isLower = true := by decide
      have hchars := hlower _ hwords
      rw [String.toList_ofList] at hchars
      refine ⟨hint ++ [':'], body, ?_, fun c hc => ?_, hbody h⟩
      · rw [(Text.eq_of_cutFirst hcut).1, List.append_assoc, List.singleton_append]
      · rcases List.mem_append.1 hc with hc | hc
        · exact Or.inl (List.all_eq_true.1 hchars c hc)
        · exact Or.inr (List.mem_singleton.1 hc)

-- The hints are words without either character of a delimiter.
theorem parse?_eq_some {raw : String} {v : ArbitraryValue} (h : parse? raw = some v) :
    ∃ hint body, raw.toList = hint ++ body ∧ '/' ∉ hint ∧ '*' ∉ hint ∧
      v.value.toList = spaced body ∧ isSafe (spaced body) = true := by
  rcases exists_body_of_parse? h with ⟨hint, body, hraw, hhint, hbody⟩
  exact ⟨hint, body, hraw, fun hmem => absurd (hhint _ hmem) (by decide),
    fun hmem => absurd (hhint _ hmem) (by decide), hbody⟩

/-- A value that comes out of the brackets holds no character that splits, its
    parentheses balance, and it holds a comment delimiter only where the text
    between the brackets does. A reader is thus kept from what follows the value
    exactly by the delimiters that the token already had. -/
theorem parse?_comment_iff {raw : String} {v : ArbitraryValue} (h : parse? raw = some v) :
    (∀ c ∈ v.value.toList, c ∉ splitters) ∧
      Text.depthAfter '(' ')' 0 v.value.toList = some 0 ∧
      (['/', '*'] <:+: v.value.toList ↔ ['/', '*'] <:+: raw.toList) ∧
      (['*', '/'] <:+: v.value.toList ↔ ['*', '/'] <:+: raw.toList) := by
  rcases parse?_eq_some h with ⟨hint, body, hraw, hslash, hstar, hvalue, hsafe⟩
  simp only [isSafe, Bool.and_eq_true] at hsafe
  rcases hsafe with ⟨⟨-, hallowed⟩, hcalls⟩
  have hslash' : Text.isBlank '/' = false ∧ '/' ≠ '_' := by decide
  have hstar' : Text.isBlank '*' = false ∧ '*' ≠ '_' := by decide
  rw [hvalue, hraw]
  refine ⟨?_, depthAfter_of_callsAllowed hcalls, ?_, ?_⟩
  · intro c hc
    exact not_mem_splitters_of_isAllowed (List.all_eq_true.1 hallowed c hc)
  -- A delimiter does not begin in the hint, and spacing leaves the body's alone.
  · rw [infix_append_iff_of_not_mem hslash]
    exact infix_spaced_iff
      (List.forall_mem_cons.2 ⟨hslash', List.forall_mem_singleton.2 hstar'⟩) body
  · rw [infix_append_iff_of_not_mem hstar]
    exact infix_spaced_iff
      (List.forall_mem_cons.2 ⟨hstar', List.forall_mem_singleton.2 hslash'⟩) body

/-- A hinted value with a slash between blanks, which is no comment. -/
theorem parse?_comment_iff_slash :
    parse? "color:_rgb(0_0_0_/_0.5)" = some ⟨"rgb(0 0 0 / 0.5)", .color⟩ ∧
      (∀ c ∈ "rgb(0 0 0 / 0.5)".toList, c ∉ splitters) ∧
      Text.depthAfter '(' ')' 0 "rgb(0 0 0 / 0.5)".toList = some 0 ∧
      (['/', '*'] <:+: "rgb(0 0 0 / 0.5)".toList ↔
        ['/', '*'] <:+: "color:_rgb(0_0_0_/_0.5)".toList) ∧
      (['*', '/'] <:+: "rgb(0 0 0 / 0.5)".toList ↔
        ['*', '/'] <:+: "color:_rgb(0_0_0_/_0.5)".toList) := by
  have hparse : parse? "color:_rgb(0_0_0_/_0.5)" = some ⟨"rgb(0 0 0 / 0.5)", .color⟩ := by
    decide +kernel
  exact ⟨hparse, parse?_comment_iff hparse⟩

/-- A comment delimiter between brackets is accepted, and whatever follows the
    value in the stylesheet is then part of the comment. -/
theorem parse?_opens_comment :
    ∃ v, parse? "/*" = some v ∧ ['/', '*'] <:+: v.value.toList := by
  refine ⟨⟨"/*", .other⟩, ?_, ?_⟩
  · decide +kernel
  · exact List.infix_rfl

end ArbitraryValue

end UtilityCss
