import UtilityCss.Token

/-!
# Reading Escaped Tokens

Escaping a token loses nothing: a reader of identifiers gets the token back.

A reader of stylesheets takes an identifier apart by two rules. After a
backslash, up to six hexadecimal digits are the code point of one character, and
a space that follows them belongs to the escape; any other character after a
backslash stands for itself. `unescape` is that reader, as a pass that remembers
whether it stands in plain text, behind a backslash, or inside a code point.

`Token.escape` uses both forms, the second for everything that is not plain and
the first for a leading digit alone. The two cannot be confused because no
hexadecimal digit is ever escaped by a bare backslash: hexadecimal digits are
letters and digits, and those are plain.

## Main definitions

* `EscapeState`: Where a reader of identifiers stands.
* `unescape`: What a reader of identifiers reads.

## Theorems

* `hexValue?_eq_none`: No escaped character is a hexadecimal digit.
* `unescape_escapeChars`: A token is read back from its escaped form.
* `escape_injective`: Different tokens have different escaped forms.
-/

namespace UtilityCss

namespace Token

/-- Where a reader of identifiers stands. -/
inductive EscapeState where
  /-- In plain text. -/
  | text
  /-- Behind a backslash. -/
  | escaped
  /-- Inside a code point that has the given value so far and can go on for the
      given number of digits. -/
  | codePoint (left value : Nat)
deriving DecidableEq, Repr

/-- The value of a hexadecimal digit. -/
def hexValue? (c : Char) : Option Nat :=
  if c.isDigit then some (c.toNat - '0'.toNat)
  else if 'a' ≤ c ∧ c ≤ 'f' then some (c.toNat - 'a'.toNat + 10)
  else if 'A' ≤ c ∧ c ≤ 'F' then some (c.toNat - 'A'.toNat + 10)
  else none

/-- What is read from where a reader stands. -/
def unescapeFrom : EscapeState → List Char → List Char
  | .codePoint _ value, [] => [Char.ofNat value]
  | _, [] => []
  | .text, c :: cs =>
    if c = '\\' then unescapeFrom .escaped cs else c :: unescapeFrom .text cs
  | .escaped, c :: cs =>
    match hexValue? c with
    | some digit => unescapeFrom (.codePoint 5 digit) cs
    | none => c :: unescapeFrom .text cs
  | .codePoint left value, c :: cs =>
    match hexValue? c, left with
    | some digit, left + 1 => unescapeFrom (.codePoint left (16 * value + digit)) cs
    | _, _ =>
      if c = ' ' then Char.ofNat value :: unescapeFrom .text cs
      else if c = '\\' then Char.ofNat value :: unescapeFrom .escaped cs
      else Char.ofNat value :: c :: unescapeFrom .text cs

/-- The characters that an identifier stands for. -/
def unescape (cs : List Char) : List Char := unescapeFrom .text cs

theorem ne_backslash_of_isPlain {c : Char} (h : isPlain c = true) : c ≠ '\\' := by
  rintro rfl
  exact absurd h (by decide)

/-- A character that is not plain is no hexadecimal digit, so a backslash in
    front of it does not start a code point. -/
theorem hexValue?_eq_none {c : Char} (h : isPlain c = false) : hexValue? c = none := by
  simp only [isPlain, Bool.or_eq_false_iff] at h
  have halnum : (c.isUpper || c.isLower || c.isDigit) = false := h.1.1.1
  simp only [Bool.or_eq_false_iff] at halnum
  rcases halnum with ⟨⟨hupper, hlower⟩, hdigit⟩
  unfold hexValue?
  rw [if_neg (by simp only [hdigit, Bool.false_eq_true, not_false_eq_true])]
  rw [if_neg, if_neg]
  -- A hexadecimal letter is a letter in upper or lower case, and those are plain.
  · rintro ⟨hA, hF⟩
    have hZ : c ≤ 'Z' := Char.le_trans hF (by decide)
    have hc : c.isUpper = true := decide_eq_true ⟨hA, hZ⟩
    rw [hupper] at hc
    exact absurd hc Bool.false_ne_true
  · rintro ⟨ha, hf⟩
    have hz : c ≤ 'z' := Char.le_trans hf (by decide)
    have hc : c.isLower = true :=
      Bool.and_eq_true_iff.2 ⟨decide_eq_true ha, decide_eq_true hz⟩
    rw [hlower] at hc
    exact absurd hc Bool.false_ne_true

theorem unescapeFrom_escapeChar (c : Char) (rest : List Char) :
    unescapeFrom .text (escapeChar c ++ rest) = c :: unescapeFrom .text rest := by
  unfold escapeChar
  cases hc : isPlain c with
  | true =>
      rw [if_pos rfl, List.singleton_append, unescapeFrom,
        if_neg (ne_backslash_of_isPlain hc)]
  | false =>
      rw [if_neg (by simp only [Bool.false_eq_true, not_false_eq_true]), List.cons_append,
        unescapeFrom, if_pos rfl, List.singleton_append, unescapeFrom, hexValue?_eq_none hc]

theorem unescapeFrom_flatMap (cs : List Char) :
    unescapeFrom .text (cs.flatMap escapeChar) = cs := by
  induction cs with
  | nil => rfl
  | cons c cs ih => rw [List.flatMap_cons, unescapeFrom_escapeChar, ih]

section

variable {c : Char} (h : c.isDigit = true)
include h

theorem hexValue?_of_isDigit : hexValue? c = some (c.toNat - 48) := by
  unfold hexValue?
  rw [if_pos h]
  rfl

-- Digits have the code points from 48, which is 16 * 3, to 57.
theorem add_toNat_of_isDigit : 16 * 3 + (c.toNat - 48) = c.toNat := by
  simp only [Char.isDigit, Bool.and_eq_true, decide_eq_true_eq, ge_iff_le,
    UInt32.le_iff_toNat_le] at h
  have hlo : 48 ≤ c.toNat := h.1
  omega

-- A digit is read back from its code point, which the space ends.
theorem unescapeFrom_digit (rest : List Char) :
    unescapeFrom .text ('\\' :: '3' :: c :: ' ' :: rest) = c :: unescapeFrom .text rest := by
  have hc := hexValue?_of_isDigit h
  have hspace : hexValue? ' ' = none := by decide
  have hthree : hexValue? '3' = some 3 := by decide
  simp only [unescapeFrom, if_true, hthree, hc, hspace, add_toNat_of_isDigit h, Char.ofNat_toNat]

end

/-- A token is read back from its escaped form. -/
theorem unescape_escapeChars (cs : List Char) : unescape (escapeChars cs) = cs := by
  cases cs with
  | nil => rfl
  | cons c cs =>
      rw [escapeChars, unescape]
      cases hd : c.isDigit with
      | true =>
          simp only [if_true, List.cons_append, List.nil_append]
          rw [unescapeFrom_digit hd, unescapeFrom_flatMap]
      | false =>
          simp only [Bool.false_eq_true, if_false]
          rw [unescapeFrom_escapeChar, unescapeFrom_flatMap]

/-- Different tokens have different escaped forms. -/
theorem escape_injective {s t : String} (h : escape s = escape t) : s = t := by
  have hcs : escapeChars s.toList = escapeChars t.toList := by
    unfold escape at h
    exact String.ofList_injective h
  -- Reading both forms gives the two tokens.
  have htl := congrArg unescape hcs
  rw [unescape_escapeChars, unescape_escapeChars] at htl
  exact String.toList_injective htl

end Token

end UtilityCss
