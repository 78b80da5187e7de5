import UtilityCss.Proofs.Token.Escape
import UtilityCss.Proofs.Token.Form

/-!
# Identifiers in Selectors

The class in a selector ends where it should.

That an escaped token can be read back says nothing about where a reader of
stylesheets stops. Such a reader is given the whole selector: behind the class come
a pseudo-class, another selector or the block. `identifier?` is how it reads. It
first looks at up to three characters to see that an identifier starts, and then
takes letters, digits, hyphens, underscores, everything beyond ASCII, and escapes,
as long as they come. Readers put another character in the place of null characters
beforehand. Here the text is taken as it stands, which moves no end of an identifier.

Two things must hold then. What `Token.escape` writes must not be shorter for the
reader than it is, so every character it leaves alone must be one that identifiers
hold, and every backslash must start an escape. And the reader must stop behind it,
so what follows must not go on with the last escape. The second is where a leading
digit could do harm: the space behind its code point belongs to the escape, and the
reader takes one space but not two.

An identifier cannot be a hyphen and something that starts no identifier. The shape
of a token rules this out, because a token with a hyphen in front goes on with a
lower-case letter.

## Main definitions

* `identifierName`: The name that a text starts with, and the text behind it.
* `startsIdentifier`: The text starts with an identifier.
* `className?`: The name of a class selector, and the text behind it.

## Theorems

* `identifierName_flatMap`: Escaped characters are read as a name, up to a text that
  does not go on with it.
* `startsIdentifier_escapeChars`: When an escaped text starts an identifier.
* `className?_escape`: Escaping loses nothing, and the class of a token ends where it
  should.
-/

namespace UtilityCss

namespace Token

/-! ### A reader of identifiers -/

/-- A line of a stylesheet ends with the character. -/
def isNewline (c : Char) : Bool := c = '\n' || c = '\r' || c = '\x0c'

/-- The character can start an identifier. -/
def isIdentifierStart (c : Char) : Bool := c.isAlpha || c = '_' || 0x80 ≤ c.toNat

/-- The character can stand in an identifier as it is. -/
def isIdentifierPart (c : Char) : Bool := isIdentifierStart c || c.isDigit || c = '-'

/-- An escape starts: a backslash that does not end its line. -/
def startsEscape : List Char → Bool
  | '\\' :: c :: _ => !isNewline c
  | ['\\'] => true
  | _ => false

/-- An identifier starts. A hyphen in front must be followed by a second one, by a
    character that starts an identifier, or by an escape. -/
def startsIdentifier : List Char → Bool
  | [] => false
  | '-' :: cs =>
    match cs with
    | [] => false
    | c :: _ => isIdentifierStart c || c = '-' || startsEscape cs
  | c :: cs => isIdentifierStart c || startsEscape (c :: cs)

/-- The number that up to so many hexadecimal digits write, given the number before
    them, and the text behind them. -/
def hexNumber : Nat → Nat → List Char → Nat × List Char
  | _, value, [] => (value, [])
  | 0, value, cs => (value, cs)
  | left + 1, value, c :: cs =>
    match hexValue? c with
    | some digit => hexNumber left (16 * value + digit) cs
    | none => (value, c :: cs)

/-- The text without a white-space character in front. -/
def skipSpace : List Char → List Char
  | [] => []
  | c :: cs => if c = ' ' || c = '\t' || isNewline c then cs else c :: cs

/-- The character of a code point. Zero, surrogates and numbers beyond the last code
    point stand for the replacement character. -/
def ofCodePoint (n : Nat) : Char :=
  if n = 0 ∨ ¬n.isValidChar then '\uFFFD' else Char.ofNat n

/-- The character that an escape stands for, given the text behind its backslash, and
    the text behind the escape. -/
def escapedChar : List Char → Char × List Char
  | [] => ('\uFFFD', [])
  | c :: cs =>
    match hexValue? c with
    | some digit =>
      let (n, rest) := hexNumber 5 digit cs
      (ofCodePoint n, skipSpace rest)
    | none => (c, cs)

theorem length_hexNumber_le (left value : Nat) (cs : List Char) :
    (hexNumber left value cs).2.length ≤ cs.length := by
  induction cs generalizing left value with
  | nil => cases left <;> exact Nat.le_refl _
  | cons c cs ih =>
      cases left with
      | zero => exact Nat.le_refl _
      | succ left =>
          rw [hexNumber]
          split
          · exact Nat.le_succ_of_le (ih left _)
          · exact Nat.le_refl _

theorem length_skipSpace_le (cs : List Char) : (skipSpace cs).length ≤ cs.length := by
  cases cs with
  | nil => exact Nat.le_refl _
  | cons c cs =>
      rw [skipSpace]
      split
      · exact Nat.le_succ _
      · exact Nat.le_refl _

theorem length_escapedChar_le (cs : List Char) : (escapedChar cs).2.length ≤ cs.length := by
  cases cs with
  | nil => exact Nat.le_refl _
  | cons c cs =>
      rw [escapedChar]
      split
      · exact Nat.le_succ_of_le
          (Nat.le_trans (length_skipSpace_le _) (length_hexNumber_le 5 _ cs))
      · exact Nat.le_succ _

/-- The name that a text starts with, and the text behind it. -/
def identifierName : List Char → List Char × List Char
  | [] => ([], [])
  | c :: cs =>
    if isIdentifierPart c then
      let (name, rest) := identifierName cs
      (c :: name, rest)
    else if startsEscape (c :: cs) then
      let (name, rest) := identifierName (escapedChar cs).2
      ((escapedChar cs).1 :: name, rest)
    else ([], c :: cs)
termination_by cs => cs.length
decreasing_by
  · exact Nat.lt_succ_self _
  · exact Nat.lt_succ_of_le (length_escapedChar_le cs)

/-- The identifier that a text starts with, and the text behind it. -/
def identifier? (cs : List Char) : Option (List Char × List Char) :=
  if startsIdentifier cs then some (identifierName cs) else none

/-- The name of the class selector that a text starts with, and the text behind it. -/
def className? : List Char → Option (List Char × List Char)
  | '.' :: cs => identifier? cs
  | _ => none

/-! ### Reading what escaping wrote -/

/-- A name ends in front of the text. -/
def EndsName (rest : List Char) : Prop :=
  ∀ c, rest.head? = some c → isIdentifierPart c = false ∧ c ≠ '\\'

-- Escaping leaves alone exactly the characters that identifiers hold.
theorem isIdentifierPart_eq (c : Char) : isIdentifierPart c = isPlain c := by
  simp only [isIdentifierPart, isIdentifierStart, isPlain, Char.isAlphanum]
  ac_rfl

theorem startsEscape_cons (c : Char) (cs : List Char) :
    startsEscape ('\\' :: c :: cs) = !isNewline c := rfl

theorem startsIdentifier_backslash (cs : List Char) :
    startsIdentifier ('\\' :: cs) = startsEscape ('\\' :: cs) :=
  Bool.false_or _

theorem identifierName_of_endsName {rest : List Char} (h : EndsName rest) :
    identifierName rest = ([], rest) := by
  cases rest with
  | nil => rw [identifierName]
  | cons c rest =>
      rcases h c rfl with ⟨hpart, hslash⟩
      have hescape : startsEscape (c :: rest) = false := by
        unfold startsEscape
        split
        · next heq => exact absurd (List.cons.inj heq).1 hslash
        · next heq => exact absurd (List.cons.inj heq).1 hslash
        · rfl
      rw [identifierName, hpart, hescape]
      rfl

theorem identifierName_escapeChar {c : Char} (hc : isNewline c = false) (rest : List Char) :
    identifierName (escapeChar c ++ rest)
      = (c :: (identifierName rest).1, (identifierName rest).2) := by
  unfold escapeChar
  cases hplain : isPlain c with
  | true => rw [if_pos rfl, List.singleton_append, identifierName, isIdentifierPart_eq, hplain,
      if_pos rfl]
  | false =>
      have hslash : isIdentifierPart '\\' = false := by decide
      rw [if_neg Bool.false_ne_true, List.cons_append, List.singleton_append, identifierName,
        hslash, if_neg Bool.false_ne_true, startsEscape_cons, hc, Bool.not_false, if_pos rfl,
        escapedChar, hexValue?_eq_none hplain]

/-- Escaped characters are read as a name, up to a text that does not go on with it. -/
theorem identifierName_flatMap {cs rest : List Char} (hcs : ∀ c ∈ cs, isNewline c = false)
    (hrest : EndsName rest) : identifierName (cs.flatMap escapeChar ++ rest) = (cs, rest) := by
  induction cs with
  | nil => exact identifierName_of_endsName hrest
  | cons c cs ih =>
      rw [List.flatMap_cons, List.append_assoc,
        identifierName_escapeChar (hcs c List.mem_cons_self),
        ih fun d hd => hcs d (List.mem_cons_of_mem _ hd)]

-- The space behind the code point of a digit belongs to the escape, whatever follows.
theorem identifierName_digit {c : Char} (h : c.isDigit = true) (rest : List Char) :
    identifierName ('\\' :: '3' :: c :: ' ' :: rest)
      = (c :: (identifierName rest).1, (identifierName rest).2) := by
  have hslash : isIdentifierPart '\\' = false := by decide
  have hescape : startsEscape ('\\' :: '3' :: c :: ' ' :: rest) = true := by
    rw [startsEscape_cons]
    decide
  have hthree : hexValue? '3' = some 3 := by decide
  have hspace : hexValue? ' ' = none := by decide
  have hc := hexValue?_of_isDigit h
  have hread : escapedChar ('3' :: c :: ' ' :: rest)
      = (ofCodePoint (16 * 3 + (c.toNat - 48)), rest) := by
    simp only [escapedChar, hthree, hexNumber, hc, hspace, skipSpace, decide_true, Bool.true_or,
      if_true]
  -- The digits of a code point that starts with a three are those from `0` to `9`.
  have hvalue : ofCodePoint (16 * 3 + (c.toNat - 48)) = c := by
    have hsum := add_toNat_of_isDigit h
    have hvalid : c.toNat.isValidChar := c.valid
    rw [hsum, ofCodePoint, if_neg, Char.ofNat_toNat]
    rintro (hzero | hinvalid)
    · omega
    · exact hinvalid hvalid
  rw [identifierName, hslash, if_neg Bool.false_ne_true, hescape, if_pos rfl, hread, hvalue]

theorem identifierName_escapeChars {cs rest : List Char} (hcs : ∀ c ∈ cs, isNewline c = false)
    (hrest : EndsName rest) : identifierName (escapeChars cs ++ rest) = (cs, rest) := by
  cases cs with
  | nil => exact identifierName_of_endsName hrest
  | cons c cs =>
      have hname := identifierName_flatMap (fun d hd => hcs d (List.mem_cons_of_mem _ hd)) hrest
      rw [escapeChars]
      cases hd : c.isDigit with
      | true =>
          rw [if_pos rfl]
          simp only [List.cons_append, List.nil_append]
          rw [identifierName_digit hd, hname]
      | false =>
          rw [if_neg Bool.false_ne_true, List.append_assoc,
            identifierName_escapeChar (hcs c List.mem_cons_self), hname]

/-- An escaped text starts an identifier unless a hyphen in front of it is followed by
    nothing or by something that starts none. -/
theorem startsIdentifier_escapeChars {c : Char} (hc : isNewline c = false) {cs : List Char}
    (hhyphen : c = '-' → ∃ d ds, cs = d :: ds ∧ d.isLower = true) (rest : List Char) :
    startsIdentifier (escapeChars (c :: cs) ++ rest) = true := by
  -- The first character is a digit, which is escaped by its code point, or one that is
  -- escaped as it is, or a plain one. Of these only a hyphen leaves open what starts.
  rw [escapeChars]
  cases hdigit : c.isDigit with
  | true => rfl
  | false =>
      rw [if_neg Bool.false_ne_true]
      cases hplain : isPlain c with
      | false =>
          rw [escapeChar, hplain, if_neg Bool.false_ne_true]
          simp only [List.cons_append, List.nil_append]
          rw [startsIdentifier_backslash, startsEscape_cons, hc, Bool.not_false]
      | true =>
          by_cases heq : c = '-'
          · rcases hhyphen heq with ⟨d, ds, rfl, hd⟩
            have hletter : d.isAlpha = true := by
              change (d.isUpper || d.isLower) = true
              rw [hd, Bool.or_true]
            have hstart : isIdentifierStart d = true := by
              rw [isIdentifierStart, hletter, Bool.true_or, Bool.true_or]
            have hpart : isPlain d = true := by
              rw [← isIdentifierPart_eq, isIdentifierPart, hstart, Bool.true_or, Bool.true_or]
            have hescape : escapeChar '-' = ['-'] := by decide
            rw [heq, hescape, List.flatMap_cons, escapeChar, hpart, if_pos rfl]
            simp only [List.cons_append, List.nil_append, startsIdentifier, hstart, Bool.true_or]
          · have hstart : isIdentifierStart c = true := by
              rw [← isIdentifierPart_eq, isIdentifierPart, hdigit, decide_eq_false heq,
                Bool.or_false, Bool.or_false] at hplain
              exact hplain
            rw [escapeChar, hplain, if_pos rfl]
            simp only [List.cons_append, List.nil_append]
            unfold startsIdentifier
            split
            · next hnil => exact absurd hnil (List.cons_ne_nil _ _)
            · next hcons => exact absurd (List.cons.inj hcons).1 heq
            · next hcons => rw [← (List.cons.inj hcons).1, hstart, Bool.true_or]

/-! ### The class of a token -/

/-- Escaping loses nothing, so different texts have different escaped forms. Where the
    class of a token stands in a selector, a reader of stylesheets takes it for a valid
    identifier, reads the token, and stops in front of what may follow a class. -/
theorem className?_escape :
    (∀ t : String, unescape (escape t).toList = t.toList) ∧ Function.Injective escape ∧
      ∀ t rest : String, isToken t = true →
        (∀ c, rest.toList.head? = some c → c ∈ [' ', ':', ',', '{']) →
        className? ("." ++ escape t ++ rest).toList = some (t.toList, rest.toList) := by
  have hdecode : ∀ t : String, unescape (escape t).toList = t.toList := by
    intro t
    rw [escape, String.toList_ofList, unescape_escapeChars]
  refine ⟨hdecode, fun s t h => escape_injective h, fun t rest htoken hrest => ?_⟩
  rcases exists_shape_of_isToken htoken with ⟨shape, hshape, hvalid, htext⟩
  -- No character of a token ends a line.
  have hlines : ∀ c ∈ t.toList, isNewline c = false := by
    intro c hc
    rw [← htext] at hc
    cases hline : isNewline c with
    | false => rfl
    | true =>
        simp only [isNewline, Bool.or_eq_true, decide_eq_true_eq] at hline
        rcases hline with (rfl | rfl) | rfl <;>
          exact absurd (hvalid.of_mem_text hc) (by decide)
  have hends : EndsName rest.toList := by
    intro c hc
    have hmem := hrest c hc
    simp only [List.mem_cons, List.not_mem_nil, or_false] at hmem
    rcases hmem with rfl | rfl | rfl | rfl <;> decide
  have hread := identifierName_escapeChars hlines hends
  cases hcs : t.toList with
  | nil =>
      rw [hcs] at hshape
      simp only [shape?, groupsOf, reduceCtorEq] at hshape
  | cons c cs =>
      rw [hcs] at hlines hread htext
      have hhyphen : c = '-' → ∃ d ds, cs = d :: ds ∧ d.isLower = true := by
        rintro rfl
        exact hvalid.isLower_of_text_eq htext
      have hstarts := startsIdentifier_escapeChars (hlines c List.mem_cons_self) hhyphen rest.toList
      have hselector : ("." ++ escape t ++ rest).toList
          = '.' :: (escapeChars (c :: cs) ++ rest.toList) := by
        simp only [String.toList_append, escape, String.toList_ofList, hcs, List.append_assoc]
        rfl
      rw [hselector, className?, identifier?, if_pos hstarts, hread]

theorem className?_escape_digit :
    isToken "2xl:p-4" = true ∧ escape "2xl:p-4" = "\\32 xl\\:p-4" ∧
      className? (".\\32 xl\\:p-4" ++ ":hover").toList
        = some ("2xl:p-4".toList, ":hover".toList) := by
  have htoken : isToken "2xl:p-4" = true := by decide +kernel
  have hescape : escape "2xl:p-4" = "\\32 xl\\:p-4" := by decide +kernel
  have hrest : ∀ c, ":hover".toList.head? = some c → c ∈ [' ', ':', ',', '{'] := by
    intro c hc
    rw [← Option.some.inj hc]
    decide
  have hread := className?_escape.2.2 "2xl:p-4" ":hover" htoken hrest
  rw [hescape] at hread
  exact ⟨htoken, hescape, hread⟩

end Token

end UtilityCss
