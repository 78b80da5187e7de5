import UtilityCss.Proofs.Agreement
import UtilityCss.Proofs.Containment.Rule
import UtilityCss.Proofs.Stylesheet.RoundTrip

/-!
# Generated Rules Are Legible

What a build writes can be read back as the rules that it emits.

A stylesheet is read at braces and semicolons, also at those behind a backslash. A
selector holds the token, and a token may be any text, so a selector can be cut in two
by a token with a brace, even though a browser would not. Scanning finds no such token.
Its shape admits braces between brackets only, and there a value has to pass the check
of bracketed values, or else the token has no rule.

Besides that a selector must be told from the blanks around it and from at-rules. It
starts with a point, whether a relative stands in front or not, and ends with what is
not blank: the space that an escaped digit needs stands behind the first character of a
token, and no token is a digit alone. Values are left as they are; those of a theme may
have any blanks around them.

## Main definitions

* `Variant.IsTrim`: What a variant adds has no outer blanks and starts with a point.

## Theorems

* `isContained_of_isToken`: A scanned token with a rule ends no block.
* `isBlank_eq_false_of_isToken`: A scanned token has no blanks.
* `getLast?_escapeChars`: An escaped token ends as the token does.
* `isTidy_selector`: Its selector can be told from what is written around it.
* `isLegible_of_ruleOf?`: The rule of a scanned token is legible.
* `read_assemble`: What is read in the stylesheet of scanned tokens.
-/

namespace UtilityCss

/-! ### Characters -/

namespace Text

-- The blanks of ASCII are below the other characters.
theorem isBlank_eq_false_of_toNat {c : Char} (h : 0x21 ≤ c.toNat) (h' : c.toNat ≤ 0x7E) :
    isBlank c = false := by
  simp only [isBlank, blankRanges, List.any_cons, List.any_nil, Bool.or_false,
    Bool.or_eq_false_iff, Bool.and_eq_false_iff, decide_eq_false_iff_not]
  omega

theorem toNat_of_isLower {c : Char} (h : c.isLower = true) :
    'a'.toNat ≤ c.toNat ∧ c.toNat ≤ 'z'.toNat := by
  rcases Bool.and_eq_true_iff.1 h with ⟨hfirst, hlast⟩
  exact ⟨UInt32.le_iff_toNat_le.1 (of_decide_eq_true hfirst),
    UInt32.le_iff_toNat_le.1 (of_decide_eq_true hlast)⟩

theorem isTidy_of_forall {s : String} (hne : s.toList ≠ [])
    (h : ∀ c ∈ s.toList, c ∉ blockMarks ∧ isBlank c = false) : IsTidy s where
  contained := fun c hc => (h c hc).1
  nonempty := hne
  first := fun c hc => (h c (List.mem_of_mem_head? hc)).2
  last := fun c hc => (h c (List.mem_of_getLast? hc)).2

-- A text between two others starts as the one does and ends as the other does.
theorem isTidy_between {before s after : String} (hbefore : IsContained before)
    (hs : IsContained s) (hafter : IsContained after) {first last : Char}
    (hfirst : before.toList.head? = some first) (hlast : after.toList.getLast? = some last)
    (hblank : isBlank first = false ∧ isBlank last = false) : IsTidy (before ++ s ++ after) where
  contained := isContained_append (isContained_append hbefore hs) hafter
  nonempty := by
    intro hnil
    rw [String.toList_append, String.toList_append, List.append_assoc] at hnil
    rw [(List.append_eq_nil_iff.1 hnil).1] at hfirst
    simp only [List.head?_nil, reduceCtorEq] at hfirst
  first := by
    intro c hc
    rw [String.toList_append, String.toList_append, List.append_assoc, List.head?_append, hfirst,
      Option.some_or, Option.mem_def, Option.some.injEq] at hc
    exact hc ▸ hblank.1
  last := by
    intro c hc
    rw [String.toList_append, List.getLast?_append, hlast, Option.some_or, Option.mem_def,
      Option.some.injEq] at hc
    exact hc ▸ hblank.2

end Text

namespace Token

section

variable {c : Char}

theorem isBlank_eq_false_of_isStemChar (h : isStemChar c = true) : Text.isBlank c = false := by
  simp only [isStemChar, Char.isDigit, Bool.or_eq_true, Bool.and_eq_true,
    decide_eq_true_eq] at h
  rcases h with ((h | h) | rfl) | rfl
  · rcases Text.toNat_of_isLower h with ⟨hfirst, hlast⟩
    exact Text.isBlank_eq_false_of_toNat (Nat.le_trans (by decide) hfirst)
      (Nat.le_trans hlast (by decide))
  · exact Text.isBlank_eq_false_of_toNat (Nat.le_trans (by decide) h.1)
      (Nat.le_trans h.2 (by decide))
  · decide
  · decide

theorem isBlank_eq_false_of_isGroupChar (h : isGroupChar c = true) : Text.isBlank c = false := by
  have hcases : isStemChar c = true ∨ c = '@' := by
    simp only [isGroupChar, isGroupStart, Bool.or_eq_true, decide_eq_true_eq] at h
    simp only [isStemChar, Bool.or_eq_true, decide_eq_true_eq]
    rcases h with ((h | h) | h) | h
    · exact Or.inl (Or.inl (Or.inl (Or.inl h)))
    · exact Or.inl (Or.inl (Or.inl (Or.inr h)))
    · exact Or.inr h
    · exact Or.inl (Or.inr h)
  rcases hcases with hstem | rfl
  · exact isBlank_eq_false_of_isStemChar hstem
  · decide

theorem not_mem_blockMarks_of_isStemChar (h : isStemChar c = true) : c ∉ Text.blockMarks :=
  Text.not_mem_of_all_not (by decide) h

theorem not_mem_blockMarks_of_isGroupChar (h : isGroupChar c = true) : c ∉ Text.blockMarks :=
  Text.not_mem_of_all_not (by decide) h

end

/-- A scanned token has no blanks. -/
theorem isBlank_eq_false_of_isToken {token : String} (h : isToken token = true) :
    ∀ c ∈ token.toList, Text.isBlank c = false := by
  rcases exists_shape_of_isToken h with ⟨s, -, hvalid, htext⟩
  intro c hc
  rw [← htext] at hc
  rcases hvalid.of_mem_text hc with hgroup | hstem | hinner | hmark
  · exact isBlank_eq_false_of_isGroupChar hgroup
  · exact isBlank_eq_false_of_isStemChar hstem
  · simp only [isInnerChar, Bool.and_eq_true, Bool.not_eq_true'] at hinner
    exact hinner.1.1
  · have hmarks : [':', '!', '-', '/', '[', ']'].all (fun c => !Text.isBlank c) = true := by decide
    have hnot := List.all_eq_true.1 hmarks c hmark
    rwa [Bool.not_eq_true'] at hnot

/-- An escaped token ends as the token does, unless the token is a digit. -/
theorem getLast?_escapeChars {cs : List Char} (h : ∀ c, cs = [c] → c.isDigit = false) :
    (escapeChars cs).getLast? = cs.getLast? := by
  have hchar : ∀ c : Char, (escapeChar c).getLast? = some c := by
    intro c
    unfold escapeChar
    split <;> rfl
  rcases List.eq_nil_or_concat cs with rfl | ⟨front, last, rfl⟩
  · rfl
  · rw [List.concat_eq_append, List.getLast?_concat]
    -- Only the first character can be escaped in another way.
    cases front with
    | nil =>
        rw [List.nil_append, escapeChars, h last rfl, if_neg Bool.false_ne_true, List.flatMap_nil,
          List.append_nil, hchar]
    | cons c front =>
        rw [List.cons_append, escapeChars, List.flatMap_append, List.flatMap_singleton,
          ← List.append_assoc, List.getLast?_append, hchar, Option.some_or]

/-- A scanned token is no digit. -/
theorem isDigit_eq_false_of_isToken {token : String} (h : isToken token = true) {c : Char}
    (htoken : token.toList = [c]) : c.isDigit = false := by
  rcases exists_shape_of_isToken h with ⟨s, -, hvalid, htext⟩
  have hstem := hvalid.stem
  rw [htoken, Shape.text] at htext
  rcases hcs : s.stem with _ | ⟨d, stem⟩
  · rw [hcs] at hstem
    exact absurd hstem Bool.false_ne_true
  · rw [hcs, isStem, Bool.and_eq_true] at hstem
    -- The stem is somewhere in the token, so it is all of it.
    have hmem : d ∈ [c] := by
      rw [← htext, Shape.core, hcs]
      simp only [List.mem_append, List.mem_cons, true_or, or_true]
    rw [List.mem_singleton.1 hmem] at hstem
    have hlower := (Text.toNat_of_isLower hstem.1).1
    simp only [Char.isDigit, Bool.and_eq_false_iff, decide_eq_false_iff_not]
    exact Or.inr fun hle =>
      absurd (Nat.le_trans hlower (UInt32.le_iff_toNat_le.1 hle)) (by decide)

end Token

/-! ### Tokens -/

namespace ArbitraryValue

/-- What is accepted between brackets ends no block. -/
theorem isContained_raw_of_parse? {raw : String} {v : ArbitraryValue} (h : parse? raw = some v) :
    Text.IsContained raw := by
  rcases exists_body_of_parse? h with ⟨hint, body, hraw, hhint, -, hsafe⟩
  intro c hc hmark
  rw [hraw] at hc
  rcases List.mem_append.1 hc with hc | hc
  · rcases hhint c hc with hlower | rfl
    · exact Text.not_mem_of_all_not (by decide) hlower hmark
    · exact absurd hmark (by decide)
  · -- No mark is blank or an underscore, so spacing would have kept it.
    have hkept : Text.isBlank c = false ∧ c ≠ '_' := by
      simp only [Text.blockMarks, List.mem_cons, List.not_mem_nil, or_false] at hmark
      rcases hmark with rfl | rfl | rfl <;> decide
    exact Text.not_mem_of_all_not (by decide) (isAllowed_of_mem_body hsafe hkept hc) hmark

end ArbitraryValue

namespace Token

theorem isContained_of_isStem {s : String} (h : isStem s.toList = true) : Text.IsContained s :=
  fun _ hc => not_mem_blockMarks_of_isStemChar (isStemChar_of_mem_isStem h hc)

theorem isContained_of_isKey {s : String} (h : IsKey s.toList) : Text.IsContained s := by
  rcases h with ⟨front, tail, hfront, htail, hnone, hs⟩
  intro c hc
  rw [hs] at hc
  rcases List.mem_append.1 hc with hc | hc
  · exact not_mem_blockMarks_of_isStemChar (List.all_eq_true.1 hfront c hc)
  · cases tail with
    | none => exact absurd hc List.not_mem_nil
    | slash digits =>
        rcases List.mem_cons.1 hc with rfl | hc
        · decide
        · exact Text.not_mem_blockMarks_of_isDigit (List.all_eq_true.1 htail.2 c hc)
    | bracket value => simp only [Tail.hyphen, reduceCtorEq] at hnone

end Token

namespace Design

variable {d : Design} (hd : d.grammar.IsNamed)
include hd

-- What scanning lets through between brackets has been checked where it has a rule.
theorem isContained_core {t : Token} (hcore : Token.IsCore t.core.toList)
    {resolution : Resolution}
    (h : Resolution.ofCore? d.theme d.grammar t = some resolution) :
    Text.IsContained t.core := by
  rcases Resolution.ofCore?_eq_some h with ⟨found, hfound, -⟩ | ⟨r, hr, hreading⟩
  · exact Token.isContained_of_isStem (Grammar.isStem_of_staticRule? hd hfound)
  rcases Resolution.source_of_ofReading? hr hreading with ⟨found, hfound, hwhole | hkeyed⟩
  · exact hwhole ▸ Token.isContained_of_isStem (Grammar.isStem_of_utility? hd hfound)
  have hstem := Grammar.isStem_of_utility? hd hfound
  -- Around the hyphen stand the stem of a utility and a key, which was found in the theme
  -- or was checked between brackets.
  rcases hkeyed with ⟨key, target, value, hvalue, heq, -, htarget, hsource⟩
  have hcontained : Text.IsContained key := by
    cases hsource with
    | bracketed inner v hbracketed hparse _ =>
        have hinner := ArbitraryValue.isContained_raw_of_parse? hparse
        intro c hc
        rw [Resolution.eq_of_bracketed? hbracketed] at hc
        rcases List.mem_cons.1 hc with rfl | hc
        · decide
        rcases List.mem_append.1 hc with hc | hc
        · exact hinner c hc
        · rw [List.mem_singleton.1 hc]
          decide
    | named value hbracketed _ =>
        exact Token.isContained_of_isKey
          (isKey_of_asks hd hcore ⟨r, hr, found, hvalue, hbracketed, hfound, htarget⟩)
  intro c hc
  rw [heq] at hc
  rcases List.mem_append.1 hc with hc | hc
  · exact Token.isContained_of_isStem hstem c hc
  rcases List.mem_cons.1 hc with rfl | hc
  · decide
  · exact hcontained c hc

/-- A scanned token with a rule ends no block. -/
theorem isContained_of_isToken {token : String} (htoken : Token.isToken token = true) {r : Rule}
    (hr : d.ruleOf? token = some r) : Text.IsContained token := by
  rcases Rule.ofToken?_eq_some_iff.1 hr with ⟨t, variants, resolution, ht, -, hcore, -⟩
  rcases (Token.isSome_shape?_iff ht).1 (Bool.and_eq_true_iff.1 htoken).2 with ⟨hgroups, hform⟩
  -- A character is in the name of a variant, in front of the core or in the core.
  intro c hc
  rw [← Token.text_of_parse? ht] at hc
  rcases List.mem_append.1 hc with hc | hc
  · rcases List.mem_flatMap.1 hc with ⟨name, hname, hc⟩
    rcases List.mem_append.1 hc with hc | hc
    · exact Token.not_mem_blockMarks_of_isGroupChar
        (Token.isGroupChar_of_mem_isGroup (hgroups name hname) hc)
    · rw [List.mem_singleton.1 hc]
      decide
  rcases List.mem_append.1 hc with hc | hc
  · rcases Token.mem_marks hc with rfl | rfl <;> decide
  · exact isContained_core hd hform hcore c hc

end Design

/-! ### Selectors -/

namespace Variant

/-- What the variant puts in front of a class starts with a point, and what it puts behind
    the class has no blanks. -/
structure IsTrim (v : Variant) : Prop where
  before : v.before.toList = [] ∨ v.before.toList.head? = some '.'
  classPart : v.classPart.toList.all (fun c => !Text.isBlank c) = true
  elementPart : v.elementPart.toList.all (fun c => !Text.isBlank c) = true

theorem isTrim_of_ofName? {theme : Theme} {mode : DarkMode} {name : String} {v : Variant}
    (h : ofName? theme mode name = some v) : IsTrim v := by
  have hclasses : ∀ p ∈ pseudoClasses, p.2.toList.all (fun c => !Text.isBlank c) = true := by
    decide
  have helements : ∀ p ∈ pseudoElements, p.2.toList.all (fun c => !Text.isBlank c) = true := by
    decide
  cases known_of_ofName? h with
  | screen | media => exact ⟨Or.inl rfl, rfl, rfl⟩
  | dark =>
      cases mode with
      | media => exact ⟨Or.inl rfl, rfl, rfl⟩
      | byClass => exact ⟨Or.inr (by decide), rfl, rfl⟩
  | pseudoClass hp => exact ⟨Or.inl rfl, hclasses _ hp, rfl⟩
  | pseudoElement hp => exact ⟨Or.inl rfl, rfl, helements _ hp⟩
  | group | peer =>
      -- Both put a class in front of the selector, and a class starts with a point.
      refine ⟨Or.inr ?_, rfl, rfl⟩
      rw [before, String.toList_append, String.toList_append, List.append_assoc,
        List.head?_append]
      rfl

end Variant

namespace Selector

variable {variants : List Variant}

theorem head?_frontChars (h : ∀ v ∈ variants, v.IsTrim) :
    frontChars variants = [] ∨ (frontChars variants).head? = some '.' := by
  unfold frontChars
  induction variants with
  | nil => exact Or.inl rfl
  | cons v variants ih =>
      rw [List.flatMap_cons]
      rcases (h v List.mem_cons_self).before with hnil | hhead
      · rw [hnil, List.nil_append]
        exact ih fun v' hv' => h v' (List.mem_cons_of_mem _ hv')
      · right
        rw [List.head?_append, hhead, Option.some_or]

theorem isBlank_eq_false_of_mem_tailChars (h : ∀ v ∈ variants, v.IsTrim) {c : Char}
    (hc : c ∈ tailChars variants) : Text.isBlank c = false := by
  have hpart : ∀ cs : List Char, cs.all (fun c => !Text.isBlank c) = true → c ∈ cs →
      Text.isBlank c = false := fun cs hcs hmem => by
    have hnot := List.all_eq_true.1 hcs c hmem
    rwa [Bool.not_eq_true'] at hnot
  rcases List.mem_append.1 hc with hc | hc
  · rcases List.mem_flatMap.1 hc with ⟨v, hv, hc⟩
    exact hpart _ (h v hv).classPart hc
  · rcases List.mem_flatMap.1 hc with ⟨v, hv, hc⟩
    exact hpart _ (h v hv).elementPart hc

theorem mem_escapeChars {c : Char} {cs : List Char} (h : c ∈ Token.escapeChars cs) :
    c ∈ cs ∨ c ∈ ['\\', '3', ' '] := by
  have hchar : ∀ d, c ∈ Token.escapeChar d → c = d ∨ c = '\\' := by
    intro d hd
    unfold Token.escapeChar at hd
    split at hd
    · exact Or.inl (List.mem_singleton.1 hd)
    · simp only [List.mem_cons, List.not_mem_nil, or_false] at hd
      exact hd.symm
  have htail : ∀ ds : List Char, c ∈ ds.flatMap Token.escapeChar → c ∈ ds ∨ c = '\\' := by
    intro ds hds
    rcases List.mem_flatMap.1 hds with ⟨d, hd, hc⟩
    rcases hchar d hc with rfl | rfl
    · exact Or.inl hd
    · exact Or.inr rfl
  -- Only the first character can be escaped by its code point.
  cases cs with
  | nil => exact absurd h List.not_mem_nil
  | cons d ds =>
      simp only [List.mem_cons, List.not_mem_nil, or_false]
      rcases List.mem_append.1 h with h | h
      · split at h
        · simp only [List.mem_cons, List.not_mem_nil, or_false] at h
          rcases h with h | h | h | h
          · exact Or.inr (Or.inl h)
          · exact Or.inr (Or.inr (Or.inl h))
          · exact Or.inl (Or.inl h)
          · exact Or.inr (Or.inr (Or.inr h))
        · rcases hchar d h with h | h
          · exact Or.inl (Or.inl h)
          · exact Or.inr (Or.inl h)
      · rcases htail ds h with h | h
        · exact Or.inl (Or.inr h)
        · exact Or.inr (Or.inl h)

section

variable {token : String}

theorem toList_selector_escape (token : String) (variants : List Variant) :
    (Variant.selector ("." ++ Token.escape token) variants).toList
      = frontChars variants ++ '.' :: (Token.escapeChars token.toList ++ tailChars variants) := by
  rw [Variant.toList_selector, ← frontChars, ← tailChars, String.toList_append, Token.escape,
    String.toList_ofList, String.toList_ofList, List.append_assoc]
  rfl

/-- A selector starts with a point, whether a relative stands in front or not. -/
theorem head?_selector (h : ∀ v ∈ variants, v.IsTrim) :
    (Variant.selector ("." ++ Token.escape token) variants).toList.head? = some '.' := by
  rw [toList_selector_escape]
  rcases head?_frontChars h with hnil | hhead
  · rw [hnil]
    rfl
  · rw [List.head?_append, hhead, Option.some_or]

/-- A selector ends with what is not blank. -/
theorem isBlank_eq_false_of_getLast?_selector (h : ∀ v ∈ variants, v.IsTrim)
    (htoken : Token.isToken token = true) {c : Char}
    (hc : (Variant.selector ("." ++ Token.escape token) variants).toList.getLast? = some c) :
    Text.isBlank c = false := by
  have hescaped : (Token.escapeChars token.toList).getLast? = token.toList.getLast? :=
    Token.getLast?_escapeChars fun c hc => Token.isDigit_eq_false_of_isToken htoken hc
  rw [toList_selector_escape, List.append_cons, ← List.append_assoc, List.getLast?_append,
    Option.or_eq_some_iff] at hc
  rcases hc with hc | ⟨-, hc⟩
  · exact isBlank_eq_false_of_mem_tailChars h (List.mem_of_getLast? hc)
  · -- Without a tail it ends as the token does.
    rw [List.getLast?_append, hescaped, Option.or_eq_some_iff] at hc
    rcases hc with hc | ⟨-, hc⟩
    · exact Token.isBlank_eq_false_of_isToken htoken c (List.mem_of_getLast? hc)
    · rw [List.getLast?_concat, Option.some.injEq] at hc
      rw [← hc]
      decide

/-- The selector of a scanned token can be told from what is written around it. -/
theorem isTidy_selector (h : ∀ v ∈ variants, v.IsTame ∧ v.IsTrim)
    (htoken : Token.isToken token = true) (hcontained : Text.IsContained token) :
    Text.IsTidy (Variant.selector ("." ++ Token.escape token) variants) where
  contained := by
    have hmarkup : ∀ c, Variant.isMarkup c = true → c ∉ Text.blockMarks := fun c hc =>
      Text.not_mem_of_all_not (by decide) hc
    have htame : ∀ v ∈ variants, v.IsTame := fun v hv => (h v hv).1
    intro c hc
    -- The selector is what the variants put in front, the point, the escaped token and what
    -- they put behind it.
    rw [toList_selector_escape] at hc
    rcases List.mem_append.1 hc with hc | hc
    · exact hmarkup c (isMarkup_of_mem_frontChars htame hc)
    rcases List.mem_cons.1 hc with rfl | hc
    · decide
    rcases List.mem_append.1 hc with hc | hc
    · rcases mem_escapeChars hc with hc | hc
      · exact hcontained c hc
      · have hescape : ['\\', '3', ' '].all (fun c => !Text.blockMarks.contains c) = true := by
          decide
        have hnot := List.all_eq_true.1 hescape c hc
        rwa [Bool.not_eq_true', List.contains_eq_mem, decide_eq_false_iff_not] at hnot
    · exact hmarkup c (of_mem_tailChars htame hc).1
  nonempty := by
    rw [toList_selector_escape]
    exact List.append_ne_nil_of_right_ne_nil _ (List.cons_ne_nil _ _)
  first := by
    intro c hc
    rw [head?_selector fun v hv => (h v hv).2, Option.mem_def, Option.some.injEq] at hc
    rw [← hc]
    decide
  last := fun _ hc =>
    isBlank_eq_false_of_getLast?_selector (fun v hv => (h v hv).2) htoken hc

end

end Selector

/-! ### Rules -/

theorem PluginName.isStemChar_of_mem_isProperty {cs : List Char} (h : isProperty cs = true) :
    cs ≠ [] ∧ ∀ c ∈ cs, Token.isStemChar c = true := by
  rcases isPropertyForm_of_isProperty h with ⟨hyphens, name, -, hname, rfl⟩
  -- Hyphens, a word that starts with a letter, and further words behind hyphens.
  rcases hname with ⟨first, rest, words, hfirst, hrest, hwords, rfl⟩
  refine ⟨fun hnil => ?_, fun c hc => ?_⟩
  · rw [List.append_eq_nil_iff] at hnil
    exact absurd hnil.2 (List.cons_ne_nil _ _)
  rcases List.mem_append.1 hc with hc | hc
  · rw [List.eq_of_mem_replicate hc]
    decide
  rcases List.mem_append.1 hc with hc | hc
  · rcases List.mem_cons.1 hc with rfl | hc
    · exact Token.isStemChar_of_isLower hfirst
    · exact isStemChar_of_isWordChar (List.all_eq_true.1 hrest c hc)
  · rcases List.mem_flatMap.1 hc with ⟨w, hw, hc⟩
    rcases List.mem_cons.1 hc with rfl | hc
    · decide
    · exact isStemChar_of_isWordChar (List.all_eq_true.1 (hwords w hw).2 c hc)

theorem Declaration.IsContained.isClear {d : Declaration} (h : d.IsContained) :
    Outline.IsClear d := by
  rcases PluginName.isStemChar_of_mem_isProperty h.property with ⟨hne, hchars⟩
  refine ⟨Text.isTidy_of_forall hne fun c hc => ?_, fun hmem => ?_, h.value⟩
  · exact ⟨Token.not_mem_blockMarks_of_isStemChar (hchars c hc),
      Token.isBlank_eq_false_of_isStemChar (hchars c hc)⟩
  · exact absurd (hchars _ hmem) (by decide)

/-- The at-rules of variants can be told from selectors and from what is written around
    them. -/
theorem Variant.isTidy_of_ofName? {theme : Theme} (htheme : theme.IsContained) {mode : DarkMode}
    {name : String} {v : Variant} (h : ofName? theme mode name = some v) {rule : String}
    {rank : Nat} (hv : v.atRule? = some (rule, rank)) :
    Text.IsTidy rule ∧ Outline.isAtRule rule = true := by
  have hfeatures : ∀ p ∈ mediaFeatures, Text.IsTidy p.2 ∧ Outline.isAtRule p.2 = true := by
    decide
  rcases rule_of_ofName? h hv with ⟨_, s, hs, rfl⟩ | rfl | ⟨p, hp, rfl⟩
  · -- The width stands between two fixed words.
    have hwidth := Theme.isContained_of_screen? htheme hs
    have hfirst : "@media (min-width: ".toList.head? = some '@' := by decide
    have hlast : ")".toList.getLast? = some ')' := by decide
    refine ⟨Text.isTidy_between ?_ hwidth ?_ hfirst hlast ?_, decide_eq_true ?_⟩
    · decide
    · decide
    · decide
    · rw [String.toList_append, String.toList_append, List.append_assoc, List.head?_append,
        hfirst, Option.some_or]
  · decide
  · exact hfeatures p hp

namespace Design

variable {config : Config} {d : Design} (h : ofConfig config = .ok d)
include h

/-- The rule of a scanned token is legible. -/
theorem isLegible_of_ruleOf? {token : String} (htoken : Token.isToken token = true) {r : Rule}
    (hr : d.ruleOf? token = some r) : r.IsLegible := by
  have hd := isContained_of_ofConfig h
  have hcontained := Rule.isContained_of_ofToken? hd.theme hd.grammar hr
  rcases Rule.ofToken?_eq_some_iff.1 hr with ⟨t, variants, resolution, -, hvariants, -, hrule⟩
  have hnames : ∀ v ∈ variants, ∃ name,
      Variant.ofName? d.theme d.grammar.darkMode name = some v := by
    intro v hv
    rcases mem_of_mapM_eq_some hvariants hv with ⟨name, -, hname⟩
    exact ⟨name, hname⟩
  have hvariant : ∀ v ∈ variants, v.IsTame ∧ v.IsTrim := by
    intro v hv
    rcases hnames v hv with ⟨name, hname⟩
    exact ⟨Variant.isTame_of_ofName? hname, Variant.isTrim_of_ofName? hname⟩
  have hselector : r.selector = Variant.selector ("." ++ Token.escape token) variants := by
    rw [← hrule]
    rfl
  constructor
  case selector =>
    rw [hselector]
    exact Selector.isTidy_selector hvariant htoken
      (isContained_of_isToken (isNamed_of_ofConfig h) htoken hr)
  case noAtRule =>
    rw [hselector, Outline.isAtRule, Selector.head?_selector fun v hv => (hvariant v hv).2]
    decide
  case atRules =>
    intro rule hhead
    rw [← hrule] at hhead
    -- An at-rule is that of one of the variants.
    rcases List.mem_map.1 hhead with ⟨⟨text, rank⟩, hmem, rfl⟩
    rcases List.mem_filterMap.1 hmem with ⟨v, hv, hatRule⟩
    rcases hnames v hv with ⟨name, hname⟩
    exact Variant.isTidy_of_ofName? hd.theme hname hatRule
  case declarations =>
    exact fun e he => (hcontained.declarations e he).isClear

/-- The rules of a stylesheet are the resets, if they are asked for, and those of the
    tokens. -/
theorem rules_assemble (tokens : SortedSet) (preflight : Bool) :
    (Stylesheet.assemble preflight (d.resolveAll tokens).1).rules
      = (if preflight then Preflight.rules else [])
        ++ (Stylesheet.ofRules (d.resolveAll tokens).1).rules := by
  cases preflight with
  | false => rfl
  | true =>
      rw [Stylesheet.assemble, if_pos rfl, if_pos rfl,
        rules_ofRules_resets (reachable_of_ofConfig h) (List.Perm.refl _)]

/-- The stylesheet of scanned tokens is read as the resets, if they are asked for, and a
    rule for each token that has one. -/
theorem read_assemble {tokens : SortedSet} (htokens : ∀ token ∈ tokens, Token.isToken token = true)
    (preflight minify : Bool) :
    Outline.read ((Stylesheet.assemble preflight (d.resolveAll tokens).1).toText minify)
      = some ((if preflight then Preflight.rules.map Rule.entry else [])
        ++ (Stylesheet.ofRules (d.resolveAll tokens).1).rules.map fun r => r.trimmed.entry) := by
  have hresets : ∀ r ∈ Preflight.rules, r.IsReadable := by decide +kernel
  have hrules : ∀ r ∈ (Stylesheet.ofRules (d.resolveAll tokens).1).rules, r.IsLegible := by
    intro r hr
    have hmem := (Stylesheet.ofRules_perm (distinct_resolveAll d tokens)).mem_iff.1 hr
    rcases (mem_resolveAll d tokens).1 hmem with ⟨token, ht, htoken⟩
    exact isLegible_of_ruleOf? h (htokens token ht) htoken
  -- The resets have no blanks around their values.
  have hentries : Preflight.rules.map (fun r => r.trimmed.entry) = Preflight.rules.map Rule.entry :=
    List.map_congr_left fun r hr => by rw [(hresets r hr).trimmed_eq]
  rw [Stylesheet.read_toText_trimmed, rules_assemble h, List.map_append]
  · cases preflight with
    | false => rfl
    | true => rw [if_pos rfl, if_pos rfl, hentries]
  · intro r hr
    rw [rules_assemble h] at hr
    rcases List.mem_append.1 hr with hr | hr
    · cases preflight with
      | false => exact absurd hr List.not_mem_nil
      | true => exact (hresets r hr).isLegible
    · exact hrules r hr

end Design

end UtilityCss
