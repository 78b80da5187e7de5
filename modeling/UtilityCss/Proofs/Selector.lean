import UtilityCss.Proofs.Resolution
import UtilityCss.Proofs.Token.Escape
import UtilityCss.Proofs.Variant

/-!
# Selectors Read Back

The token of a generated rule can be read off its selector.

A selector is built around the escaped token: relatives go in front, a point
starts the class, and pseudo-classes and pseudo-elements follow. Different
tokens have to end up with different selectors, or the stylesheet would drop one
of their rules. The escaped token alone is injective, but the texts around it
are chosen by the same token, so comparing two selectors piece by piece does not
work: the pieces need not have the same lengths.

What works is to read a selector as a browser does. `units` cuts it into
characters, each together with the backslash in front of it. A point or a colon
of the token is then a unit of two characters, while the ones that the variants
add are units of one. So the class is what follows the last bare point, up to
the first bare colon, whatever the variants were, and `token` reads it.

The same units say what it means for a brace to be harmless in a selector: it
stands behind a backslash, so it is no unit of its own.

## Main definitions

* `Selector.units`: The characters of a selector with their backslashes.
* `Selector.token`: The token of the last class of a selector.

## Theorems

* `units_append`: Text without backslashes is cut into its characters.
* `units_escapeChars`: An escaped token is cut between its characters.
* `isPlain_of_mem_escapedUnits`: What stands bare in an escaped token is plain.
* `units_selector`: The units of a selector.
* `token_selector`: A rule's token is read off its selector.
-/

namespace UtilityCss

namespace Selector

/-- The characters of a selector, each with the backslash in front of it. -/
def units : List Char → List (List Char)
  | [] => []
  | [c] => [[c]]
  | c :: d :: rest => if c = '\\' then [c, d] :: units rest else [c] :: units (d :: rest)

/-- The units of the last class: what follows the last bare point, up to the
    first bare colon. -/
def lastClass (us : List (List Char)) : List (List Char) :=
  (us.reverse.takeWhile (· ≠ ['.'])).reverse.takeWhile (· ≠ [':'])

/-- The token of the last class of a selector. -/
def token (selector : String) : String :=
  String.ofList (Token.unescape (lastClass (units selector.toList)).flatten)

theorem units_cons {c : Char} (h : c ≠ '\\') (rest : List Char) :
    units (c :: rest) = [c] :: units rest := by
  cases rest with
  | nil => rfl
  | cons d rest => rw [units, if_neg h]

theorem units_backslash (c : Char) (rest : List Char) :
    units ('\\' :: c :: rest) = ['\\', c] :: units rest := by
  rw [units, if_pos rfl]

/-- Text without backslashes is cut into its characters. -/
theorem units_append {cs : List Char} (h : '\\' ∉ cs) (rest : List Char) :
    units (cs ++ rest) = cs.map (fun c => [c]) ++ units rest := by
  induction cs with
  | nil => rfl
  | cons c cs ih =>
      have hc : c ≠ '\\' := fun heq => h (heq ▸ List.mem_cons_self)
      have hcs : '\\' ∉ cs := fun hmem => h (List.mem_cons_of_mem _ hmem)
      rw [List.cons_append, units_cons hc, ih hcs, List.map_cons, List.cons_append]

theorem units_of_not_mem {cs : List Char} (h : '\\' ∉ cs) :
    units cs = cs.map fun c => [c] := by
  have happ := units_append h []
  rw [List.append_nil] at happ
  rw [happ, units, List.append_nil]

theorem units_escapeChar (c : Char) (rest : List Char) :
    units (Token.escapeChar c ++ rest) = Token.escapeChar c :: units rest := by
  unfold Token.escapeChar
  cases hc : Token.isPlain c with
  | true =>
      rw [if_pos rfl, List.singleton_append, units_cons (Token.ne_backslash_of_isPlain hc)]
  | false =>
      simp only [Bool.false_eq_true, if_false, List.cons_append, List.nil_append]
      exact units_backslash c rest

/-- The units of an escaped token. -/
def escapedUnits : List Char → List (List Char)
  | [] => []
  | c :: cs =>
    (if c.isDigit then [['\\', '3'], [c], [' ']] else [Token.escapeChar c])
      ++ cs.map Token.escapeChar

/-- An escaped token is cut between its characters. -/
theorem units_escapeChars (cs rest : List Char) :
    units (Token.escapeChars cs ++ rest) = escapedUnits cs ++ units rest := by
  -- Behind the first character every one is a unit.
  have htail : ∀ cs : List Char, units (cs.flatMap Token.escapeChar ++ rest)
      = cs.map Token.escapeChar ++ units rest := by
    intro cs
    induction cs with
    | nil => rfl
    | cons c cs ih =>
        rw [List.flatMap_cons, List.append_assoc, units_escapeChar, ih, List.map_cons,
          List.cons_append]
  cases cs with
  | nil => rfl
  | cons c cs =>
      rw [Token.escapeChars, escapedUnits, List.append_assoc]
      cases hd : c.isDigit with
      | true =>
          -- A leading digit makes three units: its code point takes up two, and
          -- a space the third.
          have hc : c ≠ '\\' := by
            rintro rfl
            exact absurd hd (by decide)
          simp only [if_true, List.cons_append, List.nil_append]
          rw [units_backslash, units_cons hc, units_cons (by decide), htail]
      | false =>
          simp only [Bool.false_eq_true, if_false]
          rw [units_escapeChar, htail]
          rfl

theorem flatten_escapedUnits (cs : List Char) :
    (escapedUnits cs).flatten = Token.escapeChars cs := by
  cases cs with
  | nil => rfl
  | cons c cs =>
      rw [Token.escapeChars, escapedUnits, List.flatten_append, ← List.flatMap_def]
      cases c.isDigit with
      | true => rfl
      | false => simp only [Bool.false_eq_true, if_false, List.flatten_singleton]

/-- What stands bare in an escaped token is plain, or the space behind a
    leading digit. -/
theorem isPlain_of_mem_escapedUnits {c : Char} {cs : List Char} (h : [c] ∈ escapedUnits cs) :
    Token.isPlain c = true ∨ c = ' ' := by
  -- A single unit is an escaped form only if nothing had to be escaped.
  have hchar : ∀ d : Char, [c] = Token.escapeChar d → Token.isPlain c = true := by
    intro d hd
    unfold Token.escapeChar at hd
    split at hd
    · next hp =>
        rw [List.cons.injEq] at hd
        rw [hd.1]
        exact hp
    · simp only [List.cons.injEq, List.nil_eq, reduceCtorEq, and_false] at hd
  cases cs with
  | nil => exact absurd h List.not_mem_nil
  | cons d cs =>
      rw [escapedUnits] at h
      rcases List.mem_append.1 h with h | h
      · split at h
        · next hd =>
            simp only [List.mem_cons, List.cons.injEq, List.nil_eq, reduceCtorEq, and_false,
              and_true, List.not_mem_nil, or_false, false_or] at h
            rcases h with rfl | rfl
            · left
              simp only [Token.isPlain, Char.isAlphanum, hd, Bool.or_true, Bool.true_or]
            · exact Or.inr rfl
        · exact Or.inl (hchar d (List.mem_singleton.1 h))
      · rcases List.mem_map.1 h with ⟨d, -, hd⟩
        exact Or.inl (hchar d hd.symm)

-- The last class is found between the last bare point and the first bare
-- colon.
theorem lastClass_eq {front body tail : List (List Char)} (hb : ['.'] ∉ body)
    (ht : ['.'] ∉ tail) (hbody : [':'] ∉ body) (htail : tail = [] ∨ tail.head? = some [':']) :
    lastClass (front ++ ['.'] :: (body ++ tail)) = body := by
  -- Read from the end, the first bare point is the one in front of the class.
  have hrev : ((front ++ ['.'] :: (body ++ tail)).reverse.takeWhile (· ≠ ['.'])).reverse
      = body ++ tail := by
    have hall : ∀ u ∈ (body ++ tail).reverse, decide (u ≠ ['.']) = true := by
      intro u hu
      rw [decide_eq_true_eq]
      rintro rfl
      rcases List.mem_append.1 (List.mem_reverse.1 hu) with hu | hu
      · exact hb hu
      · exact ht hu
    rw [List.reverse_append, List.reverse_cons, List.append_assoc,
      List.takeWhile_append_of_pos hall, List.singleton_append,
      List.takeWhile_cons_of_neg (by decide), List.append_nil, List.reverse_reverse]
  -- From there on, nothing in the class is a bare colon, and the tail starts
  -- with one.
  have hall : ∀ u ∈ body, decide (u ≠ [':']) = true := by
    intro u hu
    rw [decide_eq_true_eq]
    rintro rfl
    exact hbody hu
  unfold lastClass
  rw [hrev, List.takeWhile_append_of_pos hall]
  rcases htail with rfl | htail
  · rw [List.takeWhile_nil, List.append_nil]
  · cases tail with
    | nil => rw [List.takeWhile_nil, List.append_nil]
    | cons u tail =>
        rw [List.head?_cons, Option.some.injEq] at htail
        rw [htail, List.takeWhile_cons_of_neg (by decide), List.append_nil]

/-- The characters that variants put in front of a class. -/
def frontChars (variants : List Variant) : List Char :=
  variants.flatMap fun v => v.before.toList

/-- The characters that variants put behind a class. -/
def tailChars (variants : List Variant) : List Char :=
  variants.flatMap (fun v => v.classPart.toList) ++ variants.flatMap fun v => v.elementPart.toList

section Tame

variable {variants : List Variant} (h : ∀ v ∈ variants, v.IsTame)
include h

theorem isMarkup_of_mem_frontChars {c : Char} (hc : c ∈ frontChars variants) :
    Variant.isMarkup c = true := by
  rcases List.mem_flatMap.1 hc with ⟨v, hv, hmem⟩
  exact List.all_eq_true.1 (h v hv).before c hmem

theorem isTail_tailChars : Variant.isTail (tailChars variants) = true :=
  Variant.isTail_append (Variant.isTail_flatMap fun v hv => (h v hv).classPart)
    (Variant.isTail_flatMap fun v hv => (h v hv).elementPart)

theorem of_mem_tailChars {c : Char} (hc : c ∈ tailChars variants) :
    Variant.isMarkup c = true ∧ c ≠ '.' := by
  have ht := isTail_tailChars h
  simp only [Variant.isTail, Bool.and_eq_true, List.all_eq_true, decide_eq_true_eq] at ht
  exact ht.2 c hc

/-- A selector is cut into the characters in front, the point, the units of the
    escaped token, and the characters behind. -/
theorem units_selector (t : String) :
    units (Variant.selector ("." ++ Token.escape t) variants).toList
      = (frontChars variants).map (fun c => [c]) ++ ['.'] :: (escapedUnits t.toList
        ++ (tailChars variants).map fun c => [c]) := by
  have hfront : '\\' ∉ frontChars variants := fun hmem =>
    absurd (isMarkup_of_mem_frontChars h hmem) (by decide)
  have htail : '\\' ∉ tailChars variants := fun hmem =>
    absurd (of_mem_tailChars h hmem).1 (by decide)
  have hclass : ("." ++ Token.escape t).toList = '.' :: Token.escapeChars t.toList := by
    rw [String.toList_append, Token.escape, String.toList_ofList, String.toList_ofList]
    rfl
  rw [Variant.toList_selector, ← frontChars, ← tailChars, units_append hfront, hclass,
    List.cons_append, units_cons (by decide), units_escapeChars, units_of_not_mem htail]

/-- The token is read off a selector, whatever the variants are. -/
theorem token_selector (t : String) :
    token (Variant.selector ("." ++ Token.escape t) variants) = t := by
  -- Points and colons of the token are escaped.
  have hbody : ∀ c : Char, Token.isPlain c = false → c ≠ ' ' → [c] ∉ escapedUnits t.toList := by
    intro c hp hs hmem
    rcases isPlain_of_mem_escapedUnits hmem with hc | hc
    · rw [hp] at hc
      exact Bool.false_ne_true hc
    · exact hs hc
  -- Those behind the class are not, but only colons stand there.
  have hdot : ['.'] ∉ (tailChars variants).map fun c => [c] := by
    intro hmem
    rcases List.mem_map.1 hmem with ⟨c, hc, heq⟩
    exact (of_mem_tailChars h hc).2 (List.cons.inj heq).1
  have htail : (tailChars variants).map (fun c => [c]) = [] ∨
      ((tailChars variants).map fun c => [c]).head? = some [':'] := by
    have ht := isTail_tailChars h
    simp only [Variant.isTail, Bool.and_eq_true, Bool.or_eq_true, List.isEmpty_iff,
      decide_eq_true_eq] at ht
    rcases ht.1 with hnil | hhead
    · exact Or.inl (by rw [hnil, List.map_nil])
    · exact Or.inr (by rw [List.head?_map, hhead, Option.map_some])
  rw [token, units_selector h, lastClass_eq (hbody '.' (by decide) (by decide)) hdot
    (hbody ':' (by decide) (by decide)) htail, flatten_escapedUnits, Token.unescape_escapeChars,
    String.ofList_toList]

-- What stands bare in a selector ends no block.
theorem isMarkup_of_mem_units_selector {c : Char} (t : String)
    (hc : [c] ∈ units (Variant.selector ("." ++ Token.escape t) variants).toList) :
    Variant.isMarkup c = true := by
  have hplain : ∀ d : Char, Token.isPlain d = true → Variant.isMarkup d = true := by
    intro d hd
    simp only [Variant.isMarkup, Bool.and_eq_true, decide_eq_true_eq]
    refine ⟨⟨⟨?_, ?_⟩, ?_⟩, ?_⟩ <;> rintro rfl <;> exact absurd hd (by decide)
  -- A bare character comes from the variants, is the point, or is one that is not escaped.
  rw [units_selector h] at hc
  rcases List.mem_append.1 hc with hc | hc
  · rcases List.mem_map.1 hc with ⟨d, hd, heq⟩
    rw [← (List.cons.inj heq).1]
    exact isMarkup_of_mem_frontChars h hd
  · rcases List.mem_cons.1 hc with hc | hc
    · rw [(List.cons.inj hc).1]
      decide
    · rcases List.mem_append.1 hc with hc | hc
      · rcases isPlain_of_mem_escapedUnits hc with hp | rfl
        · exact hplain c hp
        · decide
      · rcases List.mem_map.1 hc with ⟨d, hd, heq⟩
        rw [← (List.cons.inj heq).1]
        exact (of_mem_tailChars h hd).1

end Tame

section Generated

variable {theme : Theme} {g : Grammar} {t : String} {r : Rule}
  (h : Rule.ofToken? theme g t = some r)
include h

theorem exists_selector_of_ofToken? : ∃ variants : List Variant, (∀ v ∈ variants, v.IsTame) ∧
    r.selector = Variant.selector ("." ++ Token.escape t) variants := by
  rcases Rule.ofToken?_eq_some_iff.1 h with ⟨parts, variants, resolution, -, hv, -, rfl⟩
  refine ⟨variants, fun v hmem => ?_, rfl⟩
  rcases mem_of_mapM_eq_some hv hmem with ⟨name, -, hname⟩
  exact Variant.isTame_of_ofName? hname

/-- The token of a generated rule is read off its selector. -/
theorem token_of_ofToken? : token r.selector = t := by
  rcases exists_selector_of_ofToken? h with ⟨variants, htame, hsel⟩
  rw [hsel]
  exact token_selector htame t

theorem isMarkup_of_mem_units {c : Char} (hc : [c] ∈ units r.selector.toList) :
    Variant.isMarkup c = true := by
  rcases exists_selector_of_ofToken? h with ⟨variants, htame, hsel⟩
  rw [hsel] at hc
  exact isMarkup_of_mem_units_selector htame t hc

theorem dot_mem_selector : '.' ∈ r.selector.toList := by
  rcases exists_selector_of_ofToken? h with ⟨variants, -, hsel⟩
  rw [hsel, Variant.toList_selector, String.toList_append]
  refine List.mem_append_right _ (List.mem_append_left _ (List.mem_append_left _ ?_))
  decide

end Generated

end Selector

end UtilityCss
