import UtilityCss.Proofs.Extraction
import UtilityCss.Proofs.Grammar.Names
import UtilityCss.Proofs.Token.Readings

/-!
# Where Scanning and Resolving Agree

Which classes of a design scanning finds.

Scanning knows no design. It goes by the form of a word, and the form is a fixed one:
lower-case letters, digits, and a few marks. A design has names of its own. Those of
utilities and static rules are checked when a plugin is made, and all of them have the
form. The other names are not checked. A breakpoint can be called anything, a theme can
have any key, and so can the values of a utility: `bg-brandBlue` resolves where there is
such a colour, and scanning passes over it. Numbers differ too, because a plus sign in
front of one does not change it, and no token has the sign.

This is all there is. `Design.Spells` says that the breakpoints, the keys and the numbers
of a token are spelled as scanning knows them, and `isToken_iff_of_ruleOf?` that of the
words that resolve scanning finds exactly those. A word that is found in this sense
reaches the stylesheet from every text in which it stands between delimiters.

## Main definitions

* `Design.Asks`: A target that is asked for a key.
* `Design.Spells`: The parts of a token are spelled as scanning knows them.

## Theorems

* `isGroup_of_ofName?`: A variant is a breakpoint or has a name that scanning knows.
* `all_isInnerChar_of_parse?`: Scanning knows every value in brackets.
* `isKey_of_valueFor?`: Scanning knows the numbers without a plus sign.
* `Design.isKey_of_asks`, `Design.isCore_of_ofReading?`: Scanning knows a core that
  resolves with the keys in it.
* `Design.isSome_shape?_iff_spells`: When scanning knows the parts of a token.
* `isToken_iff_of_ruleOf?`: When scanning finds a token that resolves.
* `exists_not_isToken`: Tokens that resolve and are not found.
-/

namespace UtilityCss

open Token (isGroup isStem IsCore IsKey)

/-! ### Variants -/

namespace Variant

theorem isGroup_pseudoClasses : ∀ p ∈ pseudoClasses, isGroup p.1.toList = true := by
  decide +kernel

theorem isGroup_pseudoElements : ∀ p ∈ pseudoElements, isGroup p.1.toList = true := by
  decide +kernel

theorem isGroup_mediaFeatures : ∀ p ∈ mediaFeatures, isGroup p.1.toList = true := by
  decide +kernel

theorem isGroup_append {cs ds : List Char} (hcs : isGroup cs = true) (hds : isGroup ds = true) :
    isGroup (cs ++ ds) = true := by
  cases cs with
  | nil => exact absurd hcs Bool.false_ne_true
  | cons c cs =>
      rw [isGroup, Bool.and_eq_true] at hcs
      rw [List.cons_append, isGroup, hcs.1, Bool.true_and, List.all_append, hcs.2, Bool.true_and]
      exact List.all_eq_true.2 fun d hd => Token.isGroupChar_of_mem_isGroup hds hd

theorem isGroup_of_ofRelative? {stem before after name : String} {v : Variant}
    (hstem : isGroup stem.toList = true) (h : ofRelative? stem before after name = some v) :
    isGroup name.toList = true := by
  unfold ofRelative? at h
  split at h
  · simp only [reduceCtorEq] at h
  · next state hstate =>
      rcases Option.map_eq_some_iff.1 h with ⟨pseudo, hpseudo, -⟩
      have hgroup := isGroup_pseudoClasses _ (mem_of_lookup hpseudo)
      rw [String.toList_ofList] at hgroup
      rw [Text.dropWord?_eq_some_iff.1 hstate]
      exact isGroup_append hstem hgroup

theorem isGroup_of_fixed? {name : String} {v : Variant} (h : fixed? name = some v) :
    isGroup name.toList = true := by
  simp only [fixed?, Option.orElse_eq_orElse, Option.orElse_eq_or, Option.or_eq_some_iff] at h
  rcases h with h | ⟨-, h | ⟨-, h | ⟨-, h | ⟨-, h⟩⟩⟩⟩
  -- Media features, pseudo-classes, pseudo-elements, groups and peers.
  · rcases ofMediaFeature?_eq_some h with ⟨i, rule, hi, -⟩
    exact isGroup_mediaFeatures _ (List.mem_of_getElem? hi)
  · rcases Option.map_eq_some_iff.1 h with ⟨text, ht, -⟩
    exact isGroup_pseudoClasses _ (mem_of_lookup ht)
  · rcases Option.map_eq_some_iff.1 h with ⟨text, ht, -⟩
    exact isGroup_pseudoElements _ (mem_of_lookup ht)
  · exact isGroup_of_ofRelative? (by decide) h
  · exact isGroup_of_ofRelative? (by decide) h

/-- A variant is a breakpoint of the theme or has a name that scanning knows. -/
theorem isGroup_of_ofName? {theme : Theme} {mode : DarkMode} {name : String} {v : Variant}
    (h : ofName? theme mode name = some v) :
    (theme.screen? name).isSome = true ∨ isGroup name.toList = true := by
  unfold ofName? at h
  split at h
  · next s hs => exact Or.inl (by rw [hs]; rfl)
  · split at h
    · next hdark =>
        rw [hdark]
        exact Or.inr (by decide)
    · exact Or.inr (isGroup_of_fixed? h)

end Variant

/-! ### Keys -/

namespace ArbitraryValue

/-- A value in brackets that is accepted holds no bracket, so scanning knows it. -/
theorem all_isInnerChar_of_parse? {raw : String} {v : ArbitraryValue} (h : parse? raw = some v)
    (hblank : ∀ c ∈ raw.toList, Text.isBlank c = false) :
    raw.toList ≠ [] ∧ raw.toList.all Token.isInnerChar = true := by
  rcases exists_body_of_parse? h with ⟨hint, body, hraw, hhint, -, hsafe⟩
  have hne : spaced body ≠ [] := by
    simp only [isSafe, Bool.and_eq_true, Bool.not_eq_true', List.isEmpty_eq_false_iff] at hsafe
    exact hsafe.1.1.1
  -- A character of the body that spacing keeps has been allowed.
  have hbody : ∀ c, Text.isBlank c = false ∧ c ≠ '_' → isAllowed c = false → c ∉ body := by
    intro c hkept hc hmem
    rw [isAllowed_of_mem_body hsafe hkept hmem] at hc
    exact absurd hc.symm Bool.false_ne_true
  constructor
  · intro hnil
    rw [hraw, List.append_eq_nil_iff] at hnil
    rw [hnil.2] at hne
    exact hne rfl
  · rw [List.all_eq_true]
    intro c hc
    have hbracket : ¬(c = '[' ∨ c = ']') := by
      intro heq
      rw [hraw] at hc
      rcases List.mem_append.1 hc with hc | hc
      · rcases heq with rfl | rfl <;> exact absurd (hhint _ hc) (by decide)
      · rcases heq with rfl | rfl <;> exact hbody _ (by decide) (by decide) hc
    simp only [Token.isInnerChar, hblank c hc, Bool.not_false, Bool.true_and, Bool.and_eq_true,
      decide_eq_true_eq]
    exact not_or.1 hbracket

end ArbitraryValue

namespace Transform

-- Without a plus sign the digits of a number are the whole text.
theorem digits_of_number? {cs : List Char} {n : Nat} (h : number? cs = some n)
    (hplus : '+' ∉ cs) : cs ≠ [] ∧ cs.all Char.isDigit = true := by
  unfold number? Decimal.unsigned? at h
  split at h
  · exact absurd List.mem_cons_self hplus
  · dsimp only at h
    split at h
    · simp only [reduceCtorEq] at h
    · next htest =>
        simp only [Bool.or_eq_true, Bool.not_eq_true', not_or, Bool.not_eq_true,
          Bool.not_eq_false, List.isEmpty_eq_false_iff] at htest
        exact htest

theorem all_isStemChar_of_digits {cs : List Char} (h : cs.all Char.isDigit = true) :
    cs.all Token.isStemChar = true :=
  List.all_eq_true.2 fun c hc => Token.isStemChar_of_isDigit (List.all_eq_true.1 h c hc)

theorem isKey_of_count? {cs : List Char} {n : Nat} (h : count? cs = some n) (hplus : '+' ∉ cs) :
    IsKey cs := by
  rcases Option.filter_eq_some_iff.1 h with ⟨hnumber, -⟩
  have hdigits := (digits_of_number? hnumber hplus).2
  exact ⟨cs, .none, all_isStemChar_of_digits hdigits, trivial, rfl, (List.append_nil cs).symm⟩

theorem isKey_of_fraction? {cs : List Char} {n : Nat × Nat} (h : fraction? cs = some n)
    (hplus : '+' ∉ cs) : IsKey cs := by
  unfold fraction? at h
  split at h
  · simp only [reduceCtorEq] at h
  · next num den hcut =>
      rcases Text.eq_of_cutFirst hcut with ⟨rfl, -⟩
      simp only [List.mem_append, List.mem_cons, not_or] at hplus
      split at h
      · next n d hnum hden =>
          exact ⟨num, .slash den, all_isStemChar_of_digits (digits_of_number? hnum hplus.1).2,
            digits_of_number? hden hplus.2.2, rfl, rfl⟩
      · simp only [reduceCtorEq] at h

/-- Scanning knows the keys that values are computed from, but for plus signs. -/
theorem isKey_of_valueFor? {t : Transform} {key value : String}
    (h : t.valueFor? key = some value) (hplus : '+' ∉ key.toList) : IsKey key.toList := by
  cases t with
  | none => simp only [valueFor?, reduceCtorEq] at h
  | fraction =>
      rcases Option.map_eq_some_iff.1 h with ⟨n, hn, -⟩
      exact isKey_of_fraction? hn hplus
  | gridRepeat =>
      rcases Option.map_eq_some_iff.1 h with ⟨n, hn, -⟩
      exact isKey_of_count? hn hplus
  | span =>
      rcases Option.map_eq_some_iff.1 h with ⟨n, hn, -⟩
      exact isKey_of_count? hn hplus

end Transform

theorem Token.plus_not_mem_of_isKey {cs : List Char} (h : IsKey cs) : '+' ∉ cs := by
  rcases h with ⟨front, tail, hfront, htail, hnone, rfl⟩
  intro hmem
  rcases List.mem_append.1 hmem with hmem | hmem
  · exact absurd (List.all_eq_true.1 hfront _ hmem) (by decide)
  · cases tail with
    | none => exact absurd hmem List.not_mem_nil
    | slash digits =>
        rcases List.mem_cons.1 hmem with heq | hmem
        · exact absurd heq (by decide)
        · exact absurd (List.all_eq_true.1 htail.2 _ hmem) (by decide)
    | bracket value => simp only [Tail.hyphen, reduceCtorEq] at hnone

namespace Resolution

theorem eq_of_bracketed? {key inner : String} (h : bracketed? key = some inner) :
    key.toList = '[' :: (inner.toList ++ [']']) := by
  unfold bracketed? at h
  split at h
  · simp only [reduceCtorEq] at h
  · next rest hrest =>
      rcases Option.map_eq_some_iff.1 h with ⟨cs, hcs, rfl⟩
      rw [String.toList_ofList, Text.dropWord?_eq_some_iff.1 hrest,
        Text.dropLastWord?_eq_some_iff.1 hcs]
      rfl

-- A key that starts with a bracket where it ends in one is in brackets.
theorem getLast?_ne_of_bracketed? {key : String}
    (hends : key.toList.getLast? = some ']' → key.toList.head? = some '[')
    (h : bracketed? key = none) : key.toList.getLast? ≠ some ']' := by
  intro hlast
  have hhead := hends hlast
  cases hkey : key.toList with
  | nil =>
      rw [hkey] at hhead
      simp only [List.head?_nil, reduceCtorEq] at hhead
  | cons c rest =>
      rw [hkey] at hhead hlast
      rw [List.head?_cons, Option.some.injEq] at hhead
      -- With both brackets around it the key would be in brackets.
      rcases List.eq_nil_or_concat rest with rfl | ⟨inner, d, rfl⟩
      · rw [hhead] at hlast
        exact absurd hlast (by decide)
      · rw [List.concat_eq_append, ← List.cons_append, List.getLast?_concat,
          Option.some.injEq] at hlast
        rw [List.concat_eq_append, hlast, hhead] at hkey
        have hopens : Text.dropWord? ['['] key.toList = some (inner ++ [']']) :=
          Text.dropWord?_eq_some_iff.2 hkey
        have hcloses : Text.dropLastWord? [']'] (inner ++ [']']) = some inner :=
          Text.dropLastWord?_eq_some_iff.2 rfl
        rw [bracketed?, hopens] at h
        simp only [hcloses, Option.map_some, reduceCtorEq] at h

end Resolution

/-! ### Tokens -/

namespace Design

/-- The token asks the target for the key: it has a reading with a utility of that
    target, and with that key, which is not in brackets. -/
def Asks (d : Design) (t : Token) (target : Target) (key : String) : Prop :=
  ∃ r ∈ Token.readings t.core, ∃ found, r.value = some key ∧ Resolution.bracketed? key = none ∧
    d.grammar.utility? r.stem = some found ∧ target ∈ found.item.targets

/-- The parts of the token that a configuration can name at will are spelled as scanning
    knows them. -/
structure Spells (d : Design) (t : Token) : Prop where
  /-- Breakpoints have names of lower-case letters, digits, hyphens and `@`. -/
  screens : ∀ name ∈ t.variants, (d.theme.screen? name).isSome = true →
    isGroup name.toList = true
  /-- Keys of the theme and of the utility have the characters of a stem, and end in
      nothing more than a slash with digits. -/
  keys : ∀ target key, d.Asks t target key →
    (d.theme.lookup? target.axes key <|> target.values.get? key).isSome = true →
    IsKey key.toList
  /-- Keys that a value is computed from have no plus sign. -/
  numbers : ∀ target key, d.Asks t target key →
    (target.transform.valueFor? key).isSome = true → '+' ∉ key.toList

end Design

/-- A reading that resolves is the whole core, or it has a key that a target of its utility gets
    a value for. -/
theorem Resolution.source_of_ofReading? {theme : Theme} {g : Grammar} {core : String}
    {negative : Bool} {r : Token.Reading} (hr : r ∈ Token.readings core) {resolution : Resolution}
    (h : ofReading? theme g negative r = some resolution) :
    ∃ found, g.utility? r.stem = some found ∧ (r.stem = core ∨
      ∃ key target value, r.value = some key ∧
        core.toList = r.stem.toList ++ '-' :: key.toList ∧
        (key.toList.getLast? = some ']' → key.toList.head? = some '[') ∧
        target ∈ found.item.targets ∧ Source theme target key value) := by
  rcases ofReading?_eq_some h with ⟨found, key, declarations, hfound, hkey, -, hdeclarations, -⟩
  refine ⟨found, hfound, ?_⟩
  rcases Token.of_mem_readings hr with ⟨-, hwhole⟩ | ⟨key', hvalue, -, heq, hends⟩
  · exact Or.inl hwhole
  -- The key that is looked up is the one that was read, as it is no default.
  · have hsame : key' = key := by
      rw [hvalue, keyOf?] at hkey
      exact (Option.ite_none_left_eq_some.1 hkey).2 |> Option.some.inj
    subst hsame
    rcases ofKey?_eq_some hdeclarations with ⟨target, htarget, value, final, hsource, -⟩
    exact Or.inr ⟨key', target, value, hvalue, heq, hends, htarget, hsource⟩

section

variable {d : Design} (hd : d.grammar.IsNamed)
include hd

-- A core that scanning knows has only keys that scanning knows.
theorem Design.isKey_of_asks {t : Token} (hcore : IsCore t.core.toList) {target : Target}
    {key : String} (h : d.Asks t target key) : IsKey key.toList := by
  rcases h with ⟨r, hr, found, hvalue, hbracketed, hfound, -⟩
  have hstem := Grammar.isStem_of_utility? hd hfound
  rcases Token.of_mem_readings hr with ⟨hnone, -⟩ | ⟨key', hkey', -, heq, hends⟩
  · rw [hnone] at hvalue
    simp only [reduceCtorEq] at hvalue
  · rw [hvalue, Option.some.injEq] at hkey'
    subst hkey'
    rw [heq] at hcore
    exact (Token.isCore_append_iff hstem
      (Resolution.getLast?_ne_of_bracketed? hends hbracketed)).1 hcore

theorem Design.isCore_of_ofReading? {t : Token} (hspells : d.Spells t)
    (hblank : ∀ c ∈ t.core.toList, Text.isBlank c = false) {r : Token.Reading}
    (hr : r ∈ Token.readings t.core) {resolution : Resolution}
    (h : Resolution.ofReading? d.theme d.grammar t.negative r = some resolution) :
    IsCore t.core.toList := by
  rcases Resolution.source_of_ofReading? hr h with ⟨found, hfound, hwhole | hkeyed⟩
  · -- The core is the name of a utility.
    exact Token.isCore_of_isStem (hwhole ▸ Grammar.isStem_of_utility? hd hfound)
  · have hstem := Grammar.isStem_of_utility? hd hfound
    rcases hkeyed with ⟨key, target, value, hvalue, heq, hends, htarget, hsource⟩
    rw [heq]
    cases hsource with
    | bracketed inner v hbracketed hparse _ =>
        have hkey' := Resolution.eq_of_bracketed? hbracketed
        have hinner : ∀ c ∈ inner.toList, Text.isBlank c = false := by
          intro c hc
          refine hblank c ?_
          rw [heq, hkey']
          simp only [List.mem_append, List.mem_cons, hc, or_true, true_or]
        rcases ArbitraryValue.all_isInnerChar_of_parse? hparse hinner with ⟨hne, hall⟩
        rw [hkey']
        exact Token.isCore_bracket hstem hne hall
    | named value hbracketed hnamed =>
        have hasks : d.Asks t target key := ⟨r, hr, found, hvalue, hbracketed, hfound, htarget⟩
        have hlast := Resolution.getLast?_ne_of_bracketed? hends hbracketed
        refine (Token.isCore_append_iff hstem hlast).2 ?_
        -- The value is found under the key or computed from it.
        simp only [Resolution.valueOf?, Option.orElse_eq_orElse, Option.orElse_eq_or,
          ← Option.or_assoc] at hnamed
        rcases Option.or_eq_some_iff.1 hnamed with hlookup | ⟨-, hcomputed⟩
        · refine hspells.keys target key hasks ?_
          rw [Option.orElse_eq_orElse, Option.orElse_eq_or, hlookup]
          rfl
        · have hplus := hspells.numbers target key hasks (by rw [hcomputed]; rfl)
          exact Transform.isKey_of_valueFor? hcomputed hplus

/-- Scanning knows the parts of a token that resolves exactly if they are spelled as it
    knows them. -/
theorem Design.isSome_shape?_iff_spells {token : String} {t : Token}
    (ht : Token.parse? token = some t) (hblank : ∀ c ∈ token.toList, Text.isBlank c = false)
    {variants : List Variant}
    (hvariants : t.variants.mapM (Variant.ofName? d.theme d.grammar.darkMode) = some variants)
    {resolution : Resolution}
    (hcore : Resolution.ofCore? d.theme d.grammar t = some resolution) :
    (Token.shape? token.toList).isSome = true ↔ d.Spells t := by
  rw [Token.isSome_shape?_iff ht]
  constructor
  · rintro ⟨hgroups, hform⟩
    refine ⟨fun name hname _ => hgroups name hname, fun target key hasks _ => ?_,
      fun target key hasks _ => ?_⟩
    · exact isKey_of_asks hd hform hasks
    · exact Token.plus_not_mem_of_isKey (isKey_of_asks hd hform hasks)
  -- Groups are names of variants, and names of variants that are fixed are groups.
  · intro hspells
    refine ⟨fun name hname => ?_, ?_⟩
    · rcases exists_of_mapM_eq_some hvariants hname with ⟨v, hv⟩
      rcases Variant.isGroup_of_ofName? hv with hscreen | hgroup
      · exact hspells.screens name hname hscreen
      · exact hgroup
    · rcases Resolution.ofCore?_eq_some hcore with ⟨found, hfound, -⟩ | ⟨r, hr, hreading⟩
      · exact Token.isCore_of_isStem (Grammar.isStem_of_staticRule? hd hfound)
      · refine isCore_of_ofReading? hd hspells (fun c hc => hblank c ?_) hr hreading
        rw [← Token.text_of_parse? ht, Token.text]
        exact List.mem_append_right _ (List.mem_append_right _ hc)

end

namespace Design

/-- Of the words that resolve, scanning finds exactly those whose parts are spelled as it
    knows them, whatever the configuration and the token. The others are found nowhere.
    A word that is found is extracted from every text in which it stands between
    delimiters; if that text is part of the content, the build succeeds and has the
    word's rule in its stylesheet. -/
theorem isToken_iff_of_ruleOf? {config : Config} {d : Design} (hd : ofConfig config = .ok d)
    {token : String} {r : Rule} (hr : d.ruleOf? token = some r)
    (hbytes : token.utf8ByteSize ≤ Token.maxBytes)
    (hword : ∀ c ∈ token.toList, Extractor.isDelimiter c = false) :
    ∃ t, Token.parse? token = some t ∧ (Token.isToken token = true ↔ d.Spells t) ∧
      (¬d.Spells t → ∀ (e : Extractor) (text : String), token ∉ e.extract text) ∧
      (d.Spells t → ∀ (e : Extractor) (text : String), ∀ piece ∈ e.scanned text,
        Extractor.StandsIn token.toList piece → token ∈ e.extract text ∧
          ∀ (tree : FileTree) (root : String) (sel : Selection) (item : ContentItem),
            Content.resolve tree root config = .ok sel → item ∈ sel.items →
            item.extractor = e → item.read tree = .ok text →
            ∃ (build : Build) (sheet : Stylesheet), Build.run tree root config = .ok build ∧
              build.stylesheet = sheet.toText config.minify ∧ r ∈ sheet.rules) := by
  rcases Rule.ofToken?_eq_some_iff.1 hr with ⟨t, variants, resolution, ht, hvariants, hcore, -⟩
  have hblank : ∀ c ∈ token.toList, Text.isBlank c = false := by
    intro c hc
    exact (Bool.or_eq_false_iff.1 (hword c hc)).1
  have hshape := isSome_shape?_iff_spells (isNamed_of_ofConfig hd) ht hblank hvariants hcore
  have hiff : Token.isToken token = true ↔ d.Spells t := by
    rw [Token.isToken, decide_eq_true hbytes, Bool.true_and, hshape]
  refine ⟨t, ht, hiff, fun hspells e text hmem => ?_, fun hspells e text piece hpiece hstands => ?_⟩
  · exact hspells (hiff.1 (Extractor.isToken_of_mem_extract hmem))
  -- The word is scanned wherever it stands alone, and its rule is in the stylesheet then.
  · have hextract := Extractor.mem_extract_of_standsIn (hiff.2 hspells) hword hpiece hstands
    refine ⟨hextract, ?_⟩
    rintro tree root sel item hsel hitem rfl htext
    exact Build.exists_run hd (reachable_of_ofConfig hd) hsel
      (Selection.mem_scan hitem htext hextract) hr

/-- A configuration with a breakpoint and two distances of its own, and a page that uses
    them. -/
def withSideBar : Config :=
  { Config.default with
    content := [.raw "narrow:-mt-gutter -mt-sideBar" none]
    theme :=
      ⟨SortedMap.ofList [("screens", .mapping [(.text "narrow", .text "20rem")])],
        SortedMap.ofList [("spacing",
          .mapping [(.text "gutter", .text "3px"), (.text "sideBar", .text "16rem")])]⟩
    minify := true }

-- Both distances have classes, and so has a fraction with a plus sign.
theorem exists_ruleOf?_withSideBar :
    ∃ d r s f, ofConfig withSideBar = .ok d ∧
      d.ruleOf? "narrow:-mt-gutter" = some r ∧ r.declarations = [⟨"margin-top", "-3px"⟩] ∧
      d.ruleOf? "-mt-sideBar" = some s ∧ s.declarations = [⟨"margin-top", "-16rem"⟩] ∧
      d.ruleOf? "-top-+1/2" = some f ∧ f.declarations = [⟨"top", "-50%"⟩] := by
  have hrules : (ofConfig withSideBar).toOption.map (fun d =>
      ((d.ruleOf? "narrow:-mt-gutter").map Rule.declarations,
        (d.ruleOf? "-mt-sideBar").map Rule.declarations,
        (d.ruleOf? "-top-+1/2").map Rule.declarations))
      = some (some [⟨"margin-top", "-3px"⟩], some [⟨"margin-top", "-16rem"⟩],
          some [⟨"top", "-50%"⟩]) := by
    decide +kernel
  rcases Option.map_eq_some_iff.1 hrules with ⟨d, hd, hparts⟩
  simp only [Prod.mk.injEq, Option.map_eq_some_iff] at hparts
  rcases hparts with ⟨⟨r, hr, hr'⟩, ⟨s, hs, hs'⟩, f, hf, hf'⟩
  exact ⟨d, r, s, f, eq_ok_of_toOption hd, hr, hr', hs, hs', hf, hf'⟩

/-- The first distance is spelled as scanning knows it, and its class reaches the
    stylesheet from the page. -/
theorem isToken_iff_of_ruleOf?_gutter :
    ∃ (d : Design) (r : Rule) (t : Token) (build : Build) (sheet : Stylesheet),
      ofConfig withSideBar = .ok d ∧
      d.ruleOf? "narrow:-mt-gutter" = some r ∧ r.declarations = [⟨"margin-top", "-3px"⟩] ∧
      Token.parse? "narrow:-mt-gutter" = some t ∧ d.Spells t ∧
      Build.run ⟨.emptyDirectory, []⟩ "" withSideBar = .ok build ∧
      build.stylesheet = sheet.toText true ∧ r ∈ sheet.rules := by
  rcases exists_ruleOf?_withSideBar with ⟨d, r, -, -, hd, hr, hdeclarations, -⟩
  have htoken : Token.isToken "narrow:-mt-gutter" = true := by decide +kernel
  have hword : ∀ c ∈ "narrow:-mt-gutter".toList, Extractor.isDelimiter c = false :=
    Extractor.isDelimiter_eq_false_of_all (by decide +kernel)
  rcases isToken_iff_of_ruleOf? hd hr (by decide) hword with ⟨t, ht, hiff, -, hfound⟩
  -- The word stands at the start, and a blank is behind it.
  have hstands : Extractor.StandsIn "narrow:-mt-gutter".toList
      "narrow:-mt-gutter -mt-sideBar".toList := by
    refine ⟨[], " -mt-sideBar".toList, by decide, fun c hc => ?_, fun c hc => ?_⟩
    · simp only [List.getLast?_nil, reduceCtorEq] at hc
    · rw [← Option.some.inj hc]
      decide
  have hsel : Content.resolve ⟨.emptyDirectory, []⟩ "" withSideBar
      = .ok ⟨[⟨.text 0, 0⟩], ["narrow:-mt-gutter -mt-sideBar"], [.everywhere], [], []⟩ := rfl
  have hitem : ⟨.raw 1 "narrow:-mt-gutter -mt-sideBar", .everywhere⟩ ∈ Selection.items
      ⟨[⟨.text 0, 0⟩], ["narrow:-mt-gutter -mt-sideBar"], [.everywhere], [], []⟩ :=
    List.mem_cons_self
  rcases (hfound (hiff.1 htoken) .everywhere _ _ (List.mem_singleton_self _) hstands).2
    _ _ _ _ hsel hitem rfl rfl with ⟨build, sheet, hrun, hsheet, hmem⟩
  exact ⟨d, r, t, build, sheet, hd, hr, hdeclarations, ht, hiff.1 htoken, hrun, hsheet, hmem⟩

/-- Scanning does not find every class that resolves. The second distance is a key like
    the first, and its class is no token; nor is the fraction. -/
theorem exists_not_isToken :
    ∃ d r f, ofConfig withSideBar = .ok d ∧
      (d.ruleOf? "-mt-sideBar" = some r ∧ "-mt-sideBar".utf8ByteSize ≤ Token.maxBytes ∧
        (∀ c ∈ "-mt-sideBar".toList, Extractor.isDelimiter c = false) ∧
        Token.isToken "-mt-sideBar" = false) ∧
      d.ruleOf? "-top-+1/2" = some f ∧ "-top-+1/2".utf8ByteSize ≤ Token.maxBytes ∧
      (∀ c ∈ "-top-+1/2".toList, Extractor.isDelimiter c = false) ∧
      Token.isToken "-top-+1/2" = false := by
  rcases exists_ruleOf?_withSideBar with ⟨d, -, s, f, hd, -, -, hs, -, hf, -⟩
  have hdistance : ∀ c ∈ "-mt-sideBar".toList, Extractor.isDelimiter c = false :=
    Extractor.isDelimiter_eq_false_of_all (by decide +kernel)
  have hfraction : ∀ c ∈ "-top-+1/2".toList, Extractor.isDelimiter c = false :=
    Extractor.isDelimiter_eq_false_of_all (by decide +kernel)
  exact ⟨d, s, f, hd, ⟨hs, by decide, hdistance, by decide +kernel⟩, hf, by decide, hfraction,
    by decide +kernel⟩

end Design

end UtilityCss
