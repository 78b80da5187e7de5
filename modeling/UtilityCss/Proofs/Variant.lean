import UtilityCss.Variant

/-!
# What Variants Add to a Selector

Every text that a variant adds comes from a table of the program, whatever the
theme is: a theme only adds breakpoints, and a breakpoint leaves the selector
alone.

So the texts can be known once and for all. None holds a backslash, a brace or a
semicolon, and those that go behind the class start with a colon and hold no
point. `IsTame` collects this, and `isTame_of_ofName?` says that it holds of
every variant a name can stand for.

## Main definitions

* `Variant.isMarkup`: A character that variants may add.
* `Variant.isTail`: A text that may follow a class.
* `Variant.IsTame`: What a variant adds is such characters and such texts.
* `Variant.Known`: The variants that there are.

## Theorems

* `isTail_flatMap`: Texts that may follow a class may follow each other.
* `known_of_ofName?`: A name stands for one of the variants that there are.
* `rule_of_ofName?`: The at-rules of variants.
* `isTame_of_ofName?`: Every variant of a name is tame.
* `toList_selector`: The characters of a selector.
-/

namespace UtilityCss

namespace Variant

/-- The character is no backslash and ends no block. -/
def isMarkup (c : Char) : Bool := c ≠ '\\' && c ≠ '{' && c ≠ '}' && c ≠ ';'

/-- The text may follow a class: it is empty, or it starts with a colon and
    starts no other class. -/
def isTail (cs : List Char) : Bool :=
  (cs.isEmpty || cs.head? = some ':') && cs.all fun c => isMarkup c && c ≠ '.'

/-- What the variant adds to a selector can be told from the class. -/
structure IsTame (v : Variant) : Prop where
  before : v.before.toList.all isMarkup = true
  classPart : isTail v.classPart.toList = true
  elementPart : isTail v.elementPart.toList = true

/-- Texts that may follow a class may follow each other. -/
theorem isTail_append {cs ds : List Char} (hc : isTail cs = true) (hd : isTail ds = true) :
    isTail (cs ++ ds) = true := by
  cases cs with
  | nil => exact hd
  | cons c cs =>
      -- The first text decides how the whole starts.
      simp only [isTail, Bool.and_eq_true] at hc hd ⊢
      refine ⟨hc.1, ?_⟩
      rw [List.all_append, hc.2, hd.2]
      rfl

theorem isTail_flatMap {α : Type} {f : α → List Char} {as : List α}
    (h : ∀ a ∈ as, isTail (f a) = true) : isTail (as.flatMap f) = true := by
  induction as with
  | nil => rfl
  | cons a as ih =>
      rw [List.flatMap_cons]
      exact isTail_append (h a List.mem_cons_self)
        (ih fun b hb => h b (List.mem_cons_of_mem _ hb))

theorem mem_of_lookup {table : List (String × String)} {name text : String}
    (h : table.lookup name = some text) : (name, text) ∈ table := by
  rcases List.lookup_eq_some_iff.1 h with ⟨before, after, heq, -⟩
  exact heq ▸ List.mem_append_right _ List.mem_cons_self

theorem isTame_atRule (rule : String) (rank : Nat) : IsTame (.atRule rule rank) := by
  constructor <;> rfl

theorem isTame_pseudoClass {text : String} (h : isTail text.toList = true) :
    IsTame (.pseudoClass text) := ⟨rfl, h, rfl⟩

theorem isTame_pseudoElement {text : String} (h : isTail text.toList = true) :
    IsTame (.pseudoElement text) := ⟨rfl, rfl, h⟩

theorem isTame_relative {text : String} (h : text.toList.all isMarkup = true) :
    IsTame (.relative text) := ⟨h, rfl, rfl⟩

theorem isTail_pseudoClasses : ∀ p ∈ pseudoClasses, isTail p.2.toList = true := by
  decide +kernel

theorem isTail_pseudoElements : ∀ p ∈ pseudoElements, isTail p.2.toList = true := by
  decide +kernel

/-- Media features are at-rules of the table, ranked by their places. -/
theorem ofMediaFeature?_eq_some {name : String} {table : List (String × String)} {rank : Nat}
    {v : Variant} (h : ofMediaFeature? name rank table = some v) :
    ∃ i rule, table[i]? = some (name, rule) ∧ v = .atRule rule (rank + i) := by
  -- The rank is generalized, because it counts the entries that were passed.
  induction table generalizing rank with
  | nil => simp only [ofMediaFeature?, reduceCtorEq] at h
  | cons p table ih =>
      rw [ofMediaFeature?] at h
      split at h
      · next hname =>
          refine ⟨0, p.2, ?_, (Option.some.inj h).symm⟩
          rw [List.getElem?_cons_zero, ← hname]
      · rcases ih h with ⟨i, rule, hi, rfl⟩
        refine ⟨i + 1, rule, hi, ?_⟩
        rw [Nat.add_assoc, Nat.add_comm 1 i]

/-- The variants that there are, whatever their names: the breakpoints of a theme, `dark`,
    and what the tables of the program hold. -/
inductive Known (theme : Theme) (mode : DarkMode) : Variant → Prop where
  /-- A breakpoint. -/
  | screen {name : String} {s : Screen} (h : theme.screen? name = some s) :
    Known theme mode (ofScreen s)
  /-- The dark mode. -/
  | dark : Known theme mode (dark mode)
  /-- A media feature. -/
  | media {p : String × String} (h : p ∈ mediaFeatures) (rank : Nat) :
    Known theme mode (.atRule p.2 rank)
  /-- A pseudo-class. -/
  | pseudoClass {p : String × String} (h : p ∈ pseudoClasses) : Known theme mode (.pseudoClass p.2)
  /-- A pseudo-element. -/
  | pseudoElement {p : String × String} (h : p ∈ pseudoElements) :
    Known theme mode (.pseudoElement p.2)
  /-- A state of a group around the element. -/
  | group {p : String × String} (h : p ∈ pseudoClasses) :
    Known theme mode (.relative (".group" ++ p.2 ++ " "))
  /-- A state of an element before it. -/
  | peer {p : String × String} (h : p ∈ pseudoClasses) :
    Known theme mode (.relative (".peer" ++ p.2 ++ " ~ "))

theorem ofRelative?_eq_some {stem before after name : String} {v : Variant}
    (h : ofRelative? stem before after name = some v) :
    ∃ p ∈ pseudoClasses, v = .relative (before ++ p.2 ++ after) := by
  unfold ofRelative? at h
  split at h
  · simp only [reduceCtorEq] at h
  · rcases Option.map_eq_some_iff.1 h with ⟨pseudo, hp, rfl⟩
    exact ⟨_, mem_of_lookup hp, rfl⟩

/-- A name stands for one of the variants that there are. -/
theorem known_of_ofName? {theme : Theme} {mode : DarkMode} {name : String} {v : Variant}
    (h : ofName? theme mode name = some v) : Known theme mode v := by
  unfold ofName? at h
  split at h
  · next s hs =>
      rw [← Option.some.inj h]
      exact Known.screen hs
  · split at h
    · rw [← Option.some.inj h]
      exact Known.dark
    · simp only [fixed?, Option.orElse_eq_orElse, Option.orElse_eq_or,
        Option.or_eq_some_iff] at h
      rcases h with h | ⟨-, h | ⟨-, h | ⟨-, h | ⟨-, h⟩⟩⟩⟩
      -- Media features, pseudo-classes, pseudo-elements, groups and peers.
      · rcases ofMediaFeature?_eq_some h with ⟨i, rule, hi, rfl⟩
        exact Known.media (List.mem_of_getElem? hi) _
      · rcases Option.map_eq_some_iff.1 h with ⟨text, ht, rfl⟩
        exact Known.pseudoClass (mem_of_lookup ht)
      · rcases Option.map_eq_some_iff.1 h with ⟨text, ht, rfl⟩
        exact Known.pseudoElement (mem_of_lookup ht)
      · rcases ofRelative?_eq_some h with ⟨p, hp, rfl⟩
        exact Known.group hp
      · rcases ofRelative?_eq_some h with ⟨p, hp, rfl⟩
        exact Known.peer hp

/-- The at-rule of a variant gives the width of a breakpoint, or it is a fixed one. -/
theorem rule_of_ofName? {theme : Theme} {mode : DarkMode} {name : String} {v : Variant}
    (h : ofName? theme mode name = some v) {rule : String} {rank : Nat}
    (hv : v.atRule? = some (rule, rank)) :
    (∃ name s, theme.screen? name = some s ∧
        rule = "@media (min-width: " ++ s.minWidth ++ ")") ∨
      rule = "@media (prefers-color-scheme: dark)" ∨ ∃ p ∈ mediaFeatures, rule = p.2 := by
  cases known_of_ofName? h with
  | screen hs => exact Or.inl ⟨_, _, hs, (Prod.mk.inj (Option.some.inj hv)).1.symm⟩
  | dark =>
      cases mode with
      | media => exact Or.inr (Or.inl (Prod.mk.inj (Option.some.inj hv)).1.symm)
      | byClass => simp only [dark, atRule?, reduceCtorEq] at hv
  | media hp rank => exact Or.inr (Or.inr ⟨_, hp, (Prod.mk.inj (Option.some.inj hv)).1.symm⟩)
  -- The other four kinds change the selector.
  | pseudoClass | pseudoElement | group | peer => simp only [atRule?, reduceCtorEq] at hv

theorem isTame_between {before pseudo after : String} (hb : before.toList.all isMarkup = true)
    (hp : isTail pseudo.toList = true) (ha : after.toList.all isMarkup = true) :
    IsTame (.relative (before ++ pseudo ++ after)) := by
  have hmarkup : pseudo.toList.all isMarkup = true := by
    simp only [isTail, Bool.and_eq_true, List.all_eq_true] at hp ⊢
    exact fun c hc => (hp.2 c hc).1
  refine isTame_relative ?_
  rw [String.toList_append, String.toList_append, List.all_append, List.all_append, hb,
    hmarkup, ha]
  rfl

/-- Every variant of a name is tame, whatever the theme. -/
theorem isTame_of_ofName? {theme : Theme} {mode : DarkMode} {name : String} {v : Variant}
    (h : ofName? theme mode name = some v) : IsTame v := by
  cases known_of_ofName? h with
  | screen => exact isTame_atRule _ _
  | dark =>
      cases mode with
      | media => exact isTame_atRule _ _
      | byClass => exact isTame_relative (by decide)
  | media => exact isTame_atRule _ _
  | pseudoClass hp => exact isTame_pseudoClass (isTail_pseudoClasses _ hp)
  | pseudoElement hp => exact isTame_pseudoElement (isTail_pseudoElements _ hp)
  | group hp => exact isTame_between (by decide) (isTail_pseudoClasses _ hp) (by decide)
  | peer hp => exact isTame_between (by decide) (isTail_pseudoClasses _ hp) (by decide)

/-- The characters of a selector: what goes in front, the class, and what
    follows it. -/
theorem toList_selector (classSelector : String) (variants : List Variant) :
    (selector classSelector variants).toList
      = variants.flatMap (fun v => v.before.toList) ++ (classSelector.toList
        ++ (variants.flatMap (fun v => v.classPart.toList)
          ++ variants.flatMap fun v => v.elementPart.toList)) := by
  simp only [selector, String.toList_append, String.toList_join, List.flatMap_map,
    List.append_assoc]

end Variant

end UtilityCss
