import UtilityCss.Proofs.Containment.Plugin
import UtilityCss.Proofs.Selector

/-!
# Contained Rules

No token and no configuration can end a block of the stylesheet early.

A rule consists of a selector, declarations and at-rules. The texts of its
declarations come from the grammar, from the theme, from brackets, or out of a
computation on one of these; the texts of its at-rules come from tables or from
the widths of breakpoints. Each of them is contained in a contained design, and
the design of every configuration is contained. Only the selector holds text of
the token itself, which may be any text at all; there, what would end a block
stands behind a backslash.

## Main definitions

* `Rule.IsContained`: No text of the rule ends a block early.

## Theorems

* `isContained_of_source`: The values that a target writes are contained.
* `isContained_of_ofCore?`: A core resolves to contained declarations.
* `isContained_of_ofName?`: The at-rules of variants are contained.
* `isContained_of_ofToken?`: A contained design yields contained rules.
* `isContained_of_ruleOf?`: So does every configuration.
-/

namespace UtilityCss

namespace Resolution

variable {theme : Theme} {g : Grammar}

theorem isContained_of_source (htheme : theme.IsContained) {t : Target} (ht : t.IsContained)
    {key value : String} (h : Source theme t key value) : Text.IsContained value := by
  cases h with
  | bracketed inner v _ hv _ => exact ArbitraryValue.isContained_of_parse? hv
  | named value _ hv =>
      simp only [valueOf?, Option.orElse_eq_orElse, Option.orElse_eq_or,
        Option.or_eq_some_iff] at hv
      -- The value is in the theme, in the target, or computed from the key.
      rcases hv with hv | ⟨-, hv | ⟨-, hv⟩⟩
      · exact Theme.isContained_of_lookup? htheme hv
      · exact SortedMap.All.get? ht.values hv
      · exact Transform.isContained_of_valueFor? hv

theorem isContained_of_signed? {negative : Bool} {value final : String}
    (h : signed? negative value = some final) (hvalue : Text.IsContained value) :
    Text.IsContained final := by
  cases negative with
  | true => exact Value.isContained_of_negate? h hvalue
  | false => exact Option.some.inj h ▸ hvalue

/-- A core resolves to contained declarations, as a static rule or by a
    utility. -/
theorem isContained_of_ofCore? (htheme : theme.IsContained) (hg : g.IsContained) {t : Token}
    {resolution : Resolution} (h : ofCore? theme g t = some resolution) :
    ∀ d ∈ resolution.declarations, d.IsContained := by
  rcases ofCore?_eq_some h with ⟨found, hfound, rfl⟩ | ⟨r, -, hr⟩
  · exact Grammar.isContained_of_staticRule? hg hfound
  · rcases ofReading?_eq_some hr with ⟨found, key, declarations, hfound, -, -, hkey, rfl⟩
    rcases ofKey?_eq_some hkey with ⟨target, hmem, value, final, hsource, hsigned, rfl⟩
    have htarget := Grammar.isContained_of_utility? hg hfound target hmem
    have hvalue := isContained_of_source htheme htarget hsource
    exact Target.isContained_declarations htarget (isContained_of_signed? hsigned hvalue)

end Resolution

theorem Declaration.isContained_mark {d : Declaration} (h : d.IsContained)
    (important : Bool) : (d.mark important).IsContained := by
  cases important with
  | false => exact h
  | true =>
      have hmark : Text.IsContained " !important" := by decide
      exact ⟨h.property, Text.isContained_append h.value hmark⟩

namespace Variant

theorem isContained_mediaFeatures : ∀ p ∈ mediaFeatures, Text.IsContained p.2 := by
  decide +kernel

/-- The at-rules of variants are contained: breakpoints have widths of the theme,
    and the others stand in tables. -/
theorem isContained_of_ofName? {theme : Theme} (htheme : theme.IsContained) {mode : DarkMode}
    {name : String} {v : Variant} (h : ofName? theme mode name = some v) {rule : String}
    {rank : Nat} (hv : v.atRule? = some (rule, rank)) : Text.IsContained rule := by
  rcases rule_of_ofName? h hv with ⟨_, s, hs, rfl⟩ | rfl | ⟨p, hp, rfl⟩
  · -- The width stands between two fixed words.
    have hwidth := Theme.isContained_of_screen? htheme hs
    refine Text.isContained_append (Text.isContained_append ?_ hwidth) ?_ <;> decide
  · decide
  · exact isContained_mediaFeatures p hp

end Variant

/-- No text of the rule ends a block early. A selector may hold the characters
    that do behind backslashes only, so none of them is a unit of its own. -/
structure Rule.IsContained (r : Rule) : Prop where
  declarations : ∀ d ∈ r.declarations, d.IsContained
  atRules : ∀ rule ∈ r.atRules, Text.IsContained rule
  selector : ∀ c ∈ Text.blockMarks, [c] ∉ Selector.units r.selector.toList

/-- A contained design yields contained rules. -/
theorem Rule.isContained_of_ofToken? {theme : Theme} {g : Grammar} (htheme : theme.IsContained)
    (hg : g.IsContained) {token : String} {r : Rule}
    (h : Rule.ofToken? theme g token = some r) : r.IsContained := by
  rcases Rule.ofToken?_eq_some_iff.1 h with ⟨t, variants, resolution, -, hvariants, hcore, hr⟩
  constructor
  · intro d hd
    rw [← hr] at hd
    rcases List.mem_map.1 hd with ⟨d', hd', rfl⟩
    have hcontained := Resolution.isContained_of_ofCore? htheme hg hcore d' hd'
    exact Declaration.isContained_mark hcontained t.important
  · intro rule hrule
    rw [← hr] at hrule
    rcases List.mem_map.1 hrule with ⟨⟨text, rank⟩, hmem, rfl⟩
    rcases List.mem_filterMap.1 hmem with ⟨v, hv, hatRule⟩
    rcases mem_of_mapM_eq_some hvariants hv with ⟨name, -, hname⟩
    exact Variant.isContained_of_ofName? htheme hname hatRule
  -- What stands bare in the selector is markup, and marks of blocks are not.
  · intro c hc hmem
    have hbare := Selector.isMarkup_of_mem_units h hmem
    exact Text.not_mem_of_all_not (by decide) hbare hc

namespace Design

/-- Whatever the configuration and the token: every property has the form of
    one, no value and no at-rule holds a brace or a semicolon, and in the selector
    every such character stands behind the backslash that escapes it. -/
theorem isContained_of_ruleOf? {config : Config} {d : Design} (h : ofConfig config = .ok d)
    {token : String} {r : Rule} (hr : d.ruleOf? token = some r) :
    (∀ e ∈ r.declarations, PluginName.IsPropertyForm e.property.toList ∧
        Text.IsContained e.value) ∧
      (∀ rule ∈ r.atRules, Text.IsContained rule) ∧
      ∀ c ∈ Text.blockMarks, [c] ∉ Selector.units r.selector.toList := by
  have hd := isContained_of_ofConfig h
  have hrule := Rule.isContained_of_ofToken? hd.theme hd.grammar hr
  refine ⟨?_, hrule.atRules, hrule.selector⟩
  intro e he
  have hcontained := hrule.declarations e he
  exact ⟨PluginName.isPropertyForm_of_isProperty hcontained.property, hcontained.value⟩

/-- A configuration with a breakpoint of its own and a distance that a plugin
    writes. -/
def narrow : Config :=
  { Config.default with
    theme :=
      ⟨SortedMap.ofList [("screens", .mapping [(.text "narrow", .text "20rem")])],
        SortedMap.empty⟩
    plugins := [.inline "distances" (.theme [.set "spacing" "sm" "3px"])] }

/-- The rule of a negated distance behind the breakpoint is contained. -/
theorem isContained_of_ruleOf?_narrow :
    ∃ d r, ofConfig narrow = .ok d ∧ d.ruleOf? "narrow:-mt-sm" = some r ∧
      r.declarations = [⟨"margin-top", "-3px"⟩] ∧
      r.atRules = ["@media (min-width: 20rem)"] ∧
      (∀ e ∈ r.declarations, PluginName.IsPropertyForm e.property.toList ∧
        Text.IsContained e.value) ∧
      (∀ rule ∈ r.atRules, Text.IsContained rule) ∧
      ∀ c ∈ Text.blockMarks, [c] ∉ Selector.units r.selector.toList := by
  have hrule : ((ofConfig narrow).toOption.bind fun d => d.ruleOf? "narrow:-mt-sm").map
      (fun r => (r.declarations, r.atRules)) =
        some ([⟨"margin-top", "-3px"⟩], ["@media (min-width: 20rem)"]) := by
    decide +kernel
  rcases Option.map_eq_some_iff.1 hrule with ⟨r, hr, hparts⟩
  rcases Option.bind_eq_some_iff.1 hr with ⟨d, hd, hr⟩
  have hok : ofConfig narrow = .ok d := eq_ok_of_toOption hd
  have hcontained := isContained_of_ruleOf? hok hr
  exact ⟨d, r, hok, hr, (Prod.mk.inj hparts).1, (Prod.mk.inj hparts).2, hcontained⟩

end Design

end UtilityCss
