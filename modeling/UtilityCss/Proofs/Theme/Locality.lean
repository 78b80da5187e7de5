import UtilityCss.Proofs.Resolution
import UtilityCss.Proofs.Theme.Breakpoints
import UtilityCss.Theme.Default
import UtilityCss.Grammar.Default

/-!
# Locality of Theme Changes

Which class tokens a change of the theme can have an effect on.

A token asks a theme for two things. Its variants are looked up among the breakpoints, which
the theme keeps beside the axes, and its key is looked up in the axes of the targets, one
target after the other until there is a value. A change of an axis can reach either, and a
value that appears or goes away can move the search on to another target or another reading.

But every look-up names its axis. An axis that no target of a reading names is never asked,
however the search goes, and the breakpoints change with their own axis only. So a change
matters at most to the tokens with variants, if it is made to the axis of breakpoints, and to
the tokens whose utilities name its axis. Nothing is assumed of the theme or the grammar.

## Main definitions

* `Theme.Change.axis`: The axis that a change is made to.
* `Theme.Change.Concerns`: A change may matter to a token.

## Theorems

* `axis?_changeAll`: Changes leave the other axes alone.
* `ofName?_changeAll`: They leave variants alone, unless the breakpoints change.
* `ofCore?_changeAll`: Changes that do not concern a token leave its resolution alone.
* `ofToken?_changeAll`: They leave its rule alone.
-/

namespace UtilityCss

namespace Theme

/-- The axis that a change is made to. -/
def Change.axis : Change → String
  | .setAxis axis _ => axis
  | .extendAxis axis _ => axis
  | .insert axis _ _ => axis

/-- A change may matter to a token: it is made to the breakpoints and the token has variants,
    or a target that a reading of the core leads to names its axis. -/
def Change.Concerns (g : Grammar) (t : Token) (c : Change) : Prop :=
  c.axis = screensAxis ∧ t.variants ≠ [] ∨
    ∃ r ∈ Token.readings t.core, ∃ found ∈ g.utility? r.stem,
      ∃ target ∈ found.item.targets, c.axis ∈ target.axes

instance (g : Grammar) (t : Token) : DecidablePred (Change.Concerns g t) := fun c =>
  inferInstanceAs <| Decidable <| c.axis = screensAxis ∧ t.variants ≠ [] ∨
    ∃ r ∈ Token.readings t.core, ∃ found ∈ g.utility? r.stem,
      ∃ target ∈ found.item.targets, c.axis ∈ target.axes

theorem exists_setAxis_of_change (t : Theme) (c : Change) :
    ∃ scale, t.change c = t.setAxis c.axis scale := by
  cases c with
  | setAxis axis scale => exact ⟨scale, rfl⟩
  | extendAxis axis scale => exact ⟨_, rfl⟩
  | insert axis key value => exact ⟨_, rfl⟩

variable {changes : List Change}

/-- Changes leave the other axes alone. -/
theorem axis?_changeAll (t : Theme) {axis : String} (h : ∀ c ∈ changes, c.axis ≠ axis) :
    (t.changeAll changes).axis? axis = t.axis? axis := by
  induction changes generalizing t with
  | nil => rfl
  | cons c changes ih =>
      rcases List.forall_mem_cons.1 h with ⟨hc, hchanges⟩
      rcases exists_setAxis_of_change t c with ⟨scale, hscale⟩
      have hfirst : (t.change c).axis? axis = t.axis? axis := by
        rw [hscale, axis?_setAxis, if_neg hc]
      rw [changeAll, List.foldl_cons, ← changeAll, ih _ hchanges, hfirst]

theorem get?_changeAll_of_ne (t : Theme) {axis : String} (h : ∀ c ∈ changes, c.axis ≠ axis)
    (key : String) : (t.changeAll changes).get? axis key = t.get? axis key := by
  unfold get?
  rw [axis?_changeAll t h]

theorem lookup?_changeAll (t : Theme) {axes : List String}
    (h : ∀ c ∈ changes, c.axis ∉ axes) (key : String) :
    (t.changeAll changes).lookup? axes key = t.lookup? axes key := by
  refine findSome?_congr fun axis haxis => ?_
  have hothers : ∀ c ∈ changes, c.axis ≠ axis := by
    intro c hc heq
    exact h c hc (heq ▸ haxis)
  exact get?_changeAll_of_ne t hothers key

theorem screens_changeAll (t : Theme) (h : ∀ c ∈ changes, c.axis ≠ screensAxis) :
    (t.changeAll changes).screens = t.screens := by
  rw [screens_eq_ranked, screens_eq_ranked, axis?_changeAll t h]

end Theme

namespace Variant

open Theme

/-- Changes leave variants alone, unless the breakpoints change. -/
theorem ofName?_changeAll (theme : Theme) {changes : List Change}
    (h : ∀ c ∈ changes, c.axis ≠ screensAxis) (mode : DarkMode) (name : String) :
    ofName? (theme.changeAll changes) mode name = ofName? theme mode name := by
  unfold ofName? Theme.screen?
  rw [screens_changeAll theme h]

end Variant

namespace Resolution

open Theme

variable {theme : Theme} {changes : List Change}

theorem ofTarget?_changeAll {target : Target} (h : ∀ c ∈ changes, c.axis ∉ target.axes)
    (negative : Bool) (key : String) :
    ofTarget? (theme.changeAll changes) negative key target
      = ofTarget? theme negative key target := by
  unfold ofTarget? valueOf?
  rw [lookup?_changeAll theme h]

theorem ofKey?_changeAll {targets : List Target}
    (h : ∀ c ∈ changes, ∀ target ∈ targets, c.axis ∉ target.axes) (negative : Bool)
    (key : String) :
    ofKey? (theme.changeAll changes) targets negative key
      = ofKey? theme targets negative key := by
  unfold ofKey?
  cases bracketed? key with
  -- A bracketed value asks the targets, but none of their axes.
  | some inner => rfl
  | none =>
      refine findSome?_congr fun target htarget => ?_
      have haxes : ∀ c ∈ changes, c.axis ∉ target.axes := fun c hc => h c hc target htarget
      exact ofTarget?_changeAll haxes negative key

variable {g : Grammar} {t : Token}

theorem ofReading?_changeAll (h : ∀ c ∈ changes, ¬ c.Concerns g t) {r : Token.Reading}
    (hr : r ∈ Token.readings t.core) :
    ofReading? (theme.changeAll changes) g t.negative r
      = ofReading? theme g t.negative r := by
  unfold ofReading?
  cases hfound : g.utility? r.stem with
  | none => rfl
  | some found =>
      -- A change of an axis that a target looks at would concern the token.
      have htargets : ∀ c ∈ changes, ∀ target ∈ found.item.targets, c.axis ∉ target.axes := by
        intro c hc target htarget haxis
        exact h c hc (Or.inr ⟨r, hr, found, hfound, target, htarget, haxis⟩)
      cases keyOf? r.value with
      | none => rfl
      | some key =>
          dsimp only
          rw [ofKey?_changeAll htargets]

/-- Changes that do not concern a token leave the resolution of its core alone. -/
theorem ofCore?_changeAll (h : ∀ c ∈ changes, ¬ c.Concerns g t) :
    ofCore? (theme.changeAll changes) g t = ofCore? theme g t := by
  have hreadings : ∀ r ∈ Token.readings t.core,
      ofReading? (theme.changeAll changes) g t.negative r = ofReading? theme g t.negative r := by
    intro r hr
    exact ofReading?_changeAll h hr
  exact ofCore?_congr (fun _ => rfl) hreadings

end Resolution

namespace Rule

open Theme

/-- Changes that do not concern a token leave its rule alone, or leave it without one. -/
theorem ofToken?_changeAll (theme : Theme) (g : Grammar) {changes : List Change} {token : String}
    (h : ∀ t, Token.parse? token = some t → ∀ c ∈ changes, ¬ c.Concerns g t) :
    ofToken? (theme.changeAll changes) g token = ofToken? theme g token := by
  unfold ofToken?
  cases htoken : Token.parse? token with
  | none => rfl
  | some t =>
      have hconcerns := h t htoken
      have hvariants : t.variants.mapM (Variant.ofName? (theme.changeAll changes) g.darkMode)
          = t.variants.mapM (Variant.ofName? theme g.darkMode) := by
        -- Without variants no breakpoint is looked up, and with some no change is about
        -- breakpoints.
        by_cases hempty : t.variants = []
        · rw [hempty]
          rfl
        · have hscreens : ∀ c ∈ changes, c.axis ≠ screensAxis := by
            intro c hc haxis
            exact hconcerns c hc (Or.inl ⟨haxis, hempty⟩)
          have hnames : Variant.ofName? (theme.changeAll changes) g.darkMode
              = Variant.ofName? theme g.darkMode := by
            funext name
            exact Variant.ofName?_changeAll theme hscreens g.darkMode name
          rw [hnames]
      dsimp only
      rw [hvariants, Resolution.ofCore?_changeAll hconcerns]

/-- A margin keeps its rule when the axes of colors and offsets change, also behind a variant.
    Without a variant it keeps it when a breakpoint is added, too. -/
theorem ofToken?_changeAll_margin :
    ofToken? (Theme.default.changeAll
        [.setAxis "inset" SortedMap.empty, .insert "colors" "4" "#f00"]) Grammar.default
        "hover:-mt-4"
      = ofToken? Theme.default Grammar.default "hover:-mt-4" ∧
    ofToken? (Theme.default.changeAll [.insert "screens" "hover" "1px"]) Grammar.default "-mt-4"
      = ofToken? Theme.default Grammar.default "-mt-4" ∧
    (ofToken? Theme.default Grammar.default "-mt-4").map Rule.declarations
      = some [⟨"margin-top", "-1rem"⟩] := by
  have hvariant : Token.parse? "hover:-mt-4" = some ⟨["hover"], false, true, "mt-4"⟩ := by
    decide +kernel
  have hplain : Token.parse? "-mt-4" = some ⟨[], false, true, "mt-4"⟩ := by decide +kernel
  refine ⟨ofToken?_changeAll _ _ fun t ht => ?_, ofToken?_changeAll _ _ fun t ht => ?_,
    by decide +kernel⟩
  · rw [← Option.some.inj (hvariant.symm.trans ht)]
    decide +kernel
  · rw [← Option.some.inj (hplain.symm.trans ht)]
    decide +kernel

end Rule

end UtilityCss
