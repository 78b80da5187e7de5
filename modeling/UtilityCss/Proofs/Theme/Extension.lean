import UtilityCss.Grammar.Default
import UtilityCss.Proofs.Resolution.Factors
import UtilityCss.Proofs.Theme.Breakpoints

/-!
# Extended Themes

A theme that is only added to keeps the classes that it has.

A class need not keep its value: a key written into a theme can move the search for it to
another axis, to a target asked earlier, to a reading with a longer stem, and a new
breakpoint takes the place of a variant of its name. What matters is that nothing that was
found is lost. Every look-up on the way of a token is a search that stops at the first
answer, and such a search has an answer exactly if one of the places asked has one. So it is
enough that each place keeps having an answer, whichever it is, and that goes up from the
keys of the theme to the rule one look-up at a time.

The look-up of a variant is no exception: a breakpoint shadows a variant only by giving one
itself.

Negation is one. A value may have no opposite, and the first target with a value decides, so
writing `auto` under a key takes its negated classes away. Replacing an axis is another,
since it may drop keys.

## Main definitions

* `Theme.Change.IsExtension`: A change that drops no key.
* `Theme.Within`: Every key of a theme is one of another.

## Theorems

* `Theme.within_changeAll`: Extensions keep every key.
* `Variant.isSome_ofName?_mono`: A variant of a theme is one of the theme with more keys.
* `Resolution.isSome_ofCore?_mono`: So is a core that resolves.
* `Rule.isSome_ofToken?_changeAll`: Extensions keep every class that is not negated.
-/

namespace UtilityCss

-- A search that asks more places, or places that know more, still has an answer.
theorem isSome_findSome?_mono {α β γ : Type} {f : α → Option β} {f' : α → Option γ}
    {as : List α} (h : ∀ a ∈ as, (f a).isSome = true → (f' a).isSome = true)
    (hsome : (as.findSome? f).isSome = true) : (as.findSome? f').isSome = true := by
  rw [List.findSome?_isSome_iff] at hsome ⊢
  rcases hsome with ⟨a, ha, hfound⟩
  exact ⟨a, ha, h a ha hfound⟩

namespace Theme

/-- A change that writes keys and drops none. -/
def Change.IsExtension : Change → Prop
  | .setAxis _ _ => False
  | .extendAxis _ _ => True
  | .insert _ _ _ => True

instance : DecidablePred Change.IsExtension
  | .setAxis _ _ => inferInstanceAs (Decidable False)
  | .extendAxis _ _ => inferInstanceAs (Decidable True)
  | .insert _ _ _ => inferInstanceAs (Decidable True)

/-- Every key of the first theme is a key of the second one, in the same axis. Its value
    may be another one. -/
def Within (t t' : Theme) : Prop :=
  ∀ axis key, (t.get? axis key).isSome = true → (t'.get? axis key).isSome = true

theorem Within.refl (t : Theme) : t.Within t := fun _ _ h => h

theorem Within.trans {t₁ t₂ t₃ : Theme} (h : t₁.Within t₂) (h' : t₂.Within t₃) :
    t₁.Within t₃ := fun axis key hkey => h' axis key (h axis key hkey)

-- What an extension writes is a value.
theorem Change.IsExtension.isSome_of_written? {c : Change} (h : c.IsExtension)
    {axis key : String} {value : Option String} (hwritten : c.written? axis key = some value) :
    value.isSome = true := by
  cases c with
  | setAxis changed scale => exact h.elim
  | extendAxis changed scale =>
      rw [written?, Option.ite_none_right_eq_some] at hwritten
      rcases Option.map_eq_some_iff.1 hwritten.2 with ⟨found, -, rfl⟩
      rfl
  | insert changed name value =>
      rw [written?, Option.ite_none_right_eq_some] at hwritten
      rw [← Option.some.inj hwritten.2]
      rfl

/-- One extension keeps every key. -/
theorem within_change (t : Theme) {c : Change} (h : c.IsExtension) : t.Within (t.change c) := by
  intro axis key hkey
  rw [get?_change]
  rcases hwritten : c.written? axis key with _ | value
  · exact hkey
  · exact h.isSome_of_written? hwritten

/-- Extensions keep every key. -/
theorem within_changeAll (t : Theme) {changes : List Change}
    (h : ∀ c ∈ changes, c.IsExtension) : t.Within (t.changeAll changes) := by
  induction changes generalizing t with
  | nil => exact Within.refl t
  | cons c changes ih =>
      rcases List.forall_mem_cons.1 h with ⟨hc, hchanges⟩
      exact (within_change t hc).trans (ih (t.change c) hchanges)

variable {t t' : Theme}

theorem Within.isSome_lookup? (h : t.Within t') {axes : List String} {key : String}
    (hkey : (t.lookup? axes key).isSome = true) : (t'.lookup? axes key).isSome = true :=
  isSome_findSome?_mono (fun axis _ hfound => h axis key hfound) hkey

theorem Within.isSome_screen? (h : t.Within t') {name : String}
    (hname : (t.screen? name).isSome = true) : (t'.screen? name).isSome = true := by
  rw [Theme.isSome_screen?] at hname ⊢
  exact h screensAxis name hname

end Theme

section

variable {theme theme' : Theme}

namespace Variant

theorem isSome_ofName?_iff (mode : DarkMode) (name : String) :
    (ofName? theme mode name).isSome = true ↔
      (theme.screen? name).isSome = true ∨ name = "dark" ∨ (fixed? name).isSome = true := by
  unfold ofName?
  cases hscreen : theme.screen? name with
  | some s => simp only [Option.isSome_some, true_or]
  | none =>
      by_cases hdark : name = "dark"
      · simp only [hdark, if_true, Option.isSome_some, true_or, or_true]
      · simp only [hdark, if_false, Option.isSome_none, Bool.false_eq_true, false_or]

/-- A variant of a theme is one of every theme with more keys, if perhaps another one. -/
theorem isSome_ofName?_mono (h : theme.Within theme') {mode : DarkMode} {name : String}
    (hname : (ofName? theme mode name).isSome = true) :
    (ofName? theme' mode name).isSome = true := by
  rw [isSome_ofName?_iff] at hname ⊢
  exact hname.imp_left h.isSome_screen?

end Variant

namespace Resolution

theorem isSome_valueOf?_mono (h : theme.Within theme') {t : Target} {key : String}
    (hvalue : (valueOf? theme t key).isSome = true) : (valueOf? theme' t key).isSome = true := by
  unfold valueOf? at hvalue ⊢
  simp only [Option.orElse_eq_orElse, Option.orElse_eq_or, Option.isSome_or,
    Bool.or_eq_true] at hvalue ⊢
  exact hvalue.imp_left h.isSome_lookup?

-- Without negation, a target with a value has declarations.
theorem isSome_ofTarget? (key : String) (t : Target) :
    (ofTarget? theme false key t).isSome = (valueOf? theme t key).isSome := by
  unfold ofTarget?
  cases valueOf? theme t key <;> rfl

theorem isSome_ofKey?_mono (h : theme.Within theme') {targets : List Target} {key : String}
    (hkey : (ofKey? theme targets false key).isSome = true) :
    (ofKey? theme' targets false key).isSome = true := by
  unfold ofKey? at hkey ⊢
  cases hbracketed : bracketed? key with
  | some inner =>
      -- No theme is asked for a bracketed value.
      simpa only [hbracketed] using hkey
  | none =>
      simp only [hbracketed] at hkey ⊢
      refine isSome_findSome?_mono (fun target _ htarget => ?_) hkey
      rw [isSome_ofTarget?] at htarget ⊢
      exact isSome_valueOf?_mono h htarget

theorem isSome_ofReading?_mono (h : theme.Within theme') {g : Grammar} {r : Token.Reading}
    (hreading : (ofReading? theme g false r).isSome = true) :
    (ofReading? theme' g false r).isSome = true := by
  unfold ofReading? at hreading ⊢
  cases hfound : g.utility? r.stem with
  | none => simp only [hfound, Option.isSome_none, Bool.false_eq_true] at hreading
  | some found =>
      cases hkey : keyOf? r.value with
      | none => simp only [hfound, hkey, Option.isSome_none, Bool.false_eq_true] at hreading
      | some key =>
          simp only [hfound, hkey, Bool.false_and, Bool.false_eq_true, if_false,
            Option.isSome_map] at hreading ⊢
          exact isSome_ofKey?_mono h hreading

/-- A core that is not negated and resolves under a theme resolves under every theme with
    more keys. -/
theorem isSome_ofCore?_mono (h : theme.Within theme') {g : Grammar} {t : Token}
    (hsign : t.negative = false) (hcore : (ofCore? theme g t).isSome = true) :
    (ofCore? theme' g t).isSome = true := by
  unfold ofCore? at hcore ⊢
  simp only [hsign, Bool.false_eq_true, if_false] at hcore ⊢
  cases hstatic : g.staticRule? t.core with
  | some found => rfl
  | none =>
      simp only [hstatic] at hcore
      exact isSome_findSome?_mono (fun r _ hr => isSome_ofReading?_mono h hr) hcore

end Resolution

namespace Rule

theorem isSome_ofToken?_iff_of_parse? {g : Grammar} {token : String} {t : Token}
    (ht : Token.parse? token = some t) : (ofToken? theme g token).isSome = true ↔
      (∀ name ∈ t.variants, (Variant.ofName? theme g.darkMode name).isSome = true) ∧
        (Resolution.ofCore? theme g t).isSome = true := by
  rw [← isSome_mapM_iff]
  unfold ofToken?
  simp only [ht]
  cases t.variants.mapM (Variant.ofName? theme g.darkMode) <;>
    cases Resolution.ofCore? theme g t <;>
      simp only [Option.isSome_none, Option.isSome_some, Bool.false_eq_true, and_false,
        false_and, and_self]

/-- A class that is not negated and that a theme resolves is resolved by every theme with
    more keys. -/
theorem isSome_ofToken?_mono (h : theme.Within theme') {g : Grammar} {token : String}
    {t : Token} (ht : Token.parse? token = some t) (hsign : t.negative = false)
    (hresolves : (ofToken? theme g token).isSome = true) :
    (ofToken? theme' g token).isSome = true := by
  rw [isSome_ofToken?_iff_of_parse? ht] at hresolves ⊢
  rcases hresolves with ⟨hvariants, hcore⟩
  exact ⟨fun name hname => Variant.isSome_ofName?_mono h (hvariants name hname),
    Resolution.isSome_ofCore?_mono h hsign hcore⟩

end Rule

end

namespace Rule

open Theme

/-- Extensions of a theme keep every class that is not negated. -/
theorem isSome_ofToken?_changeAll (theme : Theme) (g : Grammar) {changes : List Change}
    (hextensions : ∀ c ∈ changes, c.IsExtension) {token : String} {t : Token}
    (ht : Token.parse? token = some t) (hsign : t.negative = false)
    (hresolves : (ofToken? theme g token).isSome = true) :
    (ofToken? (theme.changeAll changes) g token).isSome = true :=
  isSome_ofToken?_mono (within_changeAll theme hextensions) ht hsign hresolves

/-- A color of text that becomes a size when its key is written into the sizes, behind a variant
    that becomes a breakpoint: both are other ones, and there still is a rule. -/
theorem isSome_ofToken?_changeAll_text :
    (ofToken? ((Theme.empty.insert "colors" "lg" "#f00").changeAll
        [.insert "fontSize" "lg" "1.125rem", .insert "screens" "dark" "1px"])
        Grammar.default "dark:text-lg").isSome = true ∧
    (ofToken? (Theme.empty.insert "colors" "lg" "#f00") Grammar.default "dark:text-lg").map
        (fun r => (r.declarations, r.atRules))
      = some ([⟨"color", "#f00"⟩], ["@media (prefers-color-scheme: dark)"]) := by
  have hparse : Token.parse? "dark:text-lg" = some ⟨["dark"], false, false, "text-lg"⟩ := by
    decide +kernel
  have hrule : (ofToken? (Theme.empty.insert "colors" "lg" "#f00") Grammar.default
        "dark:text-lg").map (fun r => (r.declarations, r.atRules))
      = some ([⟨"color", "#f00"⟩], ["@media (prefers-color-scheme: dark)"]) := by
    decide +kernel
  have hsome : (ofToken? (Theme.empty.insert "colors" "lg" "#f00") Grammar.default
      "dark:text-lg").isSome = true := by
    rw [← Option.isSome_map, hrule]
    rfl
  exact ⟨isSome_ofToken?_changeAll _ _ (by decide) hparse rfl hsome, hrule⟩

-- A negated class goes away with a value that has no opposite.
example :
    let theme := Theme.empty.insert "spacing" "4" "1rem"
    (ofToken? theme Grammar.default "-mt-4").isSome = true ∧
      ofToken? (theme.change (.insert "spacing" "4" "auto")) Grammar.default "-mt-4" = none := by
  decide +kernel

end Rule

end UtilityCss
