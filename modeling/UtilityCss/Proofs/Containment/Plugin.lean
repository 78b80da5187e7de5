import UtilityCss.Build
import UtilityCss.Proofs.Containment.Grammar
import UtilityCss.Proofs.Containment.Theme

/-!
# Contained Designs

The theme and the grammar of every configuration are contained.

A plugin is checked when it is made and trusted when it is applied, so the
invariant passes through two proofs: whatever a check lets through is contained,
and applying what is contained keeps a design contained. A value may be checked
under one axis and end up on another, when a plugin copies an axis; since the
invariant speaks of all axes alike, a copy is no special case.

## Main definitions

* `ThemeStep.IsContained`, `Plugin.IsContained`: What can be applied without harm.
* `Design.IsContained`: A contained theme with a contained grammar.

## Theorems

* `bind_eq_ok`: A computation that gives something has gone through every step.
* `mem_of_mapM_eq_ok`: What a list of checks lets through, one of them does.
* `utility_eq_ok`: What a utility is made of once it has passed its checks.
* `ofRef_eq_ok`: A plugin that is made is a bundled one, or it has passed its checks.
* `isContained_of_ofRef`: A plugin that passed its checks is contained.
* `isContained_of_applyAll`: Applying plugins keeps a design contained.
* `isContained_of_ofConfig`: The design of a configuration is contained.
-/

namespace UtilityCss

section

variable {ε α β : Type}

/-- A computation that gives something has gone through its first step. -/
theorem bind_eq_ok {x : Except ε α} {f : α → Except ε β} {b : β}
    (h : (x >>= f) = .ok b) : ∃ a, x = .ok a ∧ f a = .ok b := by
  rcases x with e | a
  · simp only [bind, Except.bind, reduceCtorEq] at h
  · exact ⟨a, rfl, h⟩

theorem mem_of_mapM_eq_ok {f : α → Except ε β} {as : List α} {bs : List β}
    (h : as.mapM f = .ok bs) {b : β} (hb : b ∈ bs) : ∃ a ∈ as, f a = .ok b := by
  induction as generalizing bs with
  | nil =>
      rw [List.mapM_nil] at h
      rw [← Except.ok.inj h] at hb
      exact absurd hb List.not_mem_nil
  | cons a as ih =>
      rw [List.mapM_cons] at h
      rcases bind_eq_ok h with ⟨b', ha, h⟩
      rcases bind_eq_ok h with ⟨bs', has, h⟩
      rw [← Except.ok.inj h] at hb
      rcases List.mem_cons.1 hb with rfl | hb
      · exact ⟨a, List.mem_cons_self, ha⟩
      · rcases ih has hb with ⟨a', hmem, ha'⟩
        exact ⟨a', List.mem_cons_of_mem _ hmem, ha'⟩

theorem mem_of_mem_mapM {f : α → Except ε β} {as : List α} {bs : List β}
    (h : as.mapM f = .ok bs) {a : α} (ha : a ∈ as) {b : β} (hb : f a = .ok b) : b ∈ bs := by
  induction as generalizing bs with
  | nil => exact absurd ha List.not_mem_nil
  | cons first as ih =>
      rw [List.mapM_cons] at h
      rcases bind_eq_ok h with ⟨b', hfirst, h⟩
      rcases bind_eq_ok h with ⟨bs', has, h⟩
      rw [← Except.ok.inj h]
      rcases List.mem_cons.1 ha with rfl | ha
      · rw [hfirst] at hb
        exact Except.ok.inj hb ▸ List.mem_cons_self
      · exact List.mem_cons_of_mem _ (ih has ha)

theorem map_eq_ok {f : α → β} {x : Except ε α} {b : β} (h : x.map f = .ok b) :
    ∃ a, x = .ok a ∧ f a = b := by
  rcases x with e | a
  · simp only [Except.map, reduceCtorEq] at h
  · exact ⟨a, rfl, Except.ok.inj h⟩

theorem eq_ok_of_toOption {x : Except ε α} {a : α} (h : x.toOption = some a) : x = .ok a := by
  rcases x with e | a'
  · simp only [Except.toOption, reduceCtorEq] at h
  · exact congrArg Except.ok (Option.some.inj h)

theorem eq_ok_of_mapError {δ : Type} {f : ε → δ} {x : Except ε α} {a : α}
    (h : x.mapError f = .ok a) : x = .ok a := by
  rcases x with e | a'
  · simp only [Except.mapError, reduceCtorEq] at h
  · exact congrArg Except.ok (Except.ok.inj h)

end

/-- The change brings contained values into a theme. -/
def ThemeStep.IsContained : ThemeStep → Prop
  | .set _ _ value => Text.IsContained value
  | .copy _ _ => True
  | .extend _ scale => scale.IsContained

/-- Everything that the contribution brings is contained. -/
def Contribution.IsContained : Contribution → Prop
  | .utilities us => ∀ u ∈ us, u.IsContained
  | .statics rs => ∀ r ∈ rs, r.IsContained
  | .theme steps => ∀ step ∈ steps, step.IsContained

/-- What the plugin contributes is contained. -/
def Plugin.IsContained (p : Plugin) : Prop := p.contribution.IsContained

/-- A theme and a grammar that are contained. -/
structure Design.IsContained (d : Design) : Prop where
  theme : d.theme.IsContained
  grammar : d.grammar.IsContained

namespace Plugin

theorem eq_true_of_check {holds : Bool} {fault : PluginFault}
    (h : check holds fault = .ok ()) : holds = true := by
  unfold check at h
  split at h
  · assumption
  · simp only [reduceCtorEq] at h

theorem isContained_of_declaration {e : String × String} {d : Declaration}
    (h : declaration e = .ok d) : d.IsContained := by
  rcases bind_eq_ok h with ⟨⟨⟩, hproperty, h⟩
  rcases bind_eq_ok h with ⟨⟨⟩, hvalue, h⟩
  rw [← Except.ok.inj h]
  exact ⟨eq_true_of_check hproperty, PluginName.isContained_of_isValue (eq_true_of_check hvalue)⟩

theorem isContained_of_scaleOf {axis : String} {values : Yaml.Value} {s : Scale}
    (h : scaleOf axis values = .ok s) : s.IsContained :=
  Scale.isContained_of_ofValue (eq_ok_of_mapError h)

theorem forall_of_forM_check {test : String → Bool} {fault : String → PluginFault}
    {names : List String} (h : names.forM (fun name => check (test name) (fault name)) = .ok ()) :
    ∀ name ∈ names, test name = true := by
  induction names with
  | nil => exact fun _ hname => absurd hname List.not_mem_nil
  | cons name names ih =>
      rcases bind_eq_ok h with ⟨⟨⟩, hname, h⟩
      intro name' hmem
      rcases List.mem_cons.1 hmem with rfl | hmem
      · exact eq_true_of_check hname
      · exact ih h name' hmem

/-- What a utility is made of once it has passed its checks. -/
theorem utility_eq_ok {spec : UtilitySpec} {u : Utility} (h : utility spec = .ok u) :
    ∃ values extra,
      (match spec.values with
        | some raw => scaleOf spec.stem raw
        | none => .ok SortedMap.empty) = .ok values ∧
      (∀ property ∈ spec.properties, PluginName.isProperty property.toList = true) ∧
      spec.extra.mapM declaration = .ok extra ∧
      u = ⟨spec.stem, [⟨spec.axes, values, spec.properties, spec.accepts, spec.transform, extra⟩],
        spec.negatable⟩ := by
  unfold utility at h
  -- The checks of the stem and of what there is to write say nothing about texts.
  rcases bind_eq_ok h with ⟨⟨⟩, -, h⟩
  rcases bind_eq_ok h with ⟨⟨⟩, -, h⟩
  rcases bind_eq_ok h with ⟨⟨⟩, hproperties, h⟩
  have hforall := forall_of_forM_check hproperties
  rcases hspec : spec.values with _ | raw <;> simp only [hspec] at h ⊢
  all_goals
    rcases bind_eq_ok h with ⟨values, hvalues, h⟩
    rcases bind_eq_ok h with ⟨⟨⟩, -, h⟩
    rcases bind_eq_ok h with ⟨extra, hextra, h⟩
    exact ⟨values, extra, hvalues, hforall, hextra, (Except.ok.inj h).symm⟩

theorem isContained_of_utility {spec : UtilitySpec} {u : Utility}
    (h : utility spec = .ok u) : u.IsContained := by
  rcases utility_eq_ok h with ⟨values, extra, hvalues, hproperties, hextra, rfl⟩
  intro t ht
  rw [List.mem_singleton.1 ht]
  refine ⟨?_, hproperties, ?_⟩
  · split at hvalues
    · exact isContained_of_scaleOf hvalues
    · rw [← Except.ok.inj hvalues]
      exact SortedMap.All.empty
  · intro d hd
    rcases mem_of_mapM_eq_ok hextra hd with ⟨e, -, he⟩
    exact isContained_of_declaration he

theorem isContained_of_staticRule {layer : Layer}
    {spec : String × List (String × String)} {r : StaticRule}
    (h : staticRule layer spec = .ok r) : r.IsContained := by
  unfold staticRule at h
  rcases bind_eq_ok h with ⟨-, -, h⟩
  rcases bind_eq_ok h with ⟨-, -, h⟩
  rcases bind_eq_ok h with ⟨declarations, hdeclarations, h⟩
  rw [← Except.ok.inj h]
  intro d hd
  rcases mem_of_mapM_eq_ok hdeclarations hd with ⟨e, -, he⟩
  exact isContained_of_declaration he

theorem isContained_of_themeStep {spec : ThemeStepSpec} {step : ThemeStep}
    (h : themeStep spec = .ok step) : step.IsContained := by
  cases spec with
  | set axis key value =>
      rw [themeStep] at h
      split at h
      · next hvalue =>
          rw [← Except.ok.inj h]
          exact PluginName.isContained_of_isValue hvalue
      · simp only [reduceCtorEq] at h
  | copy source name =>
      rw [← Except.ok.inj h]
      exact trivial
  | extend axis values =>
      rcases map_eq_ok h with ⟨s, hs, rfl⟩
      exact isContained_of_scaleOf hs

theorem isContained_of_contributionOf {spec : PluginSpec} {c : Contribution}
    (h : contributionOf spec = .ok c) : c.IsContained := by
  cases spec with
  | utilities us =>
      rcases map_eq_ok h with ⟨us', hus, rfl⟩
      intro u hu
      rcases mem_of_mapM_eq_ok hus hu with ⟨spec, -, hspec⟩
      exact isContained_of_utility hspec
  | statics layer rules =>
      rcases map_eq_ok h with ⟨rules', hrules, rfl⟩
      intro r hr
      rcases mem_of_mapM_eq_ok hrules hr with ⟨spec, -, hspec⟩
      exact isContained_of_staticRule hspec
  | theme steps =>
      rcases map_eq_ok h with ⟨steps', hsteps, rfl⟩
      intro step hstep
      rcases mem_of_mapM_eq_ok hsteps hstep with ⟨spec, -, hspec⟩
      exact isContained_of_themeStep hspec

theorem isContained_of_mem_allBundled {p : Plugin} (h : p ∈ allBundled) : p.IsContained := by
  rcases List.mem_cons.1 h with rfl | h
  · show ∀ u ∈ _, Utility.IsContained u
    decide +kernel
  · rw [List.mem_singleton.1 h]
    show ∀ u ∈ _, Utility.IsContained u
    decide +kernel

/-- A plugin that is made is a bundled one, or its contribution has passed the checks. -/
theorem ofRef_eq_ok {ref : PluginRef} {p : Plugin} (h : ofRef ref = .ok p) :
    p ∈ allBundled ∨ ∃ spec, contributionOf spec = .ok p.contribution := by
  cases ref with
  | bundled name =>
      rw [ofRef] at h
      split at h
      · next found hfound =>
          rw [← Except.ok.inj h]
          exact Or.inl (List.mem_of_find?_eq_some hfound)
      · simp only [reduceCtorEq] at h
  | inline name spec =>
      rw [ofRef] at h
      split at h
      · simp only [reduceCtorEq] at h
      · split at h
        · next c hc =>
            rw [← Except.ok.inj h]
            exact Or.inr ⟨spec, hc⟩
        · simp only [reduceCtorEq] at h

theorem isContained_of_ofRef {ref : PluginRef} {p : Plugin} (h : ofRef ref = .ok p) :
    p.IsContained := by
  rcases ofRef_eq_ok h with hbundled | ⟨spec, hspec⟩
  · exact isContained_of_mem_allBundled hbundled
  · exact isContained_of_contributionOf hspec

end Plugin

/-- A change that succeeds keeps a theme contained. -/
theorem ThemeStep.isContained_of_apply {t t' : Theme} (ht : t.IsContained)
    {step : ThemeStep} (hstep : step.IsContained) (h : step.apply t = .ok t') :
    t'.IsContained := by
  cases step with
  | set axis key value =>
      rw [← Except.ok.inj h]
      exact Theme.isContained_insert ht hstep axis key
  | copy source name =>
      rw [ThemeStep.apply] at h
      split at h
      · next scale hscale =>
          -- A copied axis was an axis of the theme before.
          rw [← Except.ok.inj h]
          exact Theme.isContained_setAxis ht (SortedMap.All.get? ht hscale) name
      · simp only [reduceCtorEq] at h
  | extend axis scale =>
      rw [← Except.ok.inj h]
      exact Theme.isContained_extendAxis ht hstep axis

/-- Changes keep a theme contained, also where one of them fails. -/
theorem ThemeStep.isContained_applyAll {t : Theme} (ht : t.IsContained)
    {steps : List ThemeStep} (hsteps : ∀ step ∈ steps, step.IsContained) :
    (ThemeStep.applyAll t steps).1.IsContained := by
  induction steps generalizing t with
  | nil => exact ht
  | cons step steps ih =>
      rw [ThemeStep.applyAll]
      split
      · next t' happly =>
          have ht' := isContained_of_apply ht (hsteps step List.mem_cons_self) happly
          exact ih ht' fun step' hmem => hsteps step' (List.mem_cons_of_mem _ hmem)
      · exact ht

namespace Plugin

/-- Applying a contained plugin keeps a design contained, as far as it goes. -/
theorem isContained_apply {d : Design} (hd : d.IsContained) {p : Plugin}
    (hp : p.IsContained) : (p.apply d).1.IsContained := by
  rcases p with ⟨name, us | rs | steps⟩
  · exact ⟨hd.theme, Grammar.isContained_foldl (p := Utility.IsContained)
      (fun _ _ hg hu => Grammar.isContained_register hg hu) hd.grammar hp⟩
  · exact ⟨hd.theme, Grammar.isContained_foldl (p := StaticRule.IsContained)
      (fun _ _ hg hr => Grammar.isContained_registerStatic hg hr) hd.grammar hp⟩
  · exact ⟨ThemeStep.isContained_applyAll hd.theme hp, hd.grammar⟩

theorem isContained_of_applyAll {d d' : Design} (hd : d.IsContained) {ps : List Plugin}
    (hps : ∀ p ∈ ps, p.IsContained) (h : applyAll d ps = .ok d') : d'.IsContained := by
  induction ps generalizing d with
  | nil => exact Except.ok.inj h ▸ hd
  | cons p ps ih =>
      have hstep := isContained_apply hd (hps p List.mem_cons_self)
      rw [applyAll] at h
      split at h
      · next d₁ happly =>
          rw [happly] at hstep
          exact ih hstep (fun p' hmem => hps p' (List.mem_cons_of_mem _ hmem)) h
      · simp only [reduceCtorEq] at h

end Plugin

/-- The design of a configuration is contained. -/
theorem Design.isContained_of_ofConfig {config : Config} {d : Design}
    (h : ofConfig config = .ok d) : d.IsContained := by
  unfold ofConfig at h
  rcases bind_eq_ok h with ⟨theme, htheme, h⟩
  rcases bind_eq_ok h with ⟨plugins, hplugins, h⟩
  -- The plugins change what the configuration made of the defaults.
  have ht : theme.IsContained :=
    Theme.isContained_of_resolve Theme.isContained_default (eq_ok_of_mapError htheme)
  have hd : Design.IsContained ⟨theme, Grammar.default.withDarkMode config.darkMode⟩ :=
    ⟨ht, Grammar.isContained_withDarkMode Grammar.isContained_default config.darkMode⟩
  have hps : ∀ p ∈ plugins, p.IsContained := by
    intro p hp
    rcases mem_of_mapM_eq_ok (eq_ok_of_mapError hplugins) hp with ⟨ref, -, href⟩
    exact Plugin.isContained_of_ofRef href
  have happly := eq_ok_of_mapError h
  exact Plugin.isContained_of_applyAll hd hps happly

end UtilityCss
