import UtilityCss.Proofs.Theme.Breakpoints

/-!
# Layers of a Theme

The theme that a configuration makes of a base, read axis by axis.

Resolving works through two lists. It replaces the axes of the first one and then lays
those of the second one over what is there, so what an axis holds seems to depend on
everything before it. It does not: each list names an axis once, and a change of one axis
leaves the others alone. So every axis of the result has three layers. The extension is on
top, below it is the replacement, and the base shows only where nothing replaces it. An
axis that is replaced by null is empty below its extension, whatever the base holds.

Read in this way, resolving the same configuration again over its result changes nothing.
A replaced axis does not look at what was there, and an extension that lies on an axis
already covers nothing new. The breakpoints need no argument of their own, since they are
those of the axes.

## Main definitions

* `ThemeConfig.scaleOf?`: The scale that a list of a configuration spells for an axis.
* `ThemeConfig.IsSpelled`: Everything in a list is a scale.
* `Theme.layered?`: The layers of an axis, put together.
* `Theme.Layers`: A theme has the layers of a base and a configuration.

## Theorems

* `exists_applyAxes_iff`: Changes made axis by axis succeed if all their scales are spelled.
* `axis?_of_applyAxes`: What such changes make of an axis.
* `axis?_of_resolve`: The axes of a resolved theme.
* `layered?_again`: Layers laid twice are layers laid once.
* `layers_resolve`: When there is a theme, and what its layers are.
-/

namespace UtilityCss

/-- What is laid over a map twice is laid over it once. -/
theorem SortedMap.extend_extend {α : Type} (m n : SortedMap α) :
    (m.extend n).extend n = m.extend n := by
  refine ext_get? fun key => ?_
  rw [get?_extend, get?_extend]
  rcases n.get? key with _ | value <;> rfl

namespace ThemeConfig

/-- The scale that a list of a configuration spells for an axis, if it names the axis. -/
def scaleOf? (values : SortedMap Yaml.Value) (axis : String) : Option Scale :=
  (values.get? axis).bind fun value => (Scale.ofValue axis value).toOption

/-- Everything in a list of a configuration is a scale. -/
def IsSpelled (values : SortedMap Yaml.Value) : Prop :=
  ∀ e ∈ values.entries, ∃ scale, Scale.ofValue e.1 e.2 = .ok scale

instance (values : SortedMap Yaml.Value) : Decidable (IsSpelled values) :=
  decidable_of_iff (∀ e ∈ values.entries, (Scale.ofValue e.1 e.2).isOk = true) <|
    forall₂_congr fun e _ => by
      rcases Scale.ofValue e.1 e.2 with error | scale
      · simp only [reduceCtorEq, exists_false, Except.isOk, Except.toBool, Bool.false_eq_true]
      · exact ⟨fun _ => ⟨scale, rfl⟩, fun _ => rfl⟩

theorem isSome_scaleOf? {values : SortedMap Yaml.Value} (h : IsSpelled values) (axis : String) :
    (scaleOf? values axis).isSome = (values.get? axis).isSome := by
  unfold scaleOf?
  rcases hvalue : values.get? axis with _ | value
  · rfl
  · have hmem : (axis, value) ∈ values.entries := (values.mem_entries_iff axis value).2 hvalue
    rcases h _ hmem with ⟨scale, hscale⟩
    rw [Option.bind_some, hscale]
    rfl

theorem scaleOf?_eq_none {values : SortedMap Yaml.Value} {axis : String}
    (h : values.get? axis = none) : scaleOf? values axis = none := by
  rw [scaleOf?, h, Option.bind_none]

end ThemeConfig

namespace Theme

open ThemeConfig (scaleOf? IsSpelled)

/-- The layers of an axis, put together: the extension over the replacement, or over the
    base where nothing replaces it. -/
def layered? (base : Theme) (config : ThemeConfig) (axis : String) : Option Scale :=
  let below := (scaleOf? config.axes axis).or (base.axis? axis)
  match scaleOf? config.extend axis with
  | some scale => some ((below.getD SortedMap.empty).extend scale)
  | none => below

/-- A theme has the layers of a base and a configuration. -/
structure Layers (base : Theme) (config : ThemeConfig) (t : Theme) : Prop where
  /-- Under a key stands the value of the extension if it has the key, else that of the
      replacement if there is one, whether it has the key or not, else that of the base. -/
  value : ∀ axis key, t.get? axis key
    = ((scaleOf? config.extend axis).bind fun scale => scale.get? key).or
      (match scaleOf? config.axes axis with
        | some scale => scale.get? key
        | none => base.get? axis key)
  /-- There are the axes of the base and those that the configuration names. -/
  present : ∀ axis, (t.axis? axis).isSome
    = ((base.axis? axis).isSome || (config.axes.get? axis).isSome
        || (config.extend.get? axis).isSome)
  /-- An axis that the configuration does not name has the scale of the base. -/
  kept : ∀ axis, config.axes.get? axis = none → config.extend.get? axis = none →
    t.axis? axis = base.axis? axis
  /-- Resolving the configuration over the theme gives the theme, breakpoints included. -/
  again : resolve t config = .ok t

/-! ### Changes made axis by axis -/

/-- Changes made axis by axis succeed if all their scales are spelled. -/
theorem exists_applyAxes_iff (make : Theme → String → Scale → Theme) (t : Theme)
    (entries : List (String × Yaml.Value)) :
    (∃ t', applyAxes make t entries = .ok t') ↔
      ∀ e ∈ entries, ∃ scale, Scale.ofValue e.1 e.2 = .ok scale := by
  induction entries generalizing t with
  | nil => exact ⟨fun _ _ h => absurd h List.not_mem_nil, fun _ => ⟨t, rfl⟩⟩
  | cons e entries ih =>
      rw [List.forall_mem_cons, applyAxes]
      rcases hscale : Scale.ofValue e.1 e.2 with error | scale
      · simp only [reduceCtorEq, exists_false, false_and]
      · rw [ih]
        exact ⟨fun h => ⟨⟨scale, rfl⟩, h⟩, And.right⟩

/-- What changes make of an axis, if each of them sets its axis to something made of the
    scale that was there. -/
theorem axis?_of_applyAxes (lay : Option Scale → Scale → Scale)
    {make : Theme → String → Scale → Theme}
    (hmake : ∀ t axis scale, make t axis scale = t.setAxis axis (lay (t.axis? axis) scale))
    {values : SortedMap Yaml.Value} {t t' : Theme} (h : applyAxes make t values.entries = .ok t')
    (axis : String) :
    t'.axis? axis = match scaleOf? values axis with
      | some scale => some (lay (t.axis? axis) scale)
      | none => t.axis? axis := by
  unfold scaleOf? SortedMap.get?
  rcases values with ⟨entries, hsorted⟩
  -- By induction on the entries, whose keys ascend.
  induction entries generalizing t with
  | nil =>
      rw [← Except.ok.inj h]
      rfl
  | cons e entries ih =>
      rcases List.pairwise_cons.1 hsorted with ⟨hhead, htail⟩
      rw [applyAxes] at h
      split at h
      · next scale hscale =>
          rw [ih htail h, hmake, axis?_setAxis, SortedMap.find?]
          by_cases haxis : e.1 = axis
          · -- The axis is not named again.
            have hlater : SortedMap.find? axis entries = none :=
              SortedMap.find?_eq_none fun e' he' heq =>
                String.ne_of_lt (hhead e' he') (haxis.trans heq.symm)
            rw [if_pos haxis, if_pos haxis, hlater, ← haxis]
            simp only [Option.bind_none, Option.bind_some, hscale, Except.toOption]
          · rw [if_neg haxis, if_neg haxis]
      · simp only [reduceCtorEq] at h

/-! ### Resolved themes -/

theorem exists_resolve_iff (base : Theme) (config : ThemeConfig) :
    (∃ t, resolve base config = .ok t) ↔ IsSpelled config.axes ∧ IsSpelled config.extend := by
  have hreplace := exists_applyAxes_iff setAxis base config.axes.entries
  unfold resolve IsSpelled
  rw [← hreplace]
  rcases applyAxes setAxis base config.axes.entries with error | replaced
  · simp only [reduceCtorEq, exists_false, false_and]
  · rw [exists_applyAxes_iff]
    exact ⟨fun h => ⟨⟨replaced, rfl⟩, h⟩, And.right⟩

/-- The axes of a resolved theme. -/
theorem axis?_of_resolve {base t : Theme} {config : ThemeConfig}
    (h : resolve base config = .ok t) (axis : String) :
    t.axis? axis = base.layered? config axis := by
  unfold resolve at h
  split at h
  · next replaced hreplaced =>
      have hbelow := axis?_of_applyAxes (fun _ scale => scale) (fun _ _ _ => rfl) hreplaced axis
      have htop := axis?_of_applyAxes (fun old scale => (old.getD SortedMap.empty).extend scale)
        (fun _ _ _ => rfl) h axis
      rw [htop, hbelow, layered?]
      rcases scaleOf? config.axes axis with _ | scale <;> rfl
  · simp only [reduceCtorEq] at h

/-- Layers laid twice are layers laid once. -/
theorem layered?_again {base t : Theme} {config : ThemeConfig} {axis : String}
    (h : t.axis? axis = base.layered? config axis) :
    t.layered? config axis = base.layered? config axis := by
  unfold layered? at h ⊢
  rw [h]
  rcases scaleOf? config.extend axis with _ | scale
  · rcases scaleOf? config.axes axis with _ | below <;> rfl
  · rcases scaleOf? config.axes axis with _ | below
    · -- The extension lies on the base already.
      simp only [Option.none_or, Option.getD_some, SortedMap.extend_extend]
    · rfl

theorem get?_of_axis?_eq_layered? {base t : Theme} {config : ThemeConfig} {axis : String}
    (h : t.axis? axis = base.layered? config axis) (key : String) :
    t.get? axis key
      = ((scaleOf? config.extend axis).bind fun scale => scale.get? key).or
        (match scaleOf? config.axes axis with
          | some scale => scale.get? key
          | none => base.get? axis key) := by
  rw [← get?_axisD, h, layered?]
  rcases scaleOf? config.extend axis with _ | scale
  · rcases scaleOf? config.axes axis with _ | below
    · exact get?_axisD base axis key
    · rfl
  · rw [Option.getD_some, SortedMap.get?_extend, Option.bind_some]
    rcases scaleOf? config.axes axis with _ | below
    · rw [Option.none_or, get?_axisD]
    · rfl

theorem isSome_layered? (base : Theme) {config : ThemeConfig} (haxes : IsSpelled config.axes)
    (hextend : IsSpelled config.extend) (axis : String) :
    (base.layered? config axis).isSome
      = ((base.axis? axis).isSome || (config.axes.get? axis).isSome
        || (config.extend.get? axis).isSome) := by
  rw [← ThemeConfig.isSome_scaleOf? haxes, ← ThemeConfig.isSome_scaleOf? hextend, layered?]
  rcases scaleOf? config.extend axis with _ | scale
  · rcases scaleOf? config.axes axis with _ | below
    · simp only [Option.none_or, Option.isSome_none, Bool.or_false]
    · simp only [Option.some_or, Option.isSome_some, Bool.or_true, Bool.true_or]
  · simp only [Option.isSome_some, Bool.or_true]

/-- There is a theme if everything the configuration says of axes is a scale, and then
    each axis of it has the layers of the base and the configuration. -/
theorem layers_resolve (base : Theme) (config : ThemeConfig) :
    ((∃ t, resolve base config = .ok t) ↔ IsSpelled config.axes ∧ IsSpelled config.extend) ∧
      ∀ t, resolve base config = .ok t → base.Layers config t := by
  refine ⟨exists_resolve_iff base config, fun t ht => ?_⟩
  rcases (exists_resolve_iff base config).1 ⟨t, ht⟩ with ⟨haxes, hextend⟩
  have hlayers := axis?_of_resolve ht
  exact {
    value := fun axis key => get?_of_axis?_eq_layered? (hlayers axis) key
    present := fun axis => by rw [hlayers, isSome_layered? base haxes hextend]
    kept := fun axis hreplaced hextended => by
      rw [hlayers, layered?, ThemeConfig.scaleOf?_eq_none hreplaced,
        ThemeConfig.scaleOf?_eq_none hextended, Option.none_or]
    -- Replacing and extending once more writes what is there already.
    again := by
      rcases (exists_resolve_iff t config).2 ⟨haxes, hextend⟩ with ⟨t', ht'⟩
      have hsame : t' = t := ext_axis? fun axis => by
        rw [axis?_of_resolve ht', layered?_again (hlayers axis), hlayers]
      rw [ht', hsame] }

end Theme

namespace SmallTheme

/-- Two axes that a configuration replaces, and one that it leaves alone. -/
def base : Theme :=
  ((Theme.empty.insert "colors" "red" "#f00").insert "spacing" "4" "1rem").insert
    "opacity" "50" "0.5"

/-- One axis is replaced and extended, one is replaced by null, and one is new. -/
def config : ThemeConfig where
  axes := SortedMap.ofList
    [("colors", .null), ("spacing", .mapping [(.text "2", .text "8px"), (.text "3", .text "12px")])]
  extend := SortedMap.ofList
    [("screens", .mapping [(.text "md", .text "768px")]),
      ("spacing", .mapping [(.text "3", .text "0.75rem")])]

theorem layers_resolve_config :
    ∃ t, Theme.resolve base config = .ok t ∧ base.Layers config t ∧
      [t.get? "spacing" "2", t.get? "spacing" "3", t.get? "spacing" "4", t.get? "colors" "red",
        t.get? "opacity" "50", t.get? "screens" "md"]
        = [some "8px", some "0.75rem", none, none, some "0.5", some "768px"] := by
  rcases Theme.layers_resolve base config with ⟨hexists, hlayers⟩
  have hspelled : ThemeConfig.IsSpelled config.axes ∧ ThemeConfig.IsSpelled config.extend := by
    decide +kernel
  rcases hexists.2 hspelled with ⟨t, ht⟩
  have ht' := hlayers t ht
  refine ⟨t, ht, ht', ?_⟩
  simp only [ht'.value]
  decide +kernel

end SmallTheme

end UtilityCss
