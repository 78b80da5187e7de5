import UtilityCss.Grammar.Default
import UtilityCss.Proofs.Containment.Value
import UtilityCss.Proofs.Ordered.All

/-!
# Contained Grammars

What a grammar writes into a stylesheet is contained, whatever was registered.

A grammar holds texts in three places: the declarations of its static rules, the
properties and further declarations of its targets, and the targets' own values.
Registering puts a utility or a static rule into one of the maps and takes names
out of another, so the invariant of the grammar is that of the things
registered, and it holds from the tables of the program on.

## Main definitions

* `Target.IsContained`, `Utility.IsContained`, `StaticRule.IsContained`: What can
  be registered without harm.
* `Grammar.IsContained`: Everything in the grammar is harmless.

## Theorems

* `isContained_register`, `isContained_registerStatic`: Registering keeps a
  grammar contained.
* `isContained_default`: The default grammar is contained.
* `isContained_of_staticRule?`, `isContained_of_utility?`: So is what is found.
* `Target.isContained_declarations`: A target writes contained declarations.
-/

namespace UtilityCss

/-- What the target writes stays inside its block, if the value does. -/
structure Target.IsContained (t : Target) : Prop where
  values : ∀ e ∈ t.values.entries, Text.IsContained e.2
  properties : ∀ property ∈ t.properties, PluginName.isProperty property.toList = true
  extra : ∀ d ∈ t.extra, d.IsContained

instance (t : Target) : Decidable t.IsContained :=
  decidable_of_iff
    ((∀ e ∈ t.values.entries, Text.IsContained e.2) ∧
      (∀ property ∈ t.properties, PluginName.isProperty property.toList = true) ∧
      ∀ d ∈ t.extra, d.IsContained)
    ⟨fun h => ⟨h.1, h.2.1, h.2.2⟩, fun h => ⟨h.values, h.properties, h.extra⟩⟩

/-- The targets of the utility are contained. -/
def Utility.IsContained (u : Utility) : Prop := ∀ t ∈ u.targets, t.IsContained

instance (u : Utility) : Decidable u.IsContained :=
  inferInstanceAs (Decidable (∀ t ∈ u.targets, t.IsContained))

/-- The declarations of the static rule are contained. -/
def StaticRule.IsContained (r : StaticRule) : Prop := ∀ d ∈ r.declarations, d.IsContained

theorem Target.isContained_declarations {t : Target} (h : t.IsContained) {value : String}
    (hvalue : Text.IsContained value) : ∀ d ∈ t.declarations value, d.IsContained := by
  intro d hd
  rcases List.mem_append.1 hd with hd | hd
  · exact h.extra d hd
  · rcases List.mem_map.1 hd with ⟨property, hproperty, rfl⟩
    exact ⟨h.properties property hproperty, hvalue⟩

namespace Grammar

/-- Everything that the grammar writes is contained. -/
structure IsContained (g : Grammar) : Prop where
  base : g.base.All fun declarations => ∀ d ∈ declarations, d.IsContained
  utilities : g.utilities.All fun found => found.item.IsContained
  statics : g.statics.All fun found => found.item.IsContained

variable {g : Grammar}

theorem isContained_place (h : g.IsContained) {u : Utility} (hu : u.IsContained) :
    (g.place u).IsContained where
  base := h.base
  utilities := h.utilities.insert hu u.stem
  statics := h.statics

theorem isContained_register (h : g.IsContained) {u : Utility} (hu : u.IsContained) :
    (g.register u).IsContained where
  base := h.base
  utilities := h.utilities.insert hu u.stem
  statics := h.statics.erase u.stem

theorem isContained_registerStatic (h : g.IsContained) {r : StaticRule}
    (hr : r.IsContained) : (g.registerStatic r).IsContained where
  base := h.base
  utilities := h.utilities
  statics := h.statics.insert hr r.name

-- A run of changes keeps a grammar contained if each of them does.
theorem isContained_foldl {α : Type} {change : Grammar → α → Grammar} {p : α → Prop}
    (hchange : ∀ g a, g.IsContained → p a → (change g a).IsContained) {as : List α}
    (h : g.IsContained) (has : ∀ a ∈ as, p a) : (as.foldl change g).IsContained := by
  induction as generalizing g with
  | nil => exact h
  | cons a as ih =>
      have hstep := hchange g a h (has a List.mem_cons_self)
      exact ih hstep fun a' ha' => has a' (List.mem_cons_of_mem _ ha')

theorem isContained_default : Grammar.default.IsContained := by
  -- The tables are finite, so they can be looked through.
  have hstatics : ∀ r ∈ DefaultGrammar.statics, ∀ d ∈ r.2, d.IsContained := by
    decide +kernel
  have hutilities : ∀ u ∈ DefaultGrammar.utilities, u.IsContained := by decide +kernel
  have hbase : (ofBase (SortedMap.ofList DefaultGrammar.statics)).IsContained :=
    ⟨SortedMap.All.ofList hstatics, SortedMap.All.empty, SortedMap.All.empty⟩
  unfold Grammar.default
  refine isContained_foldl (p := Utility.IsContained) (fun g u hg hu => ?_) hbase hutilities
  exact isContained_place hg hu

theorem isContained_withDarkMode (h : g.IsContained) (mode : DarkMode) :
    (g.withDarkMode mode).IsContained :=
  ⟨h.base, h.utilities, h.statics⟩

theorem isContained_of_staticRule? (h : g.IsContained) {name : String}
    {found : Ranked StaticRule} (hf : g.staticRule? name = some found) :
    found.item.IsContained := by
  unfold staticRule? at hf
  split at hf
  · next registered hregistered =>
      rw [← Option.some.inj hf]
      exact h.statics.get? hregistered
  · split at hf
    -- A hidden rule is not found.
    · simp only [reduceCtorEq] at hf
    · rcases Option.map_eq_some_iff.1 hf with ⟨declarations, hdeclarations, rfl⟩
      exact h.base.get? hdeclarations

theorem isContained_of_utility? (h : g.IsContained) {stem : String} {found : Ranked Utility}
    (hf : g.utility? stem = some found) : found.item.IsContained :=
  h.utilities.get? hf

end Grammar

end UtilityCss
