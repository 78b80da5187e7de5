import UtilityCss.Proofs.Containment.Value
import UtilityCss.Proofs.Ordered.All
import UtilityCss.Theme.Default

/-!
# Contained Themes

The values of every theme that a configuration can give are contained.

A theme starts from a table of the program and changes in three ways: an axis
replaced, an axis overlaid, and one value written. All of them move values that
were checked or that were there before, and copying an axis is replacing one by
a scale of the same theme. So the invariant needs no check when the theme is
used, in whatever order the changes came and whichever axis a value ended up on.

## Main definitions

* `Scale.IsContained`: The values of a scale are contained.
* `Theme.IsContained`: The values of all axes are contained.

## Theorems

* `isValue_of_mem_leaves`: Every leaf of a nested axis has been checked.
* `isContained_of_ofValue`: A scale from a configuration is contained.
* `isContained_default`: The default theme is contained.
* `isContained_of_resolve`: A configuration keeps a theme contained.
* `isContained_of_lookup?`: What is looked up in a contained theme is contained.
* `isContained_of_screen?`: So are the widths of its breakpoints.
-/

namespace UtilityCss

namespace Scale

/-- The values of the scale are contained. -/
def IsContained (s : Scale) : Prop := s.All Text.IsContained

theorem isValue_of_mem_leaf {axis key value : String} {l : List (String × String)}
    (h : leaf axis key value = .ok l) : ∀ e ∈ l, isValue e.2 = true := by
  unfold leaf at h
  intro e he
  split at h
  · next hvalue =>
      rw [← Except.ok.inj h] at he
      rw [List.mem_singleton.1 he]
      exact hvalue
  · simp only [reduceCtorEq] at h

mutual

/-- Every leaf at and below a key has been checked. -/
theorem isValue_of_mem_valueLeaves {axis key : String} {l : List (String × String)} :
    ∀ {value : Yaml.Value}, valueLeaves axis key value = .ok l → ∀ e ∈ l, isValue e.2 = true
  | .mapping _, h => by
      rw [valueLeaves] at h
      exact isValue_of_mem_leaves h
  | .sequence _, h => by
      rw [valueLeaves] at h
      split at h
      · exact isValue_of_mem_leaf h
      · simp only [reduceCtorEq] at h
  | .null, h | .bool _, h | .number _, h | .text _, h | .tagged _ _, h => by
      rw [valueLeaves] at h
      · split at h
        · exact isValue_of_mem_leaf h
        · simp only [reduceCtorEq] at h
      all_goals simp only [reduceCtorEq, imp_self, implies_true]

/-- Every leaf of a nested axis has been checked. -/
theorem isValue_of_mem_leaves {axis : String} {group : Option String} :
    ∀ {entries : List (Yaml.Value × Yaml.Value)} {l : List (String × String)},
      leaves axis group entries = .ok l → ∀ e ∈ l, isValue e.2 = true
  | [], l, h => by
      rw [leaves] at h
      rw [← Except.ok.inj h]
      intro e he
      exact absurd he List.not_mem_nil
  | (key, value) :: rest, l, h => by
      rw [leaves] at h
      split at h
      · simp only [reduceCtorEq] at h
      · split at h
        · simp only [reduceCtorEq] at h
        · next here hhere =>
            split at h
            · simp only [reduceCtorEq] at h
            · next later hlater =>
                -- A leaf comes from this entry or from a later one.
                rw [← Except.ok.inj h]
                intro e he
                rcases List.mem_append.1 he with he | he
                · exact isValue_of_mem_valueLeaves hhere e he
                · exact isValue_of_mem_leaves hlater e he

end

/-- A scale from a configuration is contained. -/
theorem isContained_of_ofValue {axis : String} {value : Yaml.Value} {s : Scale}
    (h : ofValue axis value = .ok s) : IsContained s := by
  rw [ofValue.eq_def] at h
  split at h
  · rw [← Except.ok.inj h]
    exact SortedMap.All.empty
  · next entries =>
      rcases hleaves : leaves axis none entries with e | l
      · simp only [hleaves, Except.map, reduceCtorEq] at h
      · rw [hleaves] at h
        rw [← Except.ok.inj h]
        refine SortedMap.All.ofList fun e he => ?_
        exact isContained_of_isValue (isValue_of_mem_leaves hleaves e he)
  · simp only [reduceCtorEq] at h

end Scale

namespace Theme

variable {t : Theme}

/-- The values of all axes are contained. -/
def IsContained (t : Theme) : Prop := t.axes.All Scale.IsContained

theorem isContained_axisD (h : t.IsContained) (axis : String) :
    Scale.IsContained ((t.axis? axis).getD SortedMap.empty) := by
  rcases haxis : t.axis? axis with _ | scale
  · exact SortedMap.All.empty
  · exact h.get? haxis

theorem isContained_setAxis (h : t.IsContained) {s : Scale} (hs : s.IsContained)
    (axis : String) : (t.setAxis axis s).IsContained := by
  unfold IsContained
  rw [axes_setAxis]
  exact SortedMap.All.insert h hs axis

theorem isContained_extendAxis (h : t.IsContained) {s : Scale} (hs : s.IsContained)
    (axis : String) : (t.extendAxis axis s).IsContained :=
  isContained_setAxis h (SortedMap.All.extend (isContained_axisD h axis) hs) axis

theorem isContained_insert (h : t.IsContained) {value : String}
    (hvalue : Text.IsContained value) (axis key : String) :
    (t.insert axis key value).IsContained :=
  isContained_setAxis h (SortedMap.All.insert (isContained_axisD h axis) hvalue key) axis

theorem isContained_foldl_setAxis (h : t.IsContained)
    {axes : List (String × List (String × String))}
    (haxes : ∀ axis ∈ axes, ∀ e ∈ axis.2, Text.IsContained e.2) :
    (axes.foldl (fun t axis => t.setAxis axis.1 (SortedMap.ofList axis.2)) t).IsContained := by
  induction axes generalizing t with
  | nil => exact h
  | cons axis axes ih =>
      have hscale : Scale.IsContained (SortedMap.ofList axis.2) :=
        SortedMap.All.ofList (haxes axis List.mem_cons_self)
      rw [List.foldl_cons]
      exact ih (isContained_setAxis h hscale axis.1) fun axis' hmem =>
        haxes axis' (List.mem_cons_of_mem _ hmem)

theorem isContained_default : Theme.default.IsContained := by
  -- The table is finite, so it can be looked through.
  have htable : ∀ axis ∈ DefaultTheme.axes, ∀ e ∈ axis.2, Text.IsContained e.2 := by
    decide +kernel
  have hempty : Theme.empty.IsContained := SortedMap.All.empty
  exact isContained_foldl_setAxis hempty htable

-- Changes made axis by axis keep a theme contained if a single one does.
theorem isContained_of_applyAxes {change : Theme → String → Scale → Theme}
    (hchange : ∀ (t : Theme) (s : Scale), t.IsContained → s.IsContained →
      ∀ axis, (change t axis s).IsContained)
    {axes : List (String × Yaml.Value)} {t' : Theme} (ht : t.IsContained)
    (h : applyAxes change t axes = .ok t') : t'.IsContained := by
  induction axes generalizing t with
  | nil => exact Except.ok.inj h ▸ ht
  | cons entry axes ih =>
      rw [applyAxes] at h
      split at h
      · next s hs => exact ih (hchange t s ht (Scale.isContained_of_ofValue hs) entry.1) h
      · simp only [reduceCtorEq] at h

/-- A configuration keeps a theme contained. -/
theorem isContained_of_resolve {config : ThemeConfig} {t' : Theme} (ht : t.IsContained)
    (h : resolve t config = .ok t') : t'.IsContained := by
  unfold resolve at h
  split at h
  · next replaced hreplaced =>
      -- Axes are replaced first, and overlaid on what that gives.
      have hset :=
        isContained_of_applyAxes (fun _ _ ht hs => isContained_setAxis ht hs) ht hreplaced
      exact isContained_of_applyAxes (fun _ _ ht hs => isContained_extendAxis ht hs) hset h
  · simp only [reduceCtorEq] at h

theorem isContained_of_lookup? (h : t.IsContained) {axes : List String} {key value : String}
    (hvalue : t.lookup? axes key = some value) : Text.IsContained value := by
  rcases List.exists_of_findSome?_eq_some hvalue with ⟨axis, -, hget⟩
  unfold get? at hget
  split at hget
  · next scale hscale => exact (SortedMap.All.get? h hscale).get? hget
  · simp only [reduceCtorEq] at hget

end Theme

namespace Screen

theorem exists_of_mem_rankFrom {rank : Nat} {entries : List (String × String)} {s : Screen}
    (h : s ∈ rankFrom rank entries) : ∃ e ∈ entries, s.minWidth = e.2 := by
  induction entries generalizing rank with
  | nil => exact absurd h List.not_mem_nil
  | cons entry entries ih =>
      rcases List.mem_cons.1 h with rfl | h
      · exact ⟨entry, List.mem_cons_self, rfl⟩
      · rcases ih h with ⟨e, he, hwidth⟩
        exact ⟨e, List.mem_cons_of_mem _ he, hwidth⟩

end Screen

/-- The width of a breakpoint of a contained theme is contained. -/
theorem Theme.isContained_of_screen? {t : Theme} (h : t.IsContained) {name : String}
    {s : Screen} (hs : t.screen? name = some s) : Text.IsContained s.minWidth := by
  have hmem : s ∈ rankedScreens t.axes := t.screens_eq ▸ List.mem_of_find?_eq_some hs
  rcases Screen.exists_of_mem_rankFrom hmem with ⟨e, he, hwidth⟩
  rw [hwidth]
  exact isContained_axisD h screensAxis e (List.mem_mergeSort.1 he)

end UtilityCss
