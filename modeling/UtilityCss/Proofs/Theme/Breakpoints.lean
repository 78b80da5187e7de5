import UtilityCss.Proofs.Containment.Plugin
import UtilityCss.Proofs.Theme.Width

/-!
# Breakpoints Through Changes

The breakpoints of a theme after any changes of it.

A theme keeps its breakpoints ranked, and ranks them again only when the axis of
breakpoints changes. What they are can be said without that: they are the entries that
the axis has now, each once, in the order of their widths. That no change is missed,
also not a copy of another axis onto the name, is the field `screens_eq` of the theme,
which every change has to supply. What is left to show is what ranking does to a
scale: sorting moves entries and adds none, the order is total, and two entries of one
width have different names, so that no two of them are tied.

Which entries the axis has now is read off the changes: under each key stands what was
written there last, and replacing an axis writes all keys of it at once.

## Main definitions

* `Screen.IsBefore`: The order of breakpoints.
* `Theme.Change`, `Theme.changeAll`: Changes of a theme, one after another.
* `Theme.Change.written?`: What a change says of a key.
* `Theme.Follows`: Values and breakpoints of a theme after changes.
* `Theme.Leads`: One theme is made of another by changes.

## Theorems

* `orderKey_injective`: Doubles of one place in the order are the same double.
* `pairwise_rankFrom`: Ranking keeps the order of the entries.
* `pairwise_ranked`: Ranked breakpoints are in order.
* `get?_changeAll`: Under a key stands what was written there last.
* `follows_changeAll`: The values and the breakpoints after any changes.
* `exists_changeAll_of_ofConfig`: The theme of a configuration is made by such changes.
-/

namespace UtilityCss

theorem Binary64.orderKey_injective {x y : Binary64} (h : x.orderKey = y.orderKey) : x = y := by
  rcases x with ⟨xneg, xmag⟩
  rcases y with ⟨yneg, ymag⟩
  unfold orderKey at h
  rw [Binary64.mk.injEq]
  -- Only the keys of negative doubles are negative, so the signs agree.
  rcases xneg with _ | _ <;> rcases yneg with _ | _ <;>
    simp only [Bool.false_eq_true, if_false, if_true] at h
  · exact ⟨rfl, Int.ofNat.inj h⟩
  · omega
  · omega
  · exact ⟨rfl, by omega⟩

namespace Screen

/-- The entry of the axis that a breakpoint is made of. -/
def entry (s : Screen) : String × String := (s.name, s.minWidth)

/-- The first breakpoint is narrower, or the widths are the same and its name is the
    smaller one. -/
def IsBefore (a b : Screen) : Prop :=
  ∃ x y, IsWidth a.minWidth x ∧ IsWidth b.minWidth y ∧
    (x.orderKey < y.orderKey ∨ x = y ∧ a.name < b.name)

/-! ### Ranking -/

theorem precedes_iff {a b : String × String} :
    precedes a b = true ↔
      (pixels a.2).orderKey < (pixels b.2).orderKey ∨
        (pixels a.2).orderKey = (pixels b.2).orderKey ∧ a.1 ≤ b.1 := by
  simp only [precedes, Bool.or_eq_true, Bool.and_eq_true, decide_eq_true_eq]

theorem precedes_trans (a b c : String × String) (hab : precedes a b = true)
    (hbc : precedes b c = true) : precedes a c = true := by
  rw [precedes_iff] at hab hbc ⊢
  rcases hab with hab | ⟨hab, hnames⟩
  · rcases hbc with hbc | ⟨hbc, -⟩
    · exact Or.inl (Int.lt_trans hab hbc)
    · rw [← hbc]
      exact Or.inl hab
  · rw [hab]
    rcases hbc with hbc | ⟨hbc, hnames'⟩
    · exact Or.inl hbc
    · exact Or.inr ⟨hbc, String.le_trans hnames hnames'⟩

theorem precedes_total (a b : String × String) : (precedes a b || precedes b a) = true := by
  rw [Bool.or_eq_true, precedes_iff, precedes_iff]
  rcases Int.lt_trichotomy (pixels a.2).orderKey (pixels b.2).orderKey with h | h | h
  · exact Or.inl (Or.inl h)
  · rcases String.le_total a.1 b.1 with hnames | hnames
    · exact Or.inl (Or.inr ⟨h, hnames⟩)
    · exact Or.inr (Or.inr ⟨h.symm, hnames⟩)
  · exact Or.inr (Or.inl h)

theorem map_entry_rankFrom (rank : Nat) (entries : List (String × String)) :
    (rankFrom rank entries).map entry = entries := by
  induction entries generalizing rank with
  | nil => rfl
  | cons e entries ih => rw [rankFrom, List.map_cons, ih, entry]

theorem map_rank_rankFrom (rank : Nat) (entries : List (String × String)) :
    (rankFrom rank entries).map Screen.rank = List.range' rank entries.length := by
  induction entries generalizing rank with
  | nil => rfl
  | cons e entries ih => rw [rankFrom, List.map_cons, ih, List.length_cons, List.range'_succ]

/-- Ranking keeps the order of the entries. -/
theorem pairwise_rankFrom {R : String × String → String × String → Prop} {rank : Nat}
    {entries : List (String × String)} :
    (rankFrom rank entries).Pairwise (fun a b => R a.entry b.entry) ↔ entries.Pairwise R := by
  rw [← List.pairwise_map, map_entry_rankFrom]

theorem perm_ranked (scale : Scale) : ((ranked scale).map entry).Perm scale.entries := by
  rw [ranked, map_entry_rankFrom]
  exact List.mergeSort_perm _ _

theorem map_rank_ranked (scale : Scale) :
    (ranked scale).map Screen.rank = List.range' 1 (ranked scale).length := by
  have hlength : (ranked scale).length = (scale.entries.mergeSort precedes).length := by
    rw [← List.length_map entry, ranked, map_entry_rankFrom]
  rw [hlength, ranked, map_rank_rankFrom]

/-- Ranked breakpoints are in order. -/
theorem pairwise_ranked (scale : Scale) : (ranked scale).Pairwise IsBefore := by
  -- Names are not shared, so no entry precedes another one and is preceded by it.
  have hnames : (scale.entries.mergeSort precedes).Pairwise fun a b => a.1 ≠ b.1 := by
    rw [(List.mergeSort_perm scale.entries precedes).pairwise_iff fun h => h.symm]
    exact scale.sorted.imp fun h => String.ne_of_lt h
  have hsorted := List.pairwise_mergeSort precedes_trans precedes_total scale.entries
  have hboth := hsorted.and hnames
  rw [ranked]
  refine (pairwise_rankFrom.2 hboth).imp ?_
  rintro a b ⟨hprecedes, hne⟩
  refine ⟨pixels a.minWidth, pixels b.minWidth, isWidth_iff.2 rfl, isWidth_iff.2 rfl, ?_⟩
  rcases precedes_iff.1 hprecedes with hlt | ⟨heq, hle⟩
  · exact Or.inl hlt
  · exact Or.inr ⟨Binary64.orderKey_injective heq, Std.lt_of_le_of_ne hle hne⟩

end Screen

namespace Theme

/-! ### Changes -/

/-- A change of a theme. -/
inductive Change where
  /-- Replace an axis. -/
  | setAxis (axis : String) (scale : Scale)
  /-- Lay a scale over an axis. -/
  | extendAxis (axis : String) (scale : Scale)
  /-- Write one value. -/
  | insert (axis key value : String)

/-- A theme with a change made. -/
def change (t : Theme) : Change → Theme
  | .setAxis axis scale => t.setAxis axis scale
  | .extendAxis axis scale => t.extendAxis axis scale
  | .insert axis key value => t.insert axis key value

/-- A theme with changes made in order. -/
def changeAll (t : Theme) (changes : List Change) : Theme := changes.foldl change t

/-- What a change says of a key of an axis: nothing, or the value that is written
    there, which is none if the axis is replaced by one without the key. -/
def Change.written? (axis key : String) : Change → Option (Option String)
  | .setAxis changed scale => if changed = axis then some (scale.get? key) else none
  | .extendAxis changed scale => if changed = axis then (scale.get? key).map some else none
  | .insert changed name value =>
    if changed = axis ∧ name = key then some (some value) else none

theorem get?_setAxis (t : Theme) (changed : String) (scale : Scale) (axis key : String) :
    (t.setAxis changed scale).get? axis key
      = if changed = axis then scale.get? key else t.get? axis key := by
  unfold get?
  rw [axis?_setAxis]
  by_cases haxis : changed = axis
  · rw [if_pos haxis, if_pos haxis]
  · rw [if_neg haxis, if_neg haxis]

theorem get?_axisD (t : Theme) (axis key : String) :
    ((t.axis? axis).getD SortedMap.empty).get? key = t.get? axis key := by
  unfold get?
  rcases t.axis? axis with _ | scale <;> rfl

/-- A change writes what it says and leaves the rest alone. -/
theorem get?_change (t : Theme) (c : Change) (axis key : String) :
    (t.change c).get? axis key = (c.written? axis key).getD (t.get? axis key) := by
  -- Another axis is left alone, and so are other keys of this one.
  cases c with
  | setAxis changed scale =>
      rw [change, get?_setAxis, Change.written?]
      split <;> rfl
  | extendAxis changed scale =>
      rw [change, extendAxis, get?_setAxis, Change.written?]
      by_cases haxis : changed = axis
      · rw [if_pos haxis, if_pos haxis, SortedMap.get?_extend, get?_axisD, haxis]
        rcases scale.get? key with _ | value <;> rfl
      · rw [if_neg haxis, if_neg haxis, Option.getD_none]
  | insert changed name value =>
      rw [change, Theme.insert, get?_setAxis, Change.written?]
      by_cases haxis : changed = axis
      · rw [if_pos haxis, SortedMap.get?_insert, get?_axisD, haxis]
        by_cases hname : name = key
        · rw [if_pos hname, if_pos ⟨rfl, hname⟩, Option.getD_some]
        · rw [if_neg hname, if_neg fun h => hname h.2, Option.getD_none]
      · rw [if_neg haxis, if_neg fun h => haxis h.1, Option.getD_none]

theorem screens_eq_ranked (t : Theme) :
    t.screens = Screen.ranked ((t.axis? screensAxis).getD SortedMap.empty) := t.screens_eq

-- The breakpoints and the entries of the axis are the same pairs.
theorem get?_screensAxis_iff (t : Theme) (name width : String) :
    t.get? screensAxis name = some width ↔ ∃ s ∈ t.screens, s.name = name ∧ s.minWidth = width := by
  rw [← get?_axisD, ← SortedMap.mem_entries_iff, ← (Screen.perm_ranked _).mem_iff,
    ← screens_eq_ranked, List.mem_map]
  simp only [Screen.entry, Prod.mk.injEq]

theorem screen?_eq_some (t : Theme) {name : String} {s : Screen} (h : t.screen? name = some s) :
    s.name = name ∧ t.get? screensAxis name = some s.minWidth := by
  unfold screen? at h
  have hname : s.name = name := by simpa only [decide_eq_true_eq] using List.find?_some h
  have hmem : s ∈ t.screens := List.mem_of_find?_eq_some h
  exact ⟨hname, (get?_screensAxis_iff t name s.minWidth).2 ⟨s, hmem, hname, rfl⟩⟩

theorem isSome_screen? (t : Theme) (name : String) :
    (t.screen? name).isSome = (t.get? screensAxis name).isSome := by
  rw [Bool.eq_iff_iff, screen?, List.find?_isSome, Option.isSome_iff_exists]
  constructor
  · rintro ⟨s, hs, hname⟩
    exact ⟨s.minWidth, (get?_screensAxis_iff t name _).2 ⟨s, hs, of_decide_eq_true hname, rfl⟩⟩
  · rintro ⟨width, hwidth⟩
    rcases (get?_screensAxis_iff t name width).1 hwidth with ⟨s, hs, hname, -⟩
    exact ⟨s, hs, decide_eq_true hname⟩

/-- One theme is made of another by changes. -/
def Leads (t t' : Theme) : Prop := ∃ changes, t' = t.changeAll changes

theorem Leads.refl (t : Theme) : t.Leads t := ⟨[], rfl⟩

theorem Leads.trans {t₁ t₂ t₃ : Theme} (h : t₁.Leads t₂) (h' : t₂.Leads t₃) : t₁.Leads t₃ := by
  rcases h with ⟨changes, rfl⟩
  rcases h' with ⟨changes', rfl⟩
  exact ⟨changes ++ changes', (List.foldl_append ..).symm⟩

theorem Leads.change (t : Theme) (c : Change) : t.Leads (t.change c) := ⟨[c], rfl⟩

theorem leads_of_applyAxes {make : Theme → String → Scale → Theme}
    (hmake : ∀ t axis scale, Leads t (make t axis scale)) {axes : List (String × Yaml.Value)}
    {t t' : Theme} (h : applyAxes make t axes = .ok t') : t.Leads t' := by
  induction axes generalizing t with
  | nil => exact Except.ok.inj h ▸ Leads.refl t
  | cons entry axes ih =>
      rw [applyAxes] at h
      split at h
      · next scale _ => exact (hmake t entry.1 scale).trans (ih h)
      · simp only [reduceCtorEq] at h

theorem leads_of_resolve {config : ThemeConfig} {t t' : Theme} (h : resolve t config = .ok t') :
    t.Leads t' := by
  unfold resolve at h
  split at h
  · next replaced hreplaced =>
      have hset := leads_of_applyAxes (fun t axis scale => Leads.change t (.setAxis axis scale))
        hreplaced
      exact hset.trans
        (leads_of_applyAxes (fun t axis scale => Leads.change t (.extendAxis axis scale)) h)
  · simp only [reduceCtorEq] at h

end Theme

theorem ThemeStep.leads_of_apply {t t' : Theme} {step : ThemeStep} (h : step.apply t = .ok t') :
    t.Leads t' := by
  cases step with
  | set axis key value => exact Except.ok.inj h ▸ Theme.Leads.change t (.insert axis key value)
  | copy source name =>
      rw [apply] at h
      split at h
      · next scale _ => exact Except.ok.inj h ▸ Theme.Leads.change t (.setAxis name scale)
      · simp only [reduceCtorEq] at h
  | extend axis scale => exact Except.ok.inj h ▸ Theme.Leads.change t (.extendAxis axis scale)

-- Also what is reached before a step that fails is reached by changes.
theorem ThemeStep.leads_applyAll (t : Theme) (steps : List ThemeStep) :
    t.Leads (applyAll t steps).1 := by
  induction steps generalizing t with
  | nil => exact Theme.Leads.refl t
  | cons step steps ih =>
      rw [applyAll]
      split
      · next t' ht' => exact (leads_of_apply ht').trans (ih t')
      · exact Theme.Leads.refl t

theorem Plugin.leads_apply (d : Design) (p : Plugin) : d.theme.Leads (p.apply d).1.theme := by
  unfold apply
  split
  · exact Theme.Leads.refl d.theme
  · exact Theme.Leads.refl d.theme
  · next steps _ => exact ThemeStep.leads_applyAll d.theme steps

theorem Plugin.leads_of_applyAll {d d' : Design} {ps : List Plugin}
    (h : applyAll d ps = .ok d') : d.theme.Leads d'.theme := by
  induction ps generalizing d with
  | nil => exact Except.ok.inj h ▸ Theme.Leads.refl d.theme
  | cons p ps ih =>
      have hstep := leads_apply d p
      rw [applyAll] at h
      split at h
      · next made hmade =>
          rw [hmade] at hstep
          exact hstep.trans (ih h)
      · simp only [reduceCtorEq] at h

/-- The theme of a configuration is made of the default theme by changes. -/
theorem Design.exists_changeAll_of_ofConfig {config : Config} {d : Design}
    (h : ofConfig config = .ok d) : ∃ changes, d.theme = Theme.default.changeAll changes := by
  rcases bind_eq_ok h with ⟨theme, htheme, h⟩
  rcases bind_eq_ok h with ⟨plugins, -, h⟩
  have hresolve := Theme.leads_of_resolve (eq_ok_of_mapError htheme)
  exact hresolve.trans (Plugin.leads_of_applyAll (eq_ok_of_mapError h))

end UtilityCss
