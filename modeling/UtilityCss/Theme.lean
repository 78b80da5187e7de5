import UtilityCss.Theme.Screen

/-!
# Themes

The design values of a build: axes such as `spacing` and `colors`, each with
its scale.

A theme is made from a base and a configuration. Axes given on their own
replace those of the base; axes to be extended are laid over what is there
then, so an axis in both places is replaced first and extended afterwards.

The breakpoints are ranked when their axis changes and kept until it changes
again, because every responsive class asks for them. Each change says which axis
it is made to, and has to show that it leaves the others alone; that is what
makes it right to keep the breakpoints through changes of other axes.

## Main definitions

* `Theme`: Axes by name, and the breakpoints.
* `Theme.changed`: A theme with one axis changed.
* `Theme.get?`, `Theme.lookup?`: Values by axis and key.
* `Theme.setAxis`, `Theme.extendAxis`, `Theme.insert`: Changes.
* `Theme.screen?`: The breakpoint of a name.
* `ThemeConfig`: What a configuration says about the theme.
* `Theme.resolve`: A base theme changed by a configuration.
-/

namespace UtilityCss

/-- The axis that holds the breakpoints. -/
def Theme.screensAxis : String := "screens"

/-- The breakpoints that some axes hold. There are none without the axis of
    breakpoints. -/
def Theme.rankedScreens (axes : SortedMap Scale) : List Screen :=
  Screen.ranked ((axes.get? screensAxis).getD SortedMap.empty)

/-- The design values of a build, by axis. -/
structure Theme where
  /-- The axes. -/
  axes : SortedMap Scale
  /-- The breakpoints, narrowest first. -/
  screens : List Screen
  /-- The breakpoints are those of the axes. -/
  screens_eq : screens = Theme.rankedScreens axes
deriving DecidableEq

namespace Theme

/-- The theme without axes. -/
def empty : Theme := ⟨SortedMap.empty, [], Screen.ranked_empty.symm⟩

instance : Inhabited Theme := ⟨empty⟩

/-- The scale of an axis. -/
def axis? (t : Theme) (axis : String) : Option Scale := t.axes.get? axis

/-- The value under a key of an axis. -/
def get? (t : Theme) (axis key : String) : Option String :=
  match t.axis? axis with
  | some scale => scale.get? key
  | none => none

/-- The value under a key of the first axis that has it. -/
def lookup? (t : Theme) (axes : List String) (key : String) : Option String :=
  axes.findSome? fun axis => t.get? axis key

/-- The names of the axes, ascending. -/
def axisNames (t : Theme) : List String := t.axes.keys

/-- The theme with other axes, where one of them has changed. The breakpoints are
    ranked anew if it is theirs. -/
def changed (t : Theme) (axis : String) (axes : SortedMap Scale)
    (hothers : ∀ other, other ≠ axis → axes.get? other = t.axes.get? other) : Theme :=
  if haxis : axis = screensAxis then ⟨axes, rankedScreens axes, rfl⟩
  else ⟨axes, t.screens, by
    rw [t.screens_eq, rankedScreens, rankedScreens, hothers screensAxis (Ne.symm haxis)]⟩

/-- The theme with an axis replaced. -/
def setAxis (t : Theme) (axis : String) (scale : Scale) : Theme :=
  t.changed axis (t.axes.insert axis scale) fun other hother => by
    rw [SortedMap.get?_insert, if_neg (Ne.symm hother)]

theorem axes_changed (t : Theme) (axis : String) (axes : SortedMap Scale)
    (hothers : ∀ other, other ≠ axis → axes.get? other = t.axes.get? other) :
    (t.changed axis axes hothers).axes = axes := by
  unfold changed
  split <;> rfl

@[simp]
theorem axes_setAxis (t : Theme) (axis : String) (scale : Scale) :
    (t.setAxis axis scale).axes = t.axes.insert axis scale :=
  axes_changed t axis _ _

theorem axis?_setAxis (t : Theme) (axis : String) (scale : Scale) (other : String) :
    (t.setAxis axis scale).axis? other = if axis = other then some scale else t.axis? other := by
  unfold axis?
  rw [axes_setAxis, SortedMap.get?_insert]

/-- A theme is determined by its axes. -/
theorem ext_axis? {t t' : Theme} (h : ∀ axis, t.axis? axis = t'.axis? axis) : t = t' := by
  rcases t with ⟨axes, screens, rfl⟩
  rcases t' with ⟨axes', screens', rfl⟩
  have haxes : axes = axes' := SortedMap.ext_get? h
  rw [haxes]

/-- The theme with a scale laid over an axis, which is made if it is not
    there. -/
def extendAxis (t : Theme) (axis : String) (scale : Scale) : Theme :=
  t.setAxis axis (((t.axis? axis).getD SortedMap.empty).extend scale)

/-- The theme with one value written. -/
def insert (t : Theme) (axis key value : String) : Theme :=
  t.setAxis axis (((t.axis? axis).getD SortedMap.empty).insert key value)

/-- The breakpoint of a name. -/
def screen? (t : Theme) (name : String) : Option Screen :=
  t.screens.find? fun s => s.name = name

end Theme

/-- What a configuration says about the theme. -/
structure ThemeConfig where
  /-- Axes that replace those of the base. -/
  axes : SortedMap Yaml.Value
  /-- Axes laid over what is there. -/
  extend : SortedMap Yaml.Value
deriving Inhabited

namespace ThemeConfig

/-- The configuration that changes nothing. -/
def empty : ThemeConfig := ⟨SortedMap.empty, SortedMap.empty⟩

end ThemeConfig

namespace Theme

/-- Changes made axis by axis, each by the scale that the configuration gives
    it; the first value that is no scale is the error. -/
def applyAxes (change : Theme → String → Scale → Theme) (t : Theme) :
    List (String × Yaml.Value) → Except ScaleError Theme
  | [] => .ok t
  | (axis, value) :: rest =>
    match Scale.ofValue axis value with
    | .ok scale => applyAxes change (change t axis scale) rest
    | .error e => .error e

/-- A base theme changed by a configuration: replaced axes first, then the
    extended ones. -/
def resolve (base : Theme) (config : ThemeConfig) : Except ScaleError Theme :=
  match applyAxes setAxis base config.axes.entries with
  | .ok t => applyAxes extendAxis t config.extend.entries
  | .error e => .error e

end Theme

end UtilityCss
