import UtilityCss.Rule
import UtilityCss.Value.Arbitrary
import UtilityCss.Value.Transform
import UtilityCss.Yaml.Value

/-!
# Plugin Specifications

What a configuration says about plugins, before any of it is checked.

A plugin is named, if it comes along with the program, or written out. One
that is written out adds utilities, adds static rules, or changes the theme.

## Main definitions

* `UtilitySpec`, `ThemeStepSpec`: A utility and a change to the theme.
* `PluginSpec`: A plugin that is written out.
* `PluginRef`: A plugin in the list of a configuration.
-/

namespace UtilityCss

/-- A utility, as written in a configuration. -/
structure UtilitySpec where
  /-- The name in front of the value. -/
  stem : String
  /-- The properties that get the value. -/
  properties : List String
  /-- The axes that are searched. -/
  axes : List String
  /-- The utility's own values. -/
  values : Option Yaml.Value
  /-- The bracketed values that fit. -/
  accepts : ValueKind
  /-- How a value is computed from a key that is found nowhere. -/
  transform : Transform
  /-- The utility takes negated values. -/
  negatable : Bool
  /-- Further declarations, in order. -/
  extra : List (String × String)
deriving Repr, Inhabited

/-- A change to the theme, as written in a configuration. -/
inductive ThemeStepSpec where
  /-- Write one value. -/
  | set (axis key value : String)
  /-- Copy an axis. -/
  | copy (source name : String)
  /-- Lay values over an axis. -/
  | extend (axis : String) (values : Yaml.Value)
deriving Repr, Inhabited

/-- What a plugin that is written out contributes. -/
inductive PluginSpec where
  /-- Utilities. -/
  | utilities (utilities : List UtilitySpec)
  /-- Static rules of one layer: class names with properties and values, all in
      order. -/
  | statics (layer : Layer) (rules : List (String × List (String × String)))
  /-- Changes to the theme. -/
  | theme (steps : List ThemeStepSpec)
deriving Repr, Inhabited

/-- A plugin in the list of a configuration. -/
inductive PluginRef where
  /-- One that comes along with the program. -/
  | bundled (name : String)
  /-- One that is written out under a name. -/
  | inline (name : String) (spec : PluginSpec)
deriving Repr, Inhabited

end UtilityCss
