import UtilityCss.Grammar
import UtilityCss.Theme

/-!
# Plugins

What plugins contribute to a build, and how it is applied.

Plugins change the theme and the grammar before the first token is resolved.
They are applied in order, and a later contribution shadows an earlier one of
the same name. A plugin is checked when it is made; applying one can fail only
by copying an axis that is not there, so `Plugin.apply` gives what has been
reached along with the fault, if there is one.

## Main definitions

* `ThemeStep`, `Contribution`, `Plugin`: What plugins do.
* `PluginFault`: What can be wrong with a plugin.
* `Design`: The theme and the grammar that a build works with.
* `Plugin.apply`: A plugin applied to a design.
-/

namespace UtilityCss

/-- A change to the theme. -/
inductive ThemeStep where
  /-- Write one value. -/
  | set (axis key value : String)
  /-- Copy an axis to another name. -/
  | copy (source name : String)
  /-- Lay a scale over an axis. -/
  | extend (axis : String) (scale : Scale)
deriving DecidableEq, Inhabited

/-- What a plugin contributes. -/
inductive Contribution where
  /-- Utilities to register. -/
  | utilities (utilities : List Utility)
  /-- Static rules to register. -/
  | statics (rules : List StaticRule)
  /-- Changes to the theme. -/
  | theme (steps : List ThemeStep)
deriving DecidableEq, Inhabited

/-- A checked plugin. -/
structure Plugin where
  /-- Its name. -/
  name : String
  /-- What it contributes. -/
  contribution : Contribution
deriving DecidableEq, Inhabited

/-- What can be wrong with a plugin that is written out. -/
inductive PluginFault where
  /-- A class name is malformed. -/
  | invalidClass (name : String)
  /-- A utility's stem is malformed. -/
  | invalidStem (name : String)
  /-- A static rule has no declarations. -/
  | noDeclarations (name : String)
  /-- A utility has no properties. -/
  | noProperties (stem : String)
  /-- A utility can have no value. -/
  | noValueSource (stem : String)
  /-- A property is malformed. -/
  | invalidProperty (property : String)
  /-- A value may not be copied into a stylesheet. -/
  | invalidValue (name value : String)
  /-- Some values are no scale. -/
  | scale (cause : ScaleError)
  /-- An axis that is to be copied is not there. -/
  | missingAxis (axis : String) (known : List String)
deriving DecidableEq, Repr

namespace PluginFault

/-- The wording of the fault. -/
def message : PluginFault → String
  | invalidClass name => s!"invalid class name '{name}'"
  | invalidStem name => s!"invalid utility prefix '{name}'"
  | noDeclarations name => s!"rule '{name}' has no declarations"
  | noProperties stem => s!"utility '{stem}' has no properties"
  | noValueSource stem => s!"utility '{stem}' has no value source"
  | invalidProperty property => s!"invalid CSS property '{property}'"
  | invalidValue name value => s!"invalid value for '{name}': '{value}'"
  | scale cause => cause.message
  | missingAxis axis _ => s!"cannot alias missing theme axis '{axis}'"

/-- What the fault advises. -/
def help : PluginFault → Option String
  | noValueSource _ => some "Give it `axes`, `values` or a `transform`"
  | scale cause => cause.help
  | missingAxis _ known => some ("Known axes: " ++ ", ".intercalate known)
  | _ => none

end PluginFault

/-- Why there is no plugin, or why it cannot be applied. -/
inductive PluginError where
  /-- No plugin of that name comes along with the program. -/
  | unknown (name : String) (bundled : List String)
  /-- A plugin is written out without a name. -/
  | unnamed
  /-- Something is wrong with a plugin. -/
  | faulty (plugin : String) (fault : PluginFault)
deriving DecidableEq, Repr

namespace PluginError

/-- The wording of the error. -/
def message : PluginError → String
  | unknown name _ => s!"Configuration error: unknown plugin '{name}'"
  | unnamed => "Configuration error: inline plugins need a non-empty name"
  | faulty plugin fault => s!"Plugin '{plugin}' failed: {fault.message}"

/-- What the error advises. -/
def help : PluginError → Option String
  | unknown _ bundled => some ("Bundled plugins: " ++ ", ".intercalate bundled)
  | unnamed => none
  | faulty _ fault => fault.help

end PluginError

/-- The theme and the grammar that a build works with. -/
structure Design where
  /-- The theme. -/
  theme : Theme
  /-- The grammar. -/
  grammar : Grammar
deriving Inhabited

namespace ThemeStep

/-- A theme with a change made. -/
def apply (t : Theme) : ThemeStep → Except PluginFault Theme
  | set axis key value => .ok (t.insert axis key value)
  | copy source name =>
    match t.axis? source with
    | some scale => .ok (t.setAxis name scale)
    | none => .error (.missingAxis source t.axisNames)
  | extend axis scale => .ok (t.extendAxis axis scale)

/-- A theme with changes made in order up to the first that fails, and why that
    one does. -/
def applyAll (t : Theme) : List ThemeStep → Theme × Option PluginFault
  | [] => (t, none)
  | step :: rest =>
    match step.apply t with
    | .ok t => applyAll t rest
    | .error fault => (t, some fault)

end ThemeStep

namespace Plugin

/-- A design with a plugin applied, as far as that goes, and why it goes no
    further. -/
def apply (d : Design) (p : Plugin) : Design × Option PluginError :=
  match p.contribution with
  | .utilities us => ({ d with grammar := us.foldl Grammar.register d.grammar }, none)
  | .statics rs => ({ d with grammar := rs.foldl Grammar.registerStatic d.grammar }, none)
  | .theme steps =>
    let (theme, fault) := ThemeStep.applyAll d.theme steps
    ({ d with theme }, fault.map (.faulty p.name))

/-- A design with plugins applied in order. -/
def applyAll (d : Design) : List Plugin → Except PluginError Design
  | [] => .ok d
  | p :: rest =>
    match p.apply d with
    | (d, none) => applyAll d rest
    | (_, some e) => .error e

end Plugin

end UtilityCss
