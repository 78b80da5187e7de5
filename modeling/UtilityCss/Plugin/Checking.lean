import UtilityCss.Plugin.Bundled
import UtilityCss.Plugin.Spec
import UtilityCss.Text.Blank
import UtilityCss.Text.Cut

/-!
# Checking Plugins

The plugins that a configuration asks for, checked before any is applied.

Names, properties and values of a plugin are copied into the stylesheet, so a
name is made of lower-case words joined by hyphens, a property is such a name
after at most two hyphens, and a value may neither be blank nor end the block
that it stands in.

The first fault counts. A utility is checked in the order of its stem, its
properties, its values, whether it can have a value at all, and its further
declarations.

## Main definitions

* `PluginName.isName`, `PluginName.isProperty`: The forms of names.
* `Plugin.ofRef`: The plugin that an entry asks for.
* `Plugin.ofRefs`: The plugins that a configuration asks for.
-/

namespace UtilityCss

namespace PluginName

/-- A word of a name: lower-case ASCII letters and digits, at least one. -/
def isWord (cs : List Char) : Bool :=
  !cs.isEmpty && cs.all fun c => c.isLower || c.isDigit

/-- The text starts with a lower-case ASCII letter. -/
def startsLower : List Char → Bool
  | [] => false
  | c :: _ => c.isLower

/-- A name: words joined by hyphens, starting with a letter. -/
def isName (cs : List Char) : Bool :=
  startsLower cs && (Text.cutAll '-' cs).all isWord

/-- A property: a name after at most two hyphens. -/
def isProperty : List Char → Bool
  | '-' :: '-' :: cs => isName cs
  | '-' :: cs => isName cs
  | cs => isName cs

/-- A value that may stand in a block. -/
def isValue (value : String) : Bool :=
  !Text.isBlankText value
    && !value.toList.any fun c => c = '{' || c = '}' || c = ';' || c = '\n'

end PluginName

namespace Plugin

open PluginName

/-- Nothing, if a test holds, and a fault otherwise. -/
def check (holds : Bool) (fault : PluginFault) : Except PluginFault Unit :=
  if holds then .ok () else .error fault

/-- A checked declaration. -/
def declaration (d : String × String) : Except PluginFault Declaration := do
  check (isProperty d.1.toList) (.invalidProperty d.1)
  check (isValue d.2) (.invalidValue d.1 d.2)
  return ⟨d.1, d.2⟩

/-- A checked scale. -/
def scaleOf (axis : String) (values : Yaml.Value) : Except PluginFault Scale :=
  (Scale.ofValue axis values).mapError .scale

/-- A checked utility. -/
def utility (u : UtilitySpec) : Except PluginFault Utility := do
  check (isName u.stem.toList) (.invalidStem u.stem)
  check (!u.properties.isEmpty) (.noProperties u.stem)
  u.properties.forM fun p => check (isProperty p.toList) (.invalidProperty p)
  let values ← match u.values with
    | some values => scaleOf u.stem values
    | none => .ok SortedMap.empty
  check (!(u.axes.isEmpty && values.isEmpty && u.transform = .none)) (.noValueSource u.stem)
  let extra ← u.extra.mapM declaration
  let target : Target :=
    { axes := u.axes, values, properties := u.properties, accepts := u.accepts,
      transform := u.transform, extra }
  return ⟨u.stem, [target], u.negatable⟩

/-- A checked static rule. -/
def staticRule (layer : Layer) (r : String × List (String × String)) :
    Except PluginFault StaticRule := do
  check (isName r.1.toList) (.invalidClass r.1)
  check (!r.2.isEmpty) (.noDeclarations r.1)
  return ⟨r.1, ← r.2.mapM declaration, layer⟩

/-- A checked change to the theme. -/
def themeStep : ThemeStepSpec → Except PluginFault ThemeStep
  | .set axis key value =>
    if isValue value then .ok (.set axis key value) else .error (.invalidValue key value)
  | .copy source name => .ok (.copy source name)
  | .extend axis values => (scaleOf axis values).map (.extend axis)

/-- A checked contribution. -/
def contributionOf : PluginSpec → Except PluginFault Contribution
  | .utilities us => (us.mapM utility).map .utilities
  | .statics layer rules => (rules.mapM (staticRule layer)).map .statics
  | .theme steps => (steps.mapM themeStep).map .theme

/-- The plugin that an entry of a configuration asks for. -/
def ofRef : PluginRef → Except PluginError Plugin
  | .bundled name =>
    match bundled? name with
    | some p => .ok p
    | none => .error (.unknown name bundledNames)
  | .inline name spec =>
    if Text.isBlankText name then .error .unnamed
    else match contributionOf spec with
      | .ok c => .ok ⟨name, c⟩
      | .error fault => .error (.faulty name fault)

/-- The plugins that the entries of a configuration ask for. -/
def ofRefs (refs : List PluginRef) : Except PluginError (List Plugin) :=
  refs.mapM ofRef

end Plugin

end UtilityCss
