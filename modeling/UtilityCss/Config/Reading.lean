import UtilityCss.Config
import UtilityCss.Config.Record
import UtilityCss.Text.Blank
import UtilityCss.Yaml.Node

/-!
# Reading Configurations

The configuration that a document spells.

The names of the top level are fixed, and an unknown one is an error. Texts at
known places are taken as they are written, so `exclude: [1.50]` excludes
`1.50`; nothing written counts as an empty list, an empty mapping, or no
configuration at all. The entries of `content` and `plugins` are records.

Axes of a theme are kept as values. They become scales only when the theme is
resolved, but a mapping in them that holds a key twice is refused here.

## Main definitions

* `ContentEntry.ofValue?`, `PluginRef.ofValue?`: Records of a configuration.
* `Config.ofDocument?`: The configuration of a document.
* `Config.parse?`: The configuration that a text spells.
-/

namespace UtilityCss

open Yaml (Node Value Document)

/-- The entry of `content` that a value spells. A record with `files` is one of
    patterns, whatever else it holds. -/
def ContentEntry.ofValue? : Value → Option ContentEntry
  | .text pattern => some (.glob pattern)
  | .mapping entries =>
    let files? : Option ContentEntry := do
      let fields ← Record.entries? ["files", "extract"] false entries
      let patterns ← Record.required? fields "files" (Record.listOf? Record.text?)
      let extract ← Record.field? fields "extract" Record.optionalText? none
      return .files patterns extract
    let raw? : Option ContentEntry := do
      let fields ← Record.entries? ["raw", "extension"] false entries
      let text ← Record.required? fields "raw" Record.text?
      let extension ← Record.field? fields "extension" Record.optionalText? none
      return .raw text extension
    files? <|> raw?
  | _ => none

/-- The kind of bracketed values that a word stands for. -/
def ValueKind.ofWord? : String → Option ValueKind
  | "any" => some .any
  | "length" => some .length
  | "color" => some .color
  | "number" => some .number
  | _ => none

/-- The transform that a word stands for. -/
def Transform.ofWord? : String → Option Transform
  | "none" => some .none
  | "fraction" => some .fraction
  | "grid-repeat" => some .gridRepeat
  | "span" => some .span
  | _ => Option.none

/-- The layer that a word stands for. -/
def Layer.ofWord? : String → Option Layer
  | "base" => some .base
  | "components" => some .components
  | "utilities" => some .utilities
  | _ => none

/-- The dark mode that a word stands for. -/
def DarkMode.ofWord? : String → Option DarkMode
  | "media" => some .media
  | "class" => some .byClass
  | _ => none

/-- The utility that a record spells. -/
def UtilitySpec.ofValue? (v : Value) : Option UtilitySpec := do
  let fields ← Record.fields? ["prefix", "properties", "axes", "values", "type", "transform",
    "negative", "extra"] true v
  let stem ← Record.required? fields "prefix" Record.text?
  let properties ← Record.required? fields "properties" (Record.listOf? Record.text?)
  let axes ← Record.field? fields "axes" (Record.listOf? Record.text?) []
  let values ← Record.field? fields "values"
    (fun v => match v with
      | .null => some none
      | v => (Record.value? v).map some) none
  let accepts ← Record.field? fields "type"
    (fun v => Record.choice? ["any", "length", "color", "number"] v >>= ValueKind.ofWord?) .any
  let transform ← Record.field? fields "transform"
    (fun v => Record.choice? ["none", "fraction", "grid-repeat", "span"] v
      >>= Transform.ofWord?) .none
  let negatable ← Record.field? fields "negative" Record.bool? false
  let extra ← Record.field? fields "extra" (Record.textMapOf? Value.scalarText?) []
  return { stem, properties, axes, values, accepts, transform, negatable, extra }

/-- The change to the theme that a tagged record spells. -/
def ThemeStepSpec.ofValue? (v : Value) : Option ThemeStepSpec := do
  let (tag, v) ← Record.tagged? "op" ["set", "alias", "extend"] v
  match tag with
  | "set" =>
    let fields ← Record.fields? ["axis", "key", "value"] false v
    return .set (← Record.required? fields "axis" Record.text?)
      (← Record.required? fields "key" Value.scalarText?)
      (← Record.required? fields "value" Value.scalarText?)
  | "alias" =>
    let fields ← Record.fields? ["from", "to"] false v
    return .copy (← Record.required? fields "from" Record.text?)
      (← Record.required? fields "to" Record.text?)
  | _ =>
    let fields ← Record.fields? ["axis", "values"] false v
    return .extend (← Record.required? fields "axis" Record.text?)
      (← Record.required? fields "values" Record.value?)

/-- The plugin that a tagged record spells. -/
def PluginRef.ofRecord? (v : Value) : Option PluginRef := do
  let (tag, v) ← Record.tagged? "kind" ["grammar", "static", "theme"] v
  match tag with
  | "grammar" =>
    let fields ← Record.fields? ["name", "utilities"] false v
    let name ← Record.required? fields "name" Record.text?
    return .inline name
      (.utilities (← Record.required? fields "utilities" (Record.listOf? UtilitySpec.ofValue?)))
  | "static" =>
    let fields ← Record.fields? ["name", "layer", "rules"] false v
    let name ← Record.required? fields "name" Record.text?
    let layer ← Record.field? fields "layer"
      (fun v => Record.choice? ["base", "components", "utilities"] v >>= Layer.ofWord?)
      .utilities
    let rules ← Record.required? fields "rules"
      (Record.textMapOf? (Record.textMapOf? Value.scalarText?))
    return .inline name (.statics layer rules)
  | _ =>
    let fields ← Record.fields? ["name", "ops"] false v
    let name ← Record.required? fields "name" Record.text?
    return .inline name
      (.theme (← Record.required? fields "ops" (Record.listOf? ThemeStepSpec.ofValue?)))

/-- The entry of `plugins` that a value spells. -/
def PluginRef.ofValue? : Value → Option PluginRef
  | .text name => some (.bundled name)
  | v => PluginRef.ofRecord? v

/-- The text of a scalar, however it is written. -/
def scalarOf? : Node → Option String
  | .scalar text _ => some text
  | _ => none

/-- The items of a sequence, none where nothing is written. -/
def itemsOf? : Node → Option (List Node)
  | .sequence items => some items
  | .scalar "" true => some []
  | _ => none

/-- The entries of a mapping from texts, none where nothing is written. -/
def entriesOf? : Node → Option (List (String × Node))
  | .mapping entries => entries.mapM fun (k, n) => (scalarOf? k).map (·, n)
  | .scalar "" true => some []
  | _ => none

/-- A truth value. -/
def boolOf? (n : Node) : Option Bool := n.value? >>= Record.bool?

/-- An axis with its value. -/
def axisOf? (e : String × Node) : Option (String × Value) :=
  (e.2.value? >>= Record.value?).map (e.1, ·)

/-- The axes in some entries of a theme, where the last value of an axis
    counts. -/
def axesOf? (entries : List (String × Node)) : Option (SortedMap Value) :=
  match entries.mapM axisOf? with
  | some axes => some (SortedMap.ofList axes)
  | none => none

/-- The changes to the theme that a node spells: axes at the top and under
    `extend`. -/
def ThemeConfig.ofNode? (n : Node) : Option ThemeConfig := do
  let entries ← entriesOf? n
  let axes ← axesOf? (entries.filter fun e => e.1 ≠ "extend")
  let extend ← match entries.filter fun e => e.1 = "extend" with
    | [] => some SortedMap.empty
    | [(_, n)] => entriesOf? n >>= axesOf?
    | _ => none
  return ⟨axes, extend⟩

namespace Config

/-- The names of the top level. -/
def topNames : List String :=
  ["content", "exclude", "theme", "plugins", "darkMode", "preflight", "minify"]

/-- The value of a field, or what stands for it where it is missing. -/
def field? {α : Type} (fields : List (String × Node)) (name : String)
    (form? : Node → Option α) (missing : α) : Option α :=
  match fields.lookup name with
  | some n => form? n
  | none => some missing

/-- The list that a node spells, item by item. -/
def listOf? {α : Type} (item? : Node → Option α) (n : Node) : Option (List α) :=
  itemsOf? n >>= List.mapM item?

/-- The configuration that a node spells. -/
def ofNode? (n : Node) : Option Config := do
  let fields ← entriesOf? n
  let names := fields.map Prod.fst
  if !(names.all topNames.contains && Record.areDistinct names) then none
  let content ← field? fields "content"
    (listOf? fun n => n.value? >>= ContentEntry.ofValue?) []
  let exclude ← field? fields "exclude" (listOf? scalarOf?) []
  let theme ← field? fields "theme" ThemeConfig.ofNode? ThemeConfig.empty
  let plugins ← field? fields "plugins"
    (listOf? fun n => n.value? >>= PluginRef.ofValue?) []
  let darkMode ← field? fields "darkMode"
    (fun n => scalarOf? n >>= DarkMode.ofWord?) .media
  let preflight ← field? fields "preflight" boolOf? false
  let minify ← field? fields "minify" boolOf? false
  return { content, exclude, theme, plugins, darkMode, preflight, minify }

/-- The configuration that a document spells. -/
def ofDocument? : Document → Option Config
  | none => some Config.default
  | some n => ofNode? n

/-- The configuration that a text spells, or `none` if the text is malformed or
    spells something else. -/
def parse? (text : String) : Option Config :=
  if Text.isBlankText text then some Config.default
  else Yaml.read? text >>= ofDocument?

end Config

end UtilityCss
