import UtilityCss.Plugin.Spec
import UtilityCss.Theme
import UtilityCss.Variant

/-!
# Configurations

What a project says about its build: the content to scan, the theme, the
plugins, and how the stylesheet is written.

## Main definitions

* `ContentEntry`: Something to scan.
* `Config`: A configuration.
-/

namespace UtilityCss

/-- Something to scan. -/
inductive ContentEntry where
  /-- The files that a pattern matches. -/
  | glob (pattern : String)
  /-- The files that patterns match, with a pattern of their own for the text
      that holds tokens. -/
  | files (patterns : List String) (extract : Option String)
  /-- A text, with the extension that a file of it would have. -/
  | raw (text : String) (extension : Option String)
deriving DecidableEq, Repr, Inhabited

/-- A configuration. -/
structure Config where
  /-- What to scan. -/
  content : List ContentEntry
  /-- Patterns of files that are not scanned. -/
  exclude : List String
  /-- Changes to the default theme. -/
  theme : ThemeConfig
  /-- The plugins, in the order in which they are applied. -/
  plugins : List PluginRef
  /-- How the variant `dark` is expressed. -/
  darkMode : DarkMode
  /-- The stylesheet starts with the resets. -/
  preflight : Bool
  /-- The stylesheet is written without white space. -/
  minify : Bool
deriving Inhabited

/-- The configuration of a project that says nothing. -/
def Config.default : Config := ⟨[], [], ThemeConfig.empty, [], .media, false, false⟩

end UtilityCss
