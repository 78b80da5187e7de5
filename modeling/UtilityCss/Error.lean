import UtilityCss.FileTree.Error
import UtilityCss.Plugin

/-!
# Build Errors

Why a build ends without a stylesheet.

All of them arise before anything is written, except those of writing itself.

## Main definitions

* `BuildError`: The causes.
* `BuildError.message`, `BuildError.help`: Their wording and advice.
-/

namespace UtilityCss

/-- What was to be done with a file. -/
inductive FileAction where
  /-- Read the configuration. -/
  | readConfig
  /-- Write a first configuration. -/
  | writeConfig
  /-- Make the directory of the stylesheet. -/
  | createOutput
  /-- Write the stylesheet. -/
  | writeStylesheet
deriving DecidableEq, Repr

/-- The wording of what could not be done. -/
def FileAction.failure : FileAction → String
  | .readConfig => "Failed to read config"
  | .writeConfig => "Failed to write config"
  | .createOutput => "Failed to create output directory"
  | .writeStylesheet => "Failed to write stylesheet"

/-- Why a build ends without a stylesheet. -/
inductive BuildError where
  /-- The configuration is malformed or not of the right form. -/
  | invalidConfig
  /-- An axis of the theme is no scale. -/
  | scale (cause : ScaleError)
  /-- A plugin is not there, wrong, or cannot be applied. -/
  | plugin (cause : PluginError)
  /-- A pattern of files is malformed. -/
  | invalidGlob (pattern : String)
  /-- A pattern of text is malformed. -/
  | invalidExtract (pattern : String)
  /-- There is a configuration already. -/
  | configExists (path : String)
  /-- Something cannot be done with a file. -/
  | file (path : String) (action : FileAction) (cause : FileError)
deriving DecidableEq, Repr

namespace BuildError

/-- The wording of an error. -/
def message : BuildError → String
  | invalidConfig => "Configuration error: Invalid config"
  | scale cause => "Configuration error: " ++ cause.message
  | plugin cause => cause.message
  | invalidGlob pattern => s!"Configuration error: invalid glob '{pattern}'"
  | invalidExtract pattern => s!"Configuration error: invalid extract pattern '{pattern}'"
  | configExists path => s!"Configuration error: {path} already exists"
  | file path action cause => s!"IO error with {path}: {action.failure}: {cause.message}"

/-- What an error advises. -/
def help : BuildError → Option String
  | invalidConfig =>
    some ("Top-level keys are content, exclude, theme, plugins, darkMode, preflight, " ++
      "minify")
  | scale cause => cause.help
  | plugin cause => cause.help
  | invalidGlob _ => some "Use `*`, `**`, `?` and `\x7ba,b\x7d` alternation"
  | invalidExtract _ =>
    some "`extract` is a regular expression; capture group 1 is scanned"
  | configExists _ => some "Use --force to overwrite"
  | file _ _ _ => none

end BuildError

end UtilityCss
