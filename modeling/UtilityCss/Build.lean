import UtilityCss.Config.Reading
import UtilityCss.Grammar.Default
import UtilityCss.Plugin.Checking
import UtilityCss.Report
import UtilityCss.Resolution
import UtilityCss.Scan
import UtilityCss.Stylesheet.Preflight
import UtilityCss.Stylesheet.Printer
import UtilityCss.Theme.Default
import UtilityCss.Wording

/-!
# Builds

From a configuration and files to a stylesheet.

The theme and the grammar come first, then the content is found and scanned,
then every token is resolved, and the rules are put together. Everything that
can end a build does so before there is a stylesheet; what is wrong with single
files is put into the report.

## Main definitions

* `Design.ofConfig`: The theme and grammar of a configuration.
* `Design.resolveAll`: The rules of tokens, and the tokens without one.
* `Build`: The outcome of a build.
* `Build.run`: A build.
* `Config.discover`: The configuration of a project.
-/

namespace UtilityCss

namespace Design

/-- The theme and the grammar of a configuration. -/
def ofConfig (config : Config) : Except BuildError Design := do
  let theme ← (Theme.resolve Theme.default config.theme).mapError .scale
  let plugins ← (Plugin.ofRefs config.plugins).mapError .plugin
  let grammar := Grammar.default.withDarkMode config.darkMode
  (Plugin.applyAll ⟨theme, grammar⟩ plugins).mapError .plugin

/-- The rule of a token. -/
def ruleOf? (d : Design) (token : String) : Option Rule :=
  Rule.ofToken? d.theme d.grammar token

/-- The rules of some tokens, in the order of the tokens, and the tokens without
    one. -/
def resolveAll (d : Design) (tokens : SortedSet) : List Rule × SortedSet :=
  (tokens.toList.filterMap d.ruleOf?, tokens.filter fun token => (d.ruleOf? token).isNone)

end Design

/-- The outcome of a build. -/
structure Build where
  /-- The text of the stylesheet. -/
  stylesheet : String
  /-- The report. -/
  report : Report
deriving Inhabited

namespace Build

/-- The remark on a configuration that names no content. -/
def noContent : Diagnostic :=
  { severity := .warning
    code := DiagnosticCode.noContent
    message := "no content sources configured"
    help := some "Add glob patterns under `content:` in ucss.yaml" }

/-- The remark on tokens without a rule. -/
def unresolvedTokens (count : Nat) : Diagnostic :=
  { severity := .info
    code := DiagnosticCode.unresolved
    message :=
      Wording.count count "candidate token" "candidate tokens" ++ " did not match any utility"
    help := none }

/-- The outcome of resolving what has been found. -/
def ofFindings (config : Config) (d : Design) (before : List Diagnostic) (found : Findings) :
    Build :=
  let (rules, unresolved) := d.resolveAll found.tokens
  let remarks := if unresolved.isEmpty then [] else [unresolvedTokens unresolved.size]
  { stylesheet := (Stylesheet.assemble config.preflight rules).toText config.minify
    report :=
      { unresolved
        diagnostics := before ++ found.diagnostics ++ remarks
        filesScanned := found.filesScanned
        candidateTokens := found.tokens.size
        rulesEmitted := rules.length
        unresolvedTokens := unresolved.size } }

/-- The build of a configuration, for a project with its root at a path. -/
def run (t : FileTree) (root : String) (config : Config) : Except BuildError Build := do
  let d ← Design.ofConfig config
  let sel ← Content.resolve t root config
  let remarks := sel.diagnostics ++ (if config.content.isEmpty then [noContent] else [])
  return ofFindings config d remarks (sel.scan t)

end Build

namespace Config

/-- The names of a project's configuration, in the order in which they are
    looked for. -/
def fileNames : List String := ["ucss.yaml", "ucss.yml", "ucss.json"]

/-- The configuration in a file. -/
def load (t : FileTree) (path : String) : Except BuildError Config :=
  match t.readText path with
  | .error e => .error (.file path .readConfig e)
  | .ok text =>
    match parse? text with
    | some config => .ok config
    | none => .error .invalidConfig

/-- The configuration of the project with its root at a path, and the path of
    its file. A project without one has the default configuration. -/
def discover (t : FileTree) (root : String) : Except BuildError (Config × Option String) :=
  match (fileNames.map (Path.join root)).find? t.isFile with
  | some path => (load t path).map (·, some path)
  | none => .ok (Config.default, none)

end Config

end UtilityCss
