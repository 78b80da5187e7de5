import UtilityCss.Build
import UtilityCss.Command
import UtilityCss.Command.Message
import UtilityCss.Discovery
import UtilityCss.Report.Printer

/-!
# Outcomes of Commands

What a command prints, what it says on the way, and how it leaves the files.

The configuration is loaded first; nothing is said before that. A build that
fails writes nothing, and neither do a scan and a first configuration that is
refused.

## Main definitions

* `Outcome`: What comes of a command.
* `Command.run`: The outcome of a command.
-/

namespace UtilityCss

/-- What comes of a command. -/
structure Outcome where
  /-- The files afterwards. -/
  tree : FileTree
  /-- What is printed. -/
  printed : String
  /-- What is said on the way. -/
  said : String
  /-- Why the command has failed, if it has. -/
  error : Option BuildError
deriving Inhabited

/-- The outcome of a command that fails and leaves the files so. -/
def Outcome.failure (t : FileTree) (said : String) (e : BuildError) : Outcome :=
  ⟨t, "", said, some e⟩

/-- The configuration at a path, or of the project with its root at a path, and
    the path of its file. -/
def Config.choose (t : FileTree) (root : String) :
    Option String → Except BuildError (Config × Option String)
  | some path => (Config.load t path).map (·, some path)
  | none => Config.discover t root

namespace BuildCommand

/-- What is said about the configuration. -/
def loading (t : FileTree) : Option String → String
  | some path => Message.line "Loading" (t.shown path)
  | none => Message.line "Using" "default config (no ucss.yaml found)"

/-- The files with the directories of a path to write to made, as far as that
    goes. -/
def withDirectories (t : FileTree) (path : String) : FileTree × Option BuildError :=
  match Path.parent? path with
  | none => (t, none)
  | some "" => (t, none)
  | some parent =>
    let (t, e) := t.makeDirectories parent
    (t, e.map (.file parent .createOutput))

/-- The files with a stylesheet written to a path, and its directories made, as
    far as that goes. -/
def save (t : FileTree) (stylesheet path : String) : FileTree × Option BuildError :=
  match withDirectories t path with
  | (t, some e) => (t, some e)
  | (t, none) =>
    match t.write path (Text.encode stylesheet) with
    | .ok t => (t, none)
    | .error e => (t, some (.file path .writeStylesheet e))

/-- The files after a build, and why the stylesheet could not be written. -/
def deliver (c : BuildCommand) (t : FileTree) (b : Build) : FileTree × Option BuildError :=
  match c.output with
  | some path => save t b.stylesheet path
  | none => (t, none)

/-- What a build prints. -/
def printed (c : BuildCommand) (b : Build) : String :=
  (if c.output.isNone then b.stylesheet else "")
    ++ (if c.report then b.report.toText ++ "\n" else "")

/-- What is said at the end of a build. -/
def finished (c : BuildCommand) (t : FileTree) (b : Build) : String :=
  let summary := Wording.count b.report.rulesEmitted "rule" "rules" ++ " from "
    ++ Wording.count b.report.filesScanned "file" "files" ++ " ("
    ++ Wording.byteSize b.stylesheet.utf8ByteSize ++ ")"
  Message.line "Finished" (match c.output with
    | some path => summary ++ " -> " ++ t.shown path
    | none => summary)

/-- The outcome of a build. The remarks are in the report, so they are not said
    as well where there is one. -/
def run (c : BuildCommand) (t : FileTree) : Outcome :=
  match Config.choose t c.root c.config with
  | .error e => .failure t "" e
  | .ok (config, source) =>
    let said := loading t source
    match Build.run t c.root { config with minify := config.minify || c.minify } with
    | .error e => .failure t said e
    | .ok b =>
      match c.deliver t b with
      | (t, some e) => .failure t said e
      | (t, none) =>
        let remarks := if c.report then "" else Message.ofDiagnostics b.report.diagnostics
        ⟨t, c.printed b, said ++ remarks ++ c.finished t b, none⟩

end BuildCommand

namespace ScanCommand

/-- The tokens that a scan lists. -/
def listed (c : ScanCommand) (config : Config) (tokens : SortedSet) :
    Except BuildError SortedSet := do
  if c.unresolved then
    let d ← Design.ofConfig config
    return (d.resolveAll tokens).2
  else return tokens

/-- The outcome of a scan. -/
def run (c : ScanCommand) (t : FileTree) : Outcome :=
  match Config.choose t c.root c.config with
  | .error e => .failure t "" e
  | .ok (config, _) =>
    match Content.resolve t c.root config with
    | .error e => .failure t "" e
    | .ok sel =>
      let found := sel.scan t
      let said := Message.line "Scanning" (Wording.count sel.size "file" "files")
        ++ Message.ofDiagnostics (sel.diagnostics ++ found.diagnostics)
      match c.listed config found.tokens with
      | .error e => .failure t said e
      | .ok tokens => ⟨t, String.join (tokens.toList.map (· ++ "\n")), said, none⟩

end ScanCommand

namespace InitCommand

/-- The configuration that is there already. -/
def existing? (c : InitCommand) (t : FileTree) : Option String :=
  (Config.fileNames.map (Path.join c.root)).find? t.has

/-- The name of the configuration that is written. -/
def fileName : String := "ucss.yaml"

/-- What is said about a configuration that has been written. -/
def created (d : Discovery) : String :=
  (if d.patterns.isEmpty then ""
    else Message.line "Discovered" (", ".intercalate d.patterns))
  ++ Message.line "Created"
    (fileName ++ " (" ++ Wording.count d.size "content file" "content files" ++ " found)")

/-- The outcome of writing a first configuration. -/
def write (c : InitCommand) (t : FileTree) : Outcome :=
  let said := Message.line "Scanning" (t.shown c.root)
  let d := Discovery.ofTree t c.root
  let path := Path.join c.root fileName
  match t.write path (Text.encode d.starterText) with
  | .error e => .failure t said (.file path .writeConfig e)
  | .ok t => ⟨t, "", said ++ created d, none⟩

/-- The outcome of a first configuration. One that is there is kept, unless it
    is to be written over. -/
def run (c : InitCommand) (t : FileTree) : Outcome :=
  match c.existing? t with
  | some path => if c.force then c.write t else .failure t "" (.configExists (t.shown path))
  | none => c.write t

end InitCommand

/-- The outcome of a command. -/
def Command.run (t : FileTree) : Command → Outcome
  | .build c => c.run t
  | .scan c => c.run t
  | .init c => c.run t

end UtilityCss
