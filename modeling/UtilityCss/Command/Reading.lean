import UtilityCss.Command
import UtilityCss.Command.Arguments

/-!
# Commands from Words

The command that the words of a command line stand for.

The first word says which command it is. Every option is given once at most, and
there is at most one operand, which is the path of the project's root. A report
for programs takes the place of the stylesheet in what is printed, so it needs a
path for the stylesheet.

## Main definitions

* `Command.ofWords?`: The command of a command line.
-/

namespace UtilityCss

namespace Command

/-- The option for the path of the configuration. -/
def configForm : OptionForm := ⟨"config", some 'c', true⟩

/-- The options of a build. -/
def buildForms : List OptionForm :=
  [configForm, ⟨"output", some 'o', true⟩, ⟨"minify", none, false⟩, ⟨"report", none, true⟩]

/-- The options of a scan. -/
def scanForms : List OptionForm := [configForm, ⟨"unresolved", none, false⟩]

/-- The options of a first configuration. -/
def initForms : List OptionForm := [⟨"force", none, false⟩]

/-- The arguments of a command and the path of the project's root. -/
def argumentsOf? (forms : List OptionForm) (words : List String) :
    Option (List Argument × String) := do
  let arguments ← Argument.readAll? forms words
  if Argument.areUnique arguments && arguments.all Argument.isFilled then
    match Argument.operands arguments with
    | [] => some (arguments, defaultRoot)
    | [root] => some (arguments, root)
    | _ => none
  else none

/-- The build of some words. -/
def build? (words : List String) : Option BuildCommand := do
  let (arguments, root) ← argumentsOf? buildForms words
  let output := Argument.value? "output" arguments
  let report ← match Argument.value? "report" arguments with
    | none => some false
    | some format => if format = "json" && output.isSome then some true else none
  return {
    root, output, report
    config := Argument.value? "config" arguments
    minify := Argument.hasFlag "minify" arguments }

/-- The scan of some words. -/
def scan? (words : List String) : Option ScanCommand := do
  let (arguments, root) ← argumentsOf? scanForms words
  return {
    root
    config := Argument.value? "config" arguments
    unresolved := Argument.hasFlag "unresolved" arguments }

/-- The first configuration of some words. -/
def init? (words : List String) : Option InitCommand := do
  let (arguments, root) ← argumentsOf? initForms words
  return { root, force := Argument.hasFlag "force" arguments }

/-- The command of a command line. -/
def ofWords? : List String → Option Command
  | "build" :: words => (build? words).map .build
  | "scan" :: words => (scan? words).map .scan
  | "init" :: words => (init? words).map .init
  | _ => none

end Command

end UtilityCss
