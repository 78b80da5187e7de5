/-!
# Diagnostics

What a build has to say without failing.

A problem with one file or one pattern does not end a build: it is put down as
a warning, and the build goes on without the file. What is worth knowing but no
problem is put down as information.

## Main definitions

* `Severity`, `Diagnostic`: One remark.
* `Diagnostic.hasWarnings`, `Diagnostic.warningCount`, `Diagnostic.countOf`:
  Questions about a list of remarks.
* `DiagnosticCode.unresolved`, and the others: The codes of the program's own remarks.
-/

namespace UtilityCss

/-- How serious a remark is. -/
inductive Severity where
  /-- Worth knowing. -/
  | info
  /-- A problem that did not end the build. -/
  | warning
deriving DecidableEq, Repr, Inhabited

/-- The word for a severity. -/
def Severity.word : Severity → String
  | .info => "info"
  | .warning => "warning"

/-- One remark. -/
structure Diagnostic where
  /-- How serious it is. -/
  severity : Severity
  /-- What kind of remark it is. -/
  code : String
  /-- The remark. -/
  message : String
  /-- What it advises. -/
  help : Option String
deriving DecidableEq, Repr, Inhabited

namespace DiagnosticCode

/-- Nothing is configured to be scanned. -/
def noContent : String := "ucss::scan::no-content"

/-- A pattern matches no file. -/
def emptyPattern : String := "ucss::scan::empty-pattern"

/-- Something cannot be read. -/
def unreadable : String := "ucss::scan::unreadable"

/-- Tokens stand for no rule. -/
def unresolved : String := "ucss::generate::unresolved"

end DiagnosticCode

namespace Diagnostic

/-- The remark is a warning. -/
def isWarning (d : Diagnostic) : Bool := d.severity = .warning

/-- A warning without advice. -/
def warning (code message : String) : Diagnostic := ⟨.warning, code, message, none⟩

/-- There is a warning among some remarks. -/
def hasWarnings (ds : List Diagnostic) : Bool := ds.any isWarning

/-- The number of warnings among some remarks. -/
def warningCount (ds : List Diagnostic) : Nat := ds.countP isWarning

/-- The number of remarks of a code. -/
def countOf (code : String) (ds : List Diagnostic) : Nat :=
  ds.countP fun d => d.code = code

end Diagnostic

end UtilityCss
