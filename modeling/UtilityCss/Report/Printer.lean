import UtilityCss.Json
import UtilityCss.Report

/-!
# Written Reports

A report as text for programs to read.

## Main definitions

* `Report.toJson`: The fields of a report, in the order in which they are
  written.
* `Report.toText`: The text of a report.
-/

namespace UtilityCss

/-- The fields of a remark. One without advice has no field for it. -/
def Diagnostic.toJson (d : Diagnostic) : Json :=
  .object ([("severity", .text d.severity.word), ("code", .text d.code),
    ("message", .text d.message)] ++ d.help.toList.map fun help => ("help", .text help))

namespace Report

/-- The counts of a report. -/
def stats (r : Report) : Json :=
  .object [("files_scanned", .number r.filesScanned),
    ("candidate_tokens", .number r.candidateTokens),
    ("rules_emitted", .number r.rulesEmitted),
    ("unresolved", .number r.unresolvedTokens)]

/-- The fields of a report. -/
def toJson (r : Report) : Json :=
  .object [("unresolved", .array (r.unresolved.toList.map .text)),
    ("diagnostics", .array (r.diagnostics.map Diagnostic.toJson)),
    ("stats", r.stats)]

/-- The text of a report. -/
def toText (r : Report) : String := r.toJson.layOut

end Report

end UtilityCss
