import UtilityCss.Diagnostic
import UtilityCss.FileTree

/-!
# Messages

What a command says about its progress, line by line.

A line starts with a verb that ends in the twelfth column, so that what is said
stands in a column of its own.

## Main definitions

* `Message.line`: A line.
* `Message.ofDiagnostic`: The lines of a remark.
* `FileTree.shown`: A path as it is shown.
-/

namespace UtilityCss

/-- A path as it is shown: below the directory that relative paths start from,
    from there on. -/
def FileTree.shown (t : FileTree) (path : String) : String :=
  match Path.remainder? t.workDir path with
  | some rest => if rest = "" then "." else rest
  | none => path

namespace Message

/-- The column that verbs end in. -/
def verbWidth : Nat := 12

/-- A line. -/
def line (verb message : String) : String :=
  String.ofList (List.replicate (verbWidth - verb.length) ' ') ++ verb ++ " " ++ message ++ "\n"

/-- The verb of a remark. -/
def verbOf : Severity → String
  | .warning => "warning"
  | .info => "note"

/-- The lines of a remark. -/
def ofDiagnostic (d : Diagnostic) : String :=
  line (verbOf d.severity) (d.message ++ " [" ++ d.code ++ "]")
    ++ String.join (d.help.toList.map (line "help"))

/-- The lines of some remarks. -/
def ofDiagnostics (ds : List Diagnostic) : String := String.join (ds.map ofDiagnostic)

end Message

end UtilityCss
