/-!
# Commands

What the program can be asked to do.

## Main definitions

* `BuildCommand`: To build a stylesheet.
* `ScanCommand`: To list the tokens in the content.
* `InitCommand`: To write a first configuration.
* `Command`: One of these.
-/

namespace UtilityCss

/-- The path of the project's root, where none is given. -/
def defaultRoot : String := "."

/-- To build a stylesheet. -/
structure BuildCommand where
  /-- The path of the project's root. -/
  root : String
  /-- The path of the configuration; without it, it is looked for in the root. -/
  config : Option String
  /-- The path of the stylesheet; without it, the stylesheet is printed. -/
  output : Option String
  /-- The stylesheet is minified, whatever the configuration says. -/
  minify : Bool
  /-- The report is printed for programs to read. -/
  report : Bool
deriving DecidableEq, Repr, Inhabited

/-- To list the tokens in the content. -/
structure ScanCommand where
  /-- The path of the project's root. -/
  root : String
  /-- The path of the configuration; without it, it is looked for in the root. -/
  config : Option String
  /-- Only the tokens without a rule are listed. -/
  unresolved : Bool
deriving DecidableEq, Repr, Inhabited

/-- To write a first configuration. -/
structure InitCommand where
  /-- The path of the project's root. -/
  root : String
  /-- A configuration that is there is written over. -/
  force : Bool
deriving DecidableEq, Repr, Inhabited

/-- What the program can be asked to do. -/
inductive Command where
  /-- To build a stylesheet. -/
  | build (c : BuildCommand)
  /-- To list the tokens in the content. -/
  | scan (c : ScanCommand)
  /-- To write a first configuration. -/
  | init (c : InitCommand)
deriving DecidableEq, Repr, Inhabited

end UtilityCss
