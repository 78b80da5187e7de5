import UtilityCss.Text.Cut

/-!
# Paths

Paths as text, before any file is looked at.

A path is a text with slashes. Several slashes count as one, and a part `.`
stands for nothing except at the start of a relative path; a part `..` is kept,
because where it leads depends on the files.

Questions about the structure of a path are asked of its components, and what is
written for readers keeps the spelling.

## Main definitions

* `Path.Component`, `Path.components`: The structure of a path.
* `Path.join`: One path below another one.
* `Path.below?`: The components of a path below another one.
* `Path.fileName?`, `Path.extension?`, `Path.parent?`: Parts of a path.
* `Path.remainder?`: The text of a path below a directory.
-/

namespace UtilityCss

namespace Path

/-- A component of a path. -/
inductive Component where
  /-- The top of all files. -/
  | top
  /-- The directory itself, at the start of a path. -/
  | here
  /-- The directory above. -/
  | up
  /-- An entry of a directory. -/
  | name (text : String)
deriving DecidableEq, Repr, Inhabited

/-- The pieces of a path between slashes. -/
def pieces (path : String) : List String := Text.split '/' path

/-- The path starts at the top. -/
def isAbsolute (path : String) : Bool := path.toList.head? = some '/'

/-- The path ends in a slash. -/
def endsInSlash (path : String) : Bool := path.toList.getLast? = some '/'

/-- The piece stands for nothing. -/
def isIdle (piece : String) : Bool := piece = "" || piece = "."

/-- The component that a piece stands for. -/
def component (piece : String) : Component := if piece = ".." then .up else .name piece

/-- The components of a path. -/
def components (path : String) : List Component :=
  let all := pieces path
  let rest := (all.filter fun piece => !isIdle piece).map component
  if isAbsolute path then .top :: rest
  else if all.head? = some "." then .here :: rest
  else rest

/-- A path below another one. An absolute one replaces it. -/
def join (base path : String) : String :=
  if isAbsolute path || base = "" then path
  else if endsInSlash base then base ++ path
  else base ++ "/" ++ path

/-- A list without a list at its start. -/
def dropStart? : List Component → List Component → Option (List Component)
  | [], cs => some cs
  | _ :: _, [] => none
  | a :: as, c :: cs => if a = c then dropStart? as cs else none

/-- The components of a path below another one. -/
def below? (base path : String) : Option (List Component) :=
  dropStart? (components base) (components path)

/-- The text of a component that is an entry. -/
def Component.name? : Component → Option String
  | .name text => some text
  | _ => none

/-- The entries on the way from one path to another one below it, joined by
    slashes. -/
def relative? (base path : String) : Option String :=
  (below? base path).map fun cs => "/".intercalate (cs.filterMap Component.name?)

/-- The last component of a path, if it is an entry. -/
def fileName? (path : String) : Option String :=
  match (components path).getLast? with
  | some (.name text) => some text
  | _ => none

/-- The text after the last dot of the last component. A dot at its start does
    not count. -/
def extension? (path : String) : Option String :=
  match fileName? path with
  | none => none
  | some name =>
    match Text.cutFirst '.' name.toList.reverse with
    | some (extension, _ :: _) => some (String.ofList extension.reverse)
    | _ => none

/-- Pieces without those at the end that stand for nothing. The first piece
    stays. -/
def dropIdleEnd : List String → List String
  | [] => []
  | piece :: rest =>
    match dropIdleEnd rest with
    | [] => [piece]
    | [last] => if isIdle last then [piece] else [piece, last]
    | more => piece :: more

/-- The text of pieces; the first one is empty in an absolute path. -/
def ofPieces : List String → String
  | [] => ""
  | [""] => "/"
  | pieces => "/".intercalate pieces

/-- The path without its last component. -/
def parent? (path : String) : Option String :=
  match dropIdleEnd (pieces path) with
  | [] => none
  | [""] => none
  | [_] => some ""
  | more => some (ofPieces (dropIdleEnd more.dropLast))

/-- What follows some names at the start of pieces, with nothing idle at its
    ends. -/
def afterNames? : List String → List String → Option (List String)
  | [], rest => some (((rest.dropWhile isIdle).reverse.dropWhile isIdle).reverse)
  | _ :: _, [] => none
  | name :: names, piece :: rest =>
    if isIdle piece then afterNames? (name :: names) rest
    else if piece = name then afterNames? names rest
    else none

/-- The text of an absolute path below the directory of some names. -/
def remainder? (names : List String) (path : String) : Option String :=
  if isAbsolute path then (afterNames? names (pieces path)).map fun rest => "/".intercalate rest
  else none

/-- The absolute path of some names. -/
def ofNames (names : List String) : String := "/" ++ "/".intercalate names

end Path

end UtilityCss
