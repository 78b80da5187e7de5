import UtilityCss.Content
import UtilityCss.Ordered.Map

/-!
# Discovery

The files of a project that hold class names, and a first configuration that
names them.

Directories of other people's code and of output are not looked into, nor are
hidden ones, and links are not followed. Text and Markdown files are no
suggestion, since they seldom hold markup. A pattern is suggested for each
directory at the top of the project in which there is something, and for the
top itself.

## Main definitions

* `FileNode.filesBelow`: The files of a directory that is looked through.
* `Discovery.ofTree`: The files of a project that hold class names.
* `Discovery.patterns`: Patterns for them.
* `Discovery.starterText`: The text of a first configuration.
-/

namespace UtilityCss

namespace Discovery

/-- The directories that are not looked into. -/
def skippedNames : List String := ["node_modules", "target", "dist", "build", "vendor"]

/-- The directory of a name is not looked into. -/
def isSkipped (name : String) : Bool :=
  name.toList.head? = some '.' || skippedNames.contains name

/-- The extensions of files that are suggested. -/
def extensions : List String := Content.extensions.filter fun e => e ≠ "md" && e ≠ "txt"

end Discovery

namespace FileNode

mutual

/-- The places of the files in a node at a place, without those in directories
    that are not looked into. -/
def filesBelow (place : List String) : FileNode → List (List String)
  | file _ => [place]
  | link _ => []
  | directory entries => filesInEntries place entries

/-- The places of the files in the entries of a directory at a place. -/
def filesInEntries (place : List String) : List (String × FileNode) → List (List String)
  | [] => []
  | (name, n) :: rest =>
    (if n.isDirectory && Discovery.isSkipped name then [] else n.filesBelow (place ++ [name]))
      ++ filesInEntries place rest

end

end FileNode

/-- A file that holds class names. -/
structure DiscoveredFile where
  /-- The names on the way to it, from the project's root. -/
  place : List String
  /-- Its extension. -/
  extension : String
deriving DecidableEq, Repr, Inhabited

namespace DiscoveredFile

/-- The file at a place, if it is one that is suggested. -/
def ofPlace? (place : List String) : Option DiscoveredFile :=
  match place.getLast?.bind Path.extension? with
  | some e => if Discovery.extensions.contains e then some ⟨place, e⟩ else none
  | none => none

/-- The directory at the top of the project that a file is in; the project's
    root has no name. -/
def area (f : DiscoveredFile) : String :=
  match f.place with
  | top :: _ :: _ => top
  | _ => ""

end DiscoveredFile

/-- The files of a project that hold class names. -/
structure Discovery where
  /-- The files. -/
  files : List DiscoveredFile
deriving Repr, Inhabited

namespace Discovery

/-- What is discovered in a directory. -/
def ofNode (n : FileNode) : Discovery :=
  ⟨(n.filesBelow []).filterMap DiscoveredFile.ofPlace?⟩

/-- What is discovered in the project with its root at a path. -/
def ofTree (t : FileTree) (root : String) : Discovery :=
  match t.reach root with
  | .ok (_, n) => if n.isDirectory then ofNode n else ⟨[]⟩
  | .error _ => ⟨[]⟩

/-- The number of files. -/
def size (d : Discovery) : Nat := d.files.length

/-- The extensions of the files in each area. -/
def areas (d : Discovery) : SortedMap SortedSet :=
  d.files.foldl
    (fun found f =>
      found.insert f.area (((found.get? f.area).getD SortedSet.empty).insert f.extension))
    SortedMap.empty

/-- The part of a pattern that stands for some extensions. -/
def extensionPattern : List String → String
  | [e] => e
  | es => "\x7b" ++ ",".intercalate es ++ "\x7d"

/-- The pattern for the files of some extensions in an area. -/
def areaPattern (area : String) (es : SortedSet) : String :=
  if area = "" then "./*." ++ extensionPattern es.toList
  else "./" ++ area ++ "/**/*." ++ extensionPattern es.toList

/-- Patterns for what has been discovered, in the order of the areas. -/
def patterns (d : Discovery) : List String :=
  d.areas.entries.map fun (area, es) => areaPattern area es

/-- The patterns of a first configuration: all markup, where nothing has been
    discovered. -/
def starterPatterns (d : Discovery) : List String :=
  if d.patterns.isEmpty then ["./**/*.html"] else d.patterns

/-- The text of a first configuration. -/
def starterText (d : Discovery) : String :=
  "content:\n"
    ++ String.join (d.starterPatterns.map fun pattern => "  - \"" ++ pattern ++ "\"\n")
    ++ "theme:\n  extend: \x7b\x7d\nplugins: []\n"

end Discovery

end UtilityCss
