import UtilityCss.FileTree

/-!
# Where Paths Lead

Following paths through a file tree, and reading and writing at their ends.

A path is followed name by name. A link is replaced by the names of its path,
which start at the directory of the link or at the top; after forty links the
path is given up. What ends in a slash must be a directory.

Nothing here changes more than it says: a write changes one file, and the
directories that are made are those on the way to one path.

## Main definitions

* `FileTree.follow`: The place that names lead to.
* `FileTree.find`: The place that a path leads to.
* `FileTree.read`, `FileTree.readText`: The content of a file.
* `FileTree.write`, `FileTree.makeDirectories`, `FileTree.remove`: Changes.
-/

namespace UtilityCss

/-- Where a path leads. -/
inductive Destination where
  /-- To something, at a place. -/
  | found (place : List String) (node : FileNode)
  /-- To an entry that a directory does not have. A slash follows it, or
      nothing. -/
  | absent (directory : List String) (name : String) (slash : Bool)
deriving Repr, Inhabited

namespace FileTree

/-- How many links are followed on one path. -/
def maxLinks : Nat := 40

/-- The place that names lead to from a directory, following so many links at
    most. A link at the very end is followed if asked for. -/
def follow (top : FileNode) (followLast : Bool) (links : Nat) (here : List String)
    (names : List String) : Except FileError Destination :=
  match names with
  | [] =>
    match top.at? here with
    | some node => .ok (.found here node)
    | none => .error .notFound
  | name :: rest =>
    if Path.isIdle name then follow top followLast links here rest
    else if name = ".." then follow top followLast links here.dropLast rest
    else
      let place := here ++ [name]
      match top.at? place with
      | none =>
        if rest.all (· = "") then .ok (.absent here name (!rest.isEmpty)) else .error .notFound
      | some (.file bytes) =>
        if rest.isEmpty then .ok (.found place (.file bytes)) else .error .notDirectory
      | some (.directory _) => follow top followLast links place rest
      | some (.link target) =>
        if rest.isEmpty && !followLast then .ok (.found place (.link target))
        else match links with
          | 0 => .error .tooManyLinks
          | links + 1 =>
            follow top followLast links (if Path.isAbsolute target then [] else here)
              (Path.pieces target ++ rest)
termination_by (links, names.length)

/-- The place that a path leads to. -/
def find (t : FileTree) (followLast : Bool) (path : String) : Except FileError Destination :=
  if path = "" then .error .notFound
  else follow t.top followLast maxLinks (if Path.isAbsolute path then [] else t.workDir)
    (Path.pieces path)

/-- What is at the end of a path, links followed, and its place. -/
def reach (t : FileTree) (path : String) : Except FileError (List String × FileNode) :=
  match t.find true path with
  | .ok (.found place node) => .ok (place, node)
  | .ok (.absent _ _ _) => .error .notFound
  | .error e => .error e

/-- There is something at the end of a path. -/
def has (t : FileTree) (path : String) : Bool :=
  match t.reach path with
  | .ok _ => true
  | .error _ => false

/-- There is a directory at the end of a path. -/
def isDirectory (t : FileTree) (path : String) : Bool :=
  match t.reach path with
  | .ok (_, node) => node.isDirectory
  | .error _ => false

/-- There is a file at the end of a path. -/
def isFile (t : FileTree) (path : String) : Bool :=
  match t.reach path with
  | .ok (_, node) => node.isFile
  | .error _ => false

/-- The path of the place that a path leads to. -/
def canonical? (t : FileTree) (path : String) : Option String :=
  match t.reach path with
  | .ok (place, _) => some (Path.ofNames place)
  | .error _ => none

/-- The bytes of a file. -/
def read (t : FileTree) (path : String) : Except FileError (List UInt8) :=
  match t.reach path with
  | .ok (_, .file (some bytes)) => .ok bytes
  | .ok (_, .file none) => .error .denied
  | .ok _ => .error .isDirectory
  | .error e => .error e

/-- The text of a file. -/
def readText (t : FileTree) (path : String) : Except FileError String :=
  match t.read path with
  | .ok bytes =>
    match Text.decode? bytes with
    | some text => .ok text
    | none => .error .notText
  | .error e => .error e

/-- The tree with a node at a place. -/
def put (t : FileTree) (place : List String) (node : FileNode) : FileTree :=
  { t with top := FileNode.put node place t.top }

/-- A path without the slashes at its end. -/
def withoutSlashes (path : String) : String :=
  String.ofList (Text.dropEndWhile (· = '/') path.toList)

/-- The tree with a file written. A file that is not there is made, at the end
    of links if need be; a directory cannot be written, nor can what is called
    one by a slash or a file that may not be opened. -/
def write (t : FileTree) (path : String) (bytes : List UInt8) : Except FileError FileTree :=
  if Path.endsInSlash path then
    match t.find false (withoutSlashes path) with
    | .error .notFound => if withoutSlashes path = "" then .error .isDirectory else .error .notFound
    | .error e => .error e
    | .ok _ => .error .isDirectory
  else
    match t.find true path with
    | .ok (.found place (.file (some _))) => .ok (t.put place (.file (some bytes)))
    | .ok (.found _ (.file none)) => .error .denied
    | .ok (.found _ _) => .error .isDirectory
    | .ok (.absent directory name slash) =>
      if slash then .error .isDirectory else .ok (t.put (directory ++ [name]) (.file (some bytes)))
    | .error e => .error e

/-- The tree with a directory made, where nothing has been. -/
def makeDirectory (t : FileTree) (path : String) : Except FileError FileTree :=
  let path := if withoutSlashes path = "" then path else withoutSlashes path
  match t.find false path with
  | .ok (.found _ _) => .error .alreadyExists
  | .ok (.absent directory name _) => .ok (t.put (directory ++ [name]) .emptyDirectory)
  | .error e => .error e

/-- The tree with the directories of a path made where they are missing, as far
    as that goes, and why it goes no further. The fuel bounds the components of
    the path. -/
def makeDirectoriesFrom : Nat → FileTree → String → FileTree × Option FileError
  | 0, t, _ => (t, some .notFound)
  | fuel + 1, t, path =>
    if (Path.components path).isEmpty then (t, none)
    else match t.makeDirectory path with
      | .ok t => (t, none)
      | .error .notFound =>
        match Path.parent? path with
        | none => (t, some .notFound)
        | some parent =>
          match makeDirectoriesFrom fuel t parent with
          | (t, some e) => (t, some e)
          | (t, none) =>
            match t.makeDirectory path with
            | .ok t => (t, none)
            | .error e => (t, if t.isDirectory path then none else some e)
      | .error e => (t, if t.isDirectory path then none else some e)

/-- The tree with the directories of a path made where they are missing. -/
def makeDirectories (t : FileTree) (path : String) : FileTree × Option FileError :=
  makeDirectoriesFrom ((Path.pieces path).length + 1) t path

/-- The tree without what is at a path. A link is removed and not what it leads
    to. -/
def remove (t : FileTree) (path : String) : FileTree :=
  match t.find false (withoutSlashes path) with
  | .ok (.found place _) => { t with top := t.top.drop place }
  | _ => t

/-- The tree with a node at a path, and with directories on the way to it. A
    file is written through links; a link, a directory or a file that may not be
    opened is made only where there is nothing. -/
def install (t : FileTree) (path : String) (node : FileNode) : FileTree :=
  let t := match Path.parent? path with
    | some parent => (t.makeDirectories parent).1
    | none => t
  match node with
  | .file (some bytes) => (t.write path bytes).toOption.getD t
  | .directory _ => (t.makeDirectories path).1
  | .file none | .link _ =>
    match t.find false path with
    | .ok (.absent directory name _) => t.put (directory ++ [name]) node
    | _ => t

end FileTree

end UtilityCss
