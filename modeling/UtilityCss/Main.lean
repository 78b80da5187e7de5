import UtilityCss.Command.Outcome
import UtilityCss.Command.Reading

/-!
# The Program

The command line around the library.

What a command can see is read into a file tree first, the command is run on
the tree, and what it has changed there is written back. Everything that is
decided is decided in between.

A link holds the real path of its target. What it leads to is read as well, so
that a walk through the tree gets as far as one through the files themselves.

## Main definitions

* `Snapshot.take`: The files that a command can see.
* `Snapshot.store`: What a command has changed, written back.
* `main`: The program.
-/

namespace UtilityCss

/-- Files that have been read. -/
structure Snapshot where
  /-- The files. -/
  tree : FileTree
  /-- The places that have been read with everything below them. -/
  whole : List (List String)

namespace Snapshot

/-- The path that a link to nothing holds. No name has its character. -/
def nowhere : String := "/\x00"

/-- The names in an absolute path. -/
def namesOf (path : String) : List String := (Path.pieces path).filter fun p => !Path.isIdle p

/-- The snapshot with a node at a place. -/
def put (s : Snapshot) (place : List String) (n : FileNode) : Snapshot :=
  { s with tree := s.tree.put place n }

/-- The snapshot with a directory at a place, which may be there already. -/
def opened (s : Snapshot) (place : List String) : Snapshot :=
  match s.tree.top.at? place with
  | some (.directory _) => s
  | _ => s.put place .emptyDirectory

/-- The names of the real path of something, if it is there. -/
def realNames? (path : String) : IO (Option (List String)) := do
  try return some (namesOf (← IO.FS.realPath path).toString)
  catch _ => return none

/-- The kind of an entry of a directory, if it is there. -/
def kind? (directory : List String) (name : String) : IO (Option IO.FS.FileType) := do
  try return some (← (IO.FS.DirEntry.path ⟨Path.ofNames directory, name⟩).symlinkMetadata).type
  catch _ => return none

/-- The file at a place; one that cannot be read has no bytes. -/
def fileAt (place : List String) : IO FileNode := do
  try return .file (some (← IO.FS.readBinFile (Path.ofNames place)).toList)
  catch _ => return .file none

/-- The names in a directory; there are none in one that cannot be read. -/
def namesIn (place : List String) : IO (List String) := do
  try
    let entries ← (IO.FS.DirEntry.path ⟨"/", Path.ofNames place⟩).readDir
    return entries.toList.map fun e => e.fileName
  catch _ => return []

/-- The entry of a directory with everything below it, and the places that the
    links in it lead to. -/
partial def readEntry? (directory : List String) (name : String) :
    IO (Option (FileNode × List (List String))) := do
  let place := directory ++ [name]
  match ← kind? directory name with
  | some .file => return some (← fileAt place, [])
  | some .symlink =>
    match ← realNames? (Path.ofNames place) with
    | none => return some (.link nowhere, [])
    | some target => return some (.link (Path.ofNames target), [target])
  | some .dir =>
    let mut entries : Array (String × FileNode) := #[]
    let mut targets : List (List String) := []
    for name in ← namesIn place do
      match ← readEntry? place name with
      | none => pure ()
      | some (n, more) =>
        entries := entries.push (name, n)
        targets := more ++ targets
    return some (.directory entries.toList, targets)
  | _ => return none

/-- The snapshot with everything at some real places, and with what the links
    there lead to. -/
partial def readWhole (s : Snapshot) : List (List String) → IO Snapshot
  | [] => return s
  | place :: rest => do
    if s.whole.any fun known => known.isPrefixOf place then readWhole s rest
    else
      let s := { s with whole := place :: s.whole }
      match ← readEntry? place.dropLast (place.getLastD ".") with
      | none => readWhole s rest
      | some (n, targets) => readWhole (s.put place n) (targets ++ rest)

/-- The snapshot with what is on the way of a path, from a directory on, and the
    place where the way ends. -/
def readWay (s : Snapshot) (here : List String) : List String → IO (Snapshot × List String)
  | [] => return (s.opened here, here)
  | piece :: rest => do
    if Path.isIdle piece then readWay s here rest
    else if piece = ".." then readWay s here.dropLast rest
    else
      let place := here ++ [piece]
      match ← kind? here piece with
      | some .dir => readWay (s.opened place) place rest
      | some .file => return (s.put place (← fileAt place), place)
      | some .symlink =>
        match ← realNames? (Path.ofNames place) with
        | none => return (s.put place (.link nowhere), place)
        | some target =>
          let s := s.put place (.link (Path.ofNames target))
          match ← kind? target.dropLast (target.getLastD "") with
          | some .file => return (s.put target (← fileAt target), target)
          | _ => readWay (s.opened target) target rest
      | _ => return (s, here)

/-- The snapshot with what is on the way of a path. -/
def readPath (s : Snapshot) (path : String) : IO (Snapshot × List String) :=
  readWay s (if Path.isAbsolute path then [] else s.tree.workDir) (Path.pieces path)

/-- The snapshot with a project at a path. -/
def readProject (s : Snapshot) (root : String) : IO Snapshot := do
  let (s, place) ← s.readPath root
  s.readWhole [place]

/-- The paths that a command names beside the project's root. -/
def pathsOf : Command → List String
  | .build c => c.config.toList ++ c.output.toList
  | .scan c => c.config.toList
  | .init _ => []

/-- The path of the project's root of a command. -/
def rootOf : Command → String
  | .build c => c.root
  | .scan c => c.root
  | .init c => c.root

/-- The files that a command can see. -/
def take (c : Command) : IO Snapshot := do
  let workDir := namesOf (← IO.currentDir).toString
  let s : Snapshot := ⟨⟨.emptyDirectory, workDir⟩, []⟩
  let s ← (s.opened workDir).readProject (rootOf c)
  (pathsOf c).foldlM (fun s path => return (← s.readPath path).1) s

/-- Writes what is new or different in a node at a place. -/
partial def store (place : List String) (before : Option FileNode) : FileNode → IO Unit
  | .file (some bytes) => do
    let isSame := match before with
      | some (.file old) => old == some bytes
      | _ => false
    unless isSame do IO.FS.writeBinFile (Path.ofNames place) ⟨bytes.toArray⟩
  | .file none | .link _ => return
  | .directory entries => do
    unless (before.map FileNode.isDirectory).getD false do
      IO.FS.createDir (Path.ofNames place)
    for (name, n) in entries do
      store (place ++ [name]) (before.bind (FileNode.entry? name)) n

end Snapshot

/-- What is said about words that are no command. -/
def usage : String :=
  "Usage: ucss build [ROOT] [--config FILE] [--output FILE] [--minify] [--report json]\n" ++
  "       ucss scan [ROOT] [--config FILE] [--unresolved]\n" ++
  "       ucss init [ROOT] [--force]\n"

/-- What is said about an error. -/
def BuildError.text (e : BuildError) : String :=
  "Error: " ++ e.message ++ "\n" ++ String.join (e.help.toList.map ("  help: " ++ · ++ "\n"))

end UtilityCss

open UtilityCss in
/-- The program. -/
def main (words : List String) : IO UInt32 := do
  match Command.ofWords? words with
  | none =>
    IO.eprint usage
    return 2
  | some c =>
    let s ← Snapshot.take c
    let o := c.run s.tree
    Snapshot.store [] (some s.tree.top) o.tree.top
    IO.eprint o.said
    IO.print o.printed
    match o.error with
    | none => return 0
    | some e =>
      IO.eprint e.text
      return 1
