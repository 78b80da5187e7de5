import UtilityCss.FileTree.Error
import UtilityCss.FileTree.Path
import UtilityCss.Text.Utf8

/-!
# File Trees

The files that a build sees, as a value.

A tree holds files, links and directories. A place in it is the list of names
on the way from the top, through directories only; what a path leads to depends
on links as well and is told in `UtilityCss.FileTree.Lookup`.

A file that may not be opened has no bytes; it is there like any other, and
reading it or writing to it is refused. Left out are directories that may not be
listed or passed through, what is neither file nor link nor directory, such as a
device or a socket, and names that are no text. Nothing else changes a tree
while it is looked at.

## Main definitions

* `FileNode`: A file, a link or a directory.
* `FileNode.at?`: What is at a place.
* `FileNode.put`, `FileNode.drop`: A tree with something at a place, or
  without it.
* `FileTree`: All files, and the directory that relative paths start from.
-/

namespace UtilityCss

/-- A file, a link or a directory. -/
inductive FileNode where
  /-- A file with its bytes, or without them if it may not be opened. -/
  | file (bytes : Option (List UInt8))
  /-- A link to the path that it holds. -/
  | link (target : String)
  /-- A directory with its entries. -/
  | directory (entries : List (String × FileNode))
deriving Repr, Inhabited

namespace FileNode

/-- The directory without entries. -/
def emptyDirectory : FileNode := .directory []

/-- The node is a directory. -/
def isDirectory : FileNode → Bool
  | directory _ => true
  | _ => false

/-- The node is a file. -/
def isFile : FileNode → Bool
  | file _ => true
  | _ => false

/-- The entry of a directory. -/
def entry? (name : String) : FileNode → Option FileNode
  | directory entries => entries.lookup name
  | _ => none

/-- The node at a place. -/
def at? (n : FileNode) : List String → Option FileNode
  | [] => some n
  | name :: rest =>
    match n.entry? name with
    | some child => child.at? rest
    | none => none

/-- Entries with one of them changed; it is added at the end if it is new. -/
def setEntry (name : String) (change : Option FileNode → FileNode) :
    List (String × FileNode) → List (String × FileNode)
  | [] => [(name, change none)]
  | (n, child) :: rest =>
    if n = name then (n, change (some child)) :: rest
    else (n, child) :: setEntry name change rest

/-- The tree with a node at a place. Directories on the way are made. -/
def put (new : FileNode) : List String → FileNode → FileNode
  | [], _ => new
  | name :: rest, n =>
    let entries := match n with
      | directory entries => entries
      | _ => []
    directory (setEntry name (fun old => put new rest (old.getD emptyDirectory)) entries)

/-- The tree without what is at a place. -/
def drop : List String → FileNode → FileNode
  | [], n => n
  | [name], directory entries => directory (entries.filter fun e => e.1 ≠ name)
  | name :: rest, directory entries =>
    directory (entries.map fun (n, child) => if n = name then (n, drop rest child) else (n, child))
  | _ :: _, n => n

/-- The entries of a directory, ascending by name. -/
def sortedEntries (entries : List (String × FileNode)) : List (String × FileNode) :=
  entries.mergeSort fun a b => a.1 ≤ b.1

mutual

/-- The number of nodes. -/
def size : FileNode → Nat
  | file _ => 1
  | link _ => 1
  | directory entries => sizeOfEntries entries + 1

/-- The number of nodes in some entries. -/
def sizeOfEntries : List (String × FileNode) → Nat
  | [] => 0
  | (_, n) :: rest => n.size + sizeOfEntries rest

end

end FileNode

/-- All files, and the directory that relative paths start from. -/
structure FileTree where
  /-- The top directory. -/
  top : FileNode
  /-- The place that relative paths start from. -/
  workDir : List String
deriving Repr, Inhabited

end UtilityCss
