import UtilityCss.FileTree.Lookup

/-!
# Walks

The files at and below a path.

A walk visits a directory's entries in the order of their names and goes down
into directories at once. It follows links. A link to a directory that the walk
is inside of would never end, so it is an error, and so is a link that leads
nowhere; an error ends nothing but the visit to its path.

Paths are spelled as the start of the walk is, with names added to it.

## Main definitions

* `WalkError`: What goes wrong at a path.
* `FileTree.walk`: The files at and below a path, and the errors.
-/

namespace UtilityCss

/-- What goes wrong at a path of a walk. -/
inductive WalkError where
  /-- The path cannot be followed. -/
  | file (path : String) (cause : FileError)
  /-- The path leads to a directory that the walk is inside of. -/
  | loop (path ancestor : String)
deriving DecidableEq, Repr

namespace WalkError

/-- The path where something goes wrong. -/
def path : WalkError → String
  | file path _ => path
  | loop path _ => path

/-- The wording of an error. -/
def message : WalkError → String
  | file path cause => s!"IO error for operation on {path}: {cause.message}"
  | loop path ancestor => s!"File system loop found: {path} points to an ancestor {ancestor}"

end WalkError

/-- A directory that a walk is inside of. -/
structure WalkStep where
  /-- Its path, as the walk spells it. -/
  path : String
  /-- Its place. -/
  place : List String
deriving DecidableEq, Repr

namespace FileTree

/-- What a link at a path of a walk leads to: something at a place that is no
    directory of the walk, or an error. `inside` holds the directories of the
    walk, innermost first. -/
def followInWalk (t : FileTree) (inside : List WalkStep) (path : String) :
    Except WalkError (List String × FileNode) :=
  match t.reach path with
  | .error e => .error (.file path e)
  | .ok (place, node) =>
    if node.isDirectory then
      match inside.find? fun step => step.place = place with
      | some step => .error (.loop path step.path)
      | none => .ok (place, node)
    else .ok (place, node)

mutual

/-- The files at and below a path of a walk, given the node there and its place.
    `levels` is how many levels may be gone down, if there is a bound. The fuel
    bounds the levels in any case. -/
def visit (t : FileTree) (fuel : Nat) (levels : Option Nat) (inside : List WalkStep)
    (path : String) (place : List String) (node : FileNode) :
    List (Except WalkError String) :=
  match node with
  | .file _ => [.ok path]
  | .directory entries => descend t fuel levels inside path place entries
  | .link _ =>
    match t.followInWalk inside path with
    | .error e => [.error e]
    | .ok (place, .directory entries) => descend t fuel levels inside path place entries
    | .ok _ => [.ok path]
termination_by (fuel, 1)

/-- The files below a directory of a walk. -/
def descend (t : FileTree) (fuel : Nat) (levels : Option Nat) (inside : List WalkStep)
    (path : String) (place : List String) (entries : List (String × FileNode)) :
    List (Except WalkError String) :=
  match levels, fuel with
  | some 0, _ => []
  | _, 0 => []
  | levels, fuel + 1 =>
    (FileNode.sortedEntries entries).flatMap fun (name, child) =>
      visit t fuel (levels.map (· - 1)) (⟨path, place⟩ :: inside) (Path.join path name)
        (place ++ [name]) child
termination_by (fuel, 0)

end

/-- The levels that a walk can go down. On the way down no place is entered by a
    link twice, and between two links there are no more directories than the
    tree has nodes. -/
def maxLevels (t : FileTree) : Nat := Nat.pow (t.top.size + 2) 2

/-- The files at and below a path, down to so many levels if there is a bound,
    and the errors. There are none if the path leads nowhere. -/
def walk (t : FileTree) (path : String) (levels : Option Nat) :
    List (Except WalkError String) :=
  match t.reach path with
  | .ok (place, node) => visit t t.maxLevels levels [] path place node
  | .error _ => []

end FileTree

end UtilityCss
