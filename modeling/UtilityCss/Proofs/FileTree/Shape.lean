import UtilityCss.FileTree.Walk
import UtilityCss.Proofs.FileTree.Growth

/-!
# The Shape of a Tree

What can be said of a tree without reading its files.

Where paths lead, and which files a walk visits, depends on the shape of a tree only. The
shape is kept as the tree with its files emptied, so two trees have one shape if they are
equal once they are emptied. Writing over a file keeps the shape, and the text of every
other file.

## Main definitions

* `FileNode.emptied`, `FileTree.emptied`: The tree with its files emptied.

## Theorems

* `find_emptied`: A path leads to the same place.
* `walk_emptied`: A walk visits the same paths.
* `emptied_put`: Writing over a file keeps the shape.
* `read_put`: It keeps the other files.
-/

namespace UtilityCss

namespace FileNode

mutual

/-- The node with its files emptied. -/
def emptied : FileNode → FileNode
  | file _ => file none
  | link target => link target
  | directory entries => directory (emptiedEntries entries)

/-- Entries with their files emptied. -/
def emptiedEntries : List (String × FileNode) → List (String × FileNode)
  | [] => []
  | (name, n) :: rest => (name, n.emptied) :: emptiedEntries rest

end

mutual

theorem size_emptied : ∀ n : FileNode, n.emptied.size = n.size
  | file _ => rfl
  | link _ => rfl
  | directory entries => by rw [emptied, size, size, sizeOfEntries_emptied entries]

theorem sizeOfEntries_emptied : ∀ entries : List (String × FileNode),
    sizeOfEntries (emptiedEntries entries) = sizeOfEntries entries
  | [] => rfl
  | (_, n) :: rest => by
      rw [emptiedEntries, sizeOfEntries, sizeOfEntries, size_emptied n, sizeOfEntries_emptied rest]

end

theorem emptiedEntries_eq (entries : List (String × FileNode)) :
    emptiedEntries entries = entries.map fun e => (e.1, e.2.emptied) := by
  induction entries with
  | nil => rfl
  | cons e entries ih => rw [emptiedEntries, ih, List.map_cons]

theorem lookup_emptiedEntries (name : String) (entries : List (String × FileNode)) :
    (emptiedEntries entries).lookup name = (entries.lookup name).map emptied := by
  induction entries with
  | nil => rfl
  | cons e entries ih =>
      rcases e with ⟨first, n⟩
      rw [emptiedEntries, List.lookup_cons, List.lookup_cons, ih]
      cases name == first <;> rfl

theorem at?_emptied (n : FileNode) (place : List String) :
    n.emptied.at? place = (n.at? place).map emptied := by
  induction place generalizing n with
  | nil => rfl
  | cons name place ih =>
      rw [at?, at?]
      have hentry : n.emptied.entry? name = (n.entry? name).map emptied := by
        cases n with
        | directory entries => exact lookup_emptiedEntries name entries
        | file | link => rfl
      rw [hentry]
      cases n.entry? name with
      | none => rfl
      | some child => exact ih child

theorem isDirectory_emptied (n : FileNode) : n.emptied.isDirectory = n.isDirectory := by
  cases n <;> rfl

theorem sortedEntries_emptied (entries : List (String × FileNode)) :
    sortedEntries (emptiedEntries entries) = emptiedEntries (sortedEntries entries) := by
  rw [emptiedEntries_eq, emptiedEntries_eq, sortedEntries, sortedEntries]
  refine (List.map_mergeSort ?_).symm
  intro a _ b _
  rfl

end FileNode

/-- The destination with its files emptied. -/
def Destination.emptied : Destination → Destination
  | .found place node => .found place node.emptied
  | .absent directory name slash => .absent directory name slash

namespace FileTree

open FileNode

-- Following looks at what kind of node is at a place, and at the paths of links. The
-- recursion is that of following itself.
theorem follow_emptied (top : FileNode) (followLast : Bool) (links : Nat)
    (here names : List String) :
    follow top.emptied followLast links here names
      = (follow top followLast links here names).map Destination.emptied := by
  rcases names with _ | ⟨name, rest⟩
  · rw [follow, follow, at?_emptied]
    cases top.at? here <;> rfl
  · rw [follow, follow]
    split
    · exact follow_emptied top followLast links here rest
    · split
      · exact follow_emptied top followLast links here.dropLast rest
      · dsimp only
        rw [at?_emptied]
        -- The four kinds of what can be at the next place, which is the same in both trees.
        rcases top.at? (here ++ [name]) with _ | ⟨bytes⟩ | ⟨target⟩ | ⟨entries⟩
        · dsimp only [Option.map_none]
          split <;> rfl
        · dsimp only [Option.map_some, FileNode.emptied]
          split <;> rfl
        · dsimp only [Option.map_some, FileNode.emptied]
          split
          · rfl
          · cases links with
            | zero => rfl
            | succ links => exact follow_emptied top followLast links _ _
        · exact follow_emptied top followLast links (here ++ [name]) rest
termination_by (links, names.length)

/-- The tree with its files emptied. -/
def emptied (t : FileTree) : FileTree := { t with top := t.top.emptied }

variable (t : FileTree)

/-- A path leads to the same place. -/
theorem find_emptied (followLast : Bool) (path : String) :
    t.emptied.find followLast path = (t.find followLast path).map Destination.emptied := by
  rw [find, find]
  split
  · rfl
  · exact follow_emptied _ _ _ _ _

theorem reach_emptied (path : String) :
    t.emptied.reach path = (t.reach path).map fun r => (r.1, r.2.emptied) := by
  rw [reach, reach, find_emptied]
  rcases t.find true path with e | ⟨place, node⟩ | ⟨directory, name, slash⟩ <;> rfl

theorem isDirectory_emptied (path : String) : t.emptied.isDirectory path = t.isDirectory path := by
  rw [isDirectory, isDirectory, reach_emptied]
  rcases t.reach path with e | ⟨place, node⟩
  · rfl
  · exact node.isDirectory_emptied

theorem canonical?_emptied (path : String) : t.emptied.canonical? path = t.canonical? path := by
  rw [canonical?, canonical?, reach_emptied]
  rcases t.reach path with e | ⟨place, node⟩ <;> rfl

/-! ### Walks -/

theorem followInWalk_emptied (inside : List WalkStep) (path : String) :
    t.emptied.followInWalk inside path
      = (t.followInWalk inside path).map fun r => (r.1, r.2.emptied) := by
  rw [followInWalk, followInWalk, reach_emptied]
  rcases t.reach path with e | ⟨place, node⟩
  · rfl
  · show (if node.emptied.isDirectory then _ else _)
      = Except.map _ (if node.isDirectory then _ else _)
    rw [node.isDirectory_emptied]
    split
    · cases inside.find? fun step => step.place = place <;> rfl
    · rfl

/-- A visit goes down by one level at a time, so what holds on all lower levels holds on
    each. -/
theorem visit_emptied_of_descend {fuel : Nat} (hdescend : ∀ levels inside path place entries,
      descend t.emptied fuel levels inside path place (emptiedEntries entries)
        = descend t fuel levels inside path place entries)
    (levels : Option Nat) (inside : List WalkStep) (path : String) (place : List String)
    (node : FileNode) :
    visit t.emptied fuel levels inside path place node.emptied
      = visit t fuel levels inside path place node := by
  cases node with
  | file bytes => rw [FileNode.emptied, visit, visit]
  | directory entries => rw [FileNode.emptied, visit, visit, hdescend]
  | link target =>
      rw [FileNode.emptied, visit, visit, followInWalk_emptied]
      -- A link is followed to the same place in both trees.
      rcases t.followInWalk inside path with e | ⟨place, node⟩
      · rfl
      · cases node with
        | directory entries => exact hdescend _ _ _ _ _
        | file | link => rfl

theorem descend_emptied (fuel : Nat) (levels : Option Nat) (inside : List WalkStep)
    (path : String) (place : List String) (entries : List (String × FileNode)) :
    descend t.emptied fuel levels inside path place (emptiedEntries entries)
      = descend t fuel levels inside path place entries := by
  induction fuel generalizing levels inside path place entries with
  | zero =>
      unfold descend
      rcases levels with _ | _ | levels <;> rfl
  | succ fuel ih =>
      -- The entries come in the same order, as they have the same names.
      have hentries : ∀ levels : Option Nat,
          (sortedEntries (emptiedEntries entries)).flatMap (fun e =>
            visit t.emptied fuel levels (⟨path, place⟩ :: inside) (Path.join path e.1)
              (place ++ [e.1]) e.2)
          = (sortedEntries entries).flatMap fun e =>
            visit t fuel levels (⟨path, place⟩ :: inside) (Path.join path e.1)
              (place ++ [e.1]) e.2 := by
        intro levels
        rw [sortedEntries_emptied, emptiedEntries_eq, List.flatMap_map]
        exact congrArg (List.flatMap · (sortedEntries entries))
          (funext fun e => visit_emptied_of_descend t ih _ _ _ _ _)
      unfold descend
      rcases levels with _ | _ | levels
      · exact hentries _
      · rfl
      · exact hentries _

/-- A walk visits the same paths. -/
theorem walk_emptied (path : String) (levels : Option Nat) :
    t.emptied.walk path levels = t.walk path levels := by
  have hlevels : t.emptied.maxLevels = t.maxLevels := by
    rw [maxLevels, maxLevels, emptied, size_emptied]
  rw [walk, walk, reach_emptied, hlevels]
  rcases t.reach path with e | ⟨place, node⟩
  · rfl
  · exact visit_emptied_of_descend t (descend_emptied t _) _ _ _ _ _

/-! ### Writing over files -/

end FileTree

namespace FileNode

variable {place : List String} {n : FileNode} {old new : Option (List UInt8)}

theorem emptiedEntries_setEntry {name : String} {change : Option FileNode → FileNode}
    {entries : List (String × FileNode)} {child : FileNode}
    (h : entries.lookup name = some child)
    (hchange : (change (some child)).emptied = child.emptied) :
    emptiedEntries (setEntry name change entries) = emptiedEntries entries := by
  induction entries with
  | nil => cases h
  | cons e entries ih =>
      rcases e with ⟨first, node⟩
      rw [List.lookup_cons] at h
      rw [setEntry]
      by_cases hfirst : first = name
      · rw [beq_iff_eq.2 hfirst.symm] at h
        rw [if_pos hfirst, emptiedEntries, emptiedEntries, Option.some.inj h, hchange]
      · rw [beq_eq_false_iff_ne.2 (Ne.symm hfirst)] at h
        rw [if_neg hfirst, emptiedEntries, emptiedEntries, ih h]

/-- Writing over a file keeps the shape. -/
theorem emptied_put (h : n.at? place = some (.file old)) :
    (put (.file new) place n).emptied = n.emptied := by
  induction place generalizing n with
  | nil =>
      rw [Option.some.inj h]
      rfl
  | cons name place ih =>
      cases n with
      | directory entries =>
          rw [at?_directory] at h
          rcases Option.bind_eq_some_iff.1 h with ⟨child, hchild, h⟩
          exact congrArg directory (emptiedEntries_setEntry hchild (ih h))
      | file | link => cases h

/-- It keeps the other files. -/
theorem at?_put_of_ne (h : n.at? place = some (.file old)) {other : List String}
    {bytes : Option (List UInt8)} (hother : n.at? other = some (.file bytes))
    (hne : other ≠ place) :
    (put (.file new) place n).at? other = some (.file bytes) := by
  induction place generalizing n other with
  | nil =>
      rw [Option.some.inj h] at hother
      cases other with
      | nil => exact absurd rfl hne
      | cons first other => cases hother
  | cons name place ih =>
      cases n with
      | directory entries =>
          cases other with
          | nil => cases hother
          | cons first other =>
              rw [at?_directory] at h hother
              show (directory (setEntry name _ entries)).at? (first :: other) = _
              rw [at?_directory, lookup_setEntry]
              -- Below the same entry the places differ further down; any other entry is
              -- untouched.
              by_cases hfirst : first = name
              · rcases Option.bind_eq_some_iff.1 h with ⟨child, hchild, h⟩
                rw [hfirst, hchild, Option.bind_some] at hother
                rw [if_pos hfirst, hchild, Option.bind_some]
                exact ih h hother fun heq => hne (by rw [hfirst, heq])
              · rw [if_neg hfirst]
                exact hother
      | file | link => cases h

end FileNode

namespace FileTree

open FileNode

theorem at?_of_reach {t : FileTree} {path : String} {place : List String} {node : FileNode}
    (h : t.reach path = .ok (place, node)) : t.top.at? place = some node :=
  (find_eq_ok_iff.1 (reach_eq_ok_iff.1 h)).2.at?_of_found

section

variable {t : FileTree} {path : String} {place : List String}
  {old : Option (List UInt8)}
  (h : t.find true path = .ok (.found place (.file old))) (new : Option (List UInt8))
include h

/-- Writing over a file keeps the shape. -/
theorem emptied_put_of_found : (t.put place (.file new)).emptied = t.emptied := by
  have hat := (find_eq_ok_iff.1 h).2.at?_of_found
  exact congrArg (FileTree.mk · t.workDir) (emptied_put hat)

/-- It keeps the content of every path that leads elsewhere. -/
theorem read_put {other : String} (hother : t.canonical? other ≠ t.canonical? path) :
    (t.put place (.file new)).read other = t.read other := by
  have hat := (find_eq_ok_iff.1 h).2.at?_of_found
  -- Up to the content of files both trees are the same, so the path leads to the same
  -- place.
  have hreach : ((t.put place (.file new)).reach other).map (fun r => (r.1, r.2.emptied))
      = (t.reach other).map fun r => (r.1, r.2.emptied) := by
    rw [← reach_emptied, ← reach_emptied, emptied_put_of_found h]
  rw [read, read]
  rcases hold : t.reach other with e | ⟨place', node⟩
  · rcases hnew : (t.put place (.file new)).reach other with e' | ⟨place'', node'⟩
    · rw [hold, hnew] at hreach
      rw [Except.error.inj hreach]
    · rw [hold, hnew] at hreach
      cases hreach
  · rcases hnew : (t.put place (.file new)).reach other with e' | ⟨place'', node'⟩
    · rw [hold, hnew] at hreach
      cases hreach
    · rw [hold, hnew] at hreach
      rcases Prod.mk.inj (Except.ok.inj hreach) with ⟨rfl, hnode⟩
      cases node with
      | file bytes =>
          -- The place is another one, because the canonical path is.
          have hne : place'' ≠ place := by
            rintro rfl
            refine hother ?_
            rw [canonical?, canonical?, hold, reach, h]
          have hfile : (FileNode.put (.file new) place t.top).at? place'' = some (.file bytes) :=
            at?_put_of_ne hat (at?_of_reach hold) hne
          rw [Option.some.inj ((at?_of_reach hnew).symm.trans hfile)]
      | directory entries =>
          cases node' with
          | directory entries' => rfl
          | file | link => cases hnode
      | link target =>
          cases node' with
          | link target' => rfl
          | file | directory => cases hnode

end

end FileTree

end UtilityCss
