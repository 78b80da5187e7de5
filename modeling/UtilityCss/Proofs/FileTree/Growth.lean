import UtilityCss.Proofs.FileTree.Way

/-!
# Trees That Grow

What stays true of paths when files are written and directories are made.

A tree grows if what it has stays what it is: a file stays a file, whatever its bytes
are, a link keeps its path, and a directory stays a directory. Nothing that is found in
a tree is lost when it grows, and it is found at the same place, for every step on the
way is still there. What was absent may have come to be; it is then found where it was
missing.

Putting a node where nothing has been makes a tree grow, if the place is in a directory,
and so does putting a file in the place of a file.

## Main definitions

* `FileNode.Like`: Two nodes of one kind.
* `FileNode.Grows`: One node has what another one has.
* `FileTree.Grows`: The same for trees that paths start in.

## Theorems

* `at?_put`: What is put at a place is there.
* `grows_put`, `grows_put_absent`: Where putting makes a tree grow.
* `Way.grows`: What is found is found in a tree that has grown.
* `Way.filled`: What was absent is found where it was missing.
* `Grows.isDirectory`: A directory stays one under its path.
-/

namespace UtilityCss

namespace FileNode

/-- Two nodes of one kind: files with any bytes, links to the same path, directories
    with any entries. -/
inductive Like : FileNode → FileNode → Prop where
  /-- Two files. -/
  | file (bytes bytes' : Option (List UInt8)) : Like (.file bytes) (.file bytes')
  /-- Two links to one path. -/
  | link (target : String) : Like (.link target) (.link target)
  /-- Two directories. -/
  | directory (entries entries' : List (String × FileNode)) :
    Like (.directory entries) (.directory entries')

theorem Like.refl (n : FileNode) : n.Like n := by
  cases n <;> constructor

theorem Like.trans {a b c : FileNode} (hab : a.Like b) (hbc : b.Like c) : a.Like c := by
  cases hab <;> cases hbc <;> constructor

/-- Whatever a node has at some place, another one has the like of it there. -/
def Grows (n n' : FileNode) : Prop :=
  ∀ ⦃place node⦄, n.at? place = some node → ∃ node', n'.at? place = some node' ∧ node.Like node'

theorem Grows.refl (n : FileNode) : n.Grows n := fun _ node h => ⟨node, h, .refl node⟩

theorem Grows.trans {a b c : FileNode} (hab : a.Grows b) (hbc : b.Grows c) : a.Grows c := by
  intro place node h
  rcases hab h with ⟨node', h', hlike⟩
  rcases hbc h' with ⟨node'', h'', hlike'⟩
  exact ⟨node'', h'', hlike.trans hlike'⟩

theorem Grows.hasDirectory {n n' : FileNode} (h : n.Grows n') {place : List String}
    (hplace : n.HasDirectory place) : n'.HasDirectory place := by
  rcases hplace with ⟨entries, hentries⟩
  rcases h hentries with ⟨node', hnode', hlike⟩
  cases hlike
  exact ⟨_, hnode'⟩

/-! ### Putting nodes -/

theorem at?_directory (entries : List (String × FileNode)) (name : String)
    (place : List String) :
    (directory entries).at? (name :: place)
      = (entries.lookup name).bind fun child => child.at? place := by
  rw [at?, FileNode.entry?]
  cases entries.lookup name <;> rfl

theorem lookup_setEntry (name other : String) (change : Option FileNode → FileNode)
    (entries : List (String × FileNode)) :
    (setEntry name change entries).lookup other
      = if other = name then some (change (entries.lookup name)) else entries.lookup other := by
  induction entries with
  | nil =>
      rw [setEntry, List.lookup_cons]
      by_cases h : other = name
      · rw [if_pos h, beq_iff_eq.2 h]
        rfl
      · rw [if_neg h, beq_eq_false_iff_ne.2 h]
  | cons e entries ih =>
      rcases e with ⟨first, child⟩
      rw [setEntry]
      -- The first entry of the name is the one that is changed.
      by_cases hfirst : first = name
      · rw [if_pos hfirst, List.lookup_cons, List.lookup_cons, List.lookup_cons,
          beq_iff_eq.2 hfirst.symm, hfirst]
        by_cases h : other = name
        · rw [if_pos h, beq_iff_eq.2 h]
        · rw [if_neg h, beq_eq_false_iff_ne.2 h]
      · rw [if_neg hfirst, List.lookup_cons, List.lookup_cons, List.lookup_cons, ih,
          beq_eq_false_iff_ne.2 (Ne.symm hfirst)]
        by_cases h : other = name
        · rw [if_pos h, if_pos h, h, beq_eq_false_iff_ne.2 (Ne.symm hfirst)]
        · rw [if_neg h, if_neg h]

/-- What is put at a place is there. -/
theorem at?_put (new : FileNode) (place : List String) (n : FileNode) :
    (put new place n).at? place = some new := by
  induction place generalizing n with
  | nil => rfl
  | cons name place ih =>
      unfold put
      rw [at?_directory, lookup_setEntry, if_pos rfl]
      exact ih _

theorem grows_setEntry {name : String} {change : Option FileNode → FileNode}
    {entries : List (String × FileNode)}
    (h : ∀ child, entries.lookup name = some child → child.Grows (change (some child))) :
    (directory entries).Grows (directory (setEntry name change entries)) := by
  intro place node hnode
  cases place with
  | nil =>
      rw [← Option.some.inj hnode]
      exact ⟨_, rfl, .directory _ _⟩
  | cons first place =>
      rw [at?_directory] at hnode ⊢
      rw [lookup_setEntry]
      by_cases hfirst : first = name
      · rcases Option.bind_eq_some_iff.1 hnode with ⟨child, hchild, hnode⟩
        rw [hfirst] at hchild
        rw [if_pos hfirst, hchild, Option.bind_some]
        exact h child hchild hnode
      · rw [if_neg hfirst]
        exact ⟨node, hnode, .refl node⟩

/-- A tree grows if what is at a place does. -/
theorem grows_put {new old : FileNode} {place : List String} {n : FileNode}
    (h : n.at? place = some old) (hgrows : old.Grows new) : n.Grows (put new place n) := by
  induction place generalizing n with
  | nil =>
      rw [Option.some.inj h]
      exact hgrows
  | cons name place ih =>
      cases n with
      | directory entries =>
          refine grows_setEntry fun child hchild => ?_
          rw [at?_directory, hchild] at h
          exact ih h
      | file | link => cases h

theorem setEntry_congr {name : String} {change change' : Option FileNode → FileNode}
    {entries : List (String × FileNode)}
    (h : change (entries.lookup name) = change' (entries.lookup name)) :
    setEntry name change entries = setEntry name change' entries := by
  induction entries with
  | nil =>
      rw [setEntry, setEntry]
      exact congrArg (fun child => [(name, child)]) h
  | cons e entries ih =>
      rcases e with ⟨first, child⟩
      rw [setEntry, setEntry]
      rw [List.lookup_cons] at h
      by_cases hfirst : first = name
      · rw [beq_iff_eq.2 hfirst.symm] at h
        rw [if_pos hfirst, if_pos hfirst]
        exact congrArg (fun child => (first, child) :: entries) h
      · rw [beq_eq_false_iff_ne.2 (Ne.symm hfirst)] at h
        rw [if_neg hfirst, if_neg hfirst, ih h]

theorem put_append (new : FileNode) {place : List String} (more : List String)
    {n node : FileNode} (h : n.at? place = some node) :
    put new (place ++ more) n = put (put new more node) place n := by
  induction place generalizing n with
  | nil => rw [Option.some.inj h, List.nil_append, put]
  | cons name place ih =>
      cases n with
      | directory entries =>
          rw [List.cons_append, put, put]
          refine congrArg directory (setEntry_congr ?_)
          rw [at?_directory] at h
          rcases Option.bind_eq_some_iff.1 h with ⟨child, hchild, h⟩
          rw [hchild]
          exact ih h
      | file | link => cases h

/-- A tree grows if something is put where a directory has nothing. -/
theorem grows_put_absent {new : FileNode} {place : List String} {name : String} {n : FileNode}
    (hplace : n.HasDirectory place) (h : n.at? (place ++ [name]) = none) :
    n.Grows (put new (place ++ [name]) n) := by
  rcases hplace with ⟨entries, hentries⟩
  rw [put_append new [name] hentries]
  refine grows_put hentries (grows_setEntry fun child hchild => ?_)
  rw [at?_append, hentries, Option.bind_some, at?_directory, hchild] at h
  cases h

theorem grows_put_file {place : List String} {n : FileNode}
    {bytes : Option (List UInt8)}
    (h : n.at? place = some (.file bytes)) (bytes' : Option (List UInt8)) :
    n.Grows (put (.file bytes') place n) := by
  refine grows_put h fun more node hnode => ?_
  cases more with
  | nil =>
      rw [← Option.some.inj hnode]
      exact ⟨_, rfl, .file _ _⟩
  | cons name more => cases hnode

end FileNode

/-! ### Following paths -/

namespace FileTree

open FileNode

namespace Way

variable {top top' : FileNode} {followLast : Bool} {links : Nat} {here names : List String}

/-- What is found is found in a tree that has grown. -/
theorem grows (hgrows : top.Grows top') {place : List String} {node : FileNode}
    (h : Way top followLast links here names (.found place node)) :
    ∃ node', Way top' followLast links here names (.found place node') ∧ node.Like node' := by
  -- By induction on the way: what it passes is still there, and of the same kind.
  generalize hd : Destination.found place node = d at h
  induction h with
  | stop h =>
      cases hd
      rcases hgrows h with ⟨node', hnode', hlike⟩
      exact ⟨node', .stop hnode', hlike⟩
  | idle hname _ ih =>
      rcases ih hd with ⟨node', hway, hlike⟩
      exact ⟨node', .idle hname hway, hlike⟩
  | up _ ih =>
      rcases ih hd with ⟨node', hway, hlike⟩
      exact ⟨node', .up hway, hlike⟩
  | enter hname h _ ih =>
      rcases ih hd with ⟨node', hway, hlike⟩
      rcases hgrows.hasDirectory ⟨_, h⟩ with ⟨entries', hentries'⟩
      exact ⟨node', .enter hname hentries' hway, hlike⟩
  | jump hname h hgo _ ih =>
      rcases ih hd with ⟨node', hway, hlike⟩
      rcases hgrows h with ⟨link', hlink', hlink⟩
      cases hlink
      exact ⟨node', .jump hname hlink' hgo hway, hlike⟩
  | file hname h =>
      cases hd
      rcases hgrows h with ⟨node', hnode', hlike⟩
      cases hlike
      exact ⟨_, .file hname hnode', .file _ _⟩
  | link hname h hlast =>
      cases hd
      rcases hgrows h with ⟨node', hnode', hlike⟩
      cases hlike
      exact ⟨_, .link hname hnode' hlast, .link _⟩
  | absent => cases hd

/-- What was absent is found where it was missing, once it has come to be. Where a slash
    follows only a directory will do. -/
theorem filled (hgrows : top.Grows top') {directory : List String} {name : String} {slash : Bool}
    (h : Way top followLast links here names (.absent directory name slash)) {node : FileNode}
    (hnode : top'.at? (directory ++ [name]) = some node)
    (hkind : node.isDirectory = true ∨ (node.isFile = true ∧ slash = false)) :
    Way top' followLast links here names (.found (directory ++ [name]) node) := by
  generalize hd : Destination.absent directory name slash = d at h
  induction h with
  | stop | file | link => cases hd
  | idle hname _ ih => exact .idle hname (ih hd)
  | up _ ih => exact .up (ih hd)
  | enter hname h _ ih =>
      rcases hgrows.hasDirectory ⟨_, h⟩ with ⟨entries', hentries'⟩
      exact .enter hname hentries' (ih hd)
  | jump hname h hgo _ ih =>
      rcases hgrows h with ⟨link', hlink', hlink⟩
      cases hlink
      exact .jump hname hlink' hgo (ih hd)
  -- Only empty pieces may follow, which are idle in a directory.
  | @absent links here name rest hname h hrest =>
      cases hd
      cases node with
      | directory entries =>
          refine .enter hname hnode (idles (fun piece hpiece => ?_) hnode)
          rw [hrest piece hpiece]
          rfl
      | file bytes =>
          rcases hkind with hkind | ⟨-, hslash⟩
          · cases hkind
          · rw [Bool.not_eq_false', List.isEmpty_iff] at hslash
            rw [hslash]
            exact .file hname hnode
      | link target =>
          rcases hkind with hkind | ⟨hkind, -⟩ <;> cases hkind

end Way

/-- A tree has grown, and paths start where they did. -/
structure Grows (t t' : FileTree) : Prop where
  /-- The top has grown. -/
  top : t.top.Grows t'.top
  /-- Relative paths start at the same place. -/
  workDir : t'.workDir = t.workDir

theorem Grows.refl (t : FileTree) : t.Grows t := ⟨.refl t.top, rfl⟩

theorem Grows.trans {a b c : FileTree} (hab : a.Grows b) (hbc : b.Grows c) : a.Grows c :=
  ⟨hab.top.trans hbc.top, hbc.workDir.trans hab.workDir⟩

section

variable {t t' : FileTree} {followLast : Bool} {path : String} {d : Destination}

/-- The place that the names of a path start from. -/
def startFor (t : FileTree) (path : String) : List String :=
  if Path.isAbsolute path then [] else t.workDir

theorem find_eq_ok_iff : t.find followLast path = .ok d ↔
    path ≠ "" ∧ Way t.top followLast maxLinks (t.startFor path) (Path.pieces path) d := by
  rw [find]
  split
  · next hpath => exact ⟨fun h => (nomatch h), fun h => absurd hpath h.1⟩
  · next hpath => exact follow_eq_ok_iff.trans ⟨fun h => ⟨hpath, h⟩, And.right⟩

theorem Grows.startFor (h : t.Grows t') (path : String) : t'.startFor path = t.startFor path := by
  rw [FileTree.startFor, FileTree.startFor, h.workDir]

theorem Grows.find_found (h : t.Grows t') {place : List String} {node : FileNode}
    (hfind : t.find followLast path = .ok (.found place node)) :
    ∃ node', t'.find followLast path = .ok (.found place node') ∧ node.Like node' := by
  rw [find_eq_ok_iff] at hfind
  rcases hfind.2.grows h.top with ⟨node', hway, hlike⟩
  refine ⟨node', find_eq_ok_iff.2 ⟨hfind.1, ?_⟩, hlike⟩
  rw [h.startFor]
  exact hway

theorem Grows.find_filled (h : t.Grows t') {directory : List String} {name : String} {slash : Bool}
    (hfind : t.find followLast path = .ok (.absent directory name slash)) {node : FileNode}
    (hnode : t'.top.at? (directory ++ [name]) = some node)
    (hkind : node.isDirectory = true ∨ (node.isFile = true ∧ slash = false)) :
    t'.find followLast path = .ok (.found (directory ++ [name]) node) := by
  rw [find_eq_ok_iff] at hfind ⊢
  refine ⟨hfind.1, ?_⟩
  rw [h.startFor]
  exact hfind.2.filled h.top hnode hkind

theorem reach_eq_ok_iff {place : List String} {node : FileNode} :
    t.reach path = .ok (place, node) ↔ t.find true path = .ok (.found place node) := by
  rw [reach]
  rcases t.find true path with e | ⟨place', node'⟩ | ⟨directory, name, slash⟩
  · exact ⟨fun h => (nomatch h), fun h => (nomatch h)⟩
  · simp only [Except.ok.injEq, Prod.mk.injEq, Destination.found.injEq]
  · exact ⟨fun h => (nomatch h), fun h => (nomatch h)⟩

theorem isDirectory_iff : t.isDirectory path = true ↔
    ∃ place entries, t.find true path = .ok (.found place (.directory entries)) := by
  simp only [← reach_eq_ok_iff]
  rw [isDirectory]
  rcases t.reach path with e | ⟨place, node⟩
  · exact ⟨fun h => (nomatch h), fun ⟨_, _, h⟩ => (nomatch h)⟩
  · cases node with
    | directory entries => exact ⟨fun _ => ⟨place, entries, rfl⟩, fun _ => rfl⟩
    | file | link => exact ⟨fun h => (nomatch h), fun ⟨_, _, h⟩ => (nomatch h)⟩

theorem isFile_iff : t.isFile path = true ↔
    ∃ place bytes, t.find true path = .ok (.found place (.file bytes)) := by
  simp only [← reach_eq_ok_iff]
  rw [isFile]
  rcases t.reach path with e | ⟨place, node⟩
  · exact ⟨fun h => (nomatch h), fun ⟨_, _, h⟩ => (nomatch h)⟩
  · cases node with
    | file bytes => exact ⟨fun _ => ⟨place, bytes, rfl⟩, fun _ => rfl⟩
    | directory | link => exact ⟨fun h => (nomatch h), fun ⟨_, _, h⟩ => (nomatch h)⟩

/-- A directory stays one under its path. -/
theorem Grows.isDirectory (h : t.Grows t') (hpath : t.isDirectory path = true) :
    t'.isDirectory path = true := by
  rcases isDirectory_iff.1 hpath with ⟨place, entries, hfind⟩
  rcases h.find_found hfind with ⟨node', hfind', hlike⟩
  cases hlike
  exact isDirectory_iff.2 ⟨place, _, hfind'⟩

end

end FileTree

end UtilityCss
