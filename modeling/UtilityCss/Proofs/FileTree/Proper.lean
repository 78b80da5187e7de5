import UtilityCss.Proofs.FileTree.Plain
import UtilityCss.Proofs.FileTree.Writing

/-!
# Trees With Links

What is found in a tree that may have links.

A link can lead anywhere, so the path of a file says nothing about its place, and one file can
be found under many paths. What remains of the order in a tree without links is that every
path a walk gives is spelled by names below its start, and that it leads to a file. A walk
follows links by their paths and goes down by names, so each path it comes to has been followed
before, up to its last name.

Files can therefore be told apart by where their paths lead, and not by their paths.

## Main definitions

* `FileNode.IsProper`: The names in a tree are names.
* `FileTree.IsProper`: So they are in all files, and relative paths start at a directory.

## Theorems

* `FileTree.Way.ne_link`: Where links are followed, no link is found.
* `FileTree.reach_join_name`: What a directory has under a name is found under that name.
* `FileTree.of_mem_walk`: What a walk gives is below its start and leads to a file.
-/

namespace UtilityCss

namespace FileNode

/-- Each entry of a directory has a name of its own. -/
inductive IsProper : FileNode → Prop where
  /-- A file. -/
  | file (bytes : Option (List UInt8)) : IsProper (.file bytes)
  /-- A link. -/
  | link (target : String) : IsProper (.link target)
  /-- A directory. -/
  | directory {entries : List (String × FileNode)}
    (hnames : Path.AreNames (entries.map Prod.fst)) (hdistinct : (entries.map Prod.fst).Nodup)
    (hentries : ∀ entry ∈ entries, IsProper entry.2) : IsProper (.directory entries)

theorem IsPlain.isProper {n : FileNode} (h : n.IsPlain) : n.IsProper := by
  induction h with
  | file bytes => exact .file bytes
  | directory hnames hdistinct _ ih => exact .directory hnames hdistinct ih

theorem IsProper.at? {n node : FileNode} {names : List String} (hn : n.IsProper)
    (h : n.at? names = some node) : node.IsProper := by
  induction names generalizing n with
  | nil => exact Option.some.inj h ▸ hn
  | cons name names ih =>
      cases hn with
      | file | link => cases h
      | directory hnames hdistinct hentries =>
          rw [at?_directory] at h
          rcases Option.bind_eq_some_iff.1 h with ⟨child, hchild, h⟩
          exact ih (hentries _ (mem_of_lookup hchild)) h

end FileNode

namespace FileTree

open FileNode

/-- All names are names, and relative paths start at a directory. -/
structure IsProper (t : FileTree) : Prop where
  /-- The names are names. -/
  top : t.top.IsProper
  /-- There is a directory where relative paths start. -/
  workDir : t.top.HasDirectory t.workDir

/-- Where links are followed, no link is found. -/
theorem Way.ne_link {top node : FileNode} {links : Nat} {here names place : List String}
    (hhere : top.HasDirectory here) (h : Way top true links here names (.found place node))
    (target : String) : node ≠ .link target := by
  -- By induction on the way, with a directory at its start: the only step that ends at a
  -- link is one that does not follow it.
  generalize hd : Destination.found place node = d at h
  induction h with
  | stop h =>
      rcases hhere with ⟨entries, hentries⟩
      cases hd
      cases hentries.symm.trans h
      exact FileNode.noConfusion
  | idle _ _ ih => exact ih hhere hd
  | up _ ih => exact ih hhere.dropLast hd
  | enter _ h _ ih => exact ih ⟨_, h⟩ hd
  | jump _ _ _ _ ih => exact ih (hasDirectory_startOf hhere _) hd
  | file =>
      cases hd
      exact FileNode.noConfusion
  | link _ _ hlast => cases hlast
  | absent => cases hd

variable {t : FileTree} (ht : t.IsProper)
include ht

theorem ne_link_of_reach {path : String} {place : List String} {node : FileNode}
    (h : t.reach path = .ok (place, node)) (target : String) : node ≠ .link target :=
  (find_eq_ok_iff.1 (reach_eq_ok_iff.1 h)).2.ne_link (hasDirectory_startFor ht.workDir path) target

/-- What a directory has under a name is found under that name, unless it is a link. -/
theorem reach_join_name {path : String} {place : List String}
    {entries : List (String × FileNode)} (hpath : t.reach path = .ok (place, .directory entries))
    {name : String} {child : FileNode} (hentry : (name, child) ∈ entries) :
    Path.IsName name ∧ ((∀ target, child ≠ .link target) →
      t.reach (Path.join path name) = .ok (place ++ [name], child)) := by
  have hat := at?_of_reach hpath
  cases ht.top.at? hat with
  | directory hnames hdistinct hentries =>
      have hname := hnames name (List.mem_map_of_mem hentry)
      refine ⟨hname, fun hchild => ?_⟩
      -- No other entry has the name, so looking it up gives the child.
      have hthere : t.top.at? (place ++ [name]) = some child := by
        rw [at?_append, hat, Option.bind_some, at?_directory,
          (lookup_eq_some_iff hdistinct).2 hentry]
        rfl
      rcases exists_find_join hpath with ⟨links, hfind⟩
      have hnamed := hfind (List.forall_mem_singleton.2 hname)
      rw [String.intercalate_singleton] at hnamed
      rw [reach_eq_ok_iff, hnamed, follow_eq_ok_iff]
      cases child with
      | file bytes => exact .file hname.toIsEntry hthere
      | link target => exact absurd rfl (hchild target)
      | directory entries' => exact .enter hname.toIsEntry hthere (.stop hthere)

/-- The path leads to a file and is spelled by names below another one. -/
def IsFileBelow (t : FileTree) (path : String) (names : List String) (found : String) : Prop :=
  Path.AreNames names ∧ found = names.foldl Path.join path ∧
    ∃ place bytes, t.reach found = .ok (place, .file bytes)

/-- A visit goes down by one level at a time, so what holds of all visits to directories holds of
    all visits. -/
theorem of_mem_visit {fuel : Nat}
    (hdescend : ∀ {levels inside path place entries found},
      t.reach path = .ok (place, .directory entries) →
        .ok found ∈ t.descend fuel levels inside path place entries →
        ∃ names, names ≠ [] ∧ t.IsFileBelow path names found)
    {levels : Option Nat} {inside : List WalkStep} {path found : String} {place : List String}
    {node : FileNode} (hnode : (∀ target, node ≠ .link target) → t.reach path = .ok (place, node))
    (h : .ok found ∈ t.visit fuel levels inside path place node) :
    ∃ names, (node.isDirectory = true → names ≠ []) ∧ t.IsFileBelow path names found := by
  have hself : ∀ {place bytes}, t.reach path = .ok (place, .file bytes) → found = path →
      t.IsFileBelow path [] found := by
    rintro place bytes hreach rfl
    exact ⟨fun _ hname => absurd hname List.not_mem_nil, rfl, place, bytes, hreach⟩
  cases node with
  | file bytes =>
      rw [visit, List.mem_singleton, Except.ok.injEq] at h
      exact ⟨[], fun hdirectory => absurd hdirectory Bool.false_ne_true,
        hself (hnode fun _ => FileNode.noConfusion) h⟩
  | directory entries =>
      rw [visit] at h
      rcases hdescend (hnode fun _ => FileNode.noConfusion) h with ⟨names, hne, hfound⟩
      exact ⟨names, fun _ => hne, hfound⟩
  | link target =>
      -- A link is followed by its path, so that path leads to what the link does.
      have hfollow : ∀ {place node}, t.followInWalk inside path = .ok (place, node) →
          t.reach path = .ok (place, node) := by
        intro place node h
        rw [followInWalk] at h
        rcases hreach : t.reach path with e | ⟨place', node'⟩
        · rw [hreach] at h
          cases h
        · rw [hreach] at h
          dsimp only at h
          split at h
          · split at h
            · cases h
            · cases h
              rfl
          · cases h
            rfl
      rw [visit] at h
      split at h
      · cases List.mem_singleton.1 h
      · next place entries hstep =>
          rcases hdescend (hfollow hstep) h with ⟨names, -, hfound⟩
          exact ⟨names, fun hdirectory => absurd hdirectory Bool.false_ne_true, hfound⟩
      · next reached hnot hstep =>
          rcases reached with ⟨place, node⟩
          rw [List.mem_singleton, Except.ok.injEq] at h
          cases node with
          | file bytes =>
              exact ⟨[], fun hdirectory => absurd hdirectory Bool.false_ne_true,
                hself (hfollow hstep) h⟩
          | link target => exact absurd rfl (ne_link_of_reach ht (hfollow hstep) target)
          | directory entries => exact absurd rfl (hnot place entries)

theorem of_mem_descend {fuel : Nat} {levels : Option Nat} {inside : List WalkStep}
    {path found : String} {place : List String} {entries : List (String × FileNode)}
    (hpath : t.reach path = .ok (place, .directory entries))
    (h : .ok found ∈ t.descend fuel levels inside path place entries) :
    ∃ names, names ≠ [] ∧ t.IsFileBelow path names found := by
  induction fuel generalizing levels inside path found place entries with
  | zero =>
      have hnil : t.descend 0 levels inside path place entries = [] := by
        rcases levels with _ | _ | levels <;> simp only [descend]
      rw [hnil] at h
      exact absurd h List.not_mem_nil
  | succ fuel ih =>
      -- Without levels left nothing is found.
      by_cases hlevels : levels = some 0
      · rw [hlevels, descend] at h
        exact absurd h List.not_mem_nil
      · rw [descend] at h
        · rcases List.mem_flatMap.1 h with ⟨⟨name, child⟩, hentry, h⟩
          rw [sortedEntries, List.mem_mergeSort] at hentry
          rcases reach_join_name ht hpath hentry with ⟨hname, hchild⟩
          rcases of_mem_visit ht ih hchild h with ⟨names, -, hnames, hfound, hfile⟩
          exact ⟨name :: names, List.cons_ne_nil _ _, List.forall_mem_cons.2 ⟨hname, hnames⟩,
            hfound, hfile⟩
        · exact hlevels

/-- What a walk gives is below its start and leads to a file. -/
theorem of_mem_walk {start found : String} {levels : Option Nat}
    (h : .ok found ∈ t.walk start levels) :
    ∃ names, (t.isDirectory start = true → names ≠ []) ∧ t.IsFileBelow start names found := by
  rw [walk] at h
  rcases hreach : t.reach start with e | ⟨place, node⟩
  · rw [hreach] at h
    exact absurd h List.not_mem_nil
  · rw [hreach] at h
    rw [isDirectory, hreach]
    exact of_mem_visit ht (of_mem_descend ht) (fun _ => hreach) h

end FileTree

end UtilityCss
