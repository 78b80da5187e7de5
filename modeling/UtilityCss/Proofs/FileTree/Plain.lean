import UtilityCss.Proofs.FileTree.Below
import UtilityCss.Proofs.FileTree.Shape

/-!
# Trees Without Links

What is found in a tree of files and directories only.

Where there are no links, a path leads to a place by its names, each place has one path below
a root, and a walk is the list of the files at the places that it can get to. So a walk can be
told by the places of files, without a word about the order in which it goes or the
directories that it is inside of.

Only the part of the tree below the root has to be so. How the root itself is reached does not
matter: behind the way to a directory, following goes on as if it had started there.

## Main definitions

* `FileNode.IsPlain`: There are no links in a tree, and its names are names.

## Theorems

* `FileNode.IsPlain.at?`: What is in such a tree is one.
* `FileTree.exists_find_join_pieces`: A path from a root is followed from the root's place.
* `FileTree.reach_join_iff`: What a path below a root leads to.
* `FileTree.mem_visit_iff`, `FileTree.mem_walk_iff`: What a walk finds.
-/

namespace UtilityCss

namespace FileNode

/-- There are no links in the tree, and each entry of a directory has a name of its own. -/
inductive IsPlain : FileNode → Prop where
  /-- A file. -/
  | file (bytes : Option (List UInt8)) : IsPlain (.file bytes)
  /-- A directory. -/
  | directory {entries : List (String × FileNode)}
    (hnames : Path.AreNames (entries.map Prod.fst)) (hdistinct : (entries.map Prod.fst).Nodup)
    (hentries : ∀ entry ∈ entries, IsPlain entry.2) : IsPlain (.directory entries)

theorem mem_of_lookup {entries : List (String × FileNode)} {name : String} {child : FileNode}
    (h : entries.lookup name = some child) : (name, child) ∈ entries := by
  rcases List.lookup_eq_some_iff.1 h with ⟨before, after, rfl, -⟩
  exact List.mem_append_right _ List.mem_cons_self

theorem lookup_eq_some_iff {entries : List (String × FileNode)}
    (h : (entries.map Prod.fst).Nodup) {name : String} {child : FileNode} :
    entries.lookup name = some child ↔ (name, child) ∈ entries := by
  refine ⟨mem_of_lookup, fun hmem => ?_⟩
  rcases List.append_of_mem hmem with ⟨before, after, rfl⟩
  refine List.lookup_eq_some_iff.2 ⟨before, after, rfl, fun entry hentry => bne_iff_ne.2 ?_⟩
  rw [List.map_append, List.nodup_append] at h
  exact (h.2.2 _ (List.mem_map_of_mem hentry) _ List.mem_cons_self).symm

theorem size_pos (n : FileNode) : 0 < n.size := by
  cases n with
  | file | link => exact Nat.one_pos
  | directory entries => exact Nat.succ_pos _

theorem size_le_sizeOfEntries {entries : List (String × FileNode)} {entry : String × FileNode}
    (h : entry ∈ entries) : entry.2.size ≤ sizeOfEntries entries := by
  induction entries with
  | nil => exact absurd h List.not_mem_nil
  | cons first entries ih =>
      rcases first with ⟨name, node⟩
      rw [sizeOfEntries]
      rcases List.mem_cons.1 h with rfl | h
      · exact Nat.le_add_right _ _
      · exact Nat.le_trans (ih h) (Nat.le_add_left _ _)

theorem size_le_of_at? {n node : FileNode} {place : List String} (h : n.at? place = some node) :
    node.size ≤ n.size := by
  induction place generalizing n with
  | nil => exact Nat.le_of_eq (congrArg size (Option.some.inj h).symm)
  | cons name place ih =>
      cases n with
      | file | link => cases h
      | directory entries =>
          rw [at?_directory] at h
          rcases Option.bind_eq_some_iff.1 h with ⟨child, hchild, h⟩
          have hsize : child.size ≤ sizeOfEntries entries :=
            size_le_sizeOfEntries (mem_of_lookup hchild)
          have hnode := ih h
          rw [size]
          omega

namespace IsPlain

variable {n node : FileNode} {names : List String}

/-- What is in a tree without links is one, and is found by names. -/
theorem at? (hn : n.IsPlain) (h : n.at? names = some node) :
    node.IsPlain ∧ Path.AreNames names := by
  induction names generalizing n with
  | nil =>
      rw [← Option.some.inj h]
      exact ⟨hn, fun _ hname => absurd hname List.not_mem_nil⟩
  | cons name names ih =>
      cases hn with
      | file => cases h
      | directory hnames hdistinct hentries =>
          rw [at?_directory] at h
          rcases Option.bind_eq_some_iff.1 h with ⟨child, hchild, h⟩
          have hmem := (lookup_eq_some_iff hdistinct).1 hchild
          rcases ih (hentries _ hmem) h with ⟨hnode, hrest⟩
          exact ⟨hnode, List.forall_mem_cons.2 ⟨hnames _ (List.mem_map_of_mem hmem), hrest⟩⟩

end IsPlain

end FileNode

namespace FileTree

open FileNode

/-! ### Where paths lead -/

variable {t : FileTree}

theorem follow_idle {top : FileNode} {links : Nat} {here rest : List String} {name : String}
    (hname : Path.isIdle name = true) :
    follow top true links here (name :: rest) = follow top true links here rest := by
  rw [follow, if_pos hname]

theorem follow_append_idles {top : FileNode} {links : Nat} {here idles : List String}
    (hidles : ∀ piece ∈ idles, Path.isIdle piece = true) (rest : List String) :
    follow top true links here (idles ++ rest) = follow top true links here rest := by
  induction idles with
  | nil => rfl
  | cons piece idles ih =>
      rcases List.forall_mem_cons.1 hidles with ⟨hpiece, hidles⟩
      rw [List.cons_append, follow_idle hpiece, ih hidles]

/-- Behind the way to a directory, following goes on from there. -/
theorem Way.exists_follow_append {top : FileNode} {links : Nat} {here names place : List String}
    {entries : List (String × FileNode)}
    (h : Way top true links here names (.found place (.directory entries))) :
    ∃ links', ∀ more, follow top true links here (names ++ more)
      = follow top true links' place more := by
  -- By induction on the way. The links that are left are those of its last step.
  generalize hd : Destination.found place (.directory entries) = d at h
  induction h with
  | stop h =>
      cases hd
      exact ⟨_, fun more => rfl⟩
  | idle hname _ ih =>
      rcases ih hd with ⟨links', hmore⟩
      refine ⟨links', fun more => ?_⟩
      rw [List.cons_append, follow_idle hname, hmore]
  | up _ ih =>
      rcases ih hd with ⟨links', hmore⟩
      refine ⟨links', fun more => ?_⟩
      rw [List.cons_append, follow, if_neg (by decide), if_pos rfl, hmore]
  | enter hname h _ ih =>
      rcases ih hd with ⟨links', hmore⟩
      refine ⟨links', fun more => ?_⟩
      rw [List.cons_append, follow, if_neg (ne_true_of_eq_false hname.notIdle),
        if_neg hname.notUp]
      simp only [h]
      exact hmore more
  | jump hname h _ _ ih =>
      rcases ih hd with ⟨links', hmore⟩
      refine ⟨links', fun more => ?_⟩
      rw [List.cons_append, follow, if_neg (ne_true_of_eq_false hname.notIdle),
        if_neg hname.notUp]
      simp only [h, Bool.not_true, Bool.and_false]
      -- The pieces of the link come before what is left.
      rw [← hmore more, List.append_assoc]
      rfl
  | file | link | absent => cases hd

/-- Without links, the way along names is the one to the place of the names. -/
theorem way_found_iff {top node node' : FileNode} {links : Nat}
    {here names place : List String} (hplain : node.IsPlain) (hhere : top.at? here = some node)
    (hnames : Path.AreNames names) :
    Way top true links here names (.found place node') ↔
      place = here ++ names ∧ node.at? names = some node' := by
  induction names generalizing here node with
  | nil =>
      rw [List.append_nil]
      constructor
      · intro h
        cases h with
        | stop h => exact ⟨rfl, hhere.symm.trans h⟩
      · rintro ⟨rfl, hat⟩
        exact .stop (hhere.trans hat)
  | cons name names ih =>
      rcases List.forall_mem_cons.1 hnames with ⟨hname, hnames⟩
      have happend : here ++ name :: names = here ++ [name] ++ names := by
        rw [List.append_assoc, List.singleton_append]
      -- What is there is what the directory has under the name.
      have hchild : top.at? (here ++ [name]) = node.at? [name] := by
        rw [at?_append, hhere, Option.bind_some]
      have hbelow : ∀ {child}, node.at? [name] = some child →
          node.at? (name :: names) = child.at? names := by
        intro child hat
        rw [← List.singleton_append, at?_append, hat, Option.bind_some]
      constructor
      · intro h
        cases h with
        | idle hidle => exact absurd hidle (ne_true_of_eq_false hname.notIdle)
        | up => exact absurd rfl hname.notUp
        | enter _ h hrest =>
            have hat := hchild.symm.trans h
            rw [happend, hbelow hat]
            exact (ih (hplain.at? hat).1 h hnames).1 hrest
        | jump _ h => cases (hplain.at? (hchild.symm.trans h)).1
        | file _ h => exact ⟨rfl, hchild.symm.trans h⟩
        | link _ _ hlast => cases hlast
      · rintro ⟨rfl, hat⟩
        rcases hfirst : node.at? [name] with _ | child
        · rw [← List.singleton_append, at?_append, hfirst] at hat
          cases hat
        · rw [hbelow hfirst] at hat
          have hthere := hchild.trans hfirst
          have hchildPlain := (hplain.at? hfirst).1
          cases hchildPlain with
          | file bytes =>
              cases names with
              | nil =>
                  cases hat
                  exact .file hname.toIsEntry hthere
              | cons => cases hat
          | directory hentries hdistinct hplain' =>
              exact .enter hname.toIsEntry hthere
                ((ih (.directory hentries hdistinct hplain') hthere hnames).2 ⟨happend, hat⟩)

section

variable {root : String} {place : List String} {entries : List (String × FileNode)}
  (hroot : t.reach root = .ok (place, .directory entries))
include hroot

/-- Following a path from a root goes on from the place of the root. -/
theorem exists_find_join_pieces : ∃ links, ∀ {path}, Path.isAbsolute path = false →
    t.find true (Path.join root path) = follow t.top true links place (Path.pieces path) := by
  rcases find_eq_ok_iff.1 (reach_eq_ok_iff.1 hroot) with ⟨hne, hway⟩
  rcases Path.exists_pieces_join hne with ⟨first, idles, hfirst, hidles, hpieces, hjoin⟩
  rw [hpieces, Way.append_idle_iff hidles] at hway
  rcases hway.exists_follow_append with ⟨links, hmore⟩
  refine ⟨links, fun {path} hpath => ?_⟩
  rcases hjoin hpath with ⟨hjoined, habsolute⟩
  -- The empty path has one piece, and the joined one has two at least.
  have hnot : Path.join root path ≠ "" := by
    intro hempty
    rw [hempty] at hjoined
    have hlength := congrArg List.length hjoined
    have hempty : (Path.pieces "").length = 1 := rfl
    have hfirst := List.length_pos_of_ne_nil hfirst
    have hrest : 0 < (Path.pieces path).length :=
      List.length_pos_of_ne_nil (Text.split_ne_nil _)
    rw [List.length_append] at hlength
    omega
  rw [find, if_neg hnot, habsolute, hjoined]
  rw [startFor] at hmore
  exact hmore _

/-- Following the path of names below a root goes on along the names. -/
theorem exists_find_join : ∃ links, ∀ {names : List String}, Path.AreNames names →
    t.find true (Path.join root ("/".intercalate names))
      = follow t.top true links place names := by
  rcases exists_find_join_pieces hroot with ⟨links, hfind⟩
  refine ⟨links, fun {names} hnames => ?_⟩
  rw [hfind (Path.isAbsolute_intercalate hnames)]
  by_cases hnil : names = []
  · -- No names are one idle piece.
    rw [hnil]
    exact follow_idle rfl
  · rw [Path.pieces_intercalate hnames hnil]

variable (hplain : (FileNode.directory entries).IsPlain)
include hplain

/-- What a path below a root leads to. -/
theorem reach_join_iff {names : List String} (hnames : Path.AreNames names)
    {place' : List String} {node : FileNode} :
    t.reach (Path.join root ("/".intercalate names)) = .ok (place', node) ↔
      place' = place ++ names ∧ (FileNode.directory entries).at? names = some node := by
  rcases exists_find_join hroot with ⟨links, hfind⟩
  rw [reach_eq_ok_iff, hfind hnames, follow_eq_ok_iff,
    way_found_iff hplain (at?_of_reach hroot) hnames]

end

/-! ### Walks -/

/-- A walk at a path of a node, down to so many levels, finds one of the files there. -/
def Finds (node : FileNode) (levels : Option Nat) (path : String)
    (result : Except WalkError String) : Prop :=
  ∃ names bytes, node.at? names = some (.file bytes) ∧ (∀ n ∈ levels, names.length ≤ n) ∧
    result = .ok (names.foldl Path.join path)

section

variable {entries : List (String × FileNode)} {levels : Option Nat} {path : String}
  {result : Except WalkError String}

theorem finds_file_iff {bytes : Option (List UInt8)} :
    Finds (.file bytes) levels path result ↔ result = .ok path := by
  constructor
  · rintro ⟨names, bytes', hat, -, rfl⟩
    cases names with
    | nil => rfl
    | cons name names => cases hat
  · rintro rfl
    exact ⟨[], bytes, rfl, fun _ _ => Nat.zero_le _, rfl⟩

theorem not_finds_directory_zero : ¬Finds (.directory entries) (some 0) path result := by
  rintro ⟨names, bytes, hat, hlevels, -⟩
  cases names with
  | nil => cases hat
  | cons name names => exact absurd (hlevels 0 rfl) (Nat.not_succ_le_zero _)

-- The files of a directory are those of its entries, one level further down.
theorem finds_directory_iff (hdistinct : (entries.map Prod.fst).Nodup) (hlevels : levels ≠ some 0) :
    Finds (.directory entries) levels path result ↔
      ∃ entry ∈ entries, Finds entry.2 (levels.map (· - 1)) (Path.join path entry.1) result := by
  -- One name takes one level.
  have hdown : ∀ {length : Nat},
      (∀ n ∈ levels, length + 1 ≤ n) ↔ ∀ n ∈ levels.map (· - 1), length ≤ n := by
    intro length
    rcases levels with _ | _ | levels
    · simp only [Option.map_none, Option.mem_def, reduceCtorEq, false_implies, implies_true]
    · exact absurd rfl hlevels
    · simp only [Option.map_some, Option.mem_def, Option.some.injEq, forall_eq',
        Nat.add_le_add_iff_right, Nat.add_sub_cancel]
  constructor
  · rintro ⟨names, bytes, hat, hlength, rfl⟩
    cases names with
    | nil => cases hat
    | cons name names =>
        rw [at?_directory] at hat
        rcases Option.bind_eq_some_iff.1 hat with ⟨child, hchild, hat⟩
        exact ⟨(name, child), mem_of_lookup hchild, names, bytes, hat, hdown.1 hlength, rfl⟩
  · rintro ⟨⟨name, child⟩, hentry, names, bytes, hat, hlength, rfl⟩
    refine ⟨name :: names, bytes, ?_, hdown.2 hlength, rfl⟩
    rw [at?_directory, (lookup_eq_some_iff hdistinct).2 hentry]
    exact hat

/-- What a walk without links finds: the files that are not too far down. -/
theorem mem_visit_iff {node : FileNode} (hplain : node.IsPlain) {fuel : Nat}
    (hfuel : node.size ≤ fuel) {inside : List WalkStep} {place : List String} :
    result ∈ t.visit fuel levels inside path place node ↔ Finds node levels path result := by
  induction hplain generalizing fuel levels inside path place with
  | file bytes => rw [visit, List.mem_singleton, finds_file_iff]
  | @directory entries hnames hdistinct hentries ih =>
      rw [visit]
      cases fuel with
      | zero => exact absurd hfuel (Nat.not_le_of_gt (size_pos _))
      | succ fuel =>
          -- An entry is smaller than its directory, so the fuel that is left is enough.
          have hchild : ∀ {levels inside path place}, ∀ entry ∈ entries,
              (result ∈ t.visit fuel levels inside path place entry.2 ↔
                Finds entry.2 levels path result) := by
            intro levels inside path place entry hentry
            have hsize := size_le_sizeOfEntries hentry
            rw [size] at hfuel
            exact ih entry hentry (by omega)
          by_cases hlevels : levels = some 0
          · rw [hlevels, descend]
            simp only [List.not_mem_nil, not_finds_directory_zero]
          · rw [finds_directory_iff hdistinct hlevels, descend]
            · rw [List.mem_flatMap, sortedEntries]
              simp only [List.mem_mergeSort]
              exact exists_congr fun entry => and_congr_right fun hentry => hchild entry hentry
            · exact hlevels

end

theorem size_le_maxLevels {place : List String} {node : FileNode}
    (h : t.top.at? place = some node) : node.size ≤ t.maxLevels :=
  calc
    node.size ≤ t.top.size := size_le_of_at? h
    _ ≤ t.top.size + 2 := Nat.le_add_right _ _
    _ ≤ (t.top.size + 2) ^ 2 := Nat.le_self_pow (by decide) _

/-- What a walk below a root finds. -/
theorem mem_walk_iff {root : String} {place : List String} {entries : List (String × FileNode)}
    (hroot : t.reach root = .ok (place, .directory entries))
    (hplain : (FileNode.directory entries).IsPlain) {names : List String}
    (hnames : Path.AreNames names) {levels : Option Nat} {path : String} :
    .ok path ∈ t.walk (Path.join root ("/".intercalate names)) levels ↔
      ∃ more bytes, (FileNode.directory entries).at? (names ++ more) = some (.file bytes) ∧
        (∀ n ∈ levels, more.length ≤ n) ∧
        path = Path.join root ("/".intercalate (names ++ more)) := by
  have hreach := @reach_join_iff t root place entries hroot hplain names hnames
  rw [walk]
  rcases hwhere : t.reach (Path.join root ("/".intercalate names)) with e | ⟨place', node⟩
  · simp only [List.not_mem_nil, false_iff]
    -- A file below the names would make them lead somewhere.
    rintro ⟨more, bytes, hat, -, -⟩
    rw [at?_append] at hat
    rcases Option.bind_eq_some_iff.1 hat with ⟨node, hnode, -⟩
    rw [hreach.2 ⟨rfl, hnode⟩] at hwhere
    cases hwhere
  · rcases hreach.1 hwhere with ⟨-, hnode⟩
    have hat : ∀ more, (FileNode.directory entries).at? (names ++ more) = node.at? more := by
      intro more
      rw [at?_append, hnode, Option.bind_some]
    have hbelow := (hplain.at? hnode).1
    have hsize := size_le_maxLevels (at?_of_reach hwhere)
    dsimp only
    rw [mem_visit_iff hbelow hsize]
    simp only [Finds, hat, Except.ok.injEq]
    refine exists_congr fun more => exists_congr fun bytes => and_congr_right fun hmore => ?_
    rw [Path.foldl_join hnames (hbelow.at? hmore).2]

end FileTree

end UtilityCss
