import UtilityCss.FileTree.Lookup

/-!
# Ways Through a File Tree

How a path gets to where it leads, told apart from the search for it.

`follow` looks at one name after the other and fails in many ways. A way has only the
steps of a search that succeeds, one for each kind of name and of node, so what holds
of all paths that lead somewhere is shown step by step.

Where slashes follow a path it leads to the same directory. This is why a directory is
recognized under the path that it was made by.

## Main definitions

* `Path.IsEntry`: A piece that is looked up in a directory.
* `FileNode.HasDirectory`: There is a directory at a place.
* `Way`: The steps from a directory along names to a destination.

## Theorems

* `follow_eq_ok_iff`: A way is what following succeeds by.
* `Way.exists_found`: What is found with links followed is found without, too.
* `Way.append_idle_iff`: Idle pieces behind the way to a directory change nothing.
* `Way.hasDirectory_of_absent`: What is absent is missing from a directory.
-/

namespace UtilityCss

/-- A piece that is looked up in a directory. -/
structure Path.IsEntry (piece : String) : Prop where
  /-- It stands for something. -/
  notIdle : isIdle piece = false
  /-- It does not lead up. -/
  notUp : piece ≠ ".."

namespace FileNode

/-- There is a directory at a place. -/
def HasDirectory (n : FileNode) (place : List String) : Prop :=
  ∃ entries, n.at? place = some (.directory entries)

theorem at?_append {n : FileNode} {place more : List String} :
    n.at? (place ++ more) = (n.at? place).bind fun node => node.at? more := by
  induction place generalizing n with
  | nil => rfl
  | cons name place ih =>
      rw [List.cons_append, at?, at?]
      cases n.entry? name with
      | none => rfl
      | some child => exact ih

-- Only directories have entries.
theorem hasDirectory_of_at? {n node : FileNode} {place : List String} {name : String}
    (h : n.at? (place ++ [name]) = some node) : n.HasDirectory place := by
  rw [at?_append] at h
  rcases Option.bind_eq_some_iff.1 h with ⟨parent, hparent, hchild⟩
  cases parent with
  | directory entries => exact ⟨entries, hparent⟩
  | file | link => cases hchild

theorem HasDirectory.dropLast {n : FileNode} {place : List String} (h : n.HasDirectory place) :
    n.HasDirectory place.dropLast := by
  rcases List.eq_nil_or_concat place with rfl | ⟨parent, name, rfl⟩
  · exact h
  · rcases h with ⟨entries, hentries⟩
    rw [List.concat_eq_append] at hentries ⊢
    rw [List.dropLast_concat]
    exact hasDirectory_of_at? hentries

theorem HasDirectory.top {n : FileNode} {place : List String} (h : n.HasDirectory place) :
    n.HasDirectory [] := by
  rcases h with ⟨entries, hentries⟩
  cases n with
  | directory entries => exact ⟨entries, rfl⟩
  | file | link =>
      cases place with
      | nil => cases hentries
      | cons name place => cases hentries

end FileNode

namespace FileTree

/-- Where the names of a link's path start. -/
def startOf (here : List String) (target : String) : List String :=
  if Path.isAbsolute target then [] else here

theorem hasDirectory_startOf {n : FileNode} {here : List String} (h : n.HasDirectory here)
    (target : String) : n.HasDirectory (startOf here target) := by
  rw [startOf]
  split
  · exact h.top
  · exact h

/-- The steps from a directory along names to a destination. A link at the very end is
    followed if asked for. -/
inductive Way (top : FileNode) (followLast : Bool) :
    Nat → List String → List String → Destination → Prop where
  /-- No name is left. -/
  | stop {links : Nat} {here : List String} {node : FileNode} (h : top.at? here = some node) :
    Way top followLast links here [] (.found here node)
  /-- A name that stands for nothing. -/
  | idle {links : Nat} {here : List String} {name : String} {rest : List String} {d : Destination}
    (hname : Path.isIdle name = true) (hrest : Way top followLast links here rest d) :
    Way top followLast links here (name :: rest) d
  /-- To the directory above. -/
  | up {links : Nat} {here rest : List String} {d : Destination}
    (hrest : Way top followLast links here.dropLast rest d) :
    Way top followLast links here (".." :: rest) d
  /-- Into a directory. -/
  | enter {links : Nat} {here : List String} {name : String} {rest : List String} {d : Destination}
    {entries : List (String × FileNode)} (hname : Path.IsEntry name)
    (h : top.at? (here ++ [name]) = some (.directory entries))
    (hrest : Way top followLast links (here ++ [name]) rest d) :
    Way top followLast links here (name :: rest) d
  /-- Along a link. -/
  | jump {links : Nat} {here : List String} {name : String} {rest : List String} {d : Destination}
    {target : String} (hname : Path.IsEntry name)
    (h : top.at? (here ++ [name]) = some (.link target))
    (hgo : rest ≠ [] ∨ followLast = true)
    (hrest : Way top followLast links (startOf here target) (Path.pieces target ++ rest) d) :
    Way top followLast (links + 1) here (name :: rest) d
  /-- To a file. -/
  | file {links : Nat} {here : List String} {name : String}
    {bytes : Option (List UInt8)}
    (hname : Path.IsEntry name) (h : top.at? (here ++ [name]) = some (.file bytes)) :
    Way top followLast links here [name] (.found (here ++ [name]) (.file bytes))
  /-- To a link that is not followed. -/
  | link {links : Nat} {here : List String} {name : String} {target : String}
    (hname : Path.IsEntry name) (h : top.at? (here ++ [name]) = some (.link target))
    (hlast : followLast = false) :
    Way top followLast links here [name] (.found (here ++ [name]) (.link target))
  /-- To what is not there. -/
  | absent {links : Nat} {here : List String} {name : String} {rest : List String}
    (hname : Path.IsEntry name) (h : top.at? (here ++ [name]) = none)
    (hrest : ∀ piece ∈ rest, piece = "") :
    Way top followLast links here (name :: rest) (.absent here name !rest.isEmpty)

section

variable {top : FileNode} {followLast : Bool} {links : Nat} {here names : List String}

theorem way_of_follow {d : Destination} (h : follow top followLast links here names = .ok d) :
    Way top followLast links here names d := by
  fun_induction follow top followLast links here names with
  | case1 links here node hnode =>
      rw [← Except.ok.inj h]
      exact .stop hnode
  | case3 links here name rest hidle ih => exact .idle hidle (ih h)
  | case4 links here rest hidle ih => exact .up (ih h)
  | case5 links here name rest hidle hup place hnode hrest =>
      rw [← Except.ok.inj h]
      exact .absent ⟨eq_false_of_ne_true hidle, hup⟩ hnode fun piece hpiece =>
        of_decide_eq_true (List.all_eq_true.1 hrest piece hpiece)
  | case7 links here name rest hidle hup place bytes hnode hrest =>
      rw [List.isEmpty_iff.1 hrest, ← Except.ok.inj h]
      exact .file ⟨eq_false_of_ne_true hidle, hup⟩ hnode
  | case9 links here name rest hidle hup place entries hnode ih =>
      exact .enter ⟨eq_false_of_ne_true hidle, hup⟩ hnode (ih h)
  | case10 links here name rest hidle hup place target hnode hlast =>
      rw [Bool.and_eq_true, Bool.not_eq_true'] at hlast
      rw [List.isEmpty_iff.1 hlast.1, ← Except.ok.inj h]
      exact .link ⟨eq_false_of_ne_true hidle, hup⟩ hnode hlast.2
  | case12 here name rest hidle hup place target hnode hgo links ih =>
      -- The link is followed because something comes behind it, or because the last one is.
      have hgo : rest ≠ [] ∨ followLast = true := by
        rcases Bool.eq_false_or_eq_true followLast with hlast | hlast
        · exact .inr hlast
        · refine .inl fun hrest => hgo ?_
          rw [hrest, hlast]
          rfl
      exact .jump ⟨eq_false_of_ne_true hidle, hup⟩ hnode hgo (ih h)
  | case2 | case6 | case8 | case11 => cases h

theorem follow_of_way {d : Destination} (h : Way top followLast links here names d) :
    follow top followLast links here names = .ok d := by
  induction h with
  | stop h => rw [follow, h]
  | idle hname _ ih => rw [follow, if_pos hname, ih]
  | up _ ih => rw [follow, if_neg (by decide), if_pos rfl, ih]
  | enter hname h _ ih =>
      rw [follow, if_neg (ne_true_of_eq_false hname.notIdle), if_neg hname.notUp]
      simp only [h]
      exact ih
  -- A link that is followed leaves one link fewer.
  | @jump links here name rest d target hname h hgo _ ih =>
      rw [follow, if_neg (ne_true_of_eq_false hname.notIdle), if_neg hname.notUp]
      have hcond : (rest.isEmpty && !followLast) = false := by
        rcases hgo with hrest | hlast
        · rw [List.isEmpty_eq_false_iff.2 hrest, Bool.false_and]
        · rw [hlast, Bool.not_true, Bool.and_false]
      simp only [h, hcond]
      exact ih
  | file hname h =>
      rw [follow, if_neg (ne_true_of_eq_false hname.notIdle), if_neg hname.notUp]
      simp only [h]
      rfl
  | link hname h hlast =>
      rw [follow, if_neg (ne_true_of_eq_false hname.notIdle), if_neg hname.notUp]
      simp only [h, hlast]
      rfl
  | absent hname h hrest =>
      rw [follow, if_neg (ne_true_of_eq_false hname.notIdle), if_neg hname.notUp]
      simp only [h]
      rw [if_pos (List.all_eq_true.2 fun piece hpiece => decide_eq_true (hrest piece hpiece))]

/-- A way is what following succeeds by. -/
theorem follow_eq_ok_iff {d : Destination} :
    follow top followLast links here names = .ok d ↔ Way top followLast links here names d :=
  ⟨way_of_follow, follow_of_way⟩

end

namespace Way

variable {top : FileNode} {links : Nat} {here names : List String}

/-- What is found with links followed is found without, if only as a link. -/
theorem exists_found {followLast : Bool} {place : List String} {node : FileNode}
    (h : Way top followLast links here names (.found place node)) :
    ∃ place node, Way top false links here names (.found place node) := by
  generalize hd : Destination.found place node = d at h
  induction h with
  | stop h => exact ⟨_, _, .stop h⟩
  | idle hname _ ih =>
      rcases ih hd with ⟨place, node, hway⟩
      exact ⟨place, node, .idle hname hway⟩
  | up _ ih =>
      rcases ih hd with ⟨place, node, hway⟩
      exact ⟨place, node, .up hway⟩
  | enter hname h _ ih =>
      rcases ih hd with ⟨place, node, hway⟩
      exact ⟨place, node, .enter hname h hway⟩
  | @jump links here name rest d target hname h hgo _ ih =>
      -- The last link of all is not followed.
      cases rest with
      | nil => exact ⟨_, _, .link hname h rfl⟩
      | cons piece rest =>
          rcases ih hd with ⟨place, node, hway⟩
          exact ⟨place, node, .jump hname h (.inl (List.cons_ne_nil _ _)) hway⟩
  | file hname h => exact ⟨_, _, .file hname h⟩
  | link hname h hlast => exact ⟨_, _, .link hname h rfl⟩
  | absent => cases hd

theorem at?_of_found {followLast : Bool} {place : List String} {node : FileNode}
    (h : Way top followLast links here names (.found place node)) : top.at? place = some node := by
  generalize hd : Destination.found place node = d at h
  induction h with
  | stop h | file _ h | link _ h _ =>
      cases hd
      exact h
  | idle _ _ ih | up _ ih | enter _ _ _ ih | jump _ _ _ _ ih => exact ih hd
  | absent => cases hd

/-- What is absent is so whether or not links at the end are followed. -/
theorem absent_true {followLast : Bool} {directory : List String} {name : String} {slash : Bool}
    (h : Way top followLast links here names (.absent directory name slash)) :
    Way top true links here names (.absent directory name slash) := by
  generalize hd : Destination.absent directory name slash = d at h
  induction h with
  | stop | file | link => cases hd
  | idle hname _ ih => exact .idle hname (ih hd)
  | up _ ih => exact .up (ih hd)
  | enter hname h _ ih => exact .enter hname h (ih hd)
  | jump hname h _ _ ih => exact .jump hname h (.inr rfl) (ih hd)
  | absent hname h hrest => exact .absent hname h hrest

/-- What is absent is missing from a directory. -/
theorem hasDirectory_of_absent {followLast : Bool} {directory : List String} {name : String}
    {slash : Bool} (hhere : top.HasDirectory here)
    (h : Way top followLast links here names (.absent directory name slash)) :
    top.HasDirectory directory ∧ top.at? (directory ++ [name]) = none := by
  -- By induction on the way, with a directory at its start.
  generalize hd : Destination.absent directory name slash = d at h
  induction h with
  | stop | file | link => cases hd
  | idle _ _ ih => exact ih hhere hd
  | up _ ih => exact ih hhere.dropLast hd
  | enter _ h _ ih => exact ih ⟨_, h⟩ hd
  | jump _ _ _ _ ih => exact ih (hasDirectory_startOf hhere _) hd
  | absent _ h _ =>
      cases hd
      exact ⟨hhere, h⟩

theorem idles {followLast : Bool} {pieces : List String} {node : FileNode}
    (hpieces : ∀ piece ∈ pieces, Path.isIdle piece = true) (h : top.at? here = some node) :
    Way top followLast links here pieces (.found here node) := by
  induction pieces with
  | nil => exact .stop h
  | cons piece pieces ih =>
      rcases List.forall_mem_cons.1 hpieces with ⟨hpiece, hpieces⟩
      exact .idle hpiece (ih hpieces)

section

variable {pieces : List String} (hpieces : ∀ piece ∈ pieces, Path.isIdle piece = true)
  {place : List String} {entries : List (String × FileNode)}
include hpieces

theorem append_idle (h : Way top true links here names (.found place (.directory entries))) :
    Way top true links here (names ++ pieces) (.found place (.directory entries)) := by
  generalize hd : Destination.found place (.directory entries) = d at h
  induction h with
  | stop h =>
      cases hd
      exact idles hpieces h
  | idle hname _ ih => exact .idle hname (ih hd)
  | up _ ih => exact .up (ih hd)
  | enter hname h _ ih => exact .enter hname h (ih hd)
  | jump hname h _ _ ih =>
      have hrest := ih hd
      rw [List.append_assoc] at hrest
      exact .jump hname h (.inr rfl) hrest
  | file | link | absent => cases hd

theorem eq_of_idles {followLast : Bool} {node : FileNode}
    (h : Way top followLast links here pieces (.found place node)) :
    place = here ∧ top.at? here = some node := by
  induction pieces with
  | nil =>
      cases h with
      | stop h => exact ⟨rfl, h⟩
  | cons piece pieces ih =>
      rcases List.forall_mem_cons.1 hpieces with ⟨hpiece, hpieces⟩
      cases h with
      | idle _ h => exact ih hpieces h
      | up => exact absurd hpiece (by decide)
      | enter hname | jump hname | file hname | link hname =>
          exact absurd hpiece (ne_true_of_eq_false hname.notIdle)

theorem of_append_idle
    (h : Way top true links here (names ++ pieces) (.found place (.directory entries))) :
    Way top true links here names (.found place (.directory entries)) := by
  generalize hd : Destination.found place (.directory entries) = d at h
  generalize hall : names ++ pieces = all at h
  -- A step that is not idle is one of the names.
  have hsplit : ∀ {names : List String} {name : String} {rest : List String},
      names ++ pieces = name :: rest → Path.isIdle name = false →
        ∃ more, names = name :: more ∧ more ++ pieces = rest := by
    intro names name rest hall hname
    cases names with
    | nil =>
        have hmem : name ∈ pieces := by
          rw [← List.nil_append pieces, hall]
          exact List.mem_cons_self
        exact absurd (hpieces name hmem) (ne_true_of_eq_false hname)
    | cons first more =>
        rcases List.cons.inj hall with ⟨rfl, hrest⟩
        exact ⟨more, rfl, hrest⟩
  induction h generalizing names with
  | stop h =>
      rw [(List.append_eq_nil_iff.1 hall).1]
      exact .stop h
  | @idle links here name rest d hname hrest ih =>
      cases names with
      | nil =>
          subst hd
          rw [List.nil_append] at hall
          subst hall
          rcases eq_of_idles hpieces (.idle hname hrest) with ⟨rfl, hnode⟩
          exact .stop hnode
      | cons first more =>
          rcases List.cons.inj hall with ⟨rfl, hmore⟩
          exact .idle hname (ih hd hmore)
  | up _ ih =>
      rcases hsplit hall (by decide) with ⟨more, rfl, hmore⟩
      exact .up (ih hd hmore)
  | enter hname h _ ih =>
      rcases hsplit hall hname.notIdle with ⟨more, rfl, hmore⟩
      exact .enter hname h (ih hd hmore)
  | jump hname h _ _ ih =>
      rcases hsplit hall hname.notIdle with ⟨more, rfl, hmore⟩
      refine .jump hname h (.inr rfl) (ih hd ?_)
      rw [List.append_assoc, hmore]
  | file | link | absent => cases hd

/-- Idle pieces behind the way to a directory change nothing. -/
theorem append_idle_iff :
    Way top true links here (names ++ pieces) (.found place (.directory entries)) ↔
      Way top true links here names (.found place (.directory entries)) :=
  ⟨of_append_idle hpieces, append_idle hpieces⟩

end

end Way

end FileTree

end UtilityCss
