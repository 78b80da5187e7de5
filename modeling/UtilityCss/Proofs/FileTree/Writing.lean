import Mathlib.Data.List.TakeWhile
import UtilityCss.Proofs.FileTree.Growth
import UtilityCss.Proofs.Text.Pieces

/-!
# Writing Twice

What is left behind by writing a file and making directories.

Both find the place first, and what they change is what was missing there. Afterwards
the tree has grown and the path leads to what was made, so the same can be asked for
again: writing finds the file and replaces it, and making directories finds that there
is nothing to do.

A directory is made under its path without slashes at the end, while it is looked up
under the path itself. `bare` is the path that is meant, and it leads to the same
directory.

## Main definitions

* `FileTree.bare`: The path that a directory is made under.
* `FileTree.HasDirectories`: The directories of a path are there.

## Theorems

* `find_bare_iff`: A directory is found under its path and under the bare one.
* `grows_makeDirectories`: Making directories makes a tree grow, and they are there.
* `makeDirectories_eq_self`: Where they are there, nothing changes.
* `exists_found_of_write`: A file that is written is found.
* `read_of_found`, `write_of_found`: It can be read and written.
-/

namespace UtilityCss

namespace Text

theorem cutAll_append_seps {sep : Char} {seps : List Char} (h : ∀ c ∈ seps, c = sep)
    (cs : List Char) : cutAll sep (cs ++ seps) = cutAll sep cs ++ seps.map fun _ => [] := by
  induction seps generalizing cs with
  | nil => rw [List.append_nil, List.map_nil, List.append_nil]
  | cons c seps ih =>
      rcases List.forall_mem_cons.1 h with ⟨rfl, hseps⟩
      rw [cutAll_append, ← List.nil_append seps, ih hseps []]
      rfl

end Text

namespace FileTree

open FileNode

/-! ### Directories -/

/-- The path that a directory is made under. -/
def bare (path : String) : String := if withoutSlashes path = "" then path else withoutSlashes path

theorem exists_slashes (path : String) :
    ∃ slashes : List Char, (∀ c ∈ slashes, c = '/') ∧
      path.toList = (withoutSlashes path).toList ++ slashes := by
  refine ⟨(path.toList.reverse.takeWhile (· = '/')).reverse, fun c hc => ?_, ?_⟩
  · have hslash := List.mem_takeWhile_imp (List.mem_reverse.1 hc)
    exact of_decide_eq_true hslash
  · rw [withoutSlashes, String.toList_ofList, Text.dropEndWhile, ← List.reverse_append,
      List.takeWhile_append_dropWhile, List.reverse_reverse]

theorem pieces_bare (path : String) :
    ∃ idles, (∀ piece ∈ idles, Path.isIdle piece = true) ∧
      Path.pieces path = Path.pieces (bare path) ++ idles := by
  rw [bare]
  split
  · exact ⟨[], fun _ h => absurd h List.not_mem_nil, (List.append_nil _).symm⟩
  · rcases exists_slashes path with ⟨slashes, hslashes, hpath⟩
    refine ⟨slashes.map fun _ => "", fun piece hpiece => ?_, ?_⟩
    · rcases List.mem_map.1 hpiece with ⟨-, -, rfl⟩
      rfl
    · rw [Path.pieces, Text.split, hpath, Text.cutAll_append_seps hslashes, List.map_append,
        List.map_map]
      rfl

theorem bare_eq_empty_iff (path : String) : bare path = "" ↔ path = "" := by
  rw [bare]
  split
  · rfl
  · next h =>
      refine ⟨fun h' => absurd h' h, ?_⟩
      rintro rfl
      exact absurd rfl h

theorem isAbsolute_bare (path : String) : Path.isAbsolute (bare path) = Path.isAbsolute path := by
  rw [bare]
  split
  · rfl
  · next h =>
      rcases exists_slashes path with ⟨slashes, -, hpath⟩
      have hne : (withoutSlashes path).toList ≠ [] := fun h' => h (String.toList_eq_nil_iff.1 h')
      rw [Path.isAbsolute, Path.isAbsolute, hpath]
      cases hcs : (withoutSlashes path).toList with
      | nil => exact absurd hcs hne
      | cons c cs => rfl

variable {t t' : FileTree} {path : String}

/-- A directory is found under its path and under the bare one. -/
theorem find_bare_iff {place : List String} {entries : List (String × FileNode)} :
    t.find true (bare path) = .ok (.found place (.directory entries)) ↔
      t.find true path = .ok (.found place (.directory entries)) := by
  rcases pieces_bare path with ⟨idles, hidles, hpieces⟩
  rw [find_eq_ok_iff, find_eq_ok_iff, hpieces, Way.append_idle_iff hidles, startFor, startFor,
    isAbsolute_bare, Ne, Ne, bare_eq_empty_iff]

theorem makeDirectory_eq_ok (h : t.makeDirectory path = .ok t') :
    ∃ directory name slash, t.find false (bare path) = .ok (.absent directory name slash) ∧
      t' = t.put (directory ++ [name]) emptyDirectory := by
  rw [makeDirectory, ← bare] at h
  split at h
  · cases h
  · next directory name slash hfind => exact ⟨directory, name, slash, hfind, (Except.ok.inj h).symm⟩
  · cases h

theorem makeDirectory_of_isDirectory (h : t.isDirectory path = true) :
    t.makeDirectory path = .error .alreadyExists := by
  rcases isDirectory_iff.1 h with ⟨place, entries, hfind⟩
  have hway := find_eq_ok_iff.1 (find_bare_iff.2 hfind)
  rcases hway.2.exists_found with ⟨place', node', hway'⟩
  have hfind' : t.find false (bare path) = .ok (.found place' node') :=
    find_eq_ok_iff.2 ⟨hway.1, hway'⟩
  rw [makeDirectory, ← bare, hfind']

/-- The directories of a path are there. -/
def HasDirectories (t : FileTree) (path : String) : Prop :=
  (Path.components path).isEmpty = true ∨ t.isDirectory path = true

theorem Grows.hasDirectories (h : t.Grows t') (hpath : t.HasDirectories path) :
    t'.HasDirectories path :=
  hpath.imp_right h.isDirectory

/-- Where the directories are there, nothing changes. -/
theorem makeDirectories_eq_self (h : t.HasDirectories path) :
    t.makeDirectories path = (t, none) := by
  rw [makeDirectories, makeDirectoriesFrom]
  rcases h with h | h
  · rw [if_pos h]
  · split
    · rfl
    · rw [makeDirectory_of_isDirectory h]

section

variable (hwork : t.top.HasDirectory t.workDir)
include hwork

theorem hasDirectory_startFor (path : String) : t.top.HasDirectory (t.startFor path) := by
  rw [startFor]
  split
  · exact hwork.top
  · exact hwork

theorem grows_put_of_absent {followLast : Bool} {directory : List String} {name : String}
    {slash : Bool} (h : t.find followLast path = .ok (.absent directory name slash))
    (new : FileNode) : t.Grows (t.put (directory ++ [name]) new) := by
  rw [find_eq_ok_iff] at h
  rcases h.2.hasDirectory_of_absent (hasDirectory_startFor hwork path) with ⟨hdirectory, hnone⟩
  exact ⟨grows_put_absent hdirectory hnone, rfl⟩

theorem grows_makeDirectory (h : t.makeDirectory path = .ok t') :
    t.Grows t' ∧ t'.isDirectory path = true := by
  rcases makeDirectory_eq_ok h with ⟨directory, name, slash, hfind, rfl⟩
  have hgrows := grows_put_of_absent hwork hfind emptyDirectory
  have habsent : t.find true (bare path) = .ok (.absent directory name slash) := by
    rw [find_eq_ok_iff] at hfind ⊢
    exact ⟨hfind.1, hfind.2.absent_true⟩
  have hfound := hgrows.find_filled habsent (at?_put emptyDirectory _ t.top) (.inl rfl)
  exact ⟨hgrows, isDirectory_iff.2 ⟨_, _, find_bare_iff.1 hfound⟩⟩

-- A failure is forgiven only where the directory is there.
omit hwork in
theorem eq_of_forgiven {e : FileError}
    (h : (t, if t.isDirectory path then none else some e) = (t', none)) :
    t = t' ∧ t'.isDirectory path = true := by
  rcases Prod.mk.inj h with ⟨rfl, he⟩
  refine ⟨rfl, ?_⟩
  split at he
  · assumption
  · cases he

theorem grows_makeDirectoriesFrom {fuel : Nat} (h : makeDirectoriesFrom fuel t path = (t', none)) :
    t.Grows t' ∧ t'.HasDirectories path := by
  induction fuel generalizing t t' path with
  | zero => cases h
  | succ fuel ih =>
      rw [makeDirectoriesFrom] at h
      split at h
      · next hempty =>
          cases h
          exact ⟨.refl t, .inl hempty⟩
      · split at h
        · next t₁ hmake =>
            cases h
            rcases grows_makeDirectory hwork hmake with ⟨hgrows, hpath⟩
            exact ⟨hgrows, .inr hpath⟩
        · split at h
          · cases h
          · next parent hparent =>
              split at h
              · cases h
              · next t₁ hmade =>
                  -- The directories above are made first, then this one.
                  rcases ih hwork hmade with ⟨hgrows, -⟩
                  have hwork₁ : t₁.top.HasDirectory t₁.workDir := by
                    rw [hgrows.workDir]
                    exact hgrows.top.hasDirectory hwork
                  split at h
                  · next t₂ hmake =>
                      cases h
                      rcases grows_makeDirectory hwork₁ hmake with ⟨hgrows', hpath⟩
                      exact ⟨hgrows.trans hgrows', .inr hpath⟩
                  · rcases eq_of_forgiven h with ⟨rfl, hpath⟩
                    exact ⟨hgrows, .inr hpath⟩
        · rcases eq_of_forgiven h with ⟨rfl, hpath⟩
          exact ⟨.refl t, .inr hpath⟩

/-- Making directories makes a tree grow, and they are there afterwards. -/
theorem grows_makeDirectories (h : t.makeDirectories path = (t', none)) :
    t.Grows t' ∧ t'.HasDirectories path :=
  grows_makeDirectoriesFrom hwork h

end

/-! ### Files -/

theorem write_eq_ok {bytes : List UInt8} (h : t.write path bytes = .ok t') :
    Path.endsInSlash path = false ∧
      ((∃ place old, t.find true path = .ok (.found place (.file (some old))) ∧
          t' = t.put place (.file (some bytes))) ∨
        ∃ directory name, t.find true path = .ok (.absent directory name false) ∧
          t' = t.put (directory ++ [name]) (.file (some bytes))) := by
  rw [write] at h
  split at h
  · split at h
    · split at h <;> cases h
    · cases h
    · cases h
  · next hslash =>
      refine ⟨eq_false_of_ne_true hslash, ?_⟩
      split at h
      · next place old hfind => exact .inl ⟨place, old, hfind, (Except.ok.inj h).symm⟩
      · cases h
      · cases h
      · next directory name slash hfind =>
          -- Where nothing is, a path that ends in a slash makes no file.
          split at h
          · cases h
          · next hno =>
              rw [eq_false_of_ne_true hno] at hfind
              exact .inr ⟨directory, name, hfind, (Except.ok.inj h).symm⟩
      · cases h

/-- A file that is written is found, in a tree that has grown. -/
theorem exists_found_of_write (hwork : t.top.HasDirectory t.workDir) {bytes : List UInt8}
    (h : t.write path bytes = .ok t') :
    t.Grows t' ∧ Path.endsInSlash path = false ∧
      ∃ place, t'.find true path = .ok (.found place (.file (some bytes))) := by
  rcases write_eq_ok h with ⟨hslash, ⟨place, old, hfind, rfl⟩ | ⟨directory, name, hfind, rfl⟩⟩
  · have hat : t.top.at? place = some (.file (some old)) := (find_eq_ok_iff.1 hfind).2.at?_of_found
    have hgrows : t.Grows (t.put place (.file (some bytes))) := ⟨grows_put_file hat _, rfl⟩
    refine ⟨hgrows, hslash, place, ?_⟩
    rcases hgrows.find_found hfind with ⟨node', hfind', -⟩
    have hat' := (find_eq_ok_iff.1 hfind').2.at?_of_found
    rw [hfind', ← Option.some.inj (hat'.symm.trans (at?_put (.file (some bytes)) place t.top))]
  · have hgrows := grows_put_of_absent hwork hfind (.file (some bytes))
    exact ⟨hgrows, hslash, _, hgrows.find_filled hfind (at?_put _ _ _) (.inr ⟨rfl, rfl⟩)⟩

section

variable {place : List String} {bytes : List UInt8}
  (h : t.find true path = .ok (.found place (.file (some bytes))))
include h

/-- A file that is found can be read. -/
theorem read_of_found : t.read path = .ok bytes := by
  rw [read, reach, h]

/-- A file that is found can be written. -/
theorem write_of_found (hslash : Path.endsInSlash path = false) (bytes' : List UInt8) :
    t.write path bytes' = .ok (t.put place (.file (some bytes'))) := by
  rw [write, if_neg (ne_true_of_eq_false hslash), h]

end

end FileTree

end UtilityCss
