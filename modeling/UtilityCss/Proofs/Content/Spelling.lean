import UtilityCss.Proofs.Content.Excluded
import UtilityCss.Proofs.Content.Success
import UtilityCss.Proofs.FileTree.Writing

/-!
# Spelling a Directory

How the path of a directory can be written for its pattern to mean the directory.

Whether a pattern is the path of a directory is asked of the files, and they know a directory
under many paths: points and empty pieces anywhere in a path mean nothing, and two points lead up
again. The pattern itself is a text. It is freed of `./` at its start and of slashes at its end,
and that is all, so what is left are the names of the directory exactly if nothing else was put
around them.

Where the pattern is so written, both sides agree. It leads along the names that it is made of,
whatever is put around them, and what it stands for is everything below them.

## Main definitions

* `Content.padded`: A text with `./` in front and slashes behind.
* `Content.IsWritten`: Some names are written, padded or not.

## Theorems

* `trimmed_eq_iff`: What is left of a pattern are the names that are written.
* `names_eq`: A pattern leads along the names that are written.
* `normalize_of_isWritten`: What it stands for is everything below them.
-/

namespace UtilityCss

namespace Content

/-! ### Paths with something around them -/

/-- A text with `./` in front and slashes behind it, so many of each. -/
def padded (heres : Nat) (text : String) (slashes : Nat) : String :=
  String.ofList ((List.replicate heres ['.', '/']).flatten
    ++ (text.toList ++ List.replicate slashes '/'))

/-- Some names are written as a path: joined by slashes, with `./` in front of them and slashes
    behind them as often as one likes. -/
def IsWritten (pattern : String) (names : List String) : Prop :=
  ∃ heres slashes, pattern = padded heres ("/".intercalate names) slashes

theorem toList_padded (heres : Nat) (text : String) (slashes : Nat) :
    (padded heres text slashes).toList = (List.replicate heres ['.', '/']).flatten
      ++ (text.toList ++ List.replicate slashes '/') := String.toList_ofList

theorem cutAll_heres (heres : Nat) (cs : List Char) :
    Text.cutAll '/' ((List.replicate heres ['.', '/']).flatten ++ cs)
      = List.replicate heres ['.'] ++ Text.cutAll '/' cs := by
  induction heres with
  | zero => rfl
  | succ heres ih =>
      have hcut := @Text.cutAll_append '/' ['.'] ((List.replicate heres ['.', '/']).flatten ++ cs)
      rw [ih] at hcut
      rw [List.replicate_succ, List.flatten_cons, List.append_assoc]
      exact hcut

/-- The pieces around those of the text are idle. -/
theorem pieces_padded (heres : Nat) (text : String) (slashes : Nat) :
    Path.pieces (padded heres text slashes)
      = List.replicate heres "." ++ (Path.pieces text ++ List.replicate slashes "") := by
  have hslashes : ∀ c ∈ List.replicate slashes '/', c = '/' := fun c hc =>
    List.eq_of_mem_replicate hc
  rw [Path.pieces, Text.split, toList_padded, cutAll_heres, Text.cutAll_append_seps hslashes,
    List.map_append, List.map_append, List.map_replicate, List.map_map, List.map_replicate]
  rfl

theorem isIdle_of_mem_replicate {n : Nat} {idle piece : String} (hidle : Path.isIdle idle = true)
    (h : piece ∈ List.replicate n idle) : Path.isIdle piece = true :=
  List.eq_of_mem_replicate h ▸ hidle

/-- Only what was put around a pattern is taken off it. -/
theorem exists_eq_padded_trimmed (pattern : String) :
    ∃ heres slashes, pattern = padded heres (trimmed pattern) slashes := by
  rcases Text.exists_eq_dropWords ['.', '/'] pattern.toList with ⟨heres, hheres⟩
  rcases FileTree.exists_slashes (withoutHere pattern) with ⟨slashes, hslashes, hpath⟩
  refine ⟨heres, slashes.length, String.toList_inj.1 ?_⟩
  rw [toList_padded, trimmed, ← List.eq_replicate_of_mem hslashes, ← hpath, withoutHere,
    String.toList_ofList]
  exact hheres

theorem hasWildcard_trimmed {pattern : String} (h : Reach.hasWildcard pattern = false) :
    Reach.hasWildcard (trimmed pattern) = false := by
  rcases exists_eq_padded_trimmed pattern with ⟨heres, slashes, hpattern⟩
  rw [hpattern, Reach.hasWildcard, toList_padded, List.any_append, List.any_append,
    Bool.or_eq_false_iff, Bool.or_eq_false_iff] at h
  exact h.2.1

/-- A pattern without wildcards is looked for along all of its parts. -/
theorem trimmed_eq_intercalate_parts {pattern : String} (h : Reach.hasWildcard pattern = false)
    (t : FileTree) (root : String) :
    trimmed pattern = "/".intercalate (Reach.parts (normalize t root pattern)) := by
  have hwild := hasWildcard_trimmed h
  have hparts : Reach.parts (normalize t root pattern) = Reach.parts (trimmed pattern) := by
    rw [normalize_eq]
    split
    · exact parts_everything hwild
    · rfl
  rw [hparts, Reach.parts_eq hwild]
  split
  · next hempty => rw [hempty, String.intercalate_nil]
  · rw [Path.intercalate_pieces]

section

variable {names : List String} (hnames : Path.AreNames names)
include hnames

theorem isAbsolute_padded (hne : names ≠ []) (heres slashes : Nat) :
    Path.isAbsolute (padded heres ("/".intercalate names) slashes) = false := by
  have hnonempty : ("/".intercalate names).toList ≠ [] := fun heq =>
    Path.intercalate_ne_empty hnames hne (String.toList_eq_nil_iff.1 heq)
  rw [Path.isAbsolute, toList_padded]
  cases heres with
  | zero =>
      rw [List.replicate_zero, List.flatten_nil, List.nil_append,
        List.head?_append_of_ne_nil _ hnonempty]
      exact Path.isAbsolute_intercalate hnames
  | succ heres => rfl

-- A path that starts with `./` has a point as its first piece, and no name is a point.
theorem dropWord?_names (slashes : Nat) :
    Text.dropWord? ['.', '/'] (("/".intercalate names).toList ++ List.replicate slashes '/')
      = none := by
  rw [Option.eq_none_iff_forall_ne_some]
  intro rest hrest
  rw [Text.dropWord?_eq_some_iff] at hrest
  have hpadded : padded 0 ("/".intercalate names) slashes = String.ofList ('.' :: '/' :: rest) :=
    congrArg String.ofList hrest
  -- The pieces of the path are read in two ways, and the first ones differ.
  have hpoint : Path.pieces (String.ofList ('.' :: '/' :: rest))
      = "." :: (Text.cutAll '/' rest).map String.ofList := by
    rw [Path.pieces, Text.split, String.toList_ofList]
    exact congrArg (List.map String.ofList) (@Text.cutAll_append '/' ['.'] rest)
  have hpieces := pieces_padded 0 ("/".intercalate names) slashes
  rw [hpadded, hpoint] at hpieces
  by_cases hnil : names = []
  · rw [hnil] at hpieces
    exact absurd (List.cons.inj hpieces).1 (by decide)
  · rcases List.exists_cons_of_ne_nil hnil with ⟨first, more, rfl⟩
    rw [Path.pieces_intercalate hnames hnil] at hpieces
    have hname := (hnames first List.mem_cons_self).notIdle
    rw [← (List.cons.inj hpieces).1] at hname
    exact absurd hname (by decide)

/-- What is left of a pattern are some names joined by slashes exactly if the pattern is a way to
    write them. -/
theorem trimmed_eq_iff {pattern : String} :
    trimmed pattern = "/".intercalate names ↔ IsWritten pattern names := by
  constructor
  · intro h
    have hpattern := exists_eq_padded_trimmed pattern
    rw [h] at hpattern
    exact hpattern
  · rintro ⟨heres, slashes, rfl⟩
    rw [trimmed, withoutHere, toList_padded,
      Text.dropWords_append (dropWord?_names hnames slashes) (List.cons_ne_nil _ _),
      FileTree.withoutSlashes, String.toList_ofList,
      Text.dropEndWhile_append fun c hc => decide_eq_true (List.eq_of_mem_replicate hc)]
    exact FileTree.withoutSlashes_eq (Path.endsInSlash_intercalate hnames)

end

/-! ### Where a pattern leads -/

section

open FileTree

variable {t : FileTree} {root : String} {place : List String}
  {entries : List (String × FileNode)} (hroot : t.reach root = .ok (place, .directory entries))
  {pattern : String} {names : List String} {below : List (String × FileNode)}
  (hreach : t.reach (Path.join root pattern) = .ok (place ++ names, .directory below))
include hroot hreach

theorem at?_of_reach_join : (FileNode.directory entries).at? names = some (.directory below) := by
  have hat := at?_of_reach hreach
  rw [FileNode.at?_append, at?_of_reach hroot, Option.bind_some] at hat
  exact hat

variable (hplain : (FileNode.directory entries).IsPlain)
include hplain

/-- A pattern leads along the names that are written. -/
theorem names_eq {written : List String} (hwritten : Path.AreNames written)
    (h : IsWritten pattern written) : names = written := by
  rcases h with ⟨heres, slashes, rfl⟩
  have hheres : ∀ piece ∈ List.replicate heres ".", Path.isIdle piece = true := fun _ =>
    isIdle_of_mem_replicate rfl
  have hslashes : ∀ piece ∈ List.replicate slashes "", Path.isIdle piece = true := fun _ =>
    isIdle_of_mem_replicate rfl
  rcases exists_find_join_pieces hroot with ⟨links, hfind⟩
  rw [reach_eq_ok_iff] at hreach
  by_cases hnil : written = []
  · -- All pieces are idle, so the path leads to where it starts: at the top or at the root.
    subst hnil
    have hidles : ∀ piece ∈ Path.pieces (padded heres ("/".intercalate []) slashes),
        Path.isIdle piece = true := by
      rw [pieces_padded]
      refine List.forall_mem_append.2 ⟨hheres, List.forall_mem_append.2 ⟨?_, hslashes⟩⟩
      exact List.forall_mem_singleton.2 rfl
    rcases Bool.eq_false_or_eq_true (Path.isAbsolute (padded heres ("/".intercalate []) slashes))
      with habsolute | hrelative
    · rw [Path.join, habsolute, Bool.true_or, if_pos rfl, find_eq_ok_iff, startFor, habsolute,
        if_pos rfl] at hreach
      exact (List.append_eq_nil_iff.1 (Way.eq_of_idles hidles hreach.2).1).2
    · rw [hfind hrelative, follow_eq_ok_iff] at hreach
      exact List.append_right_eq_self.1 (Way.eq_of_idles hidles hreach).1
  -- The pieces around the names are idle, so the way follows the names alone.
  · rw [hfind (isAbsolute_padded hwritten hnil heres slashes), pieces_padded,
      follow_append_idles hheres, follow_eq_ok_iff, Way.append_idle_iff hslashes,
      Path.pieces_intercalate hwritten hnil,
      way_found_iff hplain (at?_of_reach hroot) hwritten] at hreach
    exact List.append_cancel_left hreach.1

/-- A pattern that writes the names of its directory stands for everything below them. -/
theorem normalize_of_isWritten (hwild : Reach.hasWildcard pattern = false)
    (h : IsWritten pattern names) :
    normalize t root pattern = everything ("/".intercalate names) := by
  have hat := at?_of_reach_join hroot hreach
  have hnames := (hplain.at? hat).2
  have hdirectory : t.isDirectory (Path.join root ("/".intercalate names)) = true :=
    isDirectory_iff.2 ⟨place ++ names, below, reach_eq_ok_iff.1
      ((reach_join_iff hroot hplain hnames).2 ⟨rfl, hat⟩)⟩
  rw [← (trimmed_eq_iff hnames).2 h] at hdirectory ⊢
  rw [normalize_eq, hasWildcard_trimmed hwild, hdirectory, Bool.not_false, Bool.true_and,
    if_pos rfl]

end

end Content

end UtilityCss
