import UtilityCss.Proofs.Content.Spelling

/-!
# Directories as Content

What a pattern brings in that is the path of a directory.

Such a pattern is meant as everything below the directory. It is made a glob by putting stars
behind it, and the glob is matched with paths below the root that are spelled in one way only:
names, joined by slashes. The files, which are asked for the directory, accept many other
spellings. So there are two kinds of patterns. If nothing but `./` in front and slashes behind
is put around the names of the directory, and no character of them means something else in a
glob, all files below the directory are content. Otherwise none is: a point inside of the path,
a step up and down again, or a backslash in a name is searched for in paths that have none, and
a closing brace makes the glob malformed.

There is nothing in between. If a single file is found, its path starts with the parts of the
pattern, so these are names, and then the pattern writes the names of its directory.

## Main definitions

* `Content.IsSpelledOut`: The names of a directory are written, and mean themselves.
* `Content.IsAdmissible`: A file that can be content.
* `Content.Expands`: What a pattern brings in that is the path of a directory.

## Theorems

* `isFoundFor_iff`: What is found for a directory that is spelled out.
* `not_isFoundFor`: Nothing is found for any other spelling.
* `expands`: What a pattern brings in that is the path of a directory.
-/

namespace UtilityCss

namespace Content

/-- A directory is spelled out in a pattern: the pattern is a way to write its names, and they
    have no character that means something else in a pattern without wildcards. -/
structure IsSpelledOut (pattern : String) (names : List String) : Prop where
  /-- The names are written. -/
  written : IsWritten pattern names
  /-- There is no backslash and no closing brace in them. -/
  literal : ∀ name ∈ names, '\\' ∉ name.toList ∧ '}' ∉ name.toList

/-- A file of a project that can be content: no exclusion matches its path, and its extension is
    known. -/
structure IsAdmissible (project : FileNode) (exclude : List Glob) (names : List String) :
    Prop where
  /-- There is a file. -/
  isFile : ∃ bytes, project.at? names = some (.file bytes)
  /-- No exclusion matches. -/
  kept : ∀ e ∈ exclude, e.accepts true ("/".intercalate names) = false
  /-- The extension is known. -/
  known : hasKnownExtension ("/".intercalate names) = true

/-- The exclusions of a configuration are read as some globs. -/
def HasExclusions (config : Config) (exclude : List Glob) : Prop :=
  (config.exclude.mapM fun pattern => globOf (withoutHere pattern)) = .ok exclude

/-- What a pattern brings in that is the path of a directory. -/
structure Expands (t : FileTree) (root : String) (project : FileNode) (pattern : String)
    (names : List String) : Prop where
  /-- Spelled out, the directory brings in everything below it, whatever else is content. -/
  whole : IsSpelledOut pattern names → ∀ {config exclude sel}, pattern ∈ config.patterns →
    HasExclusions config exclude → resolve t root config = .ok sel →
      ∀ more, IsAdmissible project exclude (names ++ more) →
        Path.join root ("/".intercalate (names ++ more)) ∈ sel.paths
  /-- Alone it can be read, and it brings in nothing else. -/
  alone : IsSpelledOut pattern names → ∀ {config exclude}, config.content = [.glob pattern] →
    HasExclusions config exclude → ∃ sel, resolve t root config = .ok sel ∧
      ∀ path, path ∈ sel.paths ↔ ∃ more, IsAdmissible project exclude (names ++ more) ∧
        path = Path.join root ("/".intercalate (names ++ more))
  /-- Spelled in any other way, it cannot be read or brings in nothing at all. -/
  nothing : ¬IsSpelledOut pattern names → ∀ {config exclude}, config.content = [.glob pattern] →
    HasExclusions config exclude →
      resolve t root config = .error (.invalidGlob (normalize t root pattern)) ∨
        ∃ sel, resolve t root config = .ok sel ∧ sel.paths = []

/-! ### What is found -/

section

variable {t : FileTree} {root : String} {place : List String}
  {entries : List (String × FileNode)} (hroot : t.reach root = .ok (place, .directory entries))
  (hplain : (FileNode.directory entries).IsPlain) {pattern : String} {names : List String}
  (hwild : Reach.hasWildcard pattern = false) {below : List (String × FileNode)}
  (hreach : t.reach (Path.join root pattern) = .ok (place ++ names, .directory below))
  {exclude : List Glob} {path : String}
include hroot hplain hwild hreach

theorem hasWildcard_intercalate_of_isWritten (h : IsWritten pattern names) :
    Reach.hasWildcard ("/".intercalate names) = false := by
  have hnames := (hplain.at? (at?_of_reach_join hroot hreach)).2
  rw [← (trimmed_eq_iff hnames).2 h]
  exact hasWildcard_trimmed hwild

/-- A directory that is spelled out can be read, and what is below it is matched. -/
theorem exists_accepts_normalize (h : IsSpelledOut pattern names) :
    ∃ g, Glob.parse? (normalize t root pattern) = some g ∧ ∀ more {last}, '/' ∉ last.toList →
      g.accepts true ("/".intercalate (names ++ (more ++ [last]))) = true := by
  have hnames := (hplain.at? (at?_of_reach_join hroot hreach)).2
  have hwild' := hasWildcard_intercalate_of_isWritten hroot hplain hwild hreach h.written
  rw [normalize_of_isWritten hroot hreach hplain hwild h.written]
  exact exists_accepts_everything hnames hwild' h.literal

/-- What is found for a directory that is spelled out: everything below it. -/
theorem isFoundFor_iff (h : IsSpelledOut pattern names) :
    IsFoundFor ⟨t, root, exclude⟩ pattern path ↔
      ∃ more, IsAdmissible (.directory entries) exclude (names ++ more) ∧
        path = Path.join root ("/".intercalate (names ++ more)) := by
  have hat := at?_of_reach_join hroot hreach
  have hwild' := hasWildcard_intercalate_of_isWritten hroot hplain hwild hreach h.written
  -- The walk starts at the directory and has no end.
  have hcovers : ∀ {names'}, Reach.Covers (normalize t root pattern) names' ↔
      ∃ more, names' = names ++ more := by
    intro names'
    rw [normalize_of_isWritten hroot hreach hplain hwild h.written]
    exact covers_everything_iff (hplain.at? hat).2 hwild'
  rcases exists_accepts_normalize hroot hplain hwild hreach h with ⟨g, hg, haccepts⟩
  unfold IsFoundFor
  dsimp only
  rw [hg]
  simp only [Option.some.injEq, exists_eq_left', mem_files_iff hroot hplain hg, hcovers]
  constructor
  · rintro ⟨-, ⟨hfile, -, hkept, hknown⟩, ⟨more, rfl⟩, hpath⟩
    exact ⟨more, ⟨hfile, hkept, hknown⟩, hpath⟩
  · rintro ⟨more, ⟨⟨bytes, hbytes⟩, hkept, hknown⟩, hpath⟩
    refine ⟨_, ⟨⟨bytes, hbytes⟩, ?_, hkept, hknown⟩, ⟨more, rfl⟩, hpath⟩
    have hname := (hplain.at? hbytes).2
    rcases List.eq_nil_or_concat more with rfl | ⟨init, last, rfl⟩
    · -- The directory itself is no file.
      rw [List.append_nil, hat] at hbytes
      cases hbytes
    · rw [List.concat_eq_append] at hname ⊢
      refine haccepts init (hname last ?_).noSlash
      exact List.mem_append_right _ (List.mem_append_right _ List.mem_cons_self)

/-- Nothing is found for any other spelling. -/
theorem not_isFoundFor (h : ¬IsSpelledOut pattern names) :
    ¬IsFoundFor ⟨t, root, exclude⟩ pattern path := by
  rintro ⟨g, hg, hpath⟩
  rcases (mem_files_iff hroot hplain hg).1 hpath with ⟨found, hwanted, hcovers, -⟩
  rcases hwanted.isFile with ⟨bytes, hat⟩
  dsimp only at hg hcovers
  -- The path of what is found starts with the parts of the pattern, so they are names, and the
  -- pattern is a way to write them. Then they are the names of the directory.
  have hfound := (hplain.at? hat).2
  have hparts := Reach.areNames_parts hg hfound hwanted.accepted
  have hwritten := (trimmed_eq_iff hparts).1 (trimmed_eq_intercalate_parts hwild t root)
  have hnames := names_eq hroot hreach hplain hparts hwritten
  have hback := hcovers.spelled hg hfound hwanted.accepted
  rw [Reach.base_eq hparts, ← hnames] at hback
  rw [← hnames] at hwritten
  have hclose : '}' ∉ ("/".intercalate names).toList := by
    have hwild' := hasWildcard_intercalate_of_isWritten hroot hplain hwild hreach hwritten
    rw [normalize_of_isWritten hroot hreach hplain hwild hwritten] at hg
    have hopen := (isSome_everything_iff hwild').1 (Option.isSome_of_mem hg)
    rw [← Glob.closesBrace_eq_true_iff hback, hopen]
    exact Bool.false_ne_true
  refine h ⟨hwritten, fun name hname => ⟨fun hmem => hback ?_, fun hmem => hclose ?_⟩⟩
  · exact (Path.mem_intercalate_iff (by decide)).2 ⟨name, hname, hmem⟩
  · exact (Path.mem_intercalate_iff (by decide)).2 ⟨name, hname, hmem⟩

end

/-! ### Configurations of one pattern -/

section

variable {t : FileTree} {root : String} {config : Config} {exclude : List Glob} {pattern : String}
  (hcontent : config.content = [.glob pattern]) (hexclude : HasExclusions config exclude)
include hcontent

theorem patterns_alone : config.patterns = [pattern] := by
  rw [Config.patterns, hcontent]
  rfl

include hexclude

theorem isWellFormed_alone (h : (Glob.parse? (normalize t root pattern)).isSome = true) :
    IsWellFormed t root config exclude where
  exclude := hexclude
  patterns := by
    rw [patterns_alone hcontent]
    exact List.forall_mem_singleton.2 h
  extracts := by
    intro patterns extract hentry
    rw [hcontent] at hentry
    cases List.mem_singleton.1 hentry

theorem resolve_alone_eq_error (h : Glob.parse? (normalize t root pattern) = none) :
    resolve t root config = .error (.invalidGlob (normalize t root pattern)) := by
  rw [resolve_alone hcontent hexclude]
  exact addPattern_of_parse?_eq_none (s := ⟨t, root, exclude⟩) h 0 .empty

end

/-! ### What is brought in -/

section

variable {t : FileTree} {root : String} {place : List String}
  {entries : List (String × FileNode)} (hroot : t.reach root = .ok (place, .directory entries))
  (hplain : (FileNode.directory entries).IsPlain) {config : Config} {exclude : List Glob}
include hroot hplain

theorem mem_paths_of_isFoundFor {sel : Selection} (hexclude : HasExclusions config exclude)
    (hsel : resolve t root config = .ok sel) {pattern path : String}
    (hpattern : pattern ∈ config.patterns) (h : IsFoundFor ⟨t, root, exclude⟩ pattern path) :
    path ∈ sel.paths := by
  rcases exists_resolve_iff.1 ⟨sel, hsel⟩ with ⟨exclude', hwell⟩
  have hsame : exclude' = exclude := Except.ok.inj (hwell.exclude.symm.trans hexclude)
  subst hsame
  rcases exists_resolve hroot hplain hwell with ⟨sel', hsel', hpaths⟩
  rw [hsel] at hsel'
  cases hsel'
  exact (hpaths path).2 ⟨pattern, hpattern, h⟩

theorem exists_resolve_alone {pattern : String} (hcontent : config.content = [.glob pattern])
    (hexclude : HasExclusions config exclude)
    (h : (Glob.parse? (normalize t root pattern)).isSome = true) :
    ∃ sel, resolve t root config = .ok sel ∧
      ∀ path, path ∈ sel.paths ↔ IsFoundFor ⟨t, root, exclude⟩ pattern path := by
  rcases exists_resolve hroot hplain (isWellFormed_alone hcontent hexclude h) with
    ⟨sel, hsel, hpaths⟩
  refine ⟨sel, hsel, fun path => ?_⟩
  rw [hpaths, patterns_alone hcontent]
  simp only [List.mem_singleton, exists_eq_left]

variable {pattern : String} {names : List String} (hwild : Reach.hasWildcard pattern = false)
  {below : List (String × FileNode)}
  (hreach : t.reach (Path.join root pattern) = .ok (place ++ names, .directory below))
include hwild hreach

/-- A pattern that is the path of a directory brings in everything below it if it spells the
    directory out, and nothing at all if it does not. -/
theorem expands : Expands t root (.directory entries) pattern names where
  whole := by
    intro hspelled config exclude sel hpattern hexclude hsel more hadmissible
    refine mem_paths_of_isFoundFor hroot hplain hexclude hsel hpattern ?_
    exact (isFoundFor_iff hroot hplain hwild hreach hspelled).2 ⟨more, hadmissible, rfl⟩
  alone := by
    intro hspelled config exclude hcontent hexclude
    rcases exists_accepts_normalize hroot hplain hwild hreach hspelled with ⟨g, hg, -⟩
    rcases exists_resolve_alone hroot hplain hcontent hexclude (Option.isSome_of_mem hg) with
      ⟨sel, hsel, hpaths⟩
    refine ⟨sel, hsel, fun path => (hpaths path).trans ?_⟩
    exact isFoundFor_iff hroot hplain hwild hreach hspelled
  nothing := by
    intro hspelled config exclude hcontent hexclude
    -- A pattern that cannot be read ends the search, and any other stands for no file.
    rcases Option.eq_none_or_eq_some (Glob.parse? (normalize t root pattern)) with hnone | ⟨g, hg⟩
    · exact .inl (resolve_alone_eq_error hcontent hexclude hnone)
    · rcases exists_resolve_alone hroot hplain hcontent hexclude (Option.isSome_of_mem hg) with
        ⟨sel, hsel, hpaths⟩
      refine .inr ⟨sel, hsel, List.eq_nil_iff_forall_not_mem.2 fun path hpath => ?_⟩
      exact not_isFoundFor hroot hplain hwild hreach hspelled ((hpaths path).1 hpath)

end

end Content

namespace Misled

theorem isAdmissible_site : Content.IsAdmissible tree.top [] ["site", "x.html"] :=
  ⟨⟨some [], rfl⟩, fun _ he => absurd he List.not_mem_nil, by decide +kernel⟩

theorem reach_site : tree.reach (Path.join "." "././site//")
    = .ok (["site"], .directory [("x.html", .file (some []))]) := by
  refine FileTree.reach_eq_ok_iff.2 (FileTree.find_eq_ok_iff.2 ⟨by decide, ?_⟩)
  exact .idle rfl (.idle rfl (.idle rfl (.enter ⟨by decide, by decide⟩ rfl
    (.idle rfl (.idle rfl (.stop rfl))))))

/-- A directory that is spelled out brings in its file, and no other one. -/
theorem expands_site : ∃ sel, Content.resolve tree "." (config ["././site//"]) = .ok sel ∧
    ∀ path, path ∈ sel.paths ↔ path = "./site/x.html" := by
  have hexpands : Content.Expands tree "." tree.top "././site//" ["site"] :=
    Content.expands reach_tree isPlain_top (by decide) reach_site
  have hspelled : Content.IsSpelledOut "././site//" ["site"] := ⟨⟨2, 2, by decide⟩, by decide⟩
  have hcontent : (config ["././site//"]).content = [.glob "././site//"] := rfl
  rcases hexpands.alone hspelled hcontent rfl with ⟨sel, hsel, hpaths⟩
  refine ⟨sel, hsel, fun path => (hpaths path).trans ?_⟩
  constructor
  -- There are two files, and one of them is in the directory.
  · rintro ⟨more, ⟨⟨bytes, hat⟩, -, -⟩, rfl⟩
    rcases names_of_at? hat with hnames | hnames
    · exact absurd (List.cons.inj hnames).1 (by decide)
    · rw [hnames]
      decide
  · rintro rfl
    exact ⟨["x.html"], isAdmissible_site, by decide⟩

theorem reach_site_point : tree.reach (Path.join "." "site/.")
    = .ok (["site"], .directory [("x.html", .file (some []))]) := by
  refine FileTree.reach_eq_ok_iff.2 (FileTree.find_eq_ok_iff.2 ⟨by decide, ?_⟩)
  exact .idle rfl (.enter ⟨by decide, by decide⟩ rfl (.idle rfl (.stop rfl)))

theorem not_isSpelledOut_point : ¬Content.IsSpelledOut "site/." ["site"] := by
  intro h
  have hnames : Path.AreNames ["site"] :=
    List.forall_mem_singleton.2 ⟨⟨by decide, by decide⟩, by decide⟩
  exact absurd ((Content.trimmed_eq_iff hnames).2 h.written) (by decide)

/-- With a point at its end the same directory brings in nothing, although it is found. -/
theorem not_expands_point : tree.top.IsPlain ∧ tree.reach "." = .ok ([], tree.top) ∧
    Reach.hasWildcard "site/." = false ∧
    tree.reach (Path.join "." "site/.") = .ok (["site"], .directory [("x.html", .file (some []))]) ∧
    Content.IsAdmissible tree.top [] ["site", "x.html"] ∧
    ∃ sel, Content.resolve tree "." (config ["site/."]) = .ok sel ∧ sel.paths = [] := by
  have hwild : Reach.hasWildcard "site/." = false := by decide
  have hdirectory : tree.isDirectory (Path.join "." (Content.trimmed "site/.")) = true :=
    FileTree.isDirectory_iff.2 ⟨_, _, FileTree.reach_eq_ok_iff.1 reach_site_point⟩
  have hsome : (Glob.parse? (Content.normalize tree "." "site/.")).isSome = true := by
    rw [Content.normalize_eq, hdirectory]
    decide +kernel
  have hcontent : (config ["site/."]).content = [.glob "site/."] := rfl
  rcases Content.exists_resolve_alone reach_tree isPlain_top hcontent rfl hsome with
    ⟨sel, hsel, hpaths⟩
  refine ⟨isPlain_top, reach_tree, hwild, reach_site_point, isAdmissible_site, sel, hsel,
    List.eq_nil_iff_forall_not_mem.2 fun path hpath => ?_⟩
  exact Content.not_isFoundFor reach_tree isPlain_top hwild reach_site_point
    not_isSpelledOut_point ((hpaths path).1 hpath)

end Misled

end UtilityCss
