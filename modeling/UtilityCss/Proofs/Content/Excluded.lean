import UtilityCss.Proofs.Content.Selected
import UtilityCss.Proofs.Glob.End

/-!
# What Is Excluded

What an exclusion removes from the content of a project.

A pattern can stand among the content and among the exclusions, but it is read in two ways. As
content it loses the slashes at its end, and the path of a directory stands for all that is
below. As an exclusion it is a glob as it is written. Where both come to the same glob, the
exclusion removes all that the pattern brings in. Where they do not, it removes nothing at all:
a glob that ends in a slash matches the path of no file, and the path of a directory matches
that path only.

Globs match paths below the root, so this is how files are compared here.

## Main definitions

* `Config.ofPattern`, `Config.excluding`: A configuration of a pattern, and one more exclusion.
* `Content.Excludes`: An exclusion removes the files of its pattern.
* `Content.IsReadAlike`: A pattern stands for the same in both places.

## Theorems

* `Content.normalize_cases`: How a pattern is read in two ways.
* `Content.not_accepts_of_mem_found`: An exclusion that is read in another way matches nothing.
* `Content.excludes_iff`: An exclusion removes the files of its pattern, or none of them.
-/

namespace UtilityCss

/-- The configuration of the files of a pattern. -/
def Config.ofPattern (pattern : String) : Config :=
  { Config.default with content := [.glob pattern] }

/-- A configuration with one more exclusion. -/
def Config.excluding (config : Config) (pattern : String) : Config :=
  { config with exclude := config.exclude ++ [pattern] }

namespace Content

/-- An exclusion removes the files of its pattern: no content brings in a file whose path below
    the root is that of one that the pattern stands for. -/
def Excludes (t : FileTree) (root pattern : String) : Prop :=
  ∀ config exclude, IsWellFormed t root config exclude → pattern ∈ config.exclude →
    ∃ sel, resolve t root config = .ok sel ∧ ∀ path ∈ sel.paths,
      ∀ removed ∈ Scope.found ⟨t, root, []⟩ pattern,
        Path.relative? root path ≠ Path.relative? root removed

/-- A pattern is read as the same glob in both places, or it makes no difference: as an exclusion
    it matches everything, or as content it stands for no files. -/
def IsReadAlike (t : FileTree) (root pattern : String) (e : Glob) : Prop :=
  normalize t root pattern = withoutHere pattern ∨ e.isEverything = true ∨
    Scope.found ⟨t, root, []⟩ pattern = []

end Content

namespace Path

/-- What is read off a path does not end in a slash. -/
theorem endsInSlash_of_relative? {base path relative : String}
    (h : relative? base path = some relative) : endsInSlash relative = false := by
  rcases exists_names_of_relative? h with ⟨names, hnames, rfl⟩
  exact endsInSlash_intercalate hnames

end Path

theorem FileTree.withoutSlashes_eq {path : String} (h : Path.endsInSlash path = false) :
    withoutSlashes path = path := by
  rw [Path.endsInSlash, decide_eq_false_iff_not, ← List.head?_reverse] at h
  have hkeep : path.toList.reverse.dropWhile (· = '/') = path.toList.reverse := by
    rcases hcs : path.toList.reverse with _ | ⟨c, cs⟩
    · rfl
    · rw [hcs, List.head?_cons, Option.some.injEq] at h
      exact List.dropWhile_cons_of_neg (by rw [decide_eq_true_eq]; exact h)
  rw [withoutSlashes, Text.dropEndWhile, hkeep, List.reverse_reverse, String.ofList_toList]

namespace Content

/-- A file below the root is not the root. -/
theorem ne_empty_of_mem_walk {t : FileTree} (ht : t.IsProper) {root path relative : String}
    (hdirectory : t.isDirectory (Path.join root "") = true) {exclude : List Glob}
    (hwalk : .ok path ∈ Scope.walk ⟨t, root, exclude⟩ "**/*")
    (hrelative : Path.relative? root path = some relative) : relative ≠ "" := by
  have hbase : Reach.base "**/*" = "" := by decide
  rw [Scope.walk, hbase] at hwalk
  rcases FileTree.of_mem_walk ht hwalk with ⟨names, hne, hnames, hpath, -⟩
  have hnil : Path.AreNames [] := fun _ hname => absurd hname List.not_mem_nil
  have hjoin : names.foldl Path.join (Path.join root "")
      = Path.join root ("/".intercalate names) := Path.foldl_join hnil hnames root
  rw [hpath, hjoin, Path.relative?_join hnames, Option.some.injEq] at hrelative
  rcases Path.exists_intercalate_eq hnames (hne hdirectory) with ⟨before, last, hlast, heq⟩
  rw [← hrelative, heq]
  exact fun hempty => hlast.ne_empty (String.append_eq_empty_iff.1 hempty).2

section

variable {t : FileTree} {root pattern : String}

/-- How a pattern of content is read in another way than an exclusion: it ends in a slash, or it
    is the path of a directory. -/
theorem normalize_cases (h : normalize t root pattern ≠ withoutHere pattern) :
    Path.endsInSlash (withoutHere pattern) = true ∨
      Reach.hasWildcard (withoutHere pattern) = false ∧
        t.isDirectory (Path.join root (withoutHere pattern)) = true ∧
        normalize t root pattern = if withoutHere pattern = "" then "**/*"
          else withoutHere pattern ++ "/**/*" := by
  rcases Bool.eq_false_or_eq_true (Path.endsInSlash (withoutHere pattern)) with hslash | hslash
  · exact .inl hslash
  -- Without a slash at the end only a directory makes a difference.
  · have hbare : FileTree.withoutSlashes (withoutHere pattern) = withoutHere pattern := by
      exact FileTree.withoutSlashes_eq hslash
    rw [normalize, hbare] at h ⊢
    by_cases hdirectory : (!Reach.hasWildcard (withoutHere pattern)
        && t.isDirectory (Path.join root (withoutHere pattern))) = true
    · rw [if_pos hdirectory]
      rw [Bool.and_eq_true, Bool.not_eq_true'] at hdirectory
      exact .inr ⟨hdirectory.1, hdirectory.2, rfl⟩
    · rw [if_neg hdirectory] at h
      exact absurd rfl h

theorem isWellFormed_ofPattern {g : Glob} (hg : Glob.parse? (normalize t root pattern) = some g) :
    IsWellFormed t root (.ofPattern pattern) [] where
  exclude := rfl
  patterns := List.forall_mem_singleton.2 (Option.isSome_iff_exists.2 ⟨g, hg⟩)
  extracts := by
    intro patterns extract hentry
    cases List.mem_singleton.1 hentry

theorem found_subset {g : Glob} (hg : Glob.parse? (normalize t root pattern) = some g)
    {exclude : List Glob} :
    Scope.found ⟨t, root, exclude⟩ pattern ⊆ Scope.found ⟨t, root, []⟩ pattern := by
  intro path hpath
  rw [Scope.found_eq (s := ⟨t, root, exclude⟩) hg, mem_files, admits_iff] at hpath
  rw [Scope.found_eq (s := ⟨t, root, []⟩) hg, mem_files, admits_iff]
  rcases hpath with ⟨hwalk, relative, hrelative, haccepts, -, hknown⟩
  exact ⟨hwalk, relative, hrelative, haccepts, fun _ hmem => absurd hmem List.not_mem_nil, hknown⟩

theorem isWellFormed_excluding {config : Config} {exclude : List Glob} {e : Glob}
    (h : IsWellFormed t root config exclude) (he : Glob.parse? (withoutHere pattern) = some e) :
    IsWellFormed t root (config.excluding pattern) (exclude ++ [e]) where
  exclude := by
    rw [Config.excluding, List.mapM_append, h.exclude, List.mapM_cons, globOf_of_parse? he]
    rfl
  patterns := h.patterns
  extracts := h.extracts

variable (ht : t.IsProper) {g e : Glob} (hg : Glob.parse? (normalize t root pattern) = some g)
  (he : Glob.parse? (withoutHere pattern) = some e)
include ht hg he

/-- An exclusion that is read in another way than a pattern of content matches none of its files. -/
theorem not_accepts_of_mem_found (hne : normalize t root pattern ≠ withoutHere pattern)
    (hsome : e.isEverything = false) {path relative : String}
    (hpath : path ∈ Scope.found ⟨t, root, []⟩ pattern)
    (hrelative : Path.relative? root path = some relative) : e.accepts true relative = false := by
  by_contra haccepts
  rw [Bool.not_eq_false] at haccepts
  rw [Scope.found_eq (s := ⟨t, root, []⟩) hg, mem_files] at hpath
  rcases hpath with ⟨hwalk, hadmits⟩
  rcases admits_iff.1 hadmits with ⟨relative', hrelative', hcontent, -, -⟩
  rw [hrelative, Option.some.injEq] at hrelative'
  rw [← hrelative'] at hcontent
  rcases normalize_cases hne with hslash | ⟨hwild, hdirectory, hnormal⟩
  · -- The exclusion ends in a slash, and the path of a file does not.
    have hends := Glob.endsInSlash_of_accepts he hslash hsome haccepts
    rw [Path.endsInSlash_of_relative? hrelative] at hends
    cases hends
  · -- The exclusion matches the path of the directory only, and the file is below it.
    have hplain := Glob.eq_plain_of_accepts he hwild haccepts
    by_cases hempty : withoutHere pattern = ""
    · rw [if_pos hempty] at hnormal
      rw [hempty] at hdirectory hplain
      exact absurd hplain (ne_empty_of_mem_walk ht hdirectory (hnormal ▸ hwalk) hrelative)
    · rw [if_neg hempty] at hnormal
      have hbelow : normalize t root pattern = withoutHere pattern ++ "/" ++ "**/*" := by
        rw [hnormal, String.append_assoc]
        rfl
      rcases Glob.exists_eq_of_accepts hg hbelow hwild hcontent with ⟨rest, hrest⟩
      rw [hplain] at hrest
      have hlength := congrArg String.length hrest
      simp only [String.length_append] at hlength
      have hone : "/".length = 1 := rfl
      omega

/-- Such an exclusion leaves out no file of the pattern. -/
theorem files_excluding_ofPattern (hne : normalize t root pattern ≠ withoutHere pattern)
    (hsome : e.isEverything = false) :
    Scope.files ⟨t, root, [e]⟩ (normalize t root pattern) g
      = Scope.files ⟨t, root, []⟩ (normalize t root pattern) g := by
  have hadmits : ∀ path, .ok path ∈ Scope.walk ⟨t, root, []⟩ (normalize t root pattern) →
      Scope.admits ⟨t, root, [e]⟩ g path = Scope.admits ⟨t, root, []⟩ g path := by
    intro path hwalk
    rw [Bool.eq_iff_iff, admits_iff, admits_iff]
    refine exists_congr fun relative => and_congr_right fun hrelative =>
      and_congr_right fun haccepts => and_congr_left fun hknown => ?_
    -- The exclusion could only leave out a file that the pattern finds alone, and it
    -- matches none.
    refine ⟨fun _ _ hmem => absurd hmem List.not_mem_nil, fun _ => ?_⟩
    refine List.forall_mem_singleton.2 (not_accepts_of_mem_found ht hg he hne hsome ?_ hrelative)
    rw [Scope.found_eq (s := ⟨t, root, []⟩) hg, mem_files, admits_iff]
    exact ⟨hwalk, relative, hrelative, haccepts, fun _ hmem => absurd hmem List.not_mem_nil, hknown⟩
  refine List.filterMap_congr fun result hresult => ?_
  cases result with
  | ok path =>
      dsimp only
      rw [hadmits path hresult]
  | error cause => rfl

/-- Such an exclusion changes nothing. -/
theorem resolve_excluding_ofPattern (hne : normalize t root pattern ≠ withoutHere pattern)
    (hsome : e.isEverything = false) :
    resolve t root ((Config.ofPattern pattern).excluding pattern)
      = resolve t root (Config.ofPattern pattern) := by
  have hfiles := files_excluding_ofPattern ht hg he hne hsome
  -- The exclusions are looked at for the files of a pattern only.
  have hadd : addFile ⟨t, root, [e]⟩ = addFile ⟨t, root, []⟩ := rfl
  have herrors : Scope.errors ⟨t, root, [e]⟩ = Scope.errors ⟨t, root, []⟩ := rfl
  have halone := isWellFormed_ofPattern hg
  rw [resolve_alone rfl (isWellFormed_excluding halone he).exclude,
    resolve_alone rfl halone.exclude, addPattern_of_parse? (s := ⟨t, root, [] ++ [e]⟩) hg,
    addPattern_of_parse? (s := ⟨t, root, []⟩) hg]
  dsimp only
  rw [List.nil_append, hfiles, hadd, herrors]

/-- A pattern that is read alike in both places excludes what it stands for. -/
theorem excludes_of_isReadAlike (halike : IsReadAlike t root pattern e) :
    Excludes t root pattern := by
  intro config exclude h hpattern
  rcases exists_gathers h ht with ⟨sel, hsel, hkeeps, hgathers⟩
  refine ⟨sel, hsel, fun path hpath removed hremoved heq => ?_⟩
  rcases hgathers.found path (hkeeps.paths_eq ▸ hpath) with ⟨pattern', extract, hrequest, hfound⟩
  rcases (h.isReadable _ hrequest).1 with ⟨g', hg'⟩
  rw [Scope.found_eq (s := ⟨t, root, exclude⟩) hg', mem_files, admits_iff] at hfound
  rcases hfound with ⟨-, relative, hrelative, -, hkept, -⟩
  have hmem : e ∈ exclude := mem_of_mem_mapM h.exclude hpattern (globOf_of_parse? he)
  have hrejects : e.accepts true relative = false := hkept e hmem
  rcases halike with hnormal | heverything | hnone
  -- The pattern and the exclusion are one glob, which a file that was kept does not match.
  · rw [Scope.found_eq (s := ⟨t, root, []⟩) hg, mem_files, admits_iff] at hremoved
    rcases hremoved with ⟨-, relative', hrelative', haccepts, -⟩
    dsimp only at hrelative hrelative'
    rw [heq, hrelative', Option.some.injEq] at hrelative
    rw [hnormal, he, Option.some.injEq] at hg
    rw [← hg, hrelative, hrejects] at haccepts
    cases haccepts
  -- Nothing was kept.
  · rw [Glob.accepts, heverything] at hrejects
    cases hrejects
  · rw [hnone] at hremoved
    exact absurd hremoved List.not_mem_nil

omit he in
/-- The files of a pattern are there without exclusions. -/
theorem exists_resolve_ofPattern (hsome : Scope.found ⟨t, root, []⟩ pattern ≠ []) :
    ∃ sel, resolve t root (Config.ofPattern pattern) = .ok sel ∧ sel.paths ≠ [] := by
  have halone := isWellFormed_ofPattern hg
  rcases exists_gathers halone ht with ⟨sel, hsel, hkeeps, hgathers⟩
  refine ⟨sel, hsel, fun hnil => ?_⟩
  rcases List.exists_mem_of_ne_nil _ hsome with ⟨path, hpath⟩
  have hmem := hgathers.complete pattern none List.mem_cons_self path hpath
  rw [← hkeeps.paths_eq, hnil] at hmem
  exact absurd hmem List.not_mem_nil

/-- An exclusion removes the files of its pattern exactly if the pattern is read alike in both
    places. If not, it removes none of them. -/
theorem excludes_iff : (Excludes t root pattern ↔ IsReadAlike t root pattern e) ∧
    ∃ sel, resolve t root ((Config.ofPattern pattern).excluding pattern) = .ok sel ∧
      (Excludes t root pattern → sel.paths = []) ∧
      (¬Excludes t root pattern → sel.paths ≠ [] ∧
        resolve t root (Config.ofPattern pattern) = .ok sel) := by
  have hboth : IsWellFormed t root ((Config.ofPattern pattern).excluding pattern) [e] :=
    isWellFormed_excluding (isWellFormed_ofPattern hg) he
  rcases exists_gathers hboth ht with ⟨sel, hsel, hkeeps, hgathers⟩
  -- Whatever would be found is found for the pattern, so it would be excluded.
  have hnone : Excludes t root pattern → sel.paths = [] := by
    intro h
    rcases h _ _ hboth (List.mem_append_right _ List.mem_cons_self) with ⟨sel', hsel', hremoves⟩
    cases hsel.symm.trans hsel'
    refine List.eq_nil_iff_forall_not_mem.2 fun path hpath => ?_
    rcases hgathers.found path (hkeeps.paths_eq ▸ hpath) with
      ⟨pattern', extract, hrequest, hfound⟩
    cases List.mem_singleton.1 hrequest
    exact hremoves path hpath path (found_subset hg hfound) rfl
  by_cases halike : IsReadAlike t root pattern e
  · have hexcludes := excludes_of_isReadAlike ht hg he halike
    exact ⟨⟨fun _ => halike, fun _ => hexcludes⟩, sel, hsel, hnone,
      fun hnot => absurd hexcludes hnot⟩
  · have hcases := halike
    rw [IsReadAlike, not_or, not_or, Bool.not_eq_true] at hcases
    rcases hcases with ⟨hne, hsome, hfound⟩
    rcases exists_resolve_ofPattern ht hg hfound with ⟨alone, halone, hpaths⟩
    -- The same files are found as without the exclusion, and there are some.
    have hsame := (resolve_excluding_ofPattern ht hg he hne hsome).trans halone
    cases hsel.symm.trans hsame
    exact ⟨⟨fun h => absurd (hnone h) hpaths, fun h => absurd h halike⟩, sel, hsel, hnone,
      fun _ => ⟨hpaths, halone⟩⟩

end

end Content

namespace Nested

/-- A project with a file in a directory. -/
def tree : FileTree :=
  ⟨.directory [("src", .directory [("a.html", .file (some []))])], []⟩

theorem reach_root : tree.reach "." = .ok ([], tree.top) :=
  FileTree.reach_eq_ok_iff.2 (FileTree.find_eq_ok_iff.2 ⟨by decide, .idle rfl (.stop rfl)⟩)

theorem isPlain_top : tree.top.IsPlain := by
  refine .directory ?_ (by decide) (List.forall_mem_singleton.2 (.directory ?_ (by decide) ?_))
  · exact List.forall_mem_singleton.2 ⟨⟨by decide, by decide⟩, by decide⟩
  · exact List.forall_mem_singleton.2 ⟨⟨by decide, by decide⟩, by decide⟩
  · exact List.forall_mem_singleton.2 (.file (some []))

theorem isProper_tree : tree.IsProper := ⟨isPlain_top.isProper, _, rfl⟩

theorem normalize_src : Content.normalize tree "." "src" = "src/**/*" := by
  have hreach : tree.reach "./src" = .ok (["src"], .directory [("a.html", .file (some []))]) := by
    refine FileTree.reach_eq_ok_iff.2 (FileTree.find_eq_ok_iff.2 ⟨by decide, ?_⟩)
    have hpieces : Path.pieces "./src" = [".", "src"] := by decide
    rw [hpieces]
    exact .idle rfl (.enter ⟨by decide, by decide⟩ rfl (.stop rfl))
  have hbare : FileTree.withoutSlashes (Content.withoutHere "src") = "src" := by decide
  have hwild : Reach.hasWildcard "src" = false := by decide
  have hjoin : Path.join "." "src" = "./src" := by decide
  rw [Content.normalize, hbare, hwild, hjoin, FileTree.isDirectory, hreach]
  decide

/-- The file is found for the patterns that it matches. -/
theorem mem_found_a {pattern normal : String}
    (hnormal : Content.normalize tree "." pattern = normal)
    (haccepts : (Glob.parse? normal).map (·.accepts true "src/a.html") = some true)
    (hcovers : Reach.Covers normal ["src", "a.html"]) :
    "./src/a.html" ∈ Content.Scope.found ⟨tree, ".", []⟩ pattern := by
  rcases Option.map_eq_some_iff.1 haccepts with ⟨g, hg, haccepts⟩
  rw [← hnormal] at hg hcovers
  rw [Content.Scope.found_eq (s := ⟨tree, ".", []⟩) hg]
  have hnames : "/".intercalate ["src", "a.html"] = "src/a.html" := by decide
  refine (Content.mem_files_iff reach_root isPlain_top hg).2 ⟨["src", "a.html"], ?_, hcovers, ?_⟩
  · refine ⟨⟨some [], rfl⟩, ?_, fun _ he => absurd he List.not_mem_nil, ?_⟩
    · rw [hnames]
      exact haccepts
    · exact Content.hasKnownExtension_of_html (by decide)
  · rw [hnames]
    decide

/-- The path of its directory brings the file in, and it does not exclude it. -/
theorem not_excludes_directory :
    (Glob.parse? (Content.normalize tree "." "src")).isSome = true ∧
      (Glob.parse? (Content.withoutHere "src")).isSome = true ∧
      ¬Content.Excludes tree "." "src" ∧
      ∃ sel, Content.resolve tree "." ((Config.ofPattern "src").excluding "src") = .ok sel ∧
        "./src/a.html" ∈ sel.paths := by
  have hwithout : Content.withoutHere "src" = "src" := by decide
  have hfound : "./src/a.html" ∈ Content.Scope.found ⟨tree, ".", []⟩ "src" :=
    mem_found_a normalize_src (by decide +kernel) ⟨by decide, by decide⟩
  have hbelow : (Glob.parse? "src/**/*").isSome = true := by decide
  have hone : (Glob.parse? "src").map Glob.isEverything = some false := by decide
  rcases Option.isSome_iff_exists.1 hbelow with ⟨g, hg⟩
  rcases Option.map_eq_some_iff.1 hone with ⟨e, he, hsome⟩
  rw [← normalize_src] at hg
  rw [← hwithout] at he
  have halone := Content.isWellFormed_ofPattern hg
  rcases Content.exists_resolve reach_root isPlain_top halone with ⟨sel, hsel, hpaths⟩
  have hmem : "./src/a.html" ∈ sel.paths := by
    refine (hpaths _).2 ⟨"src", List.mem_cons_self, g, hg, ?_⟩
    rw [← Content.Scope.found_eq (s := ⟨tree, ".", []⟩) hg]
    exact hfound
  have hne : Content.normalize tree "." "src" ≠ Content.withoutHere "src" := by
    rw [normalize_src, hwithout]
    decide
  -- Read as content the path stands for what is below it, and read as an exclusion for
  -- itself.
  have hsame := Content.resolve_excluding_ofPattern isProper_tree hg he hne hsome
  refine ⟨by rw [hg]; rfl, by rw [he]; rfl, fun hexcludes => ?_, sel, hsame.trans hsel, hmem⟩
  rcases hexcludes _ _ (Content.isWellFormed_excluding halone he)
    (List.mem_append_right _ List.mem_cons_self) with ⟨sel', hsel', hremoves⟩
  cases hsel'.symm.trans (hsame.trans hsel)
  exact hremoves _ hmem _ hfound rfl

/-- A pattern with stars excludes the file that it brings in. -/
theorem excludes_stars : ∃ alone sel,
    Content.resolve tree "." (Config.ofPattern "src/*.html") = .ok alone ∧ alone.paths ≠ [] ∧
      Content.resolve tree "." ((Config.ofPattern "src/*.html").excluding "src/*.html") = .ok sel ∧
      sel.paths = [] := by
  have hnormal : Content.normalize tree "." "src/*.html" = "src/*.html" := by decide
  have hwithout : Content.withoutHere "src/*.html" = "src/*.html" := by decide
  have hsome : (Glob.parse? "src/*.html").isSome = true := by decide
  rcases Option.isSome_iff_exists.1 hsome with ⟨g, hg⟩
  have hfound : "./src/a.html" ∈ Content.Scope.found ⟨tree, ".", []⟩ "src/*.html" :=
    mem_found_a hnormal (by decide +kernel) ⟨by decide, by decide⟩
  have hcontent : Glob.parse? (Content.normalize tree "." "src/*.html") = some g :=
    hnormal.symm ▸ hg
  have hexclude : Glob.parse? (Content.withoutHere "src/*.html") = some g := hwithout.symm ▸ hg
  rcases Content.exists_resolve_ofPattern isProper_tree hcontent (List.ne_nil_of_mem hfound) with
    ⟨alone, halone, hpaths⟩
  rcases Content.excludes_iff isProper_tree hcontent hexclude with ⟨hexcludes, sel, hsel, hnone, -⟩
  exact ⟨alone, sel, halone, hpaths, hsel, hnone (hexcludes.2 (.inl (hnormal.trans hwithout.symm)))⟩

end Nested

end UtilityCss
