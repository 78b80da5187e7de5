import UtilityCss.Proofs.Containment.Plugin
import UtilityCss.Proofs.Content.Coverage

/-!
# What Content Is Found

Which files of a project are its content.

Patterns are gone through one after the other, and a file that has been found is not taken
again, whatever pattern finds it. Files are known by their canonical paths. Without links two
files with the same one are the same file under the same path, so leaving files out that have
been seen leaves out nothing: the content is what the patterns find, taken together.

With what a single pattern finds, the content of a project is told by its files: each is
content exactly if a pattern stands for it and the walk for that pattern gets there.

## Main definitions

* `Config.patterns`: The patterns of a configuration.
* `Content.IsWellFormed`: All patterns of a configuration can be read.
* `Content.Resolves`: The content found is what patterns stand for, as far as walks get.

## Theorems

* `Content.identity_injective`: Files without links are told apart by their canonical paths.
* `Content.Tracks.addPattern`: A pattern adds what is found for it.
* `Content.exists_resolves`: What the content of a project is.
-/

namespace UtilityCss

/-- The patterns of an entry. -/
def ContentEntry.patterns : ContentEntry → List String
  | .glob pattern => [pattern]
  | .files patterns _ => patterns
  | .raw _ _ => []

/-- The patterns of a configuration. -/
def Config.patterns (config : Config) : List String :=
  config.content.flatMap ContentEntry.patterns

namespace Content

/-- All patterns of a configuration can be read; the exclusions are some globs. -/
structure IsWellFormed (t : FileTree) (root : String) (config : Config) (exclude : List Glob) :
    Prop where
  /-- The exclusions. -/
  exclude : (config.exclude.mapM fun pattern => globOf (withoutHere pattern)) = .ok exclude
  /-- The patterns of files. -/
  patterns : ∀ pattern ∈ config.patterns, (Glob.parse? (normalize t root pattern)).isSome = true
  /-- The patterns of tokens. -/
  extracts : ∀ patterns extract, .files patterns (some extract) ∈ config.content →
    (Extractor.ofPattern? extract).isSome = true

/-- The content that is found is what the patterns of a configuration stand for, as far as
    their walks get. -/
structure Resolves (t : FileTree) (root : String) (project : FileNode) (config : Config)
    (exclude : List Glob) (sel : Selection) : Prop where
  /-- The files are those that a pattern stands for and its walk covers. -/
  found : ∀ path, path ∈ sel.paths ↔ ∃ pattern ∈ config.patterns, ∃ g names,
    Glob.parse? (normalize t root pattern) = some g ∧ Wanted project exclude g names ∧
      Reach.Covers (normalize t root pattern) names ∧
      path = Path.join root ("/".intercalate names)
  /-- If nothing misleads the walks, the files are all those that a pattern stands for. -/
  clear : (∀ pattern ∈ config.patterns, ∀ g,
      Glob.parse? (normalize t root pattern) = some g →
        Reach.IsClear (normalize t root pattern) g) →
    ∀ path, path ∈ sel.paths ↔ ∃ pattern ∈ config.patterns, ∃ g names,
      Glob.parse? (normalize t root pattern) = some g ∧ Wanted project exclude g names ∧
        path = Path.join root ("/".intercalate names)

/-- The content of a single pattern is what the pattern adds. -/
theorem resolve_alone {t : FileTree} {root : String} {config : Config} {exclude : List Glob}
    {pattern : String} (hcontent : config.content = [.glob pattern])
    (hexclude : (config.exclude.mapM fun pattern => globOf (withoutHere pattern)) = .ok exclude) :
    resolve t root config = addPattern ⟨t, root, exclude⟩ 0 .empty pattern := by
  unfold resolve
  rw [hexclude, hcontent]
  refine (pure_bind exclude _).trans ?_
  rw [List.foldlM_cons, addEntry]
  exact bind_pure _

/-! ### Adding files -/

/-- A selection has files of a kind, and knows those that it has. -/
structure Tracks (s : Scope) (kind : String → Prop) (sel : Selection) : Prop where
  /-- The files are of the kind. -/
  kind : ∀ path ∈ sel.paths, kind path
  /-- The files are known. -/
  seen : ∀ identity, identity ∈ sel.seen ↔ ∃ path ∈ sel.paths, s.identity path = identity

-- A text of the configuration has no path.
theorem paths_addRaw (sel : Selection) (text : String) :
    Selection.paths { sel with
      pieces := sel.pieces ++ [⟨.text sel.texts.length, 0⟩]
      texts := sel.texts ++ [text] } = sel.paths := by
  rw [Selection.paths, List.filterMap_append]
  exact List.append_nil _

section

variable {s : Scope} {kind : String → Prop}
  (hkind : ∀ {path path'}, kind path → kind path' → s.identity path = s.identity path' →
    path = path')
  {sel : Selection} (h : Tracks s kind sel) (extractor : Nat)
include hkind h

-- Seen files are left out by their canonical paths, so this is where these must tell files apart.
theorem Tracks.addFile {path : String} (hpath : kind path) :
    Tracks s kind (addFile s extractor sel path) ∧
      ∀ other, other ∈ (addFile s extractor sel path).paths ↔ other ∈ sel.paths ∨ other = path := by
  rw [Content.addFile]
  by_cases hseen : sel.seen.contains (s.identity path) = true
  · -- The file that has been seen is this one.
    rw [if_pos hseen]
    rcases (h.seen _).1 (List.contains_iff_mem.1 hseen) with ⟨path', hpath', hidentity⟩
    rw [← hkind (h.kind path' hpath') hpath hidentity]
    refine ⟨h, fun other => ⟨.inl, ?_⟩⟩
    rintro (hother | rfl)
    · exact hother
    · exact hpath'
  · rw [if_neg hseen]
    have hpaths : Selection.paths { sel with
        pieces := sel.pieces ++ [⟨.file path, extractor⟩]
        seen := s.identity path :: sel.seen } = sel.paths ++ [path] := by
      rw [Selection.paths, List.filterMap_append]
      rfl
    have hmem : ∀ other, other ∈ sel.paths ++ [path] ↔ other ∈ sel.paths ∨ other = path := by
      intro other
      rw [List.mem_append, List.mem_singleton]
    refine ⟨⟨?_, ?_⟩, ?_⟩
    · rw [hpaths]
      intro other hother
      rcases (hmem other).1 hother with hother | rfl
      · exact h.kind other hother
      · exact hpath
    · intro identity
      rw [hpaths, List.mem_cons, h.seen]
      constructor
      · rintro (rfl | ⟨other, hother, hidentity⟩)
        · exact ⟨path, (hmem path).2 (.inr rfl), rfl⟩
        · exact ⟨other, (hmem other).2 (.inl hother), hidentity⟩
      · rintro ⟨other, hother, rfl⟩
        rcases (hmem other).1 hother with hother | rfl
        · exact .inr ⟨other, hother, rfl⟩
        · exact .inl rfl
    · rw [hpaths]
      exact hmem

theorem Tracks.addFiles {paths : List String} (hpaths : ∀ path ∈ paths, kind path) :
    Tracks s kind (paths.foldl (Content.addFile s extractor) sel) ∧
      ∀ other, other ∈ (paths.foldl (Content.addFile s extractor) sel).paths ↔
        other ∈ sel.paths ∨ other ∈ paths := by
  induction paths generalizing sel with
  | nil => exact ⟨h, fun other => by simp only [List.foldl_nil, List.not_mem_nil, or_false]⟩
  | cons path paths ih =>
      rcases List.forall_mem_cons.1 hpaths with ⟨hpath, hpaths⟩
      rcases h.addFile hkind extractor hpath with ⟨hfirst, hadded⟩
      rcases ih hfirst hpaths with ⟨htracks, hrest⟩
      refine ⟨htracks, fun other => ?_⟩
      rw [List.foldl_cons, hrest, hadded, List.mem_cons, or_assoc]

variable {pattern : String} {g : Glob}
  (hg : Glob.parse? (normalize s.tree s.root pattern) = some g)
  (hfiles : ∀ path ∈ s.files (normalize s.tree s.root pattern) g, kind path)
include hg hfiles

/-- A pattern adds what is found for it. -/
theorem Tracks.addPattern : ∃ sel', addPattern s extractor sel pattern = .ok sel' ∧
    Tracks s kind sel' ∧ ∀ path, path ∈ sel'.paths ↔
      path ∈ sel.paths ∨ path ∈ s.files (normalize s.tree s.root pattern) g := by
  have hremarked : ∀ remarks, Tracks s kind { sel with diagnostics := remarks } := fun _ =>
    ⟨h.kind, h.seen⟩
  exact ⟨_, addPattern_of_parse? hg extractor sel,
    (hremarked _).addFiles hkind extractor hfiles⟩

end

/-- What steps add one by one is there after all of them. -/
theorem exists_foldlM_adds {α : Type} {s : Scope} {kind : String → Prop} {adds : α → String → Prop}
    {step : Selection → α → Except BuildError Selection} {as : List α}
    (hstep : ∀ a ∈ as, ∀ sel, Tracks s kind sel → ∃ sel', step sel a = .ok sel' ∧
      Tracks s kind sel' ∧ ∀ path, path ∈ sel'.paths ↔ path ∈ sel.paths ∨ adds a path)
    {sel : Selection} (h : Tracks s kind sel) : ∃ sel', as.foldlM step sel = .ok sel' ∧
      Tracks s kind sel' ∧ ∀ path, path ∈ sel'.paths ↔
        path ∈ sel.paths ∨ ∃ a ∈ as, adds a path := by
  -- What is there before a step is what the steps before it have added.
  induction as generalizing sel with
  | nil =>
      refine ⟨sel, rfl, h, fun path => ?_⟩
      simp only [List.not_mem_nil, false_and, exists_false, or_false]
  | cons a as ih =>
      rcases List.forall_mem_cons.1 hstep with ⟨hfirst, hrest⟩
      rcases hfirst sel h with ⟨next, hnext, htracks, hadded⟩
      rcases ih hrest htracks with ⟨sel', hsel', htracks', hall⟩
      refine ⟨sel', ?_, htracks', fun path => ?_⟩
      · rw [List.foldlM_cons, hnext]
        exact hsel'
      · rw [hall, hadded, or_assoc]
        simp only [List.mem_cons, or_and_right, exists_or, exists_eq_left]

/-! ### Projects without links -/

section

variable {t : FileTree} {root : String} {place : List String}
  {entries : List (String × FileNode)}
  (hroot : t.reach root = .ok (place, .directory entries))
  (hplain : (FileNode.directory entries).IsPlain) {exclude : List Glob}
include hroot hplain

/-- Files without links are told apart by their canonical paths. -/
theorem identity_injective {names names' : List String} {bytes bytes' : Option (List UInt8)}
    (h : (FileNode.directory entries).at? names = some (.file bytes))
    (h' : (FileNode.directory entries).at? names' = some (.file bytes'))
    (hidentity : Scope.identity ⟨t, root, exclude⟩ (Path.join root ("/".intercalate names))
      = Scope.identity ⟨t, root, exclude⟩ (Path.join root ("/".intercalate names'))) :
    names = names' := by
  have hcanonical : ∀ {names bytes}, (FileNode.directory entries).at? names = some (.file bytes) →
      names ≠ [] ∧ Path.AreNames names ∧
        Scope.identity ⟨t, root, exclude⟩ (Path.join root ("/".intercalate names))
          = Path.ofNames (place ++ names) := by
    intro names bytes hat
    have hnames := (hplain.at? hat).2
    have hreach := (FileTree.reach_join_iff hroot hplain hnames).2 ⟨rfl, hat⟩
    refine ⟨?_, hnames, ?_⟩
    · rintro rfl
      cases hat
    · rw [Scope.identity, FileTree.canonical?, hreach]
      rfl
  rcases hcanonical h with ⟨hne, hnames, hfirst⟩
  rcases hcanonical h' with ⟨hne', hnames', hsecond⟩
  rw [hfirst, hsecond] at hidentity
  -- Behind the place of the root the texts are equal, and the names are the pieces of these.
  have htext : "/".intercalate names = "/".intercalate names' := by
    rw [Path.ofNames, Path.ofNames, String.append_right_inj] at hidentity
    by_cases hplace : place = []
    · rw [hplace, List.nil_append, List.nil_append] at hidentity
      exact hidentity
    · rw [String.intercalate_append_of_ne_nil hplace hne,
        String.intercalate_append_of_ne_nil hplace hne', String.append_right_inj] at hidentity
      exact hidentity
  rw [← Path.pieces_intercalate hnames hne, htext, Path.pieces_intercalate hnames' hne']

/-- The path is one of a file of the project. -/
def IsPathOfFile (root : String) (project : FileNode) (path : String) : Prop :=
  ∃ names bytes, project.at? names = some (.file bytes) ∧
    path = Path.join root ("/".intercalate names)

/-- The path is found for a pattern. -/
def IsFoundFor (s : Scope) (pattern path : String) : Prop :=
  ∃ g, Glob.parse? (normalize s.tree s.root pattern) = some g ∧
    path ∈ s.files (normalize s.tree s.root pattern) g

theorem eq_of_identity {path path' : String} (h : IsPathOfFile root (.directory entries) path)
    (h' : IsPathOfFile root (.directory entries) path')
    (hidentity : Scope.identity ⟨t, root, exclude⟩ path
      = Scope.identity ⟨t, root, exclude⟩ path') : path = path' := by
  rcases h with ⟨names, bytes, hat, rfl⟩
  rcases h' with ⟨names', bytes', hat', rfl⟩
  rw [identity_injective hroot hplain hat hat' hidentity]

theorem exists_addPattern {sel : Selection}
    (h : Tracks ⟨t, root, exclude⟩ (IsPathOfFile root (.directory entries)) sel)
    {pattern : String} (hpattern : (Glob.parse? (normalize t root pattern)).isSome = true)
    (extractor : Nat) :
    ∃ sel', addPattern ⟨t, root, exclude⟩ extractor sel pattern = .ok sel' ∧
      Tracks ⟨t, root, exclude⟩ (IsPathOfFile root (.directory entries)) sel' ∧
      ∀ path, path ∈ sel'.paths ↔
        path ∈ sel.paths ∨ IsFoundFor ⟨t, root, exclude⟩ pattern path := by
  rcases Option.isSome_iff_exists.1 hpattern with ⟨g, hg⟩
  have hfiles : ∀ path ∈ Scope.files ⟨t, root, exclude⟩ (normalize t root pattern) g,
      IsPathOfFile root (.directory entries) path := by
    intro path hpath
    rcases (mem_files_iff hroot hplain hg).1 hpath with ⟨names, hwanted, -, rfl⟩
    rcases hwanted.isFile with ⟨bytes, hat⟩
    exact ⟨names, bytes, hat, rfl⟩
  rcases h.addPattern (eq_of_identity hroot hplain) extractor hg hfiles with
    ⟨sel', hsel', htracks, hadded⟩
  refine ⟨sel', hsel', htracks, fun path => ?_⟩
  rw [hadded]
  -- A pattern is read in one way only.
  refine or_congr_right ⟨fun hpath => ⟨g, hg, hpath⟩, ?_⟩
  rintro ⟨g', hg', hpath⟩
  rw [hg] at hg'
  cases hg'
  exact hpath

theorem exists_addEntry {sel : Selection}
    (h : Tracks ⟨t, root, exclude⟩ (IsPathOfFile root (.directory entries)) sel)
    {entry : ContentEntry}
    (hpatterns : ∀ pattern ∈ entry.patterns,
      (Glob.parse? (normalize t root pattern)).isSome = true)
    (hextract : ∀ patterns extract, .files patterns (some extract) = entry →
      (Extractor.ofPattern? extract).isSome = true) :
    ∃ sel', addEntry ⟨t, root, exclude⟩ sel entry = .ok sel' ∧
      Tracks ⟨t, root, exclude⟩ (IsPathOfFile root (.directory entries)) sel' ∧
      ∀ path, path ∈ sel'.paths ↔ path ∈ sel.paths ∨
        ∃ pattern ∈ entry.patterns, IsFoundFor ⟨t, root, exclude⟩ pattern path := by
  cases entry with
  | glob pattern =>
      rcases exists_addPattern hroot hplain h (hpatterns pattern List.mem_cons_self) 0 with
        ⟨sel', hsel', htracks, hadded⟩
      refine ⟨sel', hsel', htracks, fun path => ?_⟩
      rw [hadded]
      simp only [ContentEntry.patterns, List.mem_singleton, exists_eq_left]
  | files patterns extract =>
      rcases exists_extractorOf_iff.2 fun pattern hpattern =>
        hextract patterns pattern (hpattern ▸ rfl) with ⟨extractor, hextractor⟩
      rcases exists_addExtractor hextractor sel with ⟨more, position, hadd, -⟩
      rw [addEntry, hadd]
      -- The extractor adds no files.
      exact exists_foldlM_adds (fun pattern hpattern sel hsel =>
        exists_addPattern hroot hplain hsel (hpatterns pattern hpattern) position)
          (show Tracks _ _ { sel with extractors := sel.extractors ++ more } from ⟨h.kind, h.seen⟩)
  | raw text extension =>
      have hpaths := paths_addRaw sel text
      refine ⟨_, rfl, ⟨?_, ?_⟩, ?_⟩
      · rw [hpaths]
        exact h.kind
      · rw [hpaths]
        exact h.seen
      · rw [hpaths]
        simp only [ContentEntry.patterns, List.not_mem_nil, false_and, exists_false, or_false,
          implies_true]

variable {config : Config}

/-- What is found for a project without links is found for one of its patterns. -/
theorem exists_resolve (h : IsWellFormed t root config exclude) :
    ∃ sel, resolve t root config = .ok sel ∧ ∀ path, path ∈ sel.paths ↔
      ∃ pattern ∈ config.patterns, IsFoundFor ⟨t, root, exclude⟩ pattern path := by
  have hstart : Tracks ⟨t, root, exclude⟩ (IsPathOfFile root (.directory entries))
      .empty := by
    constructor
    · exact fun path hpath => absurd hpath List.not_mem_nil
    · exact fun identity => ⟨fun hseen => absurd hseen List.not_mem_nil,
        fun ⟨_, hpath, _⟩ => absurd hpath List.not_mem_nil⟩
  have hstep : ∀ entry ∈ config.content, ∀ sel,
      Tracks ⟨t, root, exclude⟩ (IsPathOfFile root (.directory entries)) sel →
        ∃ sel', addEntry ⟨t, root, exclude⟩ sel entry = .ok sel' ∧
          Tracks ⟨t, root, exclude⟩ (IsPathOfFile root (.directory entries)) sel' ∧
          ∀ path, path ∈ sel'.paths ↔ path ∈ sel.paths ∨
            ∃ pattern ∈ entry.patterns, IsFoundFor ⟨t, root, exclude⟩ pattern path := by
    intro entry hentry sel hsel
    refine exists_addEntry hroot hplain hsel (fun pattern hpattern => ?_)
      fun patterns extract heq => ?_
    · exact h.patterns pattern (List.mem_flatMap.2 ⟨entry, hentry, hpattern⟩)
    · exact h.extracts patterns extract (heq ▸ hentry)
  rcases exists_foldlM_adds hstep hstart with ⟨sel, hsel, -, hadded⟩
  refine ⟨sel, ?_, fun path => ?_⟩
  · rw [resolve, h.exclude]
    exact hsel
  · rw [hadded, Config.patterns]
    simp only [List.mem_flatMap]
    constructor
    · rintro (hpath | ⟨entry, hentry, pattern, hpattern, hfound⟩)
      · exact absurd hpath List.not_mem_nil
      · exact ⟨pattern, ⟨entry, hentry, hpattern⟩, hfound⟩
    · rintro ⟨pattern, ⟨entry, hentry, hpattern⟩, hfound⟩
      exact .inr ⟨entry, hentry, pattern, hpattern, hfound⟩

/-- What the content of a project without links is: the files that a pattern stands for, as far
    as its walk gets, and all of them if nothing misleads it. -/
theorem exists_resolves (h : IsWellFormed t root config exclude) :
    ∃ sel, resolve t root config = .ok sel ∧
      Resolves t root (.directory entries) config exclude sel := by
  rcases exists_resolve hroot hplain h with ⟨sel, hsel, hpaths⟩
  have hfound : ∀ path, path ∈ sel.paths ↔ ∃ pattern ∈ config.patterns, ∃ g names,
      Glob.parse? (normalize t root pattern) = some g ∧
        Wanted (.directory entries) exclude g names ∧
        Reach.Covers (normalize t root pattern) names ∧
        path = Path.join root ("/".intercalate names) := by
    intro path
    rw [hpaths]
    refine exists_congr fun pattern => and_congr_right fun _ => exists_congr fun g => ?_
    constructor
    · rintro ⟨hg, hpath⟩
      rcases (mem_files_iff hroot hplain hg).1 hpath with ⟨names, hwanted, hcovers, rfl⟩
      exact ⟨names, hg, hwanted, hcovers, rfl⟩
    · rintro ⟨names, hg, hwanted, hcovers, rfl⟩
      exact ⟨hg, (mem_files_iff hroot hplain hg).2 ⟨names, hwanted, hcovers, rfl⟩⟩
  -- For a pattern that misleads nothing, the walk covers every file that the pattern stands
  -- for.
  refine ⟨sel, hsel, hfound, fun hclear path => ?_⟩
  rw [hfound]
  refine exists_congr fun pattern => and_congr_right fun hpattern => exists_congr fun g =>
    exists_congr fun names => and_congr_right fun hg => and_congr_right fun hwanted => ?_
  refine ⟨And.right, fun hpath => ⟨?_, hpath⟩⟩
  rcases hwanted.isFile with ⟨bytes, hat⟩
  exact (hclear pattern hpattern g hg).covers hg (hplain.at? hat).2 hwanted.accepted

end

end Content

namespace Misled

/-- A project with a file in each of two directories. -/
def tree : FileTree :=
  ⟨.directory [("my site", .directory [("x.html", .file (some []))]),
    ("site", .directory [("x.html", .file (some []))])], []⟩

/-- A configuration with some patterns and nothing else. -/
def config (patterns : List String) : Config :=
  { Config.default with content := patterns.map .glob }

theorem reach_tree : tree.reach "." = .ok ([], tree.top) :=
  FileTree.reach_eq_ok_iff.2 (FileTree.find_eq_ok_iff.2 ⟨by decide, .idle rfl (.stop rfl)⟩)

theorem isPlain_top : tree.top.IsPlain := by
  have hdirectory : FileNode.IsPlain (.directory [("x.html", .file (some []))]) := by
    refine .directory (List.forall_mem_singleton.2 ⟨⟨by decide, by decide⟩, by decide⟩)
      (by decide) ?_
    exact List.forall_mem_singleton.2 (.file (some []))
  refine .directory ?_ (by decide) ?_
  · refine List.forall_mem_cons.2 ⟨⟨⟨by decide, by decide⟩, by decide⟩, ?_⟩
    exact List.forall_mem_singleton.2 ⟨⟨by decide, by decide⟩, by decide⟩
  · exact List.forall_mem_cons.2 ⟨hdirectory, List.forall_mem_singleton.2 hdirectory⟩

theorem patterns_config (patterns : List String) : (config patterns).patterns = patterns := by
  rw [Config.patterns, config, List.flatMap_map]
  exact List.flatMap_singleton' patterns

theorem isWellFormed_config {patterns : List String} (h : ∀ pattern ∈ patterns,
      (Glob.parse? (Content.normalize tree "." pattern)).isSome = true) :
    Content.IsWellFormed tree "." (config patterns) [] where
  exclude := rfl
  patterns := by
    rw [patterns_config]
    exact h
  extracts := by
    intro patterns' extract hentry
    rcases List.mem_map.1 hentry with ⟨pattern, -, heq⟩
    cases heq

theorem wanted_of_accepts {directory : String} {bytes : Option (List UInt8)} {g : Glob}
    (hat : tree.top.at? [directory, "x.html"] = some (.file bytes))
    (h : g.accepts true ("/".intercalate [directory, "x.html"]) = true)
    (hknown : Content.hasKnownExtension ("/".intercalate [directory, "x.html"]) = true) :
    Content.Wanted tree.top [] g [directory, "x.html"] :=
  ⟨⟨bytes, hat⟩, h, fun _ he => absurd he List.not_mem_nil, hknown⟩

/-- Both files are found for a pattern that misleads nothing. -/
theorem exists_resolves_star :
    ∃ sel, Content.resolve tree "." (config ["*/*.html"]) = .ok sel ∧
      "./my site/x.html" ∈ sel.paths ∧ "./site/x.html" ∈ sel.paths := by
  have hnormal : Content.normalize tree "." "*/*.html" = "*/*.html" := by decide +kernel
  have hsome : (Glob.parse? "*/*.html").isSome = true := by decide +kernel
  have hwell : Content.IsWellFormed tree "." (config ["*/*.html"]) [] :=
    isWellFormed_config (List.forall_mem_singleton.2 (by rw [hnormal]; exact hsome))
  rcases Option.isSome_iff_exists.1 hsome with ⟨g, hg⟩
  have hexplicit : (Glob.parse? "*/*.html").map Glob.isExplicit = some true := by decide +kernel
  have hmy : (Glob.parse? "*/*.html").map (·.accepts true ("/".intercalate ["my site", "x.html"]))
      = some true := by decide +kernel
  have hsite : (Glob.parse? "*/*.html").map (·.accepts true ("/".intercalate ["site", "x.html"]))
      = some true := by decide +kernel
  rw [hg, Option.map_some, Option.some.injEq] at hexplicit hmy hsite
  rcases Content.exists_resolves reach_tree isPlain_top hwell with ⟨sel, hsel, hresolves⟩
  -- The pattern has no backslash and no class, so it misleads nothing.
  have hclear := hresolves.clear (by
    intro pattern hpattern g' hg'
    rw [patterns_config, List.mem_singleton] at hpattern
    rw [hpattern, hnormal, hg, Option.some.injEq] at hg'
    rw [hpattern, hnormal, ← hg']
    exact ⟨by decide +kernel, .inr hexplicit⟩)
  have hfound : ∀ {names path}, Content.Wanted tree.top [] g names →
      path = Path.join "." ("/".intercalate names) → path ∈ sel.paths := by
    intro names path hwanted hpath
    refine (hclear path).2 ⟨"*/*.html", ?_, g, names, ?_, hwanted, hpath⟩
    · rw [patterns_config]
      exact List.mem_cons_self
    · rw [hnormal, hg]
  exact ⟨sel, hsel, hfound (wanted_of_accepts rfl hmy (by decide +kernel)) (by decide +kernel),
    hfound (wanted_of_accepts rfl hsite (by decide +kernel)) (by decide +kernel)⟩

theorem names_of_at? {names : List String} {bytes : Option (List UInt8)}
    (h : tree.top.at? names = some (.file bytes)) :
    names = ["my site", "x.html"] ∨ names = ["site", "x.html"] := by
  -- Both directories hold the same.
  have hbelow : ∀ {names}, (FileNode.directory [("x.html", .file (some []))]).at? names
      = some (.file bytes) → names = ["x.html"] := by
    intro names h
    rcases names with _ | ⟨name, names⟩
    · cases h
    · rw [FileNode.at?_directory] at h
      rcases Option.bind_eq_some_iff.1 h with ⟨child, hchild, h⟩
      cases List.mem_singleton.1 (FileNode.mem_of_lookup hchild)
      cases names with
      | nil => rfl
      | cons name names => cases h
  rcases names with _ | ⟨name, names⟩
  · cases h
  · rw [tree, FileNode.at?_directory] at h
    rcases Option.bind_eq_some_iff.1 h with ⟨child, hchild, h⟩
    rcases List.mem_cons.1 (FileNode.mem_of_lookup hchild) with heq | hmem
    · cases heq
      exact .inl (congrArg ("my site" :: ·) (hbelow h))
    · cases List.mem_singleton.1 hmem
      exact .inr (congrArg ("site" :: ·) (hbelow h))

/-- None is found for patterns that mislead the walk, although each stands for one of them: the
    walk for the first starts at a directory with a backslash in its name, and the one for the
    second goes down by one level only, because the slash is taken up by a class. -/
theorem not_resolves_misleading : ∃ g g' sel,
    Glob.parse? (Content.normalize tree "." "my\\ site/*.html") = some g ∧
      Content.Wanted tree.top [] g ["my site", "x.html"] ∧
      Glob.parse? (Content.normalize tree "." "site[!a]x.html") = some g' ∧
      Content.Wanted tree.top [] g' ["site", "x.html"] ∧
      Content.resolve tree "." (config ["my\\ site/*.html", "site[!a]x.html"]) = .ok sel ∧
      sel.paths = [] := by
  have hnormal : Content.normalize tree "." "my\\ site/*.html" = "my\\ site/*.html" := by
    decide +kernel
  have hnormal' : Content.normalize tree "." "site[!a]x.html" = "site[!a]x.html" := by
    decide +kernel
  have hmy : (Glob.parse? "my\\ site/*.html").map
      (·.accepts true ("/".intercalate ["my site", "x.html"])) = some true := by decide +kernel
  have hsite : (Glob.parse? "site[!a]x.html").map
      (·.accepts true ("/".intercalate ["site", "x.html"])) = some true := by decide +kernel
  rcases Option.map_eq_some_iff.1 hmy with ⟨g, hg, hmy⟩
  rcases Option.map_eq_some_iff.1 hsite with ⟨g', hg', hsite⟩
  have hwell : Content.IsWellFormed tree "."
      (config ["my\\ site/*.html", "site[!a]x.html"]) [] := by
    refine isWellFormed_config (List.forall_mem_cons.2 ⟨?_, List.forall_mem_singleton.2 ?_⟩)
    · rw [hnormal, hg, Option.isSome_some]
    · rw [hnormal', hg', Option.isSome_some]
  -- Whatever is found is one of the two files, and the walk for either pattern covers
  -- neither.
  rcases Content.exists_resolve reach_tree isPlain_top hwell with ⟨sel, hsel, hpaths⟩
  refine ⟨g, g', sel, hnormal ▸ hg, wanted_of_accepts rfl hmy (by decide +kernel), hnormal' ▸ hg',
    wanted_of_accepts rfl hsite (by decide +kernel), hsel, List.eq_nil_iff_forall_not_mem.2 ?_⟩
  intro path hpath
  rcases (hpaths path).1 hpath with ⟨pattern, hpattern, found, hfound, hfile⟩
  have hcovers := (Content.mem_files_iff reach_tree isPlain_top hfound).1 hfile
  rcases hcovers with ⟨names, hwanted, hcovers, -⟩
  rcases hwanted.isFile with ⟨bytes, hat⟩
  rw [patterns_config, List.mem_cons, List.mem_singleton] at hpattern
  rcases hpattern with rfl | rfl
  · -- No file is below a directory with a backslash in its name.
    have hbelow := hcovers.below
    dsimp only at hbelow
    rw [hnormal] at hbelow
    rcases names_of_at? hat with rfl | rfl
    · exact absurd hbelow (by decide +kernel)
    · exact absurd hbelow (by decide +kernel)
  · -- Both files are two levels down, and the walk goes down by one.
    have hnear := hcovers.near 1
    dsimp only at hnear
    rw [hnormal'] at hnear
    rcases names_of_at? hat with rfl | rfl
    · exact absurd (hnear (by decide +kernel)) (by decide +kernel)
    · exact absurd (hnear (by decide +kernel)) (by decide +kernel)

end Misled

end UtilityCss
