import UtilityCss.Proofs.Accounting
import UtilityCss.Proofs.Content.Success

/-!
# What Ends a Build

Which configurations end a build, and what the files of a project have to do with it.

What is wrong with a configuration ends a build before there is a stylesheet, and what is
wrong with files is remarked on. If that were all, the files would not matter: a build would
fail in every project or in none. There is one way in which they do matter. A pattern that
ends in a dangling backslash is malformed unless it is the path of a directory, so it ends the
build in every project that has no directory of that name.

Everything else is decided by the configuration, and a configuration that is sound and has no
such pattern is built in every project, whatever is missing there, goes round in circles or
cannot be read.

## Main definitions

* `Config.IsSound`: A configuration that some project can be built with.
* `Config.HasDirectories`: A project has the directories that make patterns readable.
* `Build.Reports`: What is wrong with files is remarked on.
* `Build.Tolerates`: What the success of a build depends on.
* `Dangling.tree`, `Dangling.config`: A project that can be built with such a pattern.

## Theorems

* `exists_run_iff`: When a build succeeds.
* `exists_reports`: What the report of a build remarks on.
* `tolerates`: Whether a build fails is decided by the configuration, up to
  directories that make patterns readable.
* `exists_run_not_alike`: A configuration that only one of two projects can be built with.
-/

namespace UtilityCss

namespace Config

/-- Some project can be built with the configuration: it gives a theme and a grammar, and its
    patterns can be read. -/
structure IsSound (config : Config) : Prop where
  /-- Theme, plugins and grammar. -/
  design : ∃ d, Design.ofConfig config = .ok d
  /-- The exclusions. -/
  exclude : ∀ pattern ∈ config.exclude,
    (Glob.parse? (Content.withoutHere pattern)).isSome = true
  /-- The patterns of files. -/
  patterns : ∀ pattern ∈ config.patterns, Content.isReadable pattern = true
  /-- The patterns of tokens. -/
  extracts : ∀ patterns extract, .files patterns (some extract) ∈ config.content →
    (Extractor.ofPattern? extract).isSome = true

/-- The patterns that end in a dangling backslash are the paths of directories. -/
def HasDirectories (config : Config) (t : FileTree) (root : String) : Prop :=
  ∀ pattern ∈ config.patterns, Content.isDangling pattern = true →
    t.isDirectory (Path.join root (Content.trimmed pattern)) = true

end Config

/-! ### Builds -/

namespace Build

/-- A build succeeds exactly if its configuration is sound and the project has the directories
    that make patterns readable. -/
theorem exists_run_iff {t : FileTree} {root : String} {config : Config} :
    (∃ b, run t root config = .ok b) ↔ config.IsSound ∧ config.HasDirectories t root := by
  have hrun : (∃ b, run t root config = .ok b) ↔
      (∃ d, Design.ofConfig config = .ok d) ∧
        ∃ exclude, Content.IsWellFormed t root config exclude := by
    rw [← Content.exists_resolve_iff]
    -- Nothing that comes after the content can fail.
    constructor
    · rintro ⟨b, h⟩
      rcases run_eq_ok_iff.1 h with ⟨d, sel, hd, hsel, -⟩
      exact ⟨⟨d, hd⟩, sel, hsel⟩
    · rintro ⟨⟨d, hd⟩, sel, hsel⟩
      exact ⟨_, run_eq_ok_iff.2 ⟨d, sel, hd, hsel, rfl⟩⟩
  have hexclude : (∃ exclude, (config.exclude.mapM fun pattern =>
      Content.globOf (Content.withoutHere pattern)) = .ok exclude) ↔
        ∀ pattern ∈ config.exclude,
          (Glob.parse? (Content.withoutHere pattern)).isSome = true := by
    rw [exists_mapM_iff]
    exact forall₂_congr fun _ _ => Content.globOf_eq_ok_iff
  rw [hrun]
  constructor
  · rintro ⟨hdesign, exclude, hwell⟩
    have hpatterns := fun pattern hpattern =>
      Content.isSome_normalize_iff.1 (hwell.patterns pattern hpattern)
    exact ⟨⟨hdesign, hexclude.1 ⟨exclude, hwell.exclude⟩,
        fun pattern hpattern => (hpatterns pattern hpattern).1, hwell.extracts⟩,
      fun pattern hpattern => (hpatterns pattern hpattern).2⟩
  · rintro ⟨hsound, hdirectories⟩
    rcases hexclude.2 hsound.exclude with ⟨exclude, hmap⟩
    refine ⟨hsound.design, exclude, hmap, fun pattern hpattern => ?_, hsound.extracts⟩
    exact Content.isSome_normalize_iff.2
      ⟨hsound.patterns pattern hpattern, hdirectories pattern hpattern⟩

/-- What is wrong with the files of a project is remarked on in the report of a build, and the
    tokens without a rule are listed. -/
structure Reports (b : Build) (s : Content.Scope) (config : Config) (d : Design)
    (sel : Selection) : Prop where
  /-- There is nothing to scan for a pattern, as in an empty or missing directory. -/
  nothing : ∀ pattern ∈ config.patterns, ∀ g,
    Glob.parse? (Content.normalize s.tree s.root pattern) = some g →
      s.files (Content.normalize s.tree s.root pattern) g = [] →
        Content.emptyPattern (Content.normalize s.tree s.root pattern) ∈ b.report.diagnostics
  /-- A path on the way cannot be walked, as with links that lead to themselves. -/
  unwalked : ∀ pattern ∈ config.patterns, ∀ g,
    Glob.parse? (Content.normalize s.tree s.root pattern) = some g →
      ∀ e ∈ s.errors (Content.normalize s.tree s.root pattern) g,
        Content.unreadable e ∈ b.report.diagnostics
  /-- A file cannot be read. -/
  unread : ∀ item ∈ sel.items, ∀ e, item.read s.tree = .error e →
    ContentItem.unreadable item.source.origin e ∈ b.report.diagnostics
  /-- Every sequence of bytes is a text. -/
  decoded : ∀ item ∈ sel.items, ∀ path bytes, item.source = .file path →
    s.tree.read path = .ok bytes → item.read s.tree = .ok (Text.decodeLossy bytes)
  /-- The tokens without a rule. -/
  unresolved : ∀ token, token ∈ b.report.unresolved ↔
    token ∈ (sel.scan s.tree).tokens ∧ d.ruleOf? token = none

/-- What the success of builds with a configuration depends on. -/
structure Tolerates (config : Config) : Prop where
  /-- Two projects fail together, unless patterns that end in a dangling backslash are the paths
      of directories in one of them and not in the other. -/
  alike : ∀ t root t' root',
    ((∃ b, run t root config = .ok b) ↔ ∃ b, run t' root' config = .ok b) ↔
      (config.IsSound → (config.HasDirectories t root ↔ config.HasDirectories t' root'))
  /-- Without such patterns no project fails with a sound configuration. -/
  always : config.IsSound → (∀ pattern ∈ config.patterns, Content.isDangling pattern = false) →
    ∀ t root, ∃ b, run t root config = .ok b
  /-- Every project fails with a configuration that is not sound. -/
  never : ¬config.IsSound → ∀ t root, ¬∃ b, run t root config = .ok b
  /-- If a build succeeds, what is wrong with files is in its report. -/
  remarked : ∀ t root b, run t root config = .ok b → ∃ d sel exclude,
    Design.ofConfig config = .ok d ∧ Content.resolve t root config = .ok sel ∧
      config.exclude.mapM (fun pattern => Content.globOf (Content.withoutHere pattern))
        = .ok exclude ∧
      b.Reports ⟨t, root, exclude⟩ config d sel

theorem patternsOf_eq : Content.patternsOf = ContentEntry.patterns := by
  funext entry
  cases entry <;> rfl

theorem remarksOn_of_parse? {s : Content.Scope} {pattern : String} {g : Glob}
    (hg : Glob.parse? (Content.normalize s.tree s.root pattern) = some g) :
    Content.remarksOn s pattern
      = (s.errors (Content.normalize s.tree s.root pattern) g).map Content.unreadable
        ++ if (s.files (Content.normalize s.tree s.root pattern) g).isEmpty then
            [Content.emptyPattern (Content.normalize s.tree s.root pattern)] else [] := by
  unfold Content.remarksOn
  dsimp only
  rw [Content.globOf_of_parse? hg]

theorem exists_reports {t : FileTree} {root : String} {config : Config} {b : Build}
    (h : run t root config = .ok b) : ∃ d sel exclude,
      Design.ofConfig config = .ok d ∧ Content.resolve t root config = .ok sel ∧
        config.exclude.mapM (fun pattern => Content.globOf (Content.withoutHere pattern))
          = .ok exclude ∧
        b.Reports ⟨t, root, exclude⟩ config d sel := by
  rcases run_eq_ok_iff.1 h with ⟨d, sel, hd, hsel, rfl⟩
  rcases Content.diagnostics_of_resolve hsel with ⟨exclude, hexclude, hwalk⟩
  rw [patternsOf_eq] at hwalk
  -- The remarks on patterns come first, those on files behind them.
  have hpattern : ∀ x, (∃ pattern ∈ config.patterns,
      x ∈ Content.remarksOn ⟨t, root, exclude⟩ pattern) → x ∈ (ofFindings config d
        (sel.diagnostics ++ if config.content.isEmpty then [noContent] else [])
          (sel.scan t)).report.diagnostics := by
    intro x hx
    refine List.mem_append_left _ (List.mem_append_left _ (List.mem_append_left _ ?_))
    rw [hwalk]
    exact List.mem_flatMap.2 hx
  refine ⟨d, sel, exclude, hd, hsel, hexclude, ?_, ?_, ?_, ?_, ?_⟩
  · intro pattern hmem g hg hnone
    refine hpattern _ ⟨pattern, hmem, ?_⟩
    rw [remarksOn_of_parse? hg, hnone]
    exact List.mem_append_right _ List.mem_cons_self
  · intro pattern hmem g hg e he
    refine hpattern _ ⟨pattern, hmem, ?_⟩
    rw [remarksOn_of_parse? hg]
    exact List.mem_append_left _ (List.mem_map_of_mem he)
  · intro item hitem e he
    refine List.mem_append_left _ (List.mem_append_right _ ?_)
    rw [Selection.diagnostics_scan]
    refine List.mem_flatMap.2 ⟨item, hitem, ?_⟩
    rw [ContentItem.scan, he]
    exact List.mem_cons_self
  · intro item _ path bytes hsource hread
    rw [ContentItem.read, hsource]
    simp only [hread]
    rfl
  · exact fun token => d.mem_resolveAll_snd (sel.scan t).tokens

/-- Whether a build fails is decided by the configuration, but for patterns that end in a
    dangling backslash, for which directories of their names are looked for. What else is wrong
    with the files of a project is remarked on. -/
theorem tolerates (config : Config) : Tolerates config where
  alike := by
    intro t root t' root'
    rw [exists_run_iff, exists_run_iff]
    exact and_congr_right_iff
  always := by
    intro hsound hnone t root
    refine exists_run_iff.2 ⟨hsound, fun pattern hpattern hdangling => ?_⟩
    rw [hnone pattern hpattern] at hdangling
    exact absurd hdangling Bool.false_ne_true
  never := fun hsound t root h => hsound (exists_run_iff.1 h).1
  remarked := fun _ _ _ h => exists_reports h

end Build

namespace Dangling

/-- A project with a directory whose name ends in a backslash. -/
def tree : FileTree := ⟨.directory [("foo\\", .directory [("x.html", .file (some []))])], []⟩

/-- A configuration with the name of the directory for a pattern. -/
def config : Config := { Config.default with content := [.glob "foo\\"] }

theorem isSound_config : config.IsSound where
  design := ⟨⟨Theme.default, Grammar.default.withDarkMode .media⟩, rfl⟩
  exclude := fun pattern hpattern => absurd hpattern List.not_mem_nil
  patterns := by
    intro pattern hpattern
    rw [List.mem_singleton.1 hpattern]
    decide +kernel
  extracts := by
    intro patterns extract hmem
    exact ContentEntry.noConfusion (List.mem_singleton.1 hmem)

theorem isPlain_top : tree.top.IsPlain := by
  refine .directory ?_ (by decide) (List.forall_mem_singleton.2 (.directory ?_ (by decide) ?_))
  · exact List.forall_mem_singleton.2 ⟨⟨by decide, by decide⟩, by decide⟩
  · exact List.forall_mem_singleton.2 ⟨⟨by decide, by decide⟩, by decide⟩
  · exact List.forall_mem_singleton.2 (.file (some []))

/-- What there is by the name of the pattern in a project without links. -/
theorem isDirectory_iff {entries : List (String × FileNode)}
    (hplain : (FileNode.directory entries).IsPlain) :
    FileTree.isDirectory ⟨.directory entries, []⟩ (Path.join "." (Content.trimmed "foo\\")) = true ↔
      ∃ below, (FileNode.directory entries).at? ["foo\\"] = some (.directory below) := by
  have hroot : FileTree.reach ⟨.directory entries, []⟩ "." = .ok ([], .directory entries) :=
    FileTree.reach_eq_ok_iff.2 (FileTree.find_eq_ok_iff.2 ⟨by decide, .idle rfl (.stop rfl)⟩)
  -- A backslash is no slash, so the pattern is one name.
  have hnames : Path.AreNames ["foo\\"] :=
    List.forall_mem_singleton.2 ⟨⟨by decide, by decide⟩, by decide⟩
  have htrimmed : Content.trimmed "foo\\" = "/".intercalate ["foo\\"] := by decide +kernel
  rw [FileTree.isDirectory_iff, htrimmed]
  simp only [← FileTree.reach_eq_ok_iff, FileTree.reach_join_iff hroot hplain hnames]
  constructor
  · rintro ⟨place, below, -, hat⟩
    exact ⟨below, hat⟩
  · rintro ⟨below, hat⟩
    exact ⟨_, below, rfl, hat⟩

/-- The configuration is built in the project with the directory, and ends the build in an empty
    one. -/
theorem exists_run_not_alike :
    (∃ b, Build.run tree "." config = .ok b) ∧
      ¬∃ b, Build.run ⟨.directory [], []⟩ "." config = .ok b := by
  have hdangling : Content.isDangling "foo\\" = true := by decide +kernel
  constructor
  · refine Build.exists_run_iff.2 ⟨isSound_config, fun pattern hpattern _ => ?_⟩
    rw [List.mem_singleton.1 hpattern]
    exact (isDirectory_iff isPlain_top).2 ⟨_, rfl⟩
  · intro hrun
    have hdirectory := (Build.exists_run_iff.1 hrun).2 "foo\\" List.mem_cons_self hdangling
    have hempty : (FileNode.directory []).IsPlain :=
      .directory (fun _ h => absurd h List.not_mem_nil) (by decide)
        (fun _ h => absurd h List.not_mem_nil)
    rcases (isDirectory_iff hempty).1 hdirectory with ⟨below, hat⟩
    cases hat

end Dangling

end UtilityCss
