import UtilityCss.Command.Outcome
import UtilityCss.Proofs.Discovery.Pattern
import UtilityCss.Proofs.FileTree.Added
import UtilityCss.Proofs.Text.Decoding

/-!
# The First Configuration

Whether a first configuration finds the files that it is written for.

A project is looked through, patterns are suggested for what is discovered, and a configuration
with these is written into the project. It is meant for the next build: the configuration is
read back, its patterns are looked for, and every file that was discovered should be content.

Writing changes the project, but only by one more file in its root. What was there is there
still, unless it is the configuration itself, and that has no extension that is suggested. So
the files are found if reading the text gives the patterns that were suggested and each of these
stands for its area. Both depend on the names of the areas only, and hold if these are written
as they are (`Discovery.IsSpelled`).

They are written without any care, though. In a project with a quote in the name of a directory
the configuration that is written cannot be read.

## Main definitions

* `Discovery.starterConfig`: The configuration that is written, as it is meant.
* `Begun.tree`: A project with a file in a directory of a name.

## Theorems

* `Discovery.exists_isFoundFor`: A file is found for the pattern of its area.
* `InitCommand.error_run`: A project without a configuration is given one.
* `InitCommand.exists_reach_run`: What is in the project then.
* `InitCommand.covers_run`: The configuration finds what was discovered.
* `Begun.not_covers_quotes`: A configuration that cannot be read.
-/

namespace UtilityCss

theorem Content.normalize_of_hasWildcard {pattern : String}
    (h : Reach.hasWildcard (FileTree.withoutSlashes (withoutHere pattern)) = true) (t : FileTree)
    (root : String) : normalize t root pattern = FileTree.withoutSlashes (withoutHere pattern) := by
  rw [normalize]
  simp only [h, Bool.not_true, Bool.false_and, Bool.false_eq_true, if_false]

/-! ### What is discovered -/

namespace Discovery

theorem ofTree_eq {t : FileTree} {root : String} {place : List String}
    {entries : List (String × FileNode)} (hroot : t.reach root = .ok (place, .directory entries)) :
    ofTree t root = ofNode (.directory entries) := by
  rw [ofTree, hroot]
  rfl

theorem area_eq {f : DiscoveredFile} {directories : List String} {last : String}
    (h : f.place = directories ++ [last]) : f.area = areaOf directories := by
  rw [DiscoveredFile.area, h]
  rcases directories with _ | ⟨first, _ | ⟨next, directories⟩⟩ <;> rfl

theorem forall_mem_starterPatterns {p : String → Prop} (hdefault : p "./**/*.html")
    {d : Discovery} (h : ∀ pattern ∈ d.patterns, p pattern) :
    ∀ pattern ∈ d.starterPatterns, p pattern := by
  rw [starterPatterns]
  split
  · exact List.forall_mem_singleton.2 hdefault
  · exact h

theorem starterPatterns_of_mem {d : Discovery} {pattern : String} (h : pattern ∈ d.patterns) :
    d.starterPatterns = d.patterns := by
  rw [starterPatterns, if_neg]
  intro hempty
  rw [List.isEmpty_iff.1 hempty] at h
  exact absurd h List.not_mem_nil

/-- The configuration that is written for what has been discovered. -/
def starterConfig (d : Discovery) : Config :=
  { Config.default with content := d.starterPatterns.map .glob }

theorem patterns_starterConfig (d : Discovery) : d.starterConfig.patterns = d.starterPatterns := by
  rw [starterConfig, Config.patterns, List.flatMap_map]
  exact List.flatMap_singleton' _

section

variable {project : FileNode} (hplain : project.IsPlain)
include hplain

theorem areNames_place {f : DiscoveredFile} (h : f.IsIn project) : Path.AreNames f.place := by
  rcases h.isFile with ⟨bytes, hat⟩
  exact (hplain.at? hat).2

/-- A pattern is for known extensions in an area that a file is in. -/
theorem exists_areaOf_of_mem_patterns {pattern : String}
    (h : pattern ∈ (ofNode project).patterns) :
    ∃ f ∈ (ofNode project).files, ∃ directories, ∃ es : SortedSet, f.area = areaOf directories ∧
      Path.AreNames directories ∧ AreKnown es.toList ∧
      pattern = areaPattern (areaOf directories) es := by
  rcases exists_of_mem_patterns h with ⟨f, hf, es, rfl, hne, hes⟩
  rcases (isIn_of_mem_ofNode hplain hf).named with ⟨directories, last, hplace, -⟩
  have hnames := areNames_place hplain (isIn_of_mem_ofNode hplain hf)
  rw [hplace] at hnames
  refine ⟨f, hf, directories, es, area_eq hplace, (Path.areNames_append.1 hnames).1,
    ⟨hne, fun e he => ?_⟩, by rw [area_eq hplace]⟩
  rcases hes e he with ⟨f', hf', rfl⟩
  exact (isIn_of_mem_ofNode hplain hf').known

/-- If the names of the areas are written as they are, the patterns are read back. -/
theorem isQuotable_of_mem_starterPatterns
    (hareas : ∀ f ∈ (ofNode project).files, IsSpelled f.area) :
    ∀ pattern ∈ (ofNode project).starterPatterns, Yaml.isQuotable pattern = true := by
  refine forall_mem_starterPatterns (by decide) fun pattern hpattern => ?_
  rcases exists_areaOf_of_mem_patterns hplain hpattern with
    ⟨f, hf, directories, es, harea, -, hes, rfl⟩
  exact isQuotable_areaPattern (harea ▸ hareas f hf) hes

/-- And they can be read as globs, in any tree. -/
theorem isWellFormed_starterConfig (hareas : ∀ f ∈ (ofNode project).files, IsSpelled f.area)
    (t : FileTree) (root : String) :
    Content.IsWellFormed t root (ofNode project).starterConfig [] := by
  refine ⟨rfl, ?_, ?_⟩
  -- A pattern is the one for a project without files, or that of an area.
  · rw [patterns_starterConfig]
    refine forall_mem_starterPatterns ?_ fun pattern hpattern => ?_
    · rw [Content.normalize_of_hasWildcard (by decide)]
      decide
    · rcases exists_areaOf_of_mem_patterns hplain hpattern with
        ⟨f, hf, directories, es, harea, hnames, hes, rfl⟩
      rcases exists_accepts_barePattern hnames hes (harea ▸ hareas f hf) with ⟨g, hg, -⟩
      rw [normalize_areaPattern hes (isName_areaOf hnames), hg]
      rfl
  · intro patterns extract hentry
    rcases List.mem_map.1 hentry with ⟨pattern, -, heq⟩
    cases heq

/-- The first configuration is not discovered. -/
theorem place_ne_fileName {f : DiscoveredFile} (h : f.IsIn project) :
    f.place ≠ [InitCommand.fileName] := by
  intro hplace
  rcases h.named with ⟨directories, last, heq, hextension⟩
  have hnames := areNames_place hplain h
  rw [heq] at hnames hplace
  rcases List.append_eq_singleton_iff.1 hplace with ⟨-, hlast⟩ | ⟨-, hlast⟩
  · have hname := (Path.areNames_append.1 hnames).2 last List.mem_cons_self
    rcases hname.exists_eq_of_extension? hextension with ⟨stem, hstem⟩
    refine not_suffix_of_mem_extensions _ h.known ⟨(stem ++ ".").toList, ?_⟩
    rw [← String.toList_append, ← hstem, (List.cons.inj hlast).1]
    rfl
  · cases hlast

/-- A file is wanted for the pattern of its area, wherever the file is. -/
theorem exists_isFoundFor {t : FileTree} {root : String} {place : List String}
    {entries : List (String × FileNode)} (hroot : t.reach root = .ok (place, .directory entries))
    (hplain' : (FileNode.directory entries).IsPlain) {f : DiscoveredFile} (h : f.IsIn project)
    (harea : IsSpelled f.area) {es : SortedSet} (hes : AreKnown es.toList)
    (hextension : f.extension ∈ es.toList) {bytes : Option (List UInt8)}
    (hat : (FileNode.directory entries).at? f.place = some (.file bytes)) :
    Content.IsFoundFor ⟨t, root, []⟩ (areaPattern f.area es)
      (Path.join root ("/".intercalate f.place)) := by
  rcases h.named with ⟨directories, last, hplace, hlast⟩
  have hnames := areNames_place hplain h
  rw [hplace] at hnames hat ⊢
  rw [area_eq hplace] at harea ⊢
  rcases Path.areNames_append.1 hnames with ⟨hdirectories, hname⟩
  rcases (hname last List.mem_cons_self).exists_eq_of_extension? hlast with ⟨stem, hstem⟩
  -- The stem is a part of the last name.
  have hslash : '/' ∉ stem.toList := by
    intro hmem
    refine (hname last List.mem_cons_self).noSlash ?_
    rw [hstem, String.toList_append, String.toList_append, List.append_assoc]
    exact List.mem_append_left _ hmem
  rcases exists_accepts_barePattern hdirectories hes harea with ⟨g, hg, haccepts⟩
  have hnormal := normalize_areaPattern hes (isName_areaOf hdirectories) t root
  rw [← hnormal] at hg
  refine ⟨g, hg, (Content.mem_files_iff hroot hplain' hg).2 ⟨directories ++ [last], ?_, ?_, rfl⟩⟩
  -- The file is wanted: it matches, nothing is excluded, and its extension is known.
  · refine ⟨⟨bytes, hat⟩, ?_, fun _ hmem => absurd hmem List.not_mem_nil, ?_⟩
    · rw [hstem]
      exact haccepts directories hdirectories rfl stem hslash f.extension hextension
    · rw [Content.hasKnownExtension, Path.extension?_intercalate hnames, hlast]
      exact contains_toLower_of_mem_extensions _ h.known
  · rw [hnormal]
    exact covers_barePattern hes hdirectories last

end

end Discovery

/-! ### What is written -/

namespace InitCommand

variable {c : InitCommand} {t : FileTree}

/-- A command that succeeds has written a configuration. -/
theorem write_eq_ok_tree (h : (c.run t).error = none) :
    t.write (Path.join c.root fileName) (Text.encode (Discovery.ofTree t c.root).starterText)
      = .ok (c.run t).tree := by
  -- A configuration that exists is an error unless it is to be replaced.
  have hwrite : c.run t = c.write t := by
    rw [run] at h ⊢
    split at h
    · split at h
      · next hforce => rw [if_pos hforce]
      · cases h
    · rfl
  rw [hwrite] at h ⊢
  unfold write at h ⊢
  rcases hok : t.write (Path.join c.root fileName)
      (Text.encode (Discovery.ofTree t c.root).starterText) with e | t'
  · simp only [hok] at h
    cases h
  · simp only [hok]

theorem isName_of_mem_fileNames : ∀ name ∈ Config.fileNames, Path.IsName name := by
  refine List.forall_mem_cons.2 ⟨⟨⟨by decide, by decide⟩, by decide⟩, ?_⟩
  refine List.forall_mem_cons.2 ⟨⟨⟨by decide, by decide⟩, by decide⟩, ?_⟩
  exact List.forall_mem_singleton.2 ⟨⟨by decide, by decide⟩, by decide⟩

theorem isName_fileName : Path.IsName fileName :=
  isName_of_mem_fileNames fileName List.mem_cons_self

/-- A command succeeds in a project without a configuration. -/
theorem error_run {place : List String} {entries : List (String × FileNode)}
    (hroot : t.reach c.root = .ok (place, .directory entries))
    (hplain : (FileNode.directory entries).IsPlain)
    (h : ∀ name ∈ Config.fileNames, entries.lookup name = none) : (c.run t).error = none := by
  -- A configuration that exists would be an entry of the directory.
  have hnone : c.existing? t = none := by
    rw [existing?, List.find?_eq_none]
    intro path hpath hhas
    rcases List.mem_map.1 hpath with ⟨name, hname, rfl⟩
    rw [FileTree.has] at hhas
    split at hhas
    · next found hfound =>
        have hnames := List.forall_mem_singleton.2 (isName_of_mem_fileNames name hname)
        rw [← String.intercalate_singleton (s := "/") (t := name)] at hfound
        have hat := ((FileTree.reach_join_iff hroot hplain hnames).1 hfound).2
        rw [FileNode.at?_directory, h name hname] at hat
        cases hat
    · cases hhas
  have hwrite := FileTree.write_of_lookup_eq_none hroot isName_fileName
    (Text.encode (Discovery.ofTree t c.root).starterText) (h fileName List.mem_cons_self)
  rw [run, hnone]
  dsimp only
  rw [write]
  simp only [hwrite]

section

variable {place : List String} {entries : List (String × FileNode)}
  (hroot : t.reach c.root = .ok (place, .directory entries))
  (hplain : (FileNode.directory entries).IsPlain) (h : (c.run t).error = none)
include hroot hplain h

/-- The project is found with the configuration in it, and its other files are kept. -/
theorem exists_reach_run : ∃ entries',
    (c.run t).tree.reach c.root = .ok (place, .directory entries') ∧
      (FileNode.directory entries').IsPlain ∧
      (c.run t).tree.readText (Path.join c.root fileName)
        = .ok (Discovery.ofTree t c.root).starterText ∧
      ∀ names kept, names ≠ [fileName] →
        (FileNode.directory entries).at? names = some (.file kept) →
          (FileNode.directory entries').at? names = some (.file kept) := by
  rcases FileTree.exists_put_of_write hroot isName_fileName hplain (write_eq_ok_tree h) with
    ⟨hput, hold⟩
  generalize hbytes : Text.encode (Discovery.ofTree t c.root).starterText = bytes at hput
  have hreach := FileTree.reach_put hroot bytes hold
  have hplain' := FileNode.isPlain_withFile bytes isName_fileName hplain
  rw [hput]
  refine ⟨_, hreach, hplain', ?_, fun names kept hne hat => FileNode.at?_withFile hne hold hat⟩
  -- The file can be read back, because its path leads to it.
  have hat : (FileNode.directory (FileNode.withFile fileName bytes entries)).at? [fileName]
      = some (.file bytes) := by
    rw [FileNode.at?_directory, FileNode.withFile, FileNode.lookup_setEntry, if_pos rfl]
    rfl
  have hfile := (FileTree.reach_join_iff hreach hplain'
    (List.forall_mem_singleton.2 isName_fileName)).2 ⟨rfl, hat⟩
  rw [String.intercalate_singleton] at hfile
  rw [FileTree.readText, FileTree.read, hfile, ← hbytes]
  dsimp only
  rw [Text.decode?_encode]

variable (hareas : ∀ f ∈ (Discovery.ofTree t c.root).files, Discovery.IsSpelled f.area)
include hareas

/-- The configuration is read as it was meant. -/
theorem load_run : Config.load (c.run t).tree (Path.join c.root fileName)
    = .ok (Discovery.ofTree t c.root).starterConfig := by
  rcases exists_reach_run hroot hplain h with ⟨-, -, -, htext, -⟩
  rw [Discovery.ofTree_eq hroot] at hareas htext ⊢
  have hquotable := Discovery.isQuotable_of_mem_starterPatterns hplain hareas
  rw [Config.load, htext]
  dsimp only
  rw [Config.parse?_starterText hquotable]
  rfl

/-- What is discovered is found for the configuration that is written: it can be read, all its
    patterns can be, and they bring in every file. -/
theorem covers_run : ∃ config sel,
    Config.load (c.run t).tree (Path.join c.root fileName) = .ok config ∧
      Content.resolve (c.run t).tree c.root config = .ok sel ∧
      ∀ f ∈ (Discovery.ofTree t c.root).files,
        Path.join c.root ("/".intercalate f.place) ∈ sel.paths := by
  have hload := load_run hroot hplain h hareas
  rcases exists_reach_run hroot hplain h with ⟨entries', hroot', hplain', -, hkept⟩
  rw [Discovery.ofTree_eq hroot] at hareas hload ⊢
  have hwell := Discovery.isWellFormed_starterConfig hplain hareas (c.run t).tree c.root
  rcases Content.exists_resolve hroot' hplain' hwell with ⟨sel, hsel, hpaths⟩
  refine ⟨_, sel, hload, hsel, fun f hf => (hpaths _).2 ?_⟩
  rcases Discovery.exists_mem_patterns hf with ⟨es, hmem, hextension, hfound⟩
  have hin := Discovery.isIn_of_mem_ofNode hplain hf
  -- Each extension of an area comes from a file that was discovered.
  have hes : Discovery.AreKnown es.toList := by
    refine ⟨List.ne_nil_of_mem hextension, fun e he => ?_⟩
    rcases hfound e he with ⟨f', hf', rfl⟩
    exact (Discovery.isIn_of_mem_ofNode hplain hf').known
  rcases hin.isFile with ⟨bytes, hat⟩
  refine ⟨Discovery.areaPattern f.area es, ?_, ?_⟩
  · rw [Discovery.patterns_starterConfig, Discovery.starterPatterns_of_mem hmem]
    exact hmem
  · -- The file is where it was, because it is not the one that was written.
    exact Discovery.exists_isFoundFor hplain hroot' hplain' hin (hareas f hf) hes hextension
      (hkept f.place bytes (Discovery.place_ne_fileName hplain hin) hat)

end

end InitCommand

namespace Begun

/-- A project with a file in a directory of a name. -/
def tree (name : String) : FileTree :=
  ⟨.directory [(name, .directory [("x.html", .file (some []))])], []⟩

/-- A first configuration is asked for. -/
def command : InitCommand := ⟨".", false⟩

section

variable {name : String}

theorem reach_root : (tree name).reach "." = .ok ([], (tree name).top) :=
  FileTree.reach_eq_ok_iff.2 (FileTree.find_eq_ok_iff.2 ⟨by decide, .idle rfl (.stop rfl)⟩)

theorem isPlain_top (hname : Path.IsName name) : (tree name).top.IsPlain := by
  refine .directory (List.forall_mem_singleton.2 hname) (List.nodup_singleton name) ?_
  refine List.forall_mem_singleton.2 (.directory ?_ (by decide) ?_)
  · exact List.forall_mem_singleton.2 ⟨⟨by decide, by decide⟩, by decide⟩
  · exact List.forall_mem_singleton.2 (.file (some []))

theorem files_tree (name : String) (hskipped : Discovery.isSkipped name = false) :
    (Discovery.ofTree (tree name) command.root).files = [⟨[name, "x.html"], "html"⟩] := by
  have hplaces : (tree name).top.filesBelow [] = [[name, "x.html"]] := by
    simp only [tree, FileNode.filesBelow, FileNode.filesInEntries, hskipped]
    rfl
  have hfile : DiscoveredFile.ofPlace? [name, "x.html"] = some ⟨[name, "x.html"], "html"⟩ := by
    have hextension : Path.extension? "x.html" = some "html" := by decide
    have hlast : [name, "x.html"].getLast? = some "x.html" := rfl
    have hknown : Discovery.extensions.contains "html" = true := by decide
    rw [DiscoveredFile.ofPlace?, hlast, Option.bind_some, hextension]
    dsimp only
    rw [if_pos hknown]
  have hnode : Discovery.ofTree (tree name) command.root = Discovery.ofNode (tree name).top :=
    Discovery.ofTree_eq reach_root
  rw [hnode, Discovery.ofNode, hplaces]
  dsimp only
  rw [List.filterMap_cons_some hfile, List.filterMap_nil]

/-- The command succeeds, unless the directory is in its way. -/
theorem error_run_tree (hname : Path.IsName name) (hfree : name ∉ Config.fileNames) :
    (command.run (tree name)).error = none := by
  refine InitCommand.error_run reach_root (isPlain_top hname) fun file hfile => ?_
  have hne : (file == name) = false := beq_false_of_ne fun heq => hfree (heq ▸ hfile)
  rw [List.lookup_cons, hne]
  rfl

end

/-- The file in a directory of a harmless name is found. -/
theorem covers_pages : ∃ config sel,
    Config.load (command.run (tree "pages")).tree "./ucss.yaml" = .ok config ∧
      Content.resolve (command.run (tree "pages")).tree "." config = .ok sel ∧
      "./pages/x.html" ∈ sel.paths := by
  have hname : Path.IsName "pages" := ⟨⟨by decide, by decide⟩, by decide⟩
  have hfiles := files_tree "pages" (by decide)
  have hmatched : (Glob.parse? "pages").map (·.accepts true "pages") = some true := by
    decide +kernel
  rcases InitCommand.covers_run reach_root (isPlain_top hname)
    (error_run_tree hname (by decide)) (by
      rw [hfiles]
      refine List.forall_mem_singleton.2 ⟨by decide, ?_⟩
      exact Option.map_eq_some_iff.1 hmatched) with ⟨config, sel, hload, hsel, hpaths⟩
  rw [hfiles] at hpaths
  have hjoin : Path.join command.root InitCommand.fileName = "./ucss.yaml" := by decide
  have hpath : Path.join command.root ("/".intercalate ["pages", "x.html"]) = "./pages/x.html" := by
    decide
  refine ⟨config, sel, hjoin ▸ hload, hsel, ?_⟩
  rw [← hpath]
  exact hpaths _ List.mem_cons_self

/-- A directory with quotes in its name makes a configuration that cannot be read. -/
theorem not_covers_quotes :
    (tree "say \"hi\"").reach "." = .ok ([], (tree "say \"hi\"").top) ∧
      (tree "say \"hi\"").top.IsPlain ∧ (command.run (tree "say \"hi\"")).error = none ∧
      (Discovery.ofTree (tree "say \"hi\"") ".").files
        = [⟨["say \"hi\"", "x.html"], "html"⟩] ∧
      ∀ config, Config.load (command.run (tree "say \"hi\"")).tree "./ucss.yaml" ≠ .ok config := by
  have hname : Path.IsName "say \"hi\"" := ⟨⟨by decide, by decide⟩, by decide⟩
  have hfiles := files_tree "say \"hi\"" (by decide)
  have herror := error_run_tree hname (by decide)
  have hjoin : Path.join command.root InitCommand.fileName = "./ucss.yaml" := by decide
  refine ⟨reach_root, isPlain_top hname, herror, hfiles, fun config hload => ?_⟩
  rcases InitCommand.exists_reach_run reach_root (isPlain_top hname) herror with
    ⟨-, -, -, htext, -⟩
  have hnone : (Config.parse?
      (Discovery.starterText ⟨[⟨["say \"hi\"", "x.html"], "html"⟩]⟩)).isNone = true := by
    decide +kernel
  rw [← hfiles] at hnone
  have hparse := Option.isNone_iff_eq_none.1 hnone
  -- What is loaded is the text that was written, which is no configuration.
  rw [← hjoin, Config.load, htext] at hload
  dsimp only at hload
  rw [hparse] at hload
  cases hload

end Begun

end UtilityCss
