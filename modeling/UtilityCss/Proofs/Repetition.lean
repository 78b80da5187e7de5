import UtilityCss.Command.Outcome
import UtilityCss.Proofs.Content.Shape
import UtilityCss.Proofs.Content.Success
import UtilityCss.Proofs.Extraction
import UtilityCss.Proofs.FileTree.Writing
import UtilityCss.Proofs.Stylesheet.Legible
import UtilityCss.Proofs.Text.Decoding

/-!
# Building Again

What happens when a build is run a second time.

A build that has succeeded leaves a tree that has grown, so whatever the first build got
through the second one gets through as well: its patterns are well formed, its
directories are there, and its stylesheet can be written over. Only the configuration has
to be found as it was, because the stylesheet may have been written in its place.

The bytes need not be the same. The stylesheet of the first build can be content of the
second one, and in the text of a stylesheet the name of a property is followed by a
colon, as a word is in prose. Scanning drops the colon, so a property whose name is a
class becomes one: `flex: 1 1 0%` brings in the class `flex`. `Circular` is a project
where this happens.

It happens no other way. A stylesheet can be read back, and a selector tells its token,
so two builds write the same bytes exactly if they find the same tokens with rules. Where
the stylesheet was there before, and is no content, nothing that is found can change:
which files there are does not depend on their text.

## Main definitions

* `Design.ruled`: The tokens that have a rule.
* `BuildCommand.configuration`: The configuration of a build.
* `BuildCommand.Settled`: The stylesheet is there, and it is no content.
* `BuildCommand.found`: The tokens that a build finds and has rules for.
* `BuildCommand.here`: The build of the project in the working directory.
* `Circular.tree`: A project whose stylesheet is content.
* `Paged.tree`: A project whose stylesheet is no content.

## Theorems

* `toText_assemble_eq_iff`: The text of a stylesheet tells which tokens have a rule in it.
* `save_again`: What has been saved is read back, and it can be saved over.
* `found_of_settled`: Writing over what is no content changes nothing that is found.
* `rebuilds_iff`: A build can be run again, and when it writes the same bytes.
* `rebuild_differs`: A build that writes different bytes.
-/

namespace UtilityCss

/-! ### Stylesheets -/

namespace Design

/-- The tokens that have a rule. -/
def ruled (d : Design) (tokens : SortedSet) : SortedSet :=
  tokens.filter fun token => (d.ruleOf? token).isSome

variable (d : Design)

theorem rules_ruled (tokens : SortedSet) :
    (d.resolveAll (d.ruled tokens)).1 = (d.resolveAll tokens).1 := by
  show (tokens.toList.filter _).filterMap d.ruleOf? = tokens.toList.filterMap d.ruleOf?
  rw [List.filterMap_filter]
  refine List.filterMap_congr fun token _ => ?_
  cases d.ruleOf? token <;> rfl

variable {d}

-- The selectors of the rules tell the tokens.
theorem mem_ruled_iff {tokens : SortedSet} {token : String} :
    token ∈ d.ruled tokens ↔
      token ∈ ((Stylesheet.ofRules (d.resolveAll tokens).1).rules.map
        fun r => r.trimmed.entry).map fun e => Selector.token e.selector := by
  have hperm := Stylesheet.ofRules_perm (d.distinct_resolveAll tokens)
  rw [ruled, SortedSet.mem_filter, List.map_map, List.mem_map]
  constructor
  · rintro ⟨hmem, hsome⟩
    rcases Option.isSome_iff_exists.1 hsome with ⟨r, hr⟩
    have htoken : Selector.token r.selector = token := Selector.token_of_ofToken? hr
    exact ⟨r, hperm.mem_iff.2 ((d.mem_resolveAll tokens).2 ⟨token, hmem, hr⟩), htoken⟩
  · rintro ⟨r, hr, rfl⟩
    rcases (d.mem_resolveAll tokens).1 (hperm.mem_iff.1 hr) with ⟨token, hmem, htoken⟩
    have hsame : Selector.token r.selector = token := Selector.token_of_ofToken? htoken
    show Selector.token r.selector ∈ tokens ∧ (d.ruleOf? (Selector.token r.selector)).isSome = true
    rw [hsame, htoken]
    exact ⟨hmem, rfl⟩

theorem mem_ruled_scan_iff {t : FileTree} {sel : Selection} {token : String} :
    token ∈ d.ruled (sel.scan t).tokens ↔
      ∃ item ∈ sel.items, ∃ text, item.read t = .ok text ∧
        token ∈ d.ruled (item.extractor.extract text) := by
  simp only [ruled, SortedSet.mem_filter, Selection.mem_scan_iff]
  constructor
  · rintro ⟨⟨item, hitem, text, htext, hmem⟩, hsome⟩
    exact ⟨item, hitem, text, htext, hmem, hsome⟩
  · rintro ⟨item, hitem, text, htext, hmem, hsome⟩
    exact ⟨⟨item, hitem, text, htext, hmem⟩, hsome⟩

variable {config : Config} (hd : ofConfig config = .ok d)
include hd

/-- The text of a stylesheet tells which tokens have a rule in it. -/
theorem toText_assemble_eq_iff {tokens tokens' : SortedSet}
    (htokens : ∀ token ∈ tokens, Token.isToken token = true)
    (htokens' : ∀ token ∈ tokens', Token.isToken token = true) (preflight minify : Bool) :
    (Stylesheet.assemble preflight (d.resolveAll tokens).1).toText minify
        = (Stylesheet.assemble preflight (d.resolveAll tokens').1).toText minify ↔
      d.ruled tokens = d.ruled tokens' := by
  constructor
  · intro h
    have hread := read_assemble hd htokens preflight minify
    rw [h, read_assemble hd htokens'] at hread
    have hentries := List.append_cancel_left (Option.some.inj hread)
    refine SortedSet.ext_mem fun token => ?_
    rw [mem_ruled_iff, mem_ruled_iff, hentries]
  · intro h
    rw [← rules_ruled, h, rules_ruled]

end Design

/-! ### Saving -/

namespace BuildCommand

variable {t t' : FileTree} {stylesheet path : String}

-- Where the directories have been made once, there is nothing left to make.
theorem withDirectories_again {t₁ : FileTree} (hwork : t.top.HasDirectory t.workDir)
    (h : withDirectories t path = (t₁, none)) :
    t.Grows t₁ ∧ ∀ {t₂ : FileTree}, t₁.Grows t₂ → withDirectories t₂ path = (t₂, none) := by
  unfold withDirectories at h ⊢
  split at h
  · cases h
    exact ⟨.refl t, fun _ => rfl⟩
  · cases h
    exact ⟨.refl t, fun _ => rfl⟩
  · next parent _ _ =>
      rcases hmake : t.makeDirectories parent with ⟨t₂, _ | e⟩
      · rw [hmake] at h
        cases h
        rcases FileTree.grows_makeDirectories hwork hmake with ⟨hgrows, hparent⟩
        refine ⟨hgrows, fun hgrows' => ?_⟩
        dsimp only
        rw [FileTree.makeDirectories_eq_self (hgrows'.hasDirectories hparent)]
        rfl
      · rw [hmake] at h
        cases h

theorem save_eq_none_iff : save t stylesheet path = (t', none) ↔
    ∃ t₁, withDirectories t path = (t₁, none) ∧
      t₁.write path (Text.encode stylesheet) = .ok t' := by
  rw [save]
  -- Nothing is written where the directories cannot be made.
  rcases withDirectories t path with ⟨t₁, _ | e⟩
  · dsimp only
    constructor
    · intro h
      refine ⟨t₁, rfl, ?_⟩
      split at h
      · next t₂ hwrite =>
          rw [hwrite, (Prod.mk.inj h).1]
      · cases h
    · rintro ⟨t₂, h₂, hwrite⟩
      rw [(Prod.mk.inj h₂).1, hwrite]
  · constructor
    · intro h
      cases h
    · rintro ⟨t₂, h₂, -⟩
      cases h₂

/-- A stylesheet that is there, in a directory, is written over. -/
theorem exists_put_of_save (hfile : t.isFile path = true)
    (hdirectory : ∀ parent, Path.parent? path = some parent →
      parent = "" ∨ t.isDirectory parent = true)
    (h : save t stylesheet path = (t', none)) :
    ∃ place old, t.find true path = .ok (.found place (.file old)) ∧
      t' = t.put place (.file (some (Text.encode stylesheet))) := by
  rcases save_eq_none_iff.1 h with ⟨t₁, hdirectories, hwrite⟩
  -- The directory is there, so none is made.
  have hself : withDirectories t path = (t, none) := by
    unfold withDirectories
    split
    · rfl
    · rfl
    · next parent hne hparent =>
        rcases hdirectory parent hparent with hempty | hdirectory
        · exact absurd hempty hne
        · rw [FileTree.makeDirectories_eq_self (.inr hdirectory)]
          rfl
  rw [hself] at hdirectories
  cases hdirectories
  rcases FileTree.write_eq_ok hwrite with
    ⟨-, ⟨place, old, hfound, rfl⟩ | ⟨directory, name, habsent, -⟩⟩
  · exact ⟨place, some old, hfound, rfl⟩
  · rcases FileTree.isFile_iff.1 hfile with ⟨place, old, hfound⟩
    rw [habsent] at hfound
    cases hfound

/-- What has been saved is read back, and it can be saved over. -/
theorem save_again (hwork : t.top.HasDirectory t.workDir)
    (h : save t stylesheet path = (t', none)) :
    t.Grows t' ∧ t'.read path = .ok (Text.encode stylesheet) ∧
      ∀ stylesheet', ∃ t'', save t' stylesheet' path = (t'', none) := by
  rcases save_eq_none_iff.1 h with ⟨t₁, hdirectories, hwrite⟩
  rcases withDirectories_again hwork hdirectories with ⟨hgrows₁, hagain⟩
  have hwork₁ : t₁.top.HasDirectory t₁.workDir := by
    rw [hgrows₁.workDir]
    exact hgrows₁.top.hasDirectory hwork
  rcases FileTree.exists_found_of_write hwork₁ hwrite with ⟨hgrows, hslash, place, hfound⟩
  refine ⟨hgrows₁.trans hgrows, FileTree.read_of_found hfound, fun stylesheet' => ?_⟩
  exact ⟨_, save_eq_none_iff.2 ⟨t', hagain hgrows, FileTree.write_of_found hfound hslash _⟩⟩

end BuildCommand

/-! ### Builds -/

namespace Build

theorem stylesheet_ofFindings (config : Config) (d : Design) (before : List Diagnostic)
    (found : Findings) : (ofFindings config d before found).stylesheet =
      (Stylesheet.assemble config.preflight (d.resolveAll found.tokens).1).toText
        config.minify := rfl

/-- Two builds write the same bytes exactly if the same tokens of theirs have a rule. -/
theorem encode_stylesheet_eq_iff {config : Config} {d : Design} {found found' : Findings}
    (before before' : List Diagnostic) (hd : Design.ofConfig config = .ok d)
    (htokens : ∀ token ∈ found.tokens, Token.isToken token = true)
    (htokens' : ∀ token ∈ found'.tokens, Token.isToken token = true) :
    Text.encode (ofFindings config d before found).stylesheet
        = Text.encode (ofFindings config d before' found').stylesheet ↔
      d.ruled found.tokens = d.ruled found'.tokens := by
  rw [stylesheet_ofFindings, stylesheet_ofFindings,
    ← Design.toText_assemble_eq_iff hd htokens htokens' config.preflight config.minify]
  exact ⟨fun h => Text.encode_injective h, fun h => congrArg Text.encode h⟩

end Build

namespace BuildCommand

variable (c : BuildCommand) (t : FileTree)

/-- The configuration of a build. -/
def configuration : Except BuildError Config := (Config.choose t c.root c.config).map Prod.fst

/-- A configuration with what the command asks for. -/
def adjusted (config : Config) : Config := { config with minify := config.minify || c.minify }

/-- The content of a build. -/
def selection : Except BuildError Selection := do
  let config ← c.configuration t
  Content.resolve t c.root config

/-- The stylesheet is there, in a directory, and it is no content. -/
structure Settled (path : String) : Prop where
  /-- It is there. -/
  file : t.isFile path = true
  /-- So is its directory. -/
  directory : ∀ parent, Path.parent? path = some parent → parent = "" ∨ t.isDirectory parent = true
  /-- No content leads to it. -/
  apart : ∀ sel, c.selection t = .ok sel → ∀ other ∈ sel.paths,
    t.canonical? other ≠ t.canonical? path

/-- The tokens that a build finds and has rules for. -/
def found : Except BuildError SortedSet := do
  let config ← c.configuration t
  let d ← Design.ofConfig config
  let sel ← Content.resolve t c.root config
  return d.ruled (sel.scan t).tokens

variable {c t} {path : String} (houtput : c.output = some path)
include houtput

theorem exists_of_run (h : (c.run t).error = none) :
    ∃ config b, c.configuration t = .ok config ∧
      Build.run t c.root (c.adjusted config) = .ok b ∧
      save t b.stylesheet path = ((c.run t).tree, none) := by
  unfold run at h ⊢
  rw [configuration]
  -- Each of the steps would end the run with its error.
  rcases hchoose : Config.choose t c.root c.config with e | ⟨config, source⟩
  · rw [hchoose] at h
    cases h
  rw [hchoose] at h
  dsimp only at h ⊢
  rw [← adjusted.eq_1] at h ⊢
  rcases hbuild : Build.run t c.root (c.adjusted config) with e | b
  · rw [hbuild] at h
    cases h
  rw [hbuild] at h
  dsimp only [deliver] at h ⊢
  rw [houtput] at h ⊢
  dsimp only at h ⊢
  refine ⟨config, b, rfl, hbuild, ?_⟩
  rcases hsave : save t b.stylesheet path with ⟨t₁, _ | e⟩
  · rfl
  · rw [hsave] at h
    cases h

theorem run_of_save {config : Config} {b : Build} {t' : FileTree}
    (hconfig : c.configuration t = .ok config)
    (hbuild : Build.run t c.root (c.adjusted config) = .ok b)
    (hsave : save t b.stylesheet path = (t', none)) :
    (c.run t).error = none ∧ (c.run t).tree = t' := by
  rw [configuration] at hconfig
  rcases map_eq_ok hconfig with ⟨⟨config', source⟩, hchoose, rfl⟩
  unfold run
  rw [hchoose]
  dsimp only
  rw [← adjusted.eq_1, hbuild]
  dsimp only [deliver]
  rw [houtput]
  dsimp only
  rw [hsave]
  exact ⟨rfl, rfl⟩

omit houtput in
theorem found_eq_ok {config : Config} {d : Design} {sel : Selection}
    (hconfig : c.configuration t = .ok config) (hd : Design.ofConfig config = .ok d)
    (hsel : Content.resolve t c.root config = .ok sel) :
    c.found t = .ok (d.ruled (sel.scan t).tokens) := by
  rw [found, hconfig]
  show Design.ofConfig config >>= _ = _
  rw [hd]
  show Content.resolve t c.root config >>= _ = _
  rw [hsel]
  rfl

omit houtput in
/-- Writing over a stylesheet that is no content does not change what is found. -/
theorem found_of_settled {config : Config} {d : Design} {sel : Selection} {stylesheet : String}
    {t' : FileTree} (hsettled : c.Settled t path) (hsave : save t stylesheet path = (t', none))
    (hconfig : c.configuration t = .ok config) (hconfig' : c.configuration t' = .ok config)
    (hd : Design.ofConfig config = .ok d) (hsel : Content.resolve t c.root config = .ok sel) :
    c.found t' = c.found t := by
  rcases exists_put_of_save hsettled.file hsettled.directory hsave with
    ⟨place, old, hfind, rfl⟩
  -- Content is resolved by paths alone, and these are the same with another content of the
  -- file.
  have hsel' : Content.resolve (t.put place (.file (some (Text.encode stylesheet)))) c.root config
      = .ok sel := by
    rw [← Content.resolve_emptied, FileTree.emptied_put_of_found hfind,
      Content.resolve_emptied, hsel]
  have hselection : c.selection t = .ok sel := by
    rw [selection, hconfig]
    exact hsel
  rw [found_eq_ok hconfig hd hsel, found_eq_ok hconfig' hd hsel',
    Selection.scan_put hfind _ (hsettled.apart sel hselection)]

/-- A build that has succeeded can be run again, if it finds its configuration as it was. It
    writes the same bytes exactly if the tokens that it finds and has rules for are the
    same. They are where the stylesheet was there before and is no content. -/
theorem rebuilds_iff (hwork : t.top.HasDirectory t.workDir) (hrun : (c.run t).error = none)
    (hconfig : c.configuration (c.run t).tree = c.configuration t) :
    ∃ css css', (c.run t).tree.read path = .ok (Text.encode css) ∧
      (c.run (c.run t).tree).error = none ∧
      (c.run (c.run t).tree).tree.read path = .ok (Text.encode css') ∧
      (Text.encode css' = Text.encode css ↔ c.found (c.run t).tree = c.found t) ∧
      (c.Settled t path → Text.encode css' = Text.encode css) := by
  rcases exists_of_run houtput hrun with ⟨config, b, hchosen, hbuild, hsave⟩
  generalize (c.run t).tree = t' at hconfig hsave ⊢
  rw [hchosen] at hconfig
  rcases save_again hwork hsave with ⟨hgrows, hread, hagain⟩
  rcases Build.run_eq_ok_iff.1 hbuild with ⟨d, sel, hd, hsel, rfl⟩
  -- The second build gets as far as the first one did.
  rcases Content.exists_resolve_of_grows hgrows hsel with ⟨sel', hsel'⟩
  have hbuild' := Build.run_eq_ok_iff.2 ⟨d, sel', hd, hsel', rfl⟩
  rcases hagain _ with ⟨t'', hsave'⟩
  rcases run_of_save houtput hconfig hbuild' hsave' with ⟨herror, htree⟩
  have hwork' : t'.top.HasDirectory t'.workDir := by
    rw [hgrows.workDir]
    exact hgrows.top.hasDirectory hwork
  have hread' := (save_again hwork' hsave').2.1
  rw [← htree] at hread'
  have hfound : c.found t' = c.found t ↔
      d.ruled (sel'.scan t').tokens = d.ruled (sel.scan t).tokens := by
    rw [found_eq_ok hchosen hd hsel, found_eq_ok hconfig hd hsel', Except.ok.injEq]
  have htokens : ∀ token ∈ (sel.scan t).tokens, Token.isToken token = true := fun _ =>
    Selection.isToken_of_mem_scan
  have htokens' : ∀ token ∈ (sel'.scan t').tokens, Token.isToken token = true := fun _ =>
    Selection.isToken_of_mem_scan
  have hsame := fun before before' =>
    Build.encode_stylesheet_eq_iff before before' hd htokens' htokens
  refine ⟨_, _, hread, herror, hread', (hsame _ _).trans hfound.symm, fun hsettled => ?_⟩
  exact (hsame _ _).2 (hfound.1 (found_of_settled hsettled hsave hchosen hconfig hd hsel))

end BuildCommand

/-! ### A build in the working directory -/

namespace BuildCommand

/-- The build of the project in the working directory. -/
def here : BuildCommand :=
  { root := ".", config := none, output := some "app.css", minify := false, report := false }

theorem parent?_here : Path.parent? "app.css" = some "" := by decide

theorem not_endsInSlash : Path.endsInSlash "app.css" = false := by decide

/-- There is no directory to make for its stylesheet. -/
theorem save_here {t t' : FileTree} {css : String}
    (h : t.write "app.css" (Text.encode css) = .ok t') : save t css "app.css" = (t', none) := by
  refine save_eq_none_iff.2 ⟨t, ?_, h⟩
  unfold withDirectories
  rw [parent?_here]
  rfl

end BuildCommand

theorem Config.fileNames_here :
    Config.fileNames.map (Path.join ".") = ["./ucss.yaml", "./ucss.yml", "./ucss.json"] := by
  decide

/-- A configuration that names content and nothing else. -/
theorem Config.parse?_eq {text : String} {entries : List ContentEntry}
    (h : ((Config.parse? text).map fun c => ((c.content, c.exclude),
        (c.theme.axes.entries.length, c.theme.extend.entries.length, c.plugins.length),
        (c.darkMode, c.preflight, c.minify)))
      = some ((entries, []), (0, 0, 0), (.media, false, false))) :
    Config.parse? text = some { Config.default with content := entries } := by
  rcases Option.map_eq_some_iff.1 h with ⟨c, hc, heq⟩
  rcases c with ⟨content, exclude, ⟨axes, extend⟩, plugins, darkMode, preflight, minify⟩
  simp only [Prod.mk.injEq, List.length_eq_zero_iff] at heq
  rcases heq with ⟨⟨rfl, rfl⟩, ⟨haxes, hextend, rfl⟩, rfl, rfl, rfl⟩
  have haxes : axes = SortedMap.empty := SortedMap.ext_entries haxes
  have hextend : extend = SortedMap.empty := SortedMap.ext_entries hextend
  rw [hc, haxes, hextend]
  rfl

namespace BuildCommand

/-- The configuration of the project is in the file of the first name. -/
theorem configuration_here {t : FileTree} {place : List String} {text : String} {config : Config}
    (hfind : t.find true "./ucss.yaml" = .ok (.found place (.file (some (Text.encode text)))))
    (hparse : Config.parse? text = some config) : here.configuration t = .ok config := by
  have hfile : t.isFile "./ucss.yaml" = true := by
    rw [FileTree.isFile, FileTree.reach, hfind]
    rfl
  have htext : t.readText "./ucss.yaml" = .ok text := by
    rw [FileTree.readText, FileTree.read_of_found hfind]
    dsimp only
    rw [Text.decode?_encode]
  show (Config.discover t ".").map Prod.fst = .ok config
  unfold Config.discover Config.load
  rw [Config.fileNames_here, List.find?_cons_of_pos hfile]
  dsimp only
  rw [htext]
  dsimp only
  rw [hparse]
  rfl

end BuildCommand

/-- A file of the working directory is found by its name with a dot before it. -/
theorem FileTree.find_here {t : FileTree} {path name : String} {bytes : Option (List UInt8)}
    (hpieces : Path.pieces path = [".", name]) (hname : Path.IsEntry name)
    (hplace : t.workDir = []) (hentry : t.top.at? [name] = some (.file bytes)) :
    t.find true path = .ok (.found [name] (.file bytes)) := by
  have hpath : path ≠ "" := by
    rintro rfl
    have hlength : (Path.pieces "").length = 2 := congrArg List.length hpieces
    exact absurd hlength (by decide)
  have hstart : t.startFor path = [] := by
    rw [startFor, hplace, ite_self]
  rw [find_eq_ok_iff, hstart, hpieces]
  exact ⟨hpath, .idle rfl (.file hname hentry)⟩

/-- A pattern that is the name of a file brings in that file, if it is there. -/
theorem Content.exists_addPattern_name {t : FileTree} {name : String} {g : Glob}
    (hg : Glob.parse? name = some g)
    (hbare : FileTree.withoutSlashes (withoutHere name) = name)
    (hbase : Reach.base name = name) (hlevels : Reach.levels name = some 0)
    (hadmits : (⟨t, ".", []⟩ : Scope).admits g (Path.join "." name) = true)
    (hdirectory : t.isDirectory (Path.join "." name) = false) {paths : List String}
    (hwalk : t.walk (Path.join "." name) (some 0) = paths.map .ok)
    (hpaths : paths = [] ∨ paths = [Path.join "." name]) :
    ∃ seen remarks, addPattern ⟨t, ".", []⟩ 0 .empty name
      = .ok ⟨paths.map (⟨.file ·, 0⟩), [], [.everywhere], seen, remarks⟩ := by
  have hnormalize : normalize t "." name = name := by
    rw [normalize, hbare, hdirectory, Bool.and_false]
    rfl
  have hfiles : (⟨t, ".", []⟩ : Scope).files name g = paths := by
    -- The pattern names the file, so the walk looks at that only.
    rw [Scope.files, Scope.walk, hbase, hlevels, hwalk]
    rcases hpaths with rfl | rfl
    · rfl
    · show (if _ then _ else _ : Option String).toList = _
      rw [if_pos hadmits]
      rfl
  have hg' : Glob.parse? (normalize t "." name) = some g := by rw [hnormalize, hg]
  rw [addPattern_of_parse? (s := ⟨t, ".", []⟩) hg' 0 .empty, hnormalize, hfiles]
  rcases hpaths with rfl | rfl <;> exact ⟨_, _, rfl⟩

/-! ### A stylesheet that is content -/

namespace Circular

open BuildCommand (here save_here not_endsInSlash)

/-- A configuration that names the stylesheet as content. -/
def text : String := "content:\n  - app.css\n  - raw: flex-1\n"

/-- What it says. -/
def config : Config :=
  { Config.default with content := [.glob "app.css", .raw "flex-1" none] }

/-- The glob of the stylesheet's path. -/
def glob : Glob := ⟨"app.css".toList.map .char⟩

/-- The project with the configuration, and with other files. -/
def tree (others : List (String × FileNode)) : FileTree :=
  ⟨.directory (("ucss.yaml", .file (some (Text.encode text))) :: others), []⟩

/-- The project with a stylesheet. -/
def treeWith (css : String) : FileTree := tree [("app.css", .file (some (Text.encode css)))]

/-- The stylesheet of the first build. -/
def css : String := ".flex-1 \x7b\n  flex: 1 1 0%;\n\x7d\n"

/-- The stylesheet of the second build, where a property has become a class. -/
def css' : String := ".flex \x7b\n  display: flex;\n\x7d\n\n" ++ css

/-- The tokens that the first build has rules for. -/
def tokens : SortedSet := ⟨["flex-1"], by decide⟩

/-- The tokens that the second build has rules for. -/
def tokens' : SortedSet := ⟨["flex", "flex-1"], by decide⟩

/-- The rule of a class that sets one property. -/
def rule (token property value : String) : Rule :=
  { token, selector := "." ++ token, declarations := [⟨property, value⟩], atRules := []
    order := ⟨.utilities, .plain, [], 0, 0⟩ }

/-- The rule of the configuration's class. -/
def growRule : Rule := rule "flex-1" "flex" "1 1 0%"

/-- The rule of the property's name. -/
def flexRule : Rule := rule "flex" "display" "flex"

/-- Theme and grammar of the builds. -/
def design : Design := ⟨Theme.default, Grammar.default.withDarkMode .media⟩

theorem ruleOf?_tokens' :
    design.ruleOf? "flex" = some flexRule ∧ design.ruleOf? "flex-1" = some growRule := by
  decide +kernel

theorem parse?_text : Config.parse? text = some config := Config.parse?_eq (by decide +kernel)

section

variable (others : List (String × FileNode))

theorem hasDirectory_tree : (tree others).top.HasDirectory (tree others).workDir := ⟨_, rfl⟩

theorem find_text : (tree others).find true "./ucss.yaml"
    = .ok (.found ["ucss.yaml"] (.file (some (Text.encode text)))) :=
  FileTree.find_here (by decide) ⟨rfl, by decide⟩ rfl rfl

theorem configuration_tree : here.configuration (tree others) = .ok config :=
  BuildCommand.configuration_here (find_text others) parse?_text

end

section

-- The path that is written to, and the one that is scanned.
variable {path : String} (hpath : path = "app.css" ∨ path = "./app.css")
include hpath

theorem find_absent : (tree []).find true path = .ok (.absent [] "app.css" false) := by
  have habsent : FileTree.Way (tree []).top true FileTree.maxLinks [] ["app.css"]
      (.absent [] "app.css" false) :=
    .absent ⟨rfl, by decide⟩ rfl fun _ h => absurd h List.not_mem_nil
  rw [FileTree.find_eq_ok_iff]
  rcases hpath with rfl | rfl
  · exact ⟨by decide, habsent⟩
  · exact ⟨by decide, .idle rfl habsent⟩

theorem find_css (css : String) : (treeWith css).find true path
    = .ok (.found ["app.css"] (.file (some (Text.encode css)))) := by
  have hfile : FileTree.Way (treeWith css).top true FileTree.maxLinks [] ["app.css"]
      (.found ["app.css"] (.file (some (Text.encode css)))) := .file ⟨rfl, by decide⟩ rfl
  rw [FileTree.find_eq_ok_iff]
  rcases hpath with rfl | rfl
  · exact ⟨by decide, hfile⟩
  · exact ⟨by decide, .idle rfl hfile⟩

end

/-- The content is the stylesheet, if it is there, and the text of the configuration. -/
theorem exists_resolve {t : FileTree} {paths : List String}
    (hdirectory : t.isDirectory "./app.css" = false)
    (hwalk : t.walk "./app.css" (some 0) = paths.map .ok)
    (hpaths : paths = [] ∨ paths = ["./app.css"]) :
    ∃ sel, Content.resolve t "." config = .ok sel ∧
      sel.items = paths.map (fun path => ⟨.file path, .everywhere⟩)
        ++ [⟨.raw 1 "flex-1", .everywhere⟩] := by
  have hadmits : (⟨t, ".", []⟩ : Content.Scope).admits glob "./app.css" = true := by
    unfold Content.Scope.admits Content.Scope.relative?
    dsimp only
    decide +kernel
  have hg : Glob.parse? "app.css" = some glob := rfl
  rcases Content.exists_addPattern_name hg (by decide) (by decide) (by decide) hadmits hdirectory
    hwalk hpaths with ⟨seen, remarks, hadd⟩
  -- The text comes behind what the pattern has brought in.
  have hresolve : Content.resolve t "." config
      = .ok ⟨paths.map (⟨.file ·, 0⟩) ++ [⟨.text 0, 0⟩], ["flex-1"], [.everywhere], seen,
          remarks⟩ := by
    have hexclude : config.exclude = [] := rfl
    have hcontent : config.content = [.glob "app.css", .raw "flex-1" none] := rfl
    rw [Content.resolve, hexclude, hcontent]
    simp only [List.mapM_nil, pure_bind, List.foldlM_cons, List.foldlM_nil, bind_pure]
    rw [Content.addEntry, hadd]
    rfl
  refine ⟨_, hresolve, ?_⟩
  rcases hpaths with rfl | rfl <;> rfl

theorem exists_resolve_treeWith (css : String) :
    ∃ sel, Content.resolve (treeWith css) "." config = .ok sel ∧
      sel.items = ["./app.css"].map (fun path => ⟨.file path, .everywhere⟩)
        ++ [⟨.raw 1 "flex-1", .everywhere⟩] := by
  have hreach : (treeWith css).reach "./app.css"
      = .ok (["app.css"], .file (some (Text.encode css))) := by
    rw [FileTree.reach, find_css (.inr rfl)]
  have hdirectory : (treeWith css).isDirectory "./app.css" = false := by
    rw [FileTree.isDirectory, hreach]
    rfl
  have hwalk : (treeWith css).walk "./app.css" (some 0) = ["./app.css"].map .ok := by
    rw [FileTree.walk, hreach]
    dsimp only
    rw [FileTree.visit]
    rfl
  exact exists_resolve hdirectory hwalk (.inr rfl)

theorem mem_ruled_extract {text name token : String} {r : Rule}
    (htext : Extractor.tokensIn text.toList = [name]) (hname : design.ruleOf? name = some r) :
    token ∈ design.ruled (Extractor.everywhere.extract text) ↔ token = name := by
  rw [Design.ruled, SortedSet.mem_filter, Extractor.extract, SortedSet.mem_ofList, htext,
    List.mem_singleton]
  constructor
  · exact And.left
  · rintro rfl
    exact ⟨rfl, Option.isSome_iff_exists.2 ⟨r, hname⟩⟩

/-- The class of the configuration has a rule; in the stylesheet the name of a property
    has one. -/
theorem mem_ruled_iff {t : FileTree} {sel : Selection} {paths : List String}
    (hitems : sel.items = paths.map (fun path => ⟨.file path, .everywhere⟩)
      ++ [⟨.raw 1 "flex-1", .everywhere⟩])
    (hread : ∀ path ∈ paths, t.read path = .ok (Text.encode css)) {token : String} :
    token ∈ design.ruled (sel.scan t).tokens ↔
      (paths ≠ [] ∧ token = "flex") ∨ token = "flex-1" := by
  have hraw : Extractor.tokensIn "flex-1".toList = ["flex-1"] := by decide
  have hcss : Extractor.tokensIn css.toList = ["flex"] := by decide
  have hdecode : Text.decodeLossy (Text.encode css) = css := by decide +kernel
  -- Each of the two texts has one token with a rule.
  rcases ruleOf?_tokens' with ⟨hflex, hgrow⟩
  rw [Design.mem_ruled_scan_iff, hitems]
  constructor
  · rintro ⟨item, hitem, text, htext, hmem⟩
    rcases List.mem_append.1 hitem with hitem | hitem
    · rcases List.mem_map.1 hitem with ⟨path, hpath, rfl⟩
      rw [ContentItem.read] at htext
      dsimp only at htext
      rw [hread path hpath] at htext
      rw [← Except.ok.inj htext, hdecode] at hmem
      exact .inl ⟨List.ne_nil_of_mem hpath, (mem_ruled_extract hcss hflex).1 hmem⟩
    · rw [List.mem_singleton.1 hitem] at htext hmem
      rw [← Except.ok.inj htext] at hmem
      exact .inr ((mem_ruled_extract hraw hgrow).1 hmem)
  · rintro (⟨hpaths, htoken⟩ | htoken)
    · rcases List.exists_mem_of_ne_nil _ hpaths with ⟨path, hpath⟩
      refine ⟨_, List.mem_append_left _ (List.mem_map_of_mem hpath), css, ?_, ?_⟩
      · rw [ContentItem.read]
        dsimp only
        rw [hread path hpath, Except.map, hdecode]
      · exact (mem_ruled_extract hcss hflex).2 htoken
    · refine ⟨_, List.mem_append_right _ (List.mem_singleton_self _), "flex-1", rfl, ?_⟩
      exact (mem_ruled_extract hraw hgrow).2 htoken

/-- A build that is told of content only writes the rules of its tokens. -/
theorem run_of_resolve {t t' : FileTree} {sel : Selection} {tokens : SortedSet}
    {rules : List Rule} {css : String} {entries : List ContentEntry}
    (hconfig : here.configuration t = .ok { Config.default with content := entries })
    (hsel : Content.resolve t "." { Config.default with content := entries } = .ok sel)
    (htokens : design.ruled (sel.scan t).tokens = tokens)
    (hrules : tokens.toList.filterMap design.ruleOf? = rules)
    (hsorted : rules.Pairwise fun a b => a.precedes b = true)
    (hcss : (⟨rules⟩ : Stylesheet).toText false = css)
    (hsave : BuildCommand.save t css "app.css" = (t', none)) :
    (here.run t).error = none ∧ (here.run t).tree = t' := by
  have hresolved : (design.resolveAll (sel.scan t).tokens).1 = rules := by
    rw [← Design.rules_ruled, htokens]
    exact hrules
  have hdistinct := design.distinct_resolveAll (sel.scan t).tokens
  rw [hresolved] at hdistinct
  -- The rules are sorted and distinct already, so they are written as they stand.
  have hassembled : (Stylesheet.assemble false (design.resolveAll (sel.scan t).tokens).1).toText
      false = css := by
    rw [Stylesheet.assemble, if_neg Bool.false_ne_true, hresolved, ← hcss]
    exact congrArg (fun rules => (⟨rules⟩ : Stylesheet).toText false)
      (Stylesheet.rules_ofRules_of_sorted (List.Perm.refl _) hsorted hdistinct)
  rw [← hassembled] at hsave
  exact BuildCommand.run_of_save rfl hconfig
    (Build.run_eq_ok_iff.2 ⟨design, sel, rfl, hsel, rfl⟩) hsave

/-- The first build finds no stylesheet and writes one. -/
theorem run_tree :
    (here.run (tree [])).error = none ∧ (here.run (tree [])).tree = treeWith css := by
  have hreach : (tree []).reach "./app.css" = .error .notFound := by
    rw [FileTree.reach, find_absent (.inr rfl)]
  have hdirectory : (tree []).isDirectory "./app.css" = false := by
    rw [FileTree.isDirectory, hreach]
  have hwalk : (tree []).walk "./app.css" (some 0) = ([] : List String).map .ok := by
    rw [FileTree.walk, hreach]
    rfl
  rcases exists_resolve hdirectory hwalk (.inl rfl) with ⟨sel, hsel, hitems⟩
  -- Without a stylesheet only the text of the configuration is scanned.
  have htokens : design.ruled (sel.scan (tree [])).tokens = tokens := by
    refine SortedSet.ext_mem fun token => ?_
    rw [mem_ruled_iff hitems fun _ h => absurd h List.not_mem_nil, SortedSet.mem_iff_mem_toList,
      tokens, List.mem_singleton]
    exact ⟨fun h => h.resolve_left fun h => h.1 rfl, .inr⟩
  have hrules : tokens.toList.filterMap design.ruleOf? = [growRule] :=
    List.filterMap_cons_some ruleOf?_tokens'.2
  have hcss : (⟨[growRule]⟩ : Stylesheet).toText false = css := by decide
  refine run_of_resolve (configuration_tree []) hsel htokens hrules (by decide) hcss (save_here ?_)
  rw [FileTree.write, if_neg (ne_true_of_eq_false not_endsInSlash), find_absent (.inl rfl)]
  rfl

/-- The second build finds it and writes another one. -/
theorem run_treeWith_css : (here.run (treeWith css)).error = none ∧
    (here.run (treeWith css)).tree = treeWith css' := by
  rcases exists_resolve_treeWith css with ⟨sel, hsel, hitems⟩
  have hread : ∀ path ∈ ["./app.css"], (treeWith css).read path = .ok (Text.encode css) := by
    intro path hpath
    exact FileTree.read_of_found (find_css (.inr (List.mem_singleton.1 hpath)) css)
  -- The stylesheet that has been written brings in a token of its own.
  have htokens : design.ruled (sel.scan (treeWith css)).tokens = tokens' := by
    refine SortedSet.ext_mem fun token => ?_
    rw [mem_ruled_iff hitems hread, SortedSet.mem_iff_mem_toList, tokens', List.mem_cons,
      List.mem_singleton]
    exact or_congr_left (and_iff_right (List.cons_ne_nil _ _))
  have hrules : tokens'.toList.filterMap design.ruleOf? = [flexRule, growRule] := by
    show ["flex", "flex-1"].filterMap design.ruleOf? = _
    rw [List.filterMap_cons_some ruleOf?_tokens'.1, List.filterMap_cons_some ruleOf?_tokens'.2,
      List.filterMap_nil]
  have hcss : (⟨[flexRule, growRule]⟩ : Stylesheet).toText false = css' := by decide
  refine run_of_resolve (configuration_tree _) hsel htokens hrules (by decide) hcss (save_here ?_)
  rw [FileTree.write_of_found (find_css (.inl rfl) css) not_endsInSlash]
  rfl

theorem configuration_run_tree :
    here.configuration (here.run (tree [])).tree = here.configuration (tree []) := by
  rw [run_tree.2, configuration_tree]
  exact configuration_tree _

/-- A build that succeeds twice, with the configuration as it was, and writes different
    bytes. -/
theorem rebuild_differs :
    here.output = some "app.css" ∧ (tree []).top.HasDirectory (tree []).workDir ∧
      (here.run (tree [])).error = none ∧
      here.configuration (here.run (tree [])).tree = here.configuration (tree []) ∧
      (here.run (tree [])).tree.read "app.css" = .ok (Text.encode css) ∧
      (here.run (here.run (tree [])).tree).error = none ∧
      (here.run (here.run (tree [])).tree).tree.read "app.css" = .ok (Text.encode css') ∧
      Text.encode css' ≠ Text.encode css := by
  rcases run_tree with ⟨herror, htree⟩
  rcases run_treeWith_css with ⟨herror', htree'⟩
  refine ⟨rfl, hasDirectory_tree [], herror, configuration_run_tree, ?_, ?_, ?_, ?_⟩
  · rw [htree]
    exact FileTree.read_of_found (find_css (.inl rfl) css)
  · rw [htree]
    exact herror'
  · rw [htree, htree']
    exact FileTree.read_of_found (find_css (.inl rfl) css')
  · intro h
    exact absurd (Text.encode_injective h) (by decide)

end Circular

/-! ### A page, and a stylesheet that is no content -/

namespace Paged

open BuildCommand (here save_here not_endsInSlash)
open Circular (design flexRule ruleOf?_tokens')

/-- A configuration that names a page as content. -/
def text : String := "content:\n  - page.html\n"

/-- What it says. -/
def config : Config := { Config.default with content := [.glob "page.html"] }

/-- The glob of the page's path. -/
def glob : Glob := ⟨"page.html".toList.map .char⟩

/-- A project with the page and a stylesheet. -/
def tree (css : String) : FileTree :=
  ⟨.directory [("app.css", .file (some (Text.encode css))),
    ("page.html", .file (some (Text.encode "flex"))),
    ("ucss.yaml", .file (some (Text.encode text)))], []⟩

/-- The stylesheet of a build. -/
def css : String := ".flex \x7b\n  display: flex;\n\x7d\n"

theorem parse?_text : Config.parse? text = some config := Config.parse?_eq (by decide +kernel)

section

variable (old : String)

theorem hasDirectory_tree : (tree old).top.HasDirectory (tree old).workDir := ⟨_, rfl⟩

theorem find_css : (tree old).find true "app.css"
    = .ok (.found ["app.css"] (.file (some (Text.encode old)))) :=
  FileTree.find_eq_ok_iff.2 ⟨by decide, .file ⟨rfl, by decide⟩ rfl⟩

theorem find_page : (tree old).find true "./page.html"
    = .ok (.found ["page.html"] (.file (some (Text.encode "flex")))) :=
  FileTree.find_here (by decide) ⟨rfl, by decide⟩ rfl rfl

theorem find_text : (tree old).find true "./ucss.yaml"
    = .ok (.found ["ucss.yaml"] (.file (some (Text.encode text)))) :=
  FileTree.find_here (by decide) ⟨rfl, by decide⟩ rfl rfl

theorem configuration_tree : here.configuration (tree old) = .ok config :=
  BuildCommand.configuration_here (find_text old) parse?_text

/-- The content is the page. -/
theorem exists_resolve : ∃ sel, Content.resolve (tree old) "." config = .ok sel ∧
    sel.items = [⟨.file "./page.html", .everywhere⟩] ∧ sel.paths = ["./page.html"] := by
  have hreach : (tree old).reach "./page.html"
      = .ok (["page.html"], .file (some (Text.encode "flex"))) := by
    rw [FileTree.reach, find_page]
  have hdirectory : (tree old).isDirectory "./page.html" = false := by
    rw [FileTree.isDirectory, hreach]
    rfl
  have hwalk : (tree old).walk "./page.html" (some 0) = ["./page.html"].map .ok := by
    rw [FileTree.walk, hreach]
    dsimp only
    rw [FileTree.visit]
    rfl
  have hadmits : (⟨tree old, ".", []⟩ : Content.Scope).admits glob "./page.html" = true := by
    unfold Content.Scope.admits Content.Scope.relative?
    dsimp only
    decide +kernel
  have hg : Glob.parse? "page.html" = some glob := rfl
  rcases Content.exists_addPattern_name hg (by decide) (by decide) (by decide) hadmits hdirectory
    hwalk (.inr rfl) with ⟨seen, remarks, hadd⟩
  exact ⟨_, (Content.resolve_alone rfl rfl).trans hadd, rfl, rfl⟩

/-- The build writes the rule of the page's class over the stylesheet. -/
theorem run_tree : (here.run (tree old)).error = none ∧ (here.run (tree old)).tree = tree css := by
  rcases exists_resolve old with ⟨sel, hsel, hitems, -⟩
  have hread : (tree old).read "./page.html" = .ok (Text.encode "flex") :=
    FileTree.read_of_found (find_page old)
  have hdecode : Text.decodeLossy (Text.encode "flex") = "flex" := by decide +kernel
  have htoken : Extractor.tokensIn "flex".toList = ["flex"] := by decide
  have htokens : design.ruled (sel.scan (tree old)).tokens = ⟨["flex"], by decide⟩ := by
    refine SortedSet.ext_mem fun token => ?_
    rw [Design.mem_ruled_scan_iff, hitems, SortedSet.mem_iff_mem_toList, List.mem_singleton]
    constructor
    · rintro ⟨item, hitem, text, htext, hmem⟩
      rw [List.mem_singleton.1 hitem, ContentItem.read] at htext
      dsimp only at htext
      rw [hread] at htext
      rw [List.mem_singleton.1 hitem, ← Except.ok.inj htext, hdecode] at hmem
      exact (Circular.mem_ruled_extract htoken ruleOf?_tokens'.1).1 hmem
    · intro heq
      refine ⟨_, List.mem_singleton_self _, "flex", ?_, ?_⟩
      · rw [ContentItem.read]
        dsimp only
        rw [hread, Except.map, hdecode]
      · exact (Circular.mem_ruled_extract htoken ruleOf?_tokens'.1).2 heq
  have hrules : ["flex"].filterMap design.ruleOf? = [flexRule] :=
    List.filterMap_cons_some ruleOf?_tokens'.1
  have hcss : (⟨[flexRule]⟩ : Stylesheet).toText false = css := by decide
  refine Circular.run_of_resolve (configuration_tree old) hsel htokens hrules (by decide) hcss
    (save_here ?_)
  rw [FileTree.write_of_found (find_css old) not_endsInSlash]
  rfl

theorem settled_tree : here.Settled (tree old) "app.css" where
  file := by
    rw [FileTree.isFile, FileTree.reach, find_css]
    rfl
  directory := by
    intro parent hparent
    rw [BuildCommand.parent?_here] at hparent
    exact .inl (Option.some.inj hparent).symm
  apart := by
    intro sel hsel other hother
    rcases exists_resolve old with ⟨sel', hsel', -, hpaths⟩
    rw [BuildCommand.selection, configuration_tree] at hsel
    have hsame : sel = sel' := Except.ok.inj (hsel.symm.trans hsel')
    rw [hsame, hpaths, List.mem_singleton] at hother
    rw [hother, FileTree.canonical?, FileTree.canonical?, FileTree.reach, FileTree.reach, find_page,
      find_css]
    show some (Path.ofNames ["page.html"]) ≠ some (Path.ofNames ["app.css"])
    decide

theorem configuration_run_tree :
    here.configuration (here.run (tree old)).tree = here.configuration (tree old) := by
  rw [(run_tree old).2, configuration_tree, configuration_tree]

end

/-- The stylesheet of the page stays as the first build has left it. The one that is content
    itself does not, because the second build finds another token. -/
theorem rebuilds_iff_page :
    (here.output = some "app.css" ∧ (tree "").top.HasDirectory (tree "").workDir ∧
      (here.run (tree "")).error = none ∧
      here.configuration (here.run (tree "")).tree = here.configuration (tree "") ∧
      here.Settled (tree "") "app.css" ∧
      (here.run (tree "")).tree.read "app.css" = .ok (Text.encode css) ∧
      (here.run (here.run (tree "")).tree).error = none ∧
      (here.run (here.run (tree "")).tree).tree.read "app.css" = .ok (Text.encode css)) ∧
    ((Circular.tree []).top.HasDirectory (Circular.tree []).workDir ∧
      (here.run (Circular.tree [])).error = none ∧
      here.configuration (here.run (Circular.tree [])).tree
        = here.configuration (Circular.tree []) ∧
      (here.run (here.run (Circular.tree [])).tree).error = none ∧
      (here.run (here.run (Circular.tree [])).tree).tree.read "app.css"
        ≠ (here.run (Circular.tree [])).tree.read "app.css" ∧
      here.found (here.run (Circular.tree [])).tree ≠ here.found (Circular.tree [])) := by
  constructor
  · have hrun := run_tree ""
    have hfirst : (here.run (tree "")).tree.read "app.css" = .ok (Text.encode css) := by
      rw [hrun.2]
      exact FileTree.read_of_found (find_css css)
    rcases BuildCommand.rebuilds_iff rfl (hasDirectory_tree "") hrun.1 (configuration_run_tree "")
      with ⟨first, second, hread, herror, hread', -, hsettled⟩
    have hcss : Text.encode first = Text.encode css := Except.ok.inj (hread.symm.trans hfirst)
    rw [hsettled (settled_tree ""), hcss] at hread'
    exact ⟨rfl, hasDirectory_tree "", hrun.1, configuration_run_tree "", settled_tree "", hfirst,
      herror, hread'⟩
  · rcases Circular.run_tree with ⟨hrun, htree⟩
    rcases BuildCommand.rebuilds_iff rfl (Circular.hasDirectory_tree []) hrun
      Circular.configuration_run_tree with ⟨first, second, hread, herror, hread', hiff, -⟩
    have hfirst : (here.run (Circular.tree [])).tree.read "app.css"
        = .ok (Text.encode Circular.css) := by
      rw [htree]
      exact FileTree.read_of_found (Circular.find_css (.inl rfl) Circular.css)
    have hsecond : (here.run (here.run (Circular.tree [])).tree).tree.read "app.css"
        = .ok (Text.encode Circular.css') := by
      rw [htree, Circular.run_treeWith_css.2]
      exact FileTree.read_of_found (Circular.find_css (.inl rfl) Circular.css')
    have hne : Text.encode Circular.css' ≠ Text.encode Circular.css := fun h =>
      absurd (Text.encode_injective h) (by decide)
    have hcss : Text.encode first = Text.encode Circular.css :=
      Except.ok.inj (hread.symm.trans hfirst)
    have hcss' : Text.encode second = Text.encode Circular.css' :=
      Except.ok.inj (hread'.symm.trans hsecond)
    rw [hcss, hcss'] at hiff
    refine ⟨Circular.hasDirectory_tree [], hrun, Circular.configuration_run_tree, herror, ?_,
      fun h => hne (hiff.2 h)⟩
    rw [hfirst, hsecond]
    exact fun h => hne (Except.ok.inj h)

end Paged

end UtilityCss
