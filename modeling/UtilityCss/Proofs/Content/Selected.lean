import Mathlib.Data.Option.Basic
import UtilityCss.Proofs.Content.Gathered

/-!
# How Content Is Put Together

What the content of a project is made of, and in which order.

A selection keeps what requests add (`Content.gathered`) in three lists, its pieces, its texts and
its extractors, and a piece refers to the others by their positions. Going through a configuration
threads these lists and the files that have been seen through every entry. That they stay in
step is one invariant of the run (`Content.Keeps`): whatever a piece refers to is there, and looked
up it is what the requests so far add. An entry that has a pattern of tokens adds an extractor,
whether or not a file comes in for it, and its pieces refer to that one; the others refer to the
extractor that stands first.

That a pattern stands for no file is a matter of its own files only, whoever brings them in.

## Main definitions

* `Content.Keeps`: A selection keeps what requests add.
* `Content.Selects`: The content is put together from requests.
* `Content.Relists`: A configuration that asks for a pattern once more.

## Theorems

* `Content.foldl_addFile`: Adding files adds those that are fresh.
* `Content.Keeps.addRaw`, `Content.Keeps.addPattern`, `Content.Keeps.addEntry`: What is kept after
  one more text, pattern or entry.
* `Content.exists_keeps`: What is kept after a configuration.
* `Content.exists_selects`: What the content of a project is made of.
-/

namespace UtilityCss

namespace Content

/-- The content is put together from requests. -/
structure Selects (s : Scope) (requests : List ContentRequest) (sel : Selection) : Prop where
  /-- Each request adds its part, in order: a text adds itself, and a pattern adds the files that
      it is the first one to stand for, with its extractor. -/
  ordered : IsPutTogether s requests sel.items
  /-- Each file has a canonical path. -/
  canonical : ∀ path ∈ sel.paths, (s.tree.canonical? path).isSome = true
  /-- No two files have the same one. -/
  distinct : (sel.paths.map s.tree.canonical?).Nodup
  /-- Each file that a pattern stands for is there exactly once. -/
  once : ∀ pattern extract, .files pattern extract ∈ requests → ∀ path ∈ s.found pattern,
    (sel.paths.map s.tree.canonical?).count (s.tree.canonical? path) = 1
  /-- The texts are numbered in order. -/
  numbered : sel.items.filterMap ContentItem.raw?
    = (requests.filterMap ContentRequest.text?).zipIdx 1
  /-- The texts are what is read of them. -/
  loaded : (sel.items.filter fun item => item.raw?.isSome).map (ContentItem.read s.tree)
    = (requests.filterMap ContentRequest.text?).map .ok
  /-- All positions that the pieces keep are those of texts and extractors that are there. -/
  inRange : sel.IsInRange
  /-- So each piece can be looked up. -/
  lookedUp : sel.pieces.map sel.load? = sel.items.map some
  /-- The texts are kept in order. -/
  texts : sel.texts = requests.filterMap ContentRequest.text?
  /-- The pieces that are texts refer to them in order. -/
  positions : sel.pieces.filterMap ContentPiece.text? = List.range sel.texts.length
  /-- There is a remark on each pattern that stands for no files, and on no other. -/
  remarks : sel.diagnostics.filter (fun d => d.code = DiagnosticCode.emptyPattern)
    = requests.filterMap (emptyRequest? s)

/-- A configuration asks for a pattern of another one once more, further behind. -/
def Relists (config config' : Config) : Prop :=
  ∃ before pattern extract mid extract' after,
    config.requests = before ++ .files pattern extract :: (mid ++ after) ∧
      config'.requests
        = before ++ .files pattern extract :: (mid ++ .files pattern extract' :: after)

/-! ### Steps -/

/-- Adding files adds those that are fresh. -/
theorem foldl_addFile {s : Scope} {paths : List String} (extractor : Nat) (sel : Selection) :
    paths.foldl (addFile s extractor) sel =
      { sel with
        pieces := sel.pieces ++ (fresh s sel.seen paths).map fun path => ⟨.file path, extractor⟩
        seen := ((fresh s sel.seen paths).map s.identity).reverse ++ sel.seen } := by
  induction paths generalizing sel with
  | nil => simp only [List.foldl_nil, fresh, List.map_nil, List.append_nil, List.reverse_nil,
      List.nil_append]
  | cons path paths ih =>
      rw [List.foldl_cons, ih, addFile, fresh]
      by_cases hseen : sel.seen.contains (s.identity path) = true
      · rw [if_pos hseen, if_pos hseen]
      · rw [if_neg hseen, if_neg hseen]
        simp only [List.map_cons, List.append_assoc, List.singleton_append, List.reverse_cons]

/-- A selection keeps what requests add. -/
structure Keeps (s : Scope) (requests : List ContentRequest) (sel : Selection) : Prop where
  /-- What the pieces refer to is there. -/
  inRange : sel.IsInRange
  /-- The pieces stand for what has been gathered. -/
  items : sel.items = (gathered s requests).items
  /-- The same files have been seen. -/
  seen : sel.seen = (gathered s requests).seen
  /-- The extractor of pieces that have none of their own is there. -/
  first : sel.extractors[0]? = some .everywhere
  /-- The texts are kept in order. -/
  texts : sel.texts = requests.filterMap ContentRequest.text?
  /-- As many texts have been gathered. -/
  count : (gathered s requests).count = sel.texts.length
  /-- The pieces that are texts refer to them in order. -/
  positions : sel.pieces.filterMap ContentPiece.text? = List.range sel.texts.length
  /-- There is a remark on each pattern that stands for no files, and on no other. -/
  remarks : sel.diagnostics.filter (fun d => d.code = DiagnosticCode.emptyPattern)
    = requests.filterMap (emptyRequest? s)

theorem Keeps.paths_eq {s : Scope} {requests : List ContentRequest} {sel : Selection}
    (h : Keeps s requests sel) : sel.paths = (gathered s requests).paths := by
  rw [h.inRange.paths_eq, h.items, Gathering.paths]

theorem Keeps.nil (s : Scope) : Keeps s [] .empty where
  inRange := Selection.isInRange_empty
  items := rfl
  seen := rfl
  first := rfl
  texts := rfl
  count := rfl
  positions := rfl
  remarks := rfl

section

variable {s : Scope} {requests : List ContentRequest} {sel : Selection} (h : Keeps s requests sel)
include h

/-- A text is kept behind the others, and its piece refers to it. -/
theorem Keeps.addRaw (text : String) :
    Keeps s (requests ++ [.raw text]) { sel with
      pieces := sel.pieces ++ [⟨.text sel.texts.length, 0⟩]
      texts := sel.texts ++ [text] } := by
  have hgathered := gathered_append s requests [.raw text]
  rw [List.foldl_cons, List.foldl_nil, Gathering.add] at hgathered
  have hextends : sel.Extends { sel with
      pieces := sel.pieces ++ [⟨.text sel.texts.length, 0⟩]
      texts := sel.texts ++ [text] } := ⟨List.prefix_rfl, List.prefix_append _ _⟩
  constructor
  case inRange =>
    refine h.inRange.of_extends hextends rfl (List.forall_mem_singleton.2 ⟨?_, ?_⟩)
    · exact (List.getElem?_eq_some_iff.1 h.first).1
    · intro index hindex
      cases hindex
      rw [List.length_append]
      exact Nat.lt_succ_self _
  case items =>
    rw [Selection.items_of_extends h.inRange hextends rfl, hgathered, h.items, h.count]
    exact congrArg _ (Selection.filterMap_load?_text List.getElem?_concat_length h.first)
  case seen =>
    rw [hgathered]
    exact h.seen
  case first =>
    exact h.first
  case texts =>
    rw [List.filterMap_append, h.texts]
    rfl
  case count =>
    rw [hgathered, List.length_append, h.count]
    rfl
  case positions =>
    rw [List.filterMap_append, h.positions, List.length_append]
    exact List.range_succ.symm
  case remarks =>
    rw [List.filterMap_append, h.remarks]
    exact (List.append_nil _).symm

/-- One more extractor changes nothing. -/
theorem Keeps.addExtractors (more : List Extractor) :
    Keeps s requests { sel with extractors := sel.extractors ++ more } := by
  have hextends : sel.Extends { sel with extractors := sel.extractors ++ more } :=
    ⟨List.prefix_append _ _, List.prefix_rfl⟩
  constructor
  case inRange =>
    exact fun piece hpiece => (h.inRange piece hpiece).of_extends hextends
  case items =>
    rw [← h.items]
    exact List.filterMap_congr fun piece hpiece => hextends.load?_eq (h.inRange piece hpiece)
  case first =>
    rw [List.getElem?_append_left (List.getElem?_eq_some_iff.1 h.first).1, h.first]
  case seen => exact h.seen
  case texts => exact h.texts
  case count => exact h.count
  case positions => exact h.positions
  case remarks => exact h.remarks

variable {extract : Option String} {position : Nat}
  (hposition : sel.extractors[position]? = some (extractorFor extract))
include hposition

/-- The fresh files of a pattern refer to its extractor. -/
theorem Keeps.addFresh {pattern : String} {remarks : List Diagnostic}
    (hremarks : remarks.filter (fun d => d.code = DiagnosticCode.emptyPattern)
      = (emptyRequest? s (.files pattern extract)).toList) :
    Keeps s (requests ++ [.files pattern extract]) { sel with
      pieces := sel.pieces
        ++ (fresh s sel.seen (s.found pattern)).map fun path => ⟨.file path, position⟩
      seen := ((fresh s sel.seen (s.found pattern)).map s.identity).reverse ++ sel.seen
      diagnostics := sel.diagnostics ++ remarks } := by
  have hgathered := gathered_append s requests [.files pattern extract]
  rw [List.foldl_cons, List.foldl_nil, Gathering.add, ← h.seen] at hgathered
  have hextends : sel.Extends { sel with
      pieces := sel.pieces
        ++ (fresh s sel.seen (s.found pattern)).map fun path => ⟨.file path, position⟩
      seen := ((fresh s sel.seen (s.found pattern)).map s.identity).reverse ++ sel.seen
      diagnostics := sel.diagnostics ++ remarks } := ⟨List.prefix_rfl, List.prefix_rfl⟩
  constructor
  case inRange =>
    refine h.inRange.of_extends hextends rfl fun piece hpiece => ?_
    rcases List.mem_map.1 hpiece with ⟨path, -, rfl⟩
    have hbound : position < sel.extractors.length := (List.getElem?_eq_some_iff.1 hposition).1
    refine ⟨hbound, fun index hindex => ?_⟩
    cases hindex
  case items =>
    rw [Selection.items_of_extends h.inRange hextends rfl, hgathered, h.items]
    exact congrArg _ (Selection.filterMap_load?_files hposition _)
  case seen =>
    rw [hgathered]
  case first =>
    exact h.first
  case texts =>
    rw [List.filterMap_append, h.texts]
    exact (List.append_nil _).symm
  case count =>
    rw [hgathered]
    exact h.count
  case positions =>
    rw [List.filterMap_append, h.positions, List.filterMap_map]
    exact (congrArg _ (List.filterMap_none _)).trans (List.append_nil _)
  case remarks =>
    rw [List.filter_append, List.filterMap_append, h.remarks, hremarks, List.filterMap_cons]
    cases emptyRequest? s (.files pattern extract) with
    | none => rfl
    | some d => rfl

/-- A pattern adds its fresh files. -/
theorem Keeps.addPattern {pattern : String}
    (hpattern : (Glob.parse? (normalize s.tree s.root pattern)).isSome = true) :
    ∃ sel', addPattern s position sel pattern = .ok sel' ∧
      Keeps s (requests ++ [.files pattern extract]) sel' ∧ sel'.extractors = sel.extractors := by
  rcases Option.isSome_iff_exists.1 hpattern with ⟨g, hg⟩
  refine ⟨_, addPattern_of_parse? hg position sel, ?_, ?_⟩
  · rw [foldl_addFile, ← Scope.found_eq hg]
    refine h.addFresh hposition ?_
    -- What is remarked on a walk has another code.
    have hnone : ((s.errors (normalize s.tree s.root pattern) g).map unreadable).filter
        (fun d => d.code = DiagnosticCode.emptyPattern) = [] := by
      rw [List.filter_eq_nil_iff]
      intro d hd
      rcases List.mem_map.1 hd with ⟨e, -, rfl⟩
      have hcode : DiagnosticCode.unreadable ≠ DiagnosticCode.emptyPattern := by decide
      rw [decide_eq_true_eq]
      exact hcode
    rw [List.filter_append, hnone, List.nil_append, emptyRequest?]
    split <;> rfl
  · rw [foldl_addFile]

end

/-- The patterns of an entry are gone through with one extractor. -/
theorem Keeps.addPatterns {s : Scope} {extract : Option String} {position : Nat}
    {patterns : List String} (hpatterns : ∀ pattern ∈ patterns,
      (Glob.parse? (normalize s.tree s.root pattern)).isSome = true)
    {requests : List ContentRequest} {sel : Selection} (h : Keeps s requests sel)
    (hposition : sel.extractors[position]? = some (extractorFor extract)) :
    ∃ sel', patterns.foldlM (Content.addPattern s position) sel = .ok sel' ∧
      Keeps s (requests ++ patterns.map (.files · extract)) sel' := by
  induction patterns generalizing requests sel with
  | nil =>
      refine ⟨sel, rfl, ?_⟩
      rw [List.map_nil, List.append_nil]
      exact h
  | cons pattern patterns ih =>
      rcases List.forall_mem_cons.1 hpatterns with ⟨hpattern, hrest⟩
      rcases h.addPattern hposition hpattern with ⟨next, hnext, hkeeps, hextractors⟩
      rcases ih hrest hkeeps (hextractors ▸ hposition) with ⟨sel', hsel', hkeeps'⟩
      rw [List.append_assoc] at hkeeps'
      rw [List.foldlM_cons, hnext]
      exact ⟨sel', hsel', hkeeps'⟩

/-- An entry adds what it asks for. -/
theorem Keeps.addEntry {s : Scope} {requests : List ContentRequest} {sel : Selection}
    (h : Keeps s requests sel) {entry : ContentEntry}
    (hpatterns : ∀ pattern ∈ entry.patterns,
      (Glob.parse? (normalize s.tree s.root pattern)).isSome = true)
    (hextract : ∀ patterns extract, .files patterns (some extract) = entry →
      (Extractor.ofPattern? extract).isSome = true) :
    ∃ sel', addEntry s sel entry = .ok sel' ∧ Keeps s (requests ++ entry.requests) sel' := by
  cases entry with
  | glob pattern =>
      have hfirst : sel.extractors[0]? = some (extractorFor none) := h.first
      rcases h.addPattern hfirst (hpatterns pattern List.mem_cons_self) with
        ⟨sel', hsel', hkeeps, -⟩
      exact ⟨sel', hsel', hkeeps⟩
  | files patterns extract =>
      rcases exists_extractorOf_iff.2 fun pattern hpattern =>
        hextract patterns pattern (hpattern ▸ rfl) with ⟨extractor, hextractor⟩
      rcases exists_addExtractor hextractor sel with ⟨more, position, hadd, hposition⟩
      have hposition' := (hposition h.first).trans (congrArg some (extractorFor_eq hextractor).symm)
      rw [Content.addEntry, hadd]
      exact (h.addExtractors more).addPatterns hpatterns hposition'
  | raw text extension => exact ⟨_, rfl, h.addRaw text⟩

/-! ### Configurations -/

section

variable {t : FileTree} {root : String} {config : Config} {exclude : List Glob}
  (h : IsWellFormed t root config exclude)
include h

/-- All that a configuration asks for can be read. -/
theorem IsWellFormed.isReadable : ∀ request ∈ config.requests,
    IsReadable ⟨t, root, exclude⟩ request := by
  intro request hrequest
  rcases List.mem_flatMap.1 hrequest with ⟨entry, hentry, hrequest⟩
  have hpattern : ∀ pattern ∈ entry.patterns,
      ∃ g, Glob.parse? (normalize t root pattern) = some g :=
    fun pattern hpattern => Option.isSome_iff_exists.1
      (h.patterns pattern (List.mem_flatMap.2 ⟨entry, hentry, hpattern⟩))
  cases entry with
  | glob pattern =>
      cases List.mem_singleton.1 hrequest
      exact ⟨hpattern pattern List.mem_cons_self, _, rfl⟩
  | files patterns extract =>
      rcases List.mem_map.1 hrequest with ⟨pattern, hmem, rfl⟩
      refine ⟨hpattern pattern hmem, ?_⟩
      cases extract with
      | none => exact ⟨_, rfl⟩
      | some extract =>
          rcases Option.isSome_iff_exists.1 (h.extracts patterns extract hentry) with ⟨e, he⟩
          exact ⟨e, by rw [extractorOf, he]⟩
  | raw text extension =>
      cases List.mem_singleton.1 hrequest
      exact trivial

/-- The content of a configuration is what its requests add. -/
theorem exists_keeps : ∃ sel, resolve t root config = .ok sel ∧
    Keeps ⟨t, root, exclude⟩ config.requests sel := by
  have hentries : ∀ entries : List ContentEntry, (∀ entry ∈ entries, entry ∈ config.content) →
      ∀ requests sel, Keeps ⟨t, root, exclude⟩ requests sel →
        ∃ sel', entries.foldlM (addEntry ⟨t, root, exclude⟩) sel = .ok sel' ∧
          Keeps ⟨t, root, exclude⟩ (requests ++ entries.flatMap ContentEntry.requests) sel' := by
    intro entries hentries
    induction entries with
    | nil =>
        intro requests sel hkeeps
        refine ⟨sel, rfl, ?_⟩
        rw [List.flatMap_nil, List.append_nil]
        exact hkeeps
    | cons entry entries ih =>
        rcases List.forall_mem_cons.1 hentries with ⟨hentry, hrest⟩
        intro requests sel hkeeps
        rcases hkeeps.addEntry
            (fun pattern hpattern =>
              h.patterns pattern (List.mem_flatMap.2 ⟨entry, hentry, hpattern⟩))
            (fun patterns extract heq => h.extracts patterns extract (heq ▸ hentry)) with
          ⟨next, hnext, hkeeps'⟩
        rcases ih hrest _ next hkeeps' with ⟨sel', hsel', hkeeps''⟩
        rw [List.append_assoc] at hkeeps''
        rw [List.foldlM_cons, hnext, List.flatMap_cons]
        exact ⟨sel', hsel', hkeeps''⟩
  unfold resolve
  rw [h.exclude]
  exact hentries config.content (fun _ => id) [] .empty (.nil _)

/-- What is known of what has been gathered is known of the content. -/
theorem exists_gathers (ht : t.IsProper) : ∃ sel, resolve t root config = .ok sel ∧
    Keeps ⟨t, root, exclude⟩ config.requests sel ∧
    Gathers ⟨t, root, exclude⟩ config.requests (gathered ⟨t, root, exclude⟩ config.requests) := by
  rcases exists_keeps h with ⟨sel, hsel, hkeeps⟩
  exact ⟨sel, hsel, hkeeps, gathers_gathered (s := ⟨t, root, exclude⟩) ht h.isReadable⟩

end

/-- What is known at the end of the requests. -/
theorem Keeps.selects {s : Scope} (ht : s.tree.IsProper) {requests : List ContentRequest}
    {sel : Selection} (h : Keeps s requests sel)
    (hgathers : Gathers s requests (gathered s requests)) : Selects s requests sel := by
  have hpaths := h.paths_eq
  have hcanonical : ∀ path ∈ sel.paths, s.tree.canonical? path = some (s.identity path) := by
    intro path hpath
    rcases hgathers.found path (hpaths ▸ hpath) with ⟨pattern, extract, -, hfound⟩
    exact canonical?_of_mem_found ht hfound
  -- Files are told apart by their identities, which are the canonical paths of what is
  -- found.
  have hmap : sel.paths.map s.tree.canonical? = (sel.paths.map s.identity).map some := by
    rw [List.map_map]
    exact List.map_congr_left hcanonical
  have hdistinct : (sel.paths.map s.tree.canonical?).Nodup := by
    rw [hmap, hpaths]
    exact hgathers.distinct.map (Option.some_injective String)
  have hnumbered : sel.items.filterMap ContentItem.raw?
      = (requests.filterMap ContentRequest.text?).zipIdx 1 := h.items ▸ hgathers.numbered
  have hloaded : ∀ items : List ContentItem,
      (items.filter fun item => item.raw?.isSome).map (ContentItem.read s.tree)
        = (items.filterMap ContentItem.raw?).map (.ok ·.1) := by
    intro items
    induction items with
    | nil => rfl
    | cons item items ih =>
        rcases item with ⟨path | ⟨number, text⟩, extractor⟩
        · exact ih
        · exact congrArg (Except.ok text :: ·) ih
  constructor
  case ordered =>
    rw [h.items]
    exact hgathers.ordered
  case canonical =>
    exact fun path hpath => Option.isSome_iff_exists.2 ⟨_, hcanonical path hpath⟩
  case distinct =>
    exact hdistinct
  case once =>
    intro pattern extract hrequest path hpath
    refine List.count_eq_one_of_mem hdistinct ?_
    rw [hmap, canonical?_of_mem_found ht hpath, hpaths]
    exact List.mem_map_of_mem (hgathers.complete pattern extract hrequest path hpath)
  case numbered =>
    exact hnumbered
  case loaded =>
    rw [hloaded, hnumbered]
    exact List.map_map.symm.trans (congrArg (List.map Except.ok) (List.zipIdx_map_fst 1 _))
  case inRange =>
    exact h.inRange
  case lookedUp =>
    exact h.inRange.map_load?
  case texts =>
    exact h.texts
  case positions =>
    exact h.positions
  case remarks =>
    exact h.remarks

/-- What the content of a project is made of: what its requests add one by one. A pattern that is
    asked for once more adds nothing. -/
theorem exists_selects {t : FileTree} {root : String} {config : Config} {exclude : List Glob}
    (ht : t.IsProper) (h : IsWellFormed t root config exclude) :
    ∃ sel, resolve t root config = .ok sel ∧ Selects ⟨t, root, exclude⟩ config.requests sel ∧
      ∀ config', IsWellFormed t root config' exclude → Relists config config' →
        ∃ sel', resolve t root config' = .ok sel' ∧ sel'.IsInRange ∧ sel'.items = sel.items ∧
          sel'.size = sel.size := by
  rcases exists_gathers h ht with ⟨sel, hsel, hkeeps, hgathers⟩
  refine ⟨sel, hsel, hkeeps.selects ht hgathers, ?_⟩
  intro config' h' hrelists
  rcases exists_keeps h' with ⟨sel', hsel', hkeeps'⟩
  rcases hrelists with ⟨before, pattern, extract, mid, extract', after, heq, heq'⟩
  have hreadable := h'.isReadable
  rw [heq'] at hreadable
  -- The requests differ in the one that comes again, so the same is gathered.
  have hitems : sel'.items = sel.items := by
    rw [hkeeps'.items, hkeeps.items, heq', heq]
    exact congrArg Gathering.items (gathered_again (s := ⟨t, root, exclude⟩) ht hreadable)
  refine ⟨sel', hsel', hkeeps'.inRange, hitems, ?_⟩
  rw [Selection.size, Selection.size, ← hkeeps'.inRange.length_items, hitems,
    hkeeps.inRange.length_items]

theorem hasKnownExtension_of_html {path : String} (h : Path.extension? path = some "html") :
    hasKnownExtension path = true := by
  have hlower : "html".toLower = "html" := by decide +kernel
  rw [hasKnownExtension, h]
  dsimp only
  rw [hlower]
  decide

end Content

namespace Aliased

/-- A project with a file and a link to it. -/
def tree : FileTree :=
  ⟨.directory [("a.html", .file (some [])), ("b.html", .link "a.html")], []⟩

/-- A configuration of the files of the project, and a text. -/
def config : Config := { Config.default with content := [.glob "*.html", .raw "flex" none] }

/-- The same, and the files once more with an extractor. -/
def relisted : Config :=
  { Config.default with
    content := [.glob "*.html", .raw "flex" none, .files ["*.html"] (some "[a-z]+")] }

theorem isProper_tree : tree.IsProper := by
  refine ⟨.directory ?_ (by decide) ?_, _, rfl⟩
  · exact List.forall_mem_cons.2 ⟨⟨⟨by decide, by decide⟩, by decide⟩,
      List.forall_mem_singleton.2 ⟨⟨by decide, by decide⟩, by decide⟩⟩
  · exact List.forall_mem_cons.2 ⟨.file (some []), List.forall_mem_singleton.2 (.link "a.html")⟩

theorem normalize_star : Content.normalize tree "." "*.html" = "*.html" := by decide

theorem isWellFormed_config : Content.IsWellFormed tree "." config [] where
  exclude := rfl
  patterns := by
    refine List.forall_mem_singleton.2 ?_
    rw [normalize_star]
    decide
  extracts := by
    intro patterns extract hentry
    rcases List.mem_cons.1 hentry with heq | hentry
    · cases heq
    · cases List.mem_singleton.1 hentry

theorem isWellFormed_relisted : Content.IsWellFormed tree "." relisted [] where
  exclude := rfl
  patterns := by
    have hstar : (Glob.parse? (Content.normalize tree "." "*.html")).isSome = true := by
      rw [normalize_star]
      decide
    exact List.forall_mem_cons.2 ⟨hstar, List.forall_mem_singleton.2 hstar⟩
  extracts := by
    intro patterns extract hentry
    rcases List.mem_cons.1 hentry with heq | hentry
    · cases heq
    · rcases List.mem_cons.1 hentry with heq | hentry
      · cases heq
      · cases List.mem_singleton.1 hentry
        decide +kernel

theorem relists_config : Content.Relists config relisted :=
  ⟨[], "*.html", none, [.raw "flex"], some "[a-z]+", [], rfl, rfl⟩

theorem reach_root : tree.reach "./" = .ok ([], tree.top) := by
  refine FileTree.reach_eq_ok_iff.2 (FileTree.find_eq_ok_iff.2 ⟨by decide, ?_⟩)
  have hpieces : Path.pieces "./" = [".", ""] := by decide
  rw [hpieces]
  exact .idle rfl (.idle rfl (.stop rfl))

theorem reach_b : tree.reach "./b.html" = .ok (["a.html"], .file (some [])) := by
  refine FileTree.reach_eq_ok_iff.2 (FileTree.find_eq_ok_iff.2 ⟨by decide, ?_⟩)
  have hpieces : Path.pieces "./b.html" = [".", "b.html"] := by decide
  have htarget : Path.pieces "a.html" ++ [] = ["a.html"] := by decide
  rw [hpieces]
  refine .idle rfl (.jump ⟨by decide, by decide⟩ rfl (.inr rfl) ?_)
  rw [htarget]
  exact .file ⟨by decide, by decide⟩ rfl

theorem mem_walk_b : .ok "./b.html" ∈ tree.walk "./" (some 1) := by
  have hlevels : ∃ levels, tree.maxLevels = levels + 1 := ⟨_, rfl⟩
  rcases hlevels with ⟨levels, hlevels⟩
  rw [FileTree.walk, reach_root, hlevels]
  dsimp only [tree]
  rw [FileTree.visit, FileTree.descend]
  · refine List.mem_flatMap.2 ⟨("b.html", .link "a.html"), ?_, ?_⟩
    · exact List.mem_mergeSort.2 (List.mem_cons_of_mem _ List.mem_cons_self)
    · have hjoin : Path.join "./" "b.html" = "./b.html" := by decide
      have hfollow : ∀ inside,
          tree.followInWalk inside "./b.html" = .ok (["a.html"], .file (some [])) := by
        intro inside
        rw [FileTree.followInWalk, reach_b]
        rfl
      show _ ∈ FileTree.visit tree _ _ _ (Path.join "./" "b.html") _ _
      rw [hjoin, FileTree.visit, hfollow]
      exact List.mem_cons_self
  · exact fun h => absurd h (by decide)

/-- The link is one of the files that the pattern stands for. -/
theorem mem_found_b : "./b.html" ∈ Content.Scope.found ⟨tree, ".", []⟩ "*.html" := by
  have haccepts : (Glob.parse? "*.html").map (·.accepts true "b.html") = some true := by
    decide +kernel
  rcases Option.map_eq_some_iff.1 haccepts with ⟨g, hg, haccepts⟩
  have hstart : Path.join "." (Reach.base "*.html") = "./" := by decide
  have hlevels : Reach.levels "*.html" = some 1 := by decide
  have hrelative : Path.relative? "." "./b.html" = some "b.html" := by decide
  have hknown : Content.hasKnownExtension "./b.html" = true :=
    Content.hasKnownExtension_of_html (by decide)
  rw [Content.Scope.found_eq (g := g) (by rw [normalize_star, hg]), Content.mem_files,
    Content.Scope.walk, Content.Scope.admits, Content.Scope.relative?]
  rw [normalize_star, hstart, hlevels, hrelative]
  dsimp only
  rw [haccepts, hknown]
  exact ⟨mem_walk_b, rfl⟩

/-- The file and the link to it are one file of the content, and the files once more are none. -/
theorem exists_selects_config : ∃ sel sel', Content.resolve tree "." config = .ok sel ∧
    Content.resolve tree "." relisted = .ok sel' ∧ sel'.items = sel.items ∧
    (sel.paths.map tree.canonical?).count (tree.canonical? "./b.html") = 1 ∧
    sel.items.filterMap ContentItem.raw? = [("flex", 1)] ∧ sel.texts = ["flex"] ∧
    sel.pieces.map sel.load? = sel.items.map some ∧
    sel'.pieces.map sel'.load? = sel'.items.map some := by
  rcases Content.exists_selects isProper_tree isWellFormed_config with
    ⟨sel, hsel, hselects, hagain⟩
  rcases hagain relisted isWellFormed_relisted relists_config with
    ⟨sel', hsel', hinRange, hitems, -⟩
  refine ⟨sel, sel', hsel, hsel', hitems, ?_, hselects.numbered, hselects.texts,
    hselects.lookedUp, hinRange.map_load?⟩
  exact hselects.once "*.html" none List.mem_cons_self _ mem_found_b

end Aliased

end UtilityCss
