import Mathlib.Data.List.Induction
import Mathlib.Data.List.Nodup
import UtilityCss.Proofs.Content.Kept
import UtilityCss.Proofs.Content.Resolved
import UtilityCss.Proofs.FileTree.Proper

/-!
# What Requests for Content Add

Which content is asked for, and in which order it comes in.

A configuration asks for one thing after another: the files of a pattern, or a text. Each
request adds its part to the content, behind the parts of the requests before it. A text is a
part by itself. The part of a pattern are the files that it stands for and no earlier request
has brought in, so a file has the extractor of the first pattern that stands for it, and a
pattern that has been asked for before adds nothing.

Links make two paths of one file, so files are compared by their canonical paths. Each path
that a walk gives has one, because it leads to a file.

Content is gathered here as what it is, without the positions at which a selection keeps it, and
without remarks. That a selection keeps what is gathered is another matter.

## Main definitions

* `ContentRequest`, `Config.requests`: What a configuration asks for, one by one.
* `Content.fresh`: The files that have not been brought in.
* `Content.gathered`: The content that requests add, one after the other.
* `Content.IsPart`: What a request adds.
* `Content.Gathers`: What is known of gathered content.

## Theorems

* `Content.Gathers.addRaw`, `Content.Gathers.addFiles`: What is known after one more request.
* `Content.gathers_gathered`: What is known after all of them.
* `Content.gathered_again`: A pattern that is asked for once more adds nothing.
-/

namespace UtilityCss

/-- One thing that a configuration asks for. -/
inductive ContentRequest where
  /-- The files of a pattern, with a pattern of where to look for tokens. -/
  | files (pattern : String) (extract : Option String)
  /-- A text. -/
  | raw (text : String)
deriving DecidableEq, Repr, Inhabited

/-- The text that is asked for. -/
def ContentRequest.text? : ContentRequest → Option String
  | files _ _ => none
  | raw text => some text

/-- What an entry asks for. -/
def ContentEntry.requests : ContentEntry → List ContentRequest
  | .glob pattern => [.files pattern none]
  | .files patterns extract => patterns.map (.files · extract)
  | .raw text _ => [.raw text]

/-- What a configuration asks for, in order. -/
def Config.requests (config : Config) : List ContentRequest :=
  config.content.flatMap ContentEntry.requests

/-- The text of a piece of content that is one, with its number. -/
def ContentItem.raw? (item : ContentItem) : Option (String × Nat) :=
  match item.source with
  | .file _ => none
  | .raw number text => some (text, number)

namespace Content

/-- The files that a pattern stands for. -/
def Scope.found (s : Scope) (pattern : String) : List String :=
  match Glob.parse? (normalize s.tree s.root pattern) with
  | some g => s.files (normalize s.tree s.root pattern) g
  | none => []

/-- The remark on a request that stands for no files. -/
def emptyRequest? (s : Scope) : ContentRequest → Option Diagnostic
  | .files pattern _ =>
    if (s.found pattern).isEmpty then some (emptyPattern (normalize s.tree s.root pattern))
    else none
  | .raw _ => none

/-- No pattern of some requests stands for the file. -/
def IsNew (s : Scope) (before : List ContentRequest) (path : String) : Prop :=
  ∀ earlier extract, .files earlier extract ∈ before → ∀ path' ∈ s.found earlier,
    s.tree.canonical? path' ≠ s.tree.canonical? path

/-- What a request adds, given the requests before it. -/
def IsPart (s : Scope) (before : List ContentRequest) :
    ContentRequest → List ContentItem → Prop
  | .raw text, part =>
    part = [⟨.raw ((before.filterMap ContentRequest.text?).length + 1) text, .everywhere⟩]
  | .files pattern extract, part =>
    (∀ item ∈ part, ∃ path ∈ s.found pattern, IsNew s before path ∧ item.source = .file path ∧
      extractorOf extract = .ok item.extractor) ∧
    ∀ path ∈ s.found pattern, IsNew s before path → ∃ item ∈ part, ∃ path',
      item.source = .file path' ∧ s.tree.canonical? path' = s.tree.canonical? path

/-- Pieces of content are put together from what requests add. -/
def IsPutTogether (s : Scope) (requests : List ContentRequest) (items : List ContentItem) : Prop :=
  ∃ parts : List (List ContentItem), items = parts.flatten ∧ parts.length = requests.length ∧
    ∀ i request part, requests[i]? = some request → parts[i]? = some part →
      IsPart s (requests.take i) request part

/-- Content that has been gathered. -/
structure Gathering where
  /-- The pieces. -/
  items : List ContentItem
  /-- The canonical paths of the files among them. -/
  seen : List String
  /-- How many texts there are. -/
  count : Nat

/-- The paths of the files that have been gathered. -/
def Gathering.paths (known : Gathering) : List String :=
  known.items.filterMap ContentItem.path?

/-- The extractor that is asked for. -/
def extractorFor (extract : Option String) : Extractor :=
  ((extractorOf extract).toOption).getD .everywhere

theorem extractorFor_eq {extract : Option String} {extractor : Extractor}
    (h : extractorOf extract = .ok extractor) : extractorFor extract = extractor := by
  rw [extractorFor, h]
  rfl

/-! ### Fresh files -/

/-- The paths of files that have not been seen, one for each file. -/
def fresh (s : Scope) : List String → List String → List String
  | _, [] => []
  | seen, path :: paths =>
    if seen.contains (s.identity path) then fresh s seen paths
    else path :: fresh s (s.identity path :: seen) paths

section

variable (s : Scope) (seen paths : List String)

theorem fresh_subset : fresh s seen paths ⊆ paths := by
  fun_induction fresh s seen paths with
  | case1 => exact List.nil_subset _
  | case2 seen path paths hseen ih => exact List.subset_cons_of_subset path ih
  | case3 seen path paths hseen ih => exact List.cons_subset_cons path ih

theorem not_mem_of_mem_fresh {path : String} (h : path ∈ fresh s seen paths) :
    s.identity path ∉ seen := by
  fun_induction fresh s seen paths with
  | case1 => exact absurd h List.not_mem_nil
  | case2 seen first paths hseen ih => exact ih h
  | case3 seen first paths hseen ih =>
      rcases List.mem_cons.1 h with rfl | h
      · exact fun hmem => hseen (List.contains_iff_mem.2 hmem)
      · exact fun hmem => ih h (List.mem_cons_of_mem _ hmem)

theorem nodup_fresh : ((fresh s seen paths).map s.identity).Nodup := by
  fun_induction fresh s seen paths with
  | case1 => exact List.nodup_nil
  | case2 seen path paths hseen ih => exact ih
  | case3 seen path paths hseen ih =>
      rw [List.map_cons, List.nodup_cons]
      refine ⟨fun hmem => ?_, ih⟩
      rcases List.mem_map.1 hmem with ⟨path', hpath', heq⟩
      exact not_mem_of_mem_fresh s _ _ hpath' (heq ▸ List.mem_cons_self)

theorem mem_of_mem_fresh {path : String} (h : path ∈ paths) :
    s.identity path ∈ (fresh s seen paths).map s.identity ++ seen := by
  fun_induction fresh s seen paths with
  | case1 => exact absurd h List.not_mem_nil
  | case2 seen first paths hseen ih =>
      rcases List.mem_cons.1 h with rfl | h
      · exact List.mem_append_right _ (List.contains_iff_mem.1 hseen)
      · exact ih h
  | case3 seen first paths hseen ih =>
      rw [List.map_cons, List.cons_append]
      rcases List.mem_cons.1 h with rfl | h
      · exact List.mem_cons_self
      -- A later path is fresh, or it leads to the first one, or it had been seen before.
      · rcases List.mem_append.1 (ih h) with hmem | hmem
        · exact List.mem_cons_of_mem _ (List.mem_append_left _ hmem)
        · rcases List.mem_cons.1 hmem with heq | hmem
          · exact heq ▸ List.mem_cons_self
          · exact List.mem_cons_of_mem _ (List.mem_append_right _ hmem)

variable {s seen paths}

theorem fresh_eq_nil (h : ∀ path ∈ paths, s.identity path ∈ seen) : fresh s seen paths = [] := by
  refine List.eq_nil_iff_forall_not_mem.2 fun path hpath => ?_
  exact not_mem_of_mem_fresh s seen paths hpath (h path (fresh_subset s seen paths hpath))

end

/-! ### Requests -/

/-- What has been gathered after one more request. -/
def Gathering.add (s : Scope) (known : Gathering) : ContentRequest → Gathering
  | .files pattern extract =>
    { known with
      items := known.items ++ (fresh s known.seen (s.found pattern)).map
        fun path => ⟨.file path, extractorFor extract⟩
      seen := ((fresh s known.seen (s.found pattern)).map s.identity).reverse ++ known.seen }
  | .raw text =>
    { known with
      items := known.items ++ [⟨.raw (known.count + 1) text, .everywhere⟩]
      count := known.count + 1 }

/-- What requests add, one after the other. -/
def gathered (s : Scope) (requests : List ContentRequest) : Gathering :=
  requests.foldl (Gathering.add s) ⟨[], [], 0⟩

theorem gathered_append (s : Scope) (requests more : List ContentRequest) :
    gathered s (requests ++ more) = more.foldl (Gathering.add s) (gathered s requests) :=
  List.foldl_append

theorem Scope.found_eq {s : Scope} {pattern : String} {g : Glob}
    (hg : Glob.parse? (normalize s.tree s.root pattern) = some g) :
    s.found pattern = s.files (normalize s.tree s.root pattern) g := by
  unfold Scope.found
  rw [hg]

/-- The patterns of a request can be read. -/
def IsReadable (s : Scope) : ContentRequest → Prop
  | .files pattern extract => (∃ g, Glob.parse? (normalize s.tree s.root pattern) = some g) ∧
      ∃ extractor, extractorOf extract = .ok extractor
  | .raw _ => True

section

variable {s : Scope} {requests : List ContentRequest}

theorem IsPutTogether.append {items part : List ContentItem} {request : ContentRequest}
    (h : IsPutTogether s requests items) (hpart : IsPart s requests request part) :
    IsPutTogether s (requests ++ [request]) (items ++ part) := by
  rcases h with ⟨parts, rfl, hlength, hparts⟩
  refine ⟨parts ++ [part], ?_, ?_, ?_⟩
  · rw [List.flatten_append, List.flatten_singleton]
  · rw [List.length_append, List.length_append, hlength, List.length_singleton,
      List.length_singleton]
  · intro i request' part' hrequest' hpart'
    -- An earlier request has the same parts before it as ever, and the last one has all of
    -- them.
    by_cases hi : i < requests.length
    · rw [List.getElem?_append_left hi] at hrequest'
      rw [List.getElem?_append_left (hlength ▸ hi)] at hpart'
      rw [List.take_append_of_le_length (Nat.le_of_lt hi)]
      exact hparts i request' part' hrequest' hpart'
    · have hlast : i = requests.length := by
        have hbound := (List.getElem?_eq_some_iff.1 hrequest').1
        rw [List.length_append, List.length_singleton] at hbound
        omega
      rw [hlast, List.getElem?_concat_length, Option.some.injEq] at hrequest'
      rw [hlast, ← hlength, List.getElem?_concat_length, Option.some.injEq] at hpart'
      rw [hlast, List.take_left, ← hrequest', ← hpart']
      exact hpart

/-- What is known of the content that requests add. -/
structure Gathers (s : Scope) (requests : List ContentRequest) (known : Gathering) : Prop where
  /-- It is put together from them. -/
  ordered : IsPutTogether s requests known.items
  /-- The files are those of patterns. -/
  found : ∀ path ∈ known.paths, ∃ pattern extract, .files pattern extract ∈ requests ∧
    path ∈ s.found pattern
  /-- All files of the patterns are there. -/
  complete : ∀ pattern extract, .files pattern extract ∈ requests → ∀ path ∈ s.found pattern,
    s.identity path ∈ known.paths.map s.identity
  /-- The files that are there are known. -/
  seen : known.seen = (known.paths.map s.identity).reverse
  /-- No file is there twice. -/
  distinct : (known.paths.map s.identity).Nodup
  /-- The texts are counted. -/
  count : known.count = (requests.filterMap ContentRequest.text?).length
  /-- The texts are numbered in order. -/
  numbered : known.items.filterMap ContentItem.raw?
    = (requests.filterMap ContentRequest.text?).zipIdx 1

theorem Gathers.nil : Gathers s [] ⟨[], [], 0⟩ where
  ordered := ⟨[], rfl, rfl, fun _ _ _ hrequest _ => absurd hrequest.symm (Option.some_ne_none _)⟩
  found := fun _ hpath => absurd hpath List.not_mem_nil
  complete := fun _ _ hrequest => absurd hrequest List.not_mem_nil
  seen := rfl
  distinct := List.nodup_nil
  count := rfl
  numbered := rfl

/-- A text adds itself. -/
theorem Gathers.addRaw {known : Gathering} (h : Gathers s requests known) (text : String) :
    Gathers s (requests ++ [.raw text]) (known.add s (.raw text)) := by
  -- No file comes in, so what is known of files stays as it is.
  have hpaths : (known.add s (.raw text)).paths = known.paths := by
    rw [Gathering.paths, Gathering.add, List.filterMap_append]
    exact List.append_nil _
  have htexts : (requests ++ [ContentRequest.raw text]).filterMap ContentRequest.text?
      = requests.filterMap ContentRequest.text? ++ [text] := List.filterMap_append
  have hrequests : ∀ {pattern extract},
      .files pattern extract ∈ requests ++ [ContentRequest.raw text] →
        .files pattern extract ∈ requests := by
    intro pattern extract hrequest
    rcases List.mem_append.1 hrequest with hrequest | hrequest
    · exact hrequest
    · cases List.mem_singleton.1 hrequest
  constructor
  case ordered =>
    refine h.ordered.append ?_
    rw [IsPart, h.count]
  case found =>
    rw [hpaths]
    intro path hpath
    rcases h.found path hpath with ⟨pattern, extract, hrequest, hfound⟩
    exact ⟨pattern, extract, List.mem_append_left _ hrequest, hfound⟩
  case complete =>
    rw [hpaths]
    exact fun pattern extract hrequest => h.complete pattern extract (hrequests hrequest)
  case seen =>
    rw [hpaths]
    exact h.seen
  case distinct =>
    rw [hpaths]
    exact h.distinct
  case count =>
    rw [htexts, List.length_append, ← h.count]
    rfl
  case numbered =>
    rw [Gathering.add, htexts, List.filterMap_append, h.numbered, List.zipIdx_append, h.count,
      Nat.add_comm 1]
    rfl

end

section

variable {s : Scope} (ht : s.tree.IsProper)
include ht

/-- Each path that a pattern stands for leads to a file, so it has a canonical one. -/
theorem canonical?_of_mem_found {pattern path : String} (h : path ∈ s.found pattern) :
    s.tree.canonical? path = some (s.identity path) := by
  unfold Scope.found at h
  split at h
  · next g hg =>
      rcases FileTree.of_mem_walk ht (mem_files.1 h).1 with ⟨names, -, hbelow⟩
      rcases hbelow with ⟨-, -, place, bytes, hreach⟩
      rw [Scope.identity, FileTree.canonical?, hreach]
      rfl
  · exact absurd h List.not_mem_nil

theorem canonical?_eq_iff {pattern pattern' path path' : String} (h : path ∈ s.found pattern)
    (h' : path' ∈ s.found pattern') :
    s.tree.canonical? path = s.tree.canonical? path' ↔ s.identity path = s.identity path' := by
  rw [canonical?_of_mem_found ht h, canonical?_of_mem_found ht h', Option.some.injEq]

variable {requests : List ContentRequest} {known : Gathering} (h : Gathers s requests known)
include h

/-- A file has been seen if an earlier pattern stands for it. -/
theorem Gathers.mem_seen_iff {pattern path : String} (hpath : path ∈ s.found pattern) :
    s.identity path ∈ known.seen ↔ ¬ IsNew s requests path := by
  rw [h.seen, List.mem_reverse]
  constructor
  · intro hmem hnew
    rcases List.mem_map.1 hmem with ⟨path', hpath', heq⟩
    rcases h.found path' hpath' with ⟨earlier, extract, hrequest, hfound⟩
    exact hnew earlier extract hrequest path' hfound ((canonical?_eq_iff ht hfound hpath).2 heq)
  · intro hold
    by_contra hmem
    refine hold fun earlier extract hrequest path' hpath' heq => hmem ?_
    rw [← (canonical?_eq_iff ht hpath' hpath).1 heq]
    exact h.complete earlier extract hrequest path' hpath'

variable {pattern : String} {extract : Option String}

/-- The fresh files of a pattern are those that it is the first one to stand for. -/
theorem Gathers.isPart_fresh {extractor : Extractor}
    (hextractor : extractorOf extract = .ok extractor) :
    IsPart s requests (.files pattern extract)
      ((fresh s known.seen (s.found pattern)).map fun path => ⟨.file path, extractor⟩) := by
  constructor
  · intro item hitem
    rcases List.mem_map.1 hitem with ⟨path, hpath, rfl⟩
    have hfound := fresh_subset s known.seen _ hpath
    refine ⟨path, hfound, ?_, rfl, hextractor⟩
    by_contra hold
    exact not_mem_of_mem_fresh s known.seen _ hpath ((h.mem_seen_iff ht hfound).2 hold)
  -- A file that is new has not been seen, so its path or another one of it is fresh.
  · intro path hpath hnew
    rcases List.mem_append.1 (mem_of_mem_fresh s known.seen _ hpath) with hfresh | hseen
    · rcases List.mem_map.1 hfresh with ⟨path', hpath', heq⟩
      refine ⟨_, List.mem_map_of_mem hpath', path', rfl, ?_⟩
      exact (canonical?_eq_iff ht (fresh_subset s known.seen _ hpath') hpath).2 heq
    · exact absurd hnew ((h.mem_seen_iff ht hpath).1 hseen)

/-- A pattern adds the files that it is the first one to stand for. -/
theorem Gathers.addFiles (hreadable : IsReadable s (.files pattern extract)) :
    Gathers s (requests ++ [.files pattern extract]) (known.add s (.files pattern extract)) := by
  rcases hreadable.2 with ⟨extractor, hextractor⟩
  have hwanted : extractorFor extract = extractor := extractorFor_eq hextractor
  -- The fresh files come behind those that are there, and no text comes in.
  have hpaths : (known.add s (.files pattern extract)).paths
      = known.paths ++ fresh s known.seen (s.found pattern) := by
    rw [Gathering.paths, Gathering.add, List.filterMap_append, List.filterMap_map]
    exact congrArg (known.paths ++ ·) (List.filterMap_some)
  have htexts : (requests ++ [ContentRequest.files pattern extract]).filterMap ContentRequest.text?
      = requests.filterMap ContentRequest.text? := by
    rw [List.filterMap_append]
    exact List.append_nil _
  constructor
  case ordered =>
    rw [Gathering.add, hwanted]
    exact h.ordered.append (h.isPart_fresh ht hextractor)
  case found =>
    rw [hpaths]
    intro path hpath
    rcases List.mem_append.1 hpath with hpath | hpath
    · rcases h.found path hpath with ⟨pattern', extract', hrequest, hfound⟩
      exact ⟨pattern', extract', List.mem_append_left _ hrequest, hfound⟩
    · exact ⟨pattern, extract, List.mem_append_right _ List.mem_cons_self,
        fresh_subset s known.seen _ hpath⟩
  case complete =>
    rw [hpaths, List.map_append]
    intro pattern' extract' hrequest path hpath
    rcases List.mem_append.1 hrequest with hrequest | hrequest
    · exact List.mem_append_left _ (h.complete pattern' extract' hrequest path hpath)
    · cases List.mem_singleton.1 hrequest
      rcases List.mem_append.1 (mem_of_mem_fresh s known.seen _ hpath) with hfresh | hseen
      · exact List.mem_append_right _ hfresh
      -- A file that is not fresh has been seen, so an earlier pattern stands for it.
      · rw [h.seen, List.mem_reverse] at hseen
        exact List.mem_append_left _ hseen
  case seen =>
    rw [hpaths, List.map_append, List.reverse_append, ← h.seen]
    rfl
  case distinct =>
    rw [hpaths, List.map_append, List.nodup_append]
    refine ⟨h.distinct, nodup_fresh s known.seen _, ?_⟩
    rintro identity hidentity _ hfresh rfl
    rcases List.mem_map.1 hfresh with ⟨path, hpath, rfl⟩
    refine not_mem_of_mem_fresh s known.seen _ hpath ?_
    rw [h.seen, List.mem_reverse]
    exact hidentity
  case count =>
    rw [htexts]
    exact h.count
  case numbered =>
    rw [Gathering.add, htexts, List.filterMap_append, h.numbered, List.filterMap_map]
    exact (congrArg _ (List.filterMap_none _)).trans (List.append_nil _)

omit ht in
/-- A pattern that has been asked for adds nothing. -/
theorem Gathers.add_again (hmem : .files pattern extract ∈ requests) (extract' : Option String) :
    known.add s (.files pattern extract') = known := by
  have hnone : fresh s known.seen (s.found pattern) = [] := by
    refine fresh_eq_nil fun path hpath => ?_
    rw [h.seen, List.mem_reverse]
    exact h.complete pattern extract hmem path hpath
  rw [Gathering.add, hnone, List.map_nil, List.map_nil, List.append_nil]
  rfl

end

section

variable {s : Scope} (ht : s.tree.IsProper)
include ht

/-- What is known of the content after all requests. -/
theorem gathers_gathered {requests : List ContentRequest}
    (hreadable : ∀ request ∈ requests, IsReadable s request) :
    Gathers s requests (gathered s requests) := by
  -- By induction from the end, since what is known is about the requests so far.
  induction requests using List.reverseRecOn with
  | nil => exact .nil
  | append_singleton requests request ih =>
      have hgathers := ih fun request' hrequest' =>
        hreadable request' (List.mem_append_left _ hrequest')
      have hlast := hreadable request (List.mem_append_right _ List.mem_cons_self)
      rw [gathered_append, List.foldl_cons, List.foldl_nil]
      cases request with
      | files pattern extract => exact hgathers.addFiles ht hlast
      | raw text => exact hgathers.addRaw text

/-- A pattern that is asked for once more adds nothing, wherever that is. -/
theorem gathered_again {before mid after : List ContentRequest} {pattern : String}
    {extract extract' : Option String} (hreadable : ∀ request ∈ before ++
      .files pattern extract :: (mid ++ .files pattern extract' :: after), IsReadable s request) :
    gathered s (before ++ .files pattern extract :: (mid ++ .files pattern extract' :: after))
      = gathered s (before ++ .files pattern extract :: (mid ++ after)) := by
  have hassoc : ∀ rest : List ContentRequest, before ++ .files pattern extract :: (mid ++ rest)
      = before ++ .files pattern extract :: mid ++ rest := fun rest => by
    rw [List.append_assoc, List.cons_append]
  rw [hassoc] at hreadable
  have hgathers := gathers_gathered ht fun request hrequest =>
    hreadable request (List.mem_append_left _ hrequest)
  have hmem : .files pattern extract ∈ before ++ .files pattern extract :: mid :=
    List.mem_append_right _ List.mem_cons_self
  have hmore := gathered_append s (before ++ .files pattern extract :: mid)
  rw [hassoc, hassoc, hmore, hmore, List.foldl_cons, hgathers.add_again hmem extract']

end

end Content

end UtilityCss
